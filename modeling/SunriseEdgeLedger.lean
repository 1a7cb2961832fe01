import SunriseEdgeLedger.Foundation.ExactDecoder
import SunriseEdgeLedger.Foundation.Endian
import SunriseEdgeLedger.Foundation.AscendingFields
import SunriseEdgeLedger.Foundation.FixedBuffer
import SunriseEdgeLedger.Foundation.Machine
import SunriseEdgeLedger.Foundation.Simulation
import SunriseEdgeLedger.Foundation.Numerals
import SunriseEdgeLedger.Foundation.StreamParser
import SunriseEdgeLedger.Foundation.PrimeCertificate
import SunriseEdgeLedger.Foundation.EdwardsCurve
import SunriseEdgeLedger.Core.Primitives
import SunriseEdgeLedger.Core.Types
import SunriseEdgeLedger.Core.Canonical
import SunriseEdgeLedger.Core.CanonicalEncoding
import SunriseEdgeLedger.Core.CanonicalStream
import SunriseEdgeLedger.Core.StreamVerdict
import SunriseEdgeLedger.Core.Path
import SunriseEdgeLedger.Core.PathEncoding
import SunriseEdgeLedger.Core.Frame
import SunriseEdgeLedger.Core.FrameEncoding
import SunriseEdgeLedger.Core.Transaction
import SunriseEdgeLedger.Core.NestedEncoding
import SunriseEdgeLedger.Core.ManifestEncoding
import SunriseEdgeLedger.Core.TransactionEncoding
import SunriseEdgeLedger.Core.ChainIdAdmission
import SunriseEdgeLedger.Core.Policy
import SunriseEdgeLedger.Core.Review
import SunriseEdgeLedger.Core.Rendering
import SunriseEdgeLedger.Core.Apdu
import SunriseEdgeLedger.Core.OneShot
import SunriseEdgeLedger.Core.ProfileBounds
import SunriseEdgeLedger.Core.TransferEncoding
import SunriseEdgeLedger.Core.WireLanguage
import SunriseEdgeLedger.Core.SessionPhase
import SunriseEdgeLedger.Core.SessionRefinement
import SunriseEdgeLedger.Core.SessionRun
import SunriseEdgeLedger.Core.SessionHistory
import SunriseEdgeLedger.Core.SessionSafety
import SunriseEdgeLedger.Core.ChunkedDelivery
import SunriseEdgeLedger.Core.SessionReachability
import SunriseEdgeLedger.Core.CollectionPhase
import SunriseEdgeLedger.Core.KeyDerivation
import SunriseEdgeLedger.Core.TargetAgreement
import SunriseEdgeLedger.Device.ReviewUi
import SunriseEdgeLedger.Device.ReviewText
import SunriseEdgeLedger.Device.ReviewBinding
import SunriseEdgeLedger.Device.ReviewRendering
import SunriseEdgeLedger.Device.ReviewReading
import SunriseEdgeLedger.Device.EventLoop
import SunriseEdgeLedger.Device.EventLoopSafety
import SunriseEdgeLedger.Device.ReviewLines
import SunriseEdgeLedger.Device.LoopSteps
import SunriseEdgeLedger.Device.LoopReplies
import SunriseEdgeLedger.Device.HostExchange
import SunriseEdgeLedger.Device.LoopHistory
import SunriseEdgeLedger.Device.LoopRefinement
import SunriseEdgeLedger.Device.LoopReachability
import SunriseEdgeLedger.Device.LoopMemory
import SunriseEdgeLedger.Device.LoopAccounting
import SunriseEdgeLedger.Device.KeyConfidentiality
import SunriseEdgeLedger.Device.Compression
import SunriseEdgeLedger.Device.Derivation
import SunriseEdgeLedger.Device.AddressIdentity
