import Mathlib

/-!
# Fixed-capacity buffers

Arrays of a fixed capacity that hold a content in their first cells and a filler in all the others.
Range reads, range writes and single-cell writes are partial: they fail, without changing anything,
when they leave the capacity.  A buffer in the normal form `padTo` stays in normal form when it is
appended to and when its content is overwritten by the filler, so a component that only does this
never has to say what the unused cells hold.
-/

namespace SunriseEdgeLedger.Foundation

variable {α : Type*} {capacity : ℕ}

/-- The cells from `start` up to `stop`, if both lie in the list and in this order. -/
def getRange (cells : List α) (start stop : ℕ) : Option (List α) :=
  if start ≤ stop ∧ stop ≤ cells.length then some ((cells.take stop).drop start) else none

/-- Overwrite the cells from `start` on by the whole chunk, if it fits. -/
def overwrite (buffer : List.Vector α capacity) (start : ℕ) (chunk : List α) :
    Option (List.Vector α capacity) :=
  if hfits : start + chunk.length ≤ capacity then
    some ⟨buffer.toList.take start ++ chunk ++ buffer.toList.drop (start + chunk.length), by
      simp only [List.length_append, List.length_take, List.length_drop, List.Vector.toList_length]
      omega⟩
  else none

/-- Overwrite one cell, if it exists. -/
def setAt (buffer : List.Vector α capacity) (index : ℕ) (value : α) :
    Option (List.Vector α capacity) :=
  overwrite buffer index [value]

/-- The loop that fills `rounds` cells from `start` on, each with what is read for its index. -/
def fillFrom (read : ℕ → Option α) :
    ℕ → ℕ → List.Vector α capacity → Option (List.Vector α capacity)
  | 0, _, buffer => some buffer
  | rounds + 1, start, buffer => do
    let value ← read start
    let buffer ← setAt buffer start value
    fillFrom read rounds (start + 1) buffer

/-- The buffer that starts with the content and is filled up with the filler. -/
def padTo (capacity : ℕ) (filler : α) (content : List α) : List.Vector α capacity :=
  ⟨(content ++ List.replicate (capacity - content.length) filler).take capacity, by
    simp only [List.length_take, List.length_append, List.length_replicate]
    omega⟩

theorem getRange_eq_some_iff {cells part : List α} {start stop : ℕ} :
    getRange cells start stop = some part ↔
      start ≤ stop ∧ stop ≤ cells.length ∧ (cells.take stop).drop start = part := by
  unfold getRange
  split_ifs with hbounds
  · simp [hbounds.1, hbounds.2]
  · simp only [false_iff]
    rintro ⟨hstart, hstop, -⟩
    exact hbounds ⟨hstart, hstop⟩

/-- A range read that starts right after a known part returns the cells that follow it. -/
theorem getRange_append_eq_some_iff {before after part : List α} {stop : ℕ} :
    getRange (before ++ after) before.length stop = some part ↔
      ∃ rest, after = part ++ rest ∧ stop = before.length + part.length := by
  rw [getRange_eq_some_iff]
  constructor
  · rintro ⟨hstart, hstop, rfl⟩
    rw [List.length_append] at hstop
    obtain ⟨count, rfl⟩ := Nat.exists_eq_add_of_le hstart
    refine ⟨after.drop count, ?_, ?_⟩
    · simp [List.take_append]
    · simp [List.take_append]
      omega
  · rintro ⟨rest, rfl, rfl⟩
    refine ⟨by omega, by simp, ?_⟩
    rw [← List.append_assoc, ← List.length_append, List.take_left, List.drop_left]

/-- Consecutive slices of constant length make up what they are cut from. -/
theorem flatten_slices (items : List α) (width count : ℕ) :
    ((List.range count).map fun index ↦ (items.drop (index * width)).take width).flatten =
      items.take (count * width) := by
  induction count with
  | zero => simp
  | succ count ih =>
    rw [List.range_succ, List.map_append, List.flatten_append, ih, List.map_singleton,
      List.flatten_singleton, Nat.succ_mul, List.take_add]

/-! ## Buffers in normal form -/

theorem toList_padTo (filler : α) (content : List α) (hfits : content.length ≤ capacity) :
    (padTo capacity filler content).toList =
      content ++ List.replicate (capacity - content.length) filler := by
  change (content ++ List.replicate (capacity - content.length) filler).take capacity = _
  apply List.take_of_length_le
  simp only [List.length_append, List.length_replicate]
  omega

@[simp]
theorem toList_padTo_nil (filler : α) :
    (padTo capacity filler []).toList = List.replicate capacity filler := by
  simpa using toList_padTo filler [] (Nat.zero_le capacity)

/-- The content of a buffer in normal form is read back by its own length. -/
theorem getRange_padTo (filler : α) (content : List α) (hfits : content.length ≤ capacity) :
    getRange (padTo capacity filler content).toList 0 content.length = some content := by
  rw [getRange_eq_some_iff, toList_padTo filler content hfits]
  simp

/-- Every cell behind the content holds the filler. -/
theorem getElem?_padTo (filler : α) {content : List α} (hfits : content.length ≤ capacity)
    {index : ℕ} (hindex : content.length ≤ index) {value : α}
    (hvalue : (padTo capacity filler content).toList[index]? = some value) : value = filler := by
  rw [toList_padTo filler content hfits, List.getElem?_append_right hindex] at hvalue
  exact List.eq_of_mem_replicate (List.mem_of_getElem? hvalue)

theorem overwrite_eq_none_iff {buffer : List.Vector α capacity} {start : ℕ} {chunk : List α} :
    overwrite buffer start chunk = none ↔ capacity < start + chunk.length := by
  unfold overwrite
  split_ifs with hfits <;> simp only [false_iff, true_iff] <;> omega

/-- Writing a chunk right behind the content extends the content. -/
theorem overwrite_padTo (filler : α) (content chunk : List α)
    (hfits : content.length + chunk.length ≤ capacity) :
    overwrite (padTo capacity filler content) content.length chunk =
      some (padTo capacity filler (content ++ chunk)) := by
  have hcontent : content.length ≤ capacity := by omega
  have hwhole : (content ++ chunk).length ≤ capacity := by simpa using hfits
  unfold overwrite
  rw [dif_pos hfits]
  congr 1
  apply List.Vector.toList_injective
  rw [List.Vector.toList_mk, toList_padTo filler content hcontent, toList_padTo filler _ hwhole,
    List.take_left, List.drop_append, List.drop_eq_nil_of_le (by omega), List.nil_append,
    List.drop_replicate, List.length_append]
  congr 2
  omega

/-- Writing one cell right behind the content appends that cell. -/
theorem setAt_padTo (filler value : α) (content : List α) (hfits : content.length < capacity) :
    setAt (padTo capacity filler content) content.length value =
      some (padTo capacity filler (content ++ [value])) :=
  overwrite_padTo filler content [value] (by simpa using hfits)

/-- A loop that reads a list, cell by cell, appends the list to the content. -/
theorem fillFrom_padTo (filler : α) {read : ℕ → Option α} (content cells : List α)
    (hfits : content.length + cells.length ≤ capacity)
    (hread : ∀ index (hindex : index < cells.length),
      read (content.length + index) = some cells[index]) :
    fillFrom read cells.length content.length (padTo capacity filler content) =
      some (padTo capacity filler (content ++ cells)) := by
  induction cells generalizing content with
  | nil => rw [List.length_nil, fillFrom, List.append_nil]
  | cons cell cells ih =>
    rw [List.length_cons] at hfits
    have hset := setAt_padTo filler cell content (show content.length < capacity by omega)
    have hfirst : read content.length = some cell := hread 0 (by simp)
    have hlength : (content ++ [cell]).length = content.length + 1 := List.length_append
    have hrest := ih (content ++ [cell]) (by rw [hlength]; omega) (by
      intro index hindex
      have hnext := hread (index + 1) (Nat.succ_lt_succ hindex)
      rwa [hlength, Nat.add_assoc, Nat.add_comm 1 index])
    rw [hlength, List.append_assoc, List.singleton_append] at hrest
    rw [List.length_cons, fillFrom, hfirst, Option.bind_eq_bind, Option.bind_some, hset,
      Option.bind_eq_bind, Option.bind_some, hrest]

/-- Writing one cell keeps the cells before and after it. -/
theorem setAt_of_toList_eq {buffer : List.Vector α capacity} {before after : List α} {cell : α}
    (hbuffer : buffer.toList = before ++ cell :: after) (value : α) :
    ∃ written, setAt buffer before.length value = some written ∧
      written.toList = before ++ value :: after := by
  have hlength := buffer.toList_length
  rw [hbuffer, List.length_append, List.length_cons] at hlength
  unfold setAt overwrite
  rw [dif_pos (by rw [List.length_singleton]; omega)]
  refine ⟨_, rfl, ?_⟩
  rw [List.Vector.toList_mk, hbuffer, List.take_left, List.length_singleton, List.drop_append,
    List.drop_eq_nil_of_le (by omega), List.append_assoc]
  simp

/-- Overwriting the content by the filler leaves the empty buffer. -/
theorem overwrite_padTo_filler (filler : α) (content : List α)
    (hfits : content.length ≤ capacity) :
    overwrite (padTo capacity filler content) 0 (List.replicate content.length filler) =
      some (padTo capacity filler []) := by
  unfold overwrite
  rw [dif_pos (by simpa using hfits)]
  congr 1
  apply List.Vector.toList_injective
  rw [List.Vector.toList_mk, toList_padTo filler content hfits, toList_padTo_nil, List.take_zero,
    List.nil_append, List.length_replicate, Nat.zero_add, List.drop_left,
    List.replicate_append_replicate]
  congr 1
  omega

/-- Two contents of one length are told apart by their buffers. -/
theorem padTo_injective (filler : α) {first second : List α} (hfirst : first.length ≤ capacity)
    (hlength : first.length = second.length)
    (hbuffer : padTo capacity filler first = padTo capacity filler second) : first = second := by
  have hlists := congrArg List.Vector.toList hbuffer
  rw [toList_padTo filler first hfirst, toList_padTo filler second (hlength ▸ hfirst)] at hlists
  exact (List.append_inj hlists hlength).1

end SunriseEdgeLedger.Foundation
