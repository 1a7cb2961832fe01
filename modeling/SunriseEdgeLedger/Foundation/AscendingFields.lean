import Mathlib

/-!
# Association lists with ascending keys

Lists of key-value pairs whose keys increase strictly.  Such a list is determined by its lookup
function, and by its lookups on any keys that cover it.  A schema that allows only certain keys
therefore pins the list down once it has fixed the values that it looks up.
-/

namespace SunriseEdgeLedger.Foundation

variable {Key Value : Type*} [LinearOrder Key]

/-- The keys of the list increase strictly. -/
def Ascending (fields : List (Key × Value)) : Prop :=
  fields.Pairwise fun first second ↦ first.1 < second.1

instance [DecidableEq Value] (fields : List (Key × Value)) : Decidable (Ascending fields) :=
  inferInstanceAs (Decidable (List.Pairwise _ fields))

@[simp]
theorem ascending_nil : Ascending ([] : List (Key × Value)) := List.Pairwise.nil

@[simp]
theorem ascending_cons {field : Key × Value} {fields : List (Key × Value)} :
    Ascending (field :: fields) ↔ (∀ other ∈ fields, field.1 < other.1) ∧ Ascending fields :=
  List.pairwise_cons

/-- In an ascending list a lookup finds exactly the pair with that key. -/
theorem Ascending.lookup_eq_some_iff {fields : List (Key × Value)} (hascending : Ascending fields)
    {key : Key} {value : Value} : fields.lookup key = some value ↔ (key, value) ∈ fields := by
  induction fields with
  | nil => simp
  | cons field fields ih =>
    obtain ⟨head, content⟩ := field
    obtain ⟨hhead, htail⟩ := ascending_cons.mp hascending
    by_cases hkey : key = head
    · subst hkey
      have hfresh : (key, value) ∉ fields := by
        intro hmem
        exact lt_irrefl key (hhead (key, value) hmem)
      simp [List.lookup, hfresh, eq_comm]
    · have hdiffer : (key == head) = false := by simpa using hkey
      simp [List.lookup, hdiffer, hkey, ih htail]

/-- Two ascending lists with the same lookups are the same list. -/
theorem Ascending.eq_of_lookup_eq {first second : List (Key × Value)} (hfirst : Ascending first)
    (hsecond : Ascending second) (hlookup : ∀ key, first.lookup key = second.lookup key) :
    first = second := by
  have hirrefl : Std.Irrefl fun left right : Key × Value ↦ left.1 < right.1 :=
    ⟨fun field ↦ lt_irrefl field.1⟩
  have hasymm : Std.Asymm fun left right : Key × Value ↦ left.1 < right.1 :=
    ⟨fun left right ↦ lt_asymm⟩
  apply List.Pairwise.eq_of_mem_iff hfirst hsecond
  rintro ⟨key, value⟩
  rw [← hfirst.lookup_eq_some_iff, ← hsecond.lookup_eq_some_iff, hlookup]

/-- Two ascending lists are the same when they agree on keys that cover both. -/
theorem Ascending.eq_of_lookup_eq_on {first second : List (Key × Value)} (hfirst : Ascending first)
    (hsecond : Ascending second) {keys : List Key} (hcoverFirst : ∀ field ∈ first, field.1 ∈ keys)
    (hcoverSecond : ∀ field ∈ second, field.1 ∈ keys)
    (hlookup : ∀ key ∈ keys, first.lookup key = second.lookup key) : first = second := by
  apply hfirst.eq_of_lookup_eq hsecond
  intro key
  by_cases hkey : key ∈ keys
  · exact hlookup key hkey
  · have habsent : ∀ fields : List (Key × Value), (∀ field ∈ fields, field.1 ∈ keys) →
        fields.lookup key = none := by
      intro fields hcover
      rw [List.lookup_eq_none_iff]
      intro field hfield
      have hne : key ≠ field.1 := by
        rintro rfl
        exact hkey (hcover field hfield)
      simpa using hne
    rw [habsent first hcoverFirst, habsent second hcoverSecond]

/-- An ascending list inside another one that is not longer is all of it. -/
theorem Ascending.eq_of_subset_of_length_le {first second : List (Key × Value)}
    (hfirst : Ascending first) (hsecond : Ascending second) (hsubset : first ⊆ second)
    (hlength : second.length ≤ first.length) : first = second := by
  have hirrefl : Std.Irrefl fun left right : Key × Value ↦ left.1 < right.1 :=
    ⟨fun field ↦ lt_irrefl field.1⟩
  have hasymm : Std.Asymm fun left right : Key × Value ↦ left.1 < right.1 :=
    ⟨fun left right ↦ lt_asymm⟩
  have hnodup : first.Nodup := List.Pairwise.nodup hfirst
  have hperm := (hnodup.subperm hsubset).perm_of_length_le hlength
  exact hperm.eq_of_pairwise' hfirst hsecond

end SunriseEdgeLedger.Foundation
