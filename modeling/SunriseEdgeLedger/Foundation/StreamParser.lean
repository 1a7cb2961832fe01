import SunriseEdgeLedger.Foundation.ExactDecoder

/-!
# Self-delimiting stream parsers

A stream parser reads a value off the front of a list and leaves the rest.  It *consumes* a word for
a value if it reads the word whatever comes behind it, and reports the end of its input on every
proper prefix of the word.  Words that are consumed one after the other are consumed together by the
sequence of their parsers, so a format that is assembled from such parsers is prefix-free, and an
input that was cut short is always reported as such.  A parser *settles* if nothing that follows its
input can change a verdict other than the end of the input.  Words of which none is a prefix of
another can be told apart however many of them follow each other.
-/

namespace SunriseEdgeLedger.Foundation

universe u

variable {Symbol Error α β : Type u}

/-- A parser of a value at the front of a list. -/
abbrev StreamParser (Symbol Error : Type u) := StateT (List Symbol) (Except Error)

/-- The next symbols, as many as are asked for. -/
def takeExactly (ended : Error) (length : ℕ) : StreamParser Symbol Error (List Symbol) :=
  fun input ↦ if length ≤ input.length then .ok (input.take length, input.drop length)
    else .error ended

/-- The parser reads the word as the value whatever follows, and finds its input ended within the
word. -/
structure Consumes (ended : Error) (parse : StreamParser Symbol Error α) (value : α)
    (word : List Symbol) : Prop where
  run_append : ∀ rest, parse.run (word ++ rest) = .ok (value, rest)
  run_of_prefix : ∀ start, start <+: word → start ≠ word → parse.run start = .error ended

namespace Consumes

variable {ended : Error} {parse : StreamParser Symbol Error α} {value : α} {word : List Symbol}

theorem run_self (hconsumes : Consumes ended parse value word) :
    parse.run word = .ok (value, []) := by
  have hrun := hconsumes.run_append []
  rwa [List.append_nil] at hrun

end Consumes

section Rules

variable (ended : Error)

theorem consumes_pure (value : α) :
    Consumes ended (pure value : StreamParser Symbol Error α) value [] where
  run_append _ := rfl
  run_of_prefix _ hleading hne := absurd (List.prefix_nil.mp hleading) hne

theorem consumes_takeExactly {length : ℕ} {word : List Symbol} (hlength : word.length = length) :
    Consumes ended (takeExactly ended length) word word where
  run_append rest := by
    subst hlength
    change (if word.length ≤ (word ++ rest).length then _ else _) = _
    rw [if_pos (by simp), List.take_left, List.drop_left]
  run_of_prefix start hleading hne := by
    have hshort : ¬ length ≤ start.length := by
      intro hle
      exact hne (hleading.eq_of_length_le (hlength.trans_le hle))
    exact if_neg hshort

variable {ended}

/-- A sequence consumes the words of its parts one behind the other. -/
theorem consumes_bind {first : StreamParser Symbol Error α} {next : α → StreamParser Symbol Error β}
    {value : α} {result : β} {word word' : List Symbol} (hfirst : Consumes ended first value word)
    (hnext : Consumes ended (next value) result word') :
    Consumes ended (first >>= next) result (word ++ word') where
  run_append rest := by
    rw [StateT.run_bind, List.append_assoc, hfirst.run_append]
    exact hnext.run_append rest
  run_of_prefix start hleading hne := by
    rw [StateT.run_bind]
    -- The cut falls into the first word, or behind it into the second one.
    rcases List.prefix_or_prefix_of_prefix hleading (List.prefix_append word word') with
      hshort | ⟨tail, rfl⟩
    · by_cases hwhole : start = word
      · subst hwhole
        have hword : word' ≠ [] := by
          rintro rfl
          exact hne (List.append_nil start).symm
        rw [hfirst.run_self]
        exact hnext.run_of_prefix [] List.nil_prefix hword.symm
      · rw [hfirst.run_of_prefix start hshort hwhole]
        rfl
    · rw [hfirst.run_append]
      apply hnext.run_of_prefix tail ((List.prefix_append_right_inj word).mp hleading)
      rintro rfl
      exact hne rfl

/-- Converting the value leaves the word. -/
theorem consumes_map {parse : StreamParser Symbol Error α} {value : α} {word : List Symbol}
    (convert : α → β) (hconsumes : Consumes ended parse value word) :
    Consumes ended (convert <$> parse) (convert value) word where
  run_append rest := by
    rw [StateT.run_map, hconsumes.run_append]
    rfl
  run_of_prefix start hleading hne := by
    rw [StateT.run_map, hconsumes.run_of_prefix start hleading hne]
    rfl

end Rules

/-- What follows the input changes neither a value nor an error, but for the end of the input. -/
structure Settles (ended : Error) (parse : StreamParser Symbol Error α) : Prop where
  run_append_of_ok : ∀ input value rest, parse.run input = .ok (value, rest) →
    ∀ more, parse.run (input ++ more) = .ok (value, rest ++ more)
  run_append_of_error : ∀ input failure, parse.run input = .error failure → failure ≠ ended →
    ∀ more, parse.run (input ++ more) = .error failure

section Settling

variable {ended : Error}

theorem settles_pure (value : α) :
    Settles ended (pure value : StreamParser Symbol Error α) where
  run_append_of_ok := by
    rintro input _ _ ⟨⟩ more
    rfl
  run_append_of_error := by
    rintro input failure ⟨⟩

theorem settles_throw (failure : Error) :
    Settles ended (throw failure : StreamParser Symbol Error α) where
  run_append_of_ok := by
    rintro input value rest ⟨⟩
  run_append_of_error := by
    rintro input _ ⟨⟩ hsettled more
    rfl

theorem settles_takeExactly (length : ℕ) :
    Settles ended (takeExactly ended length : StreamParser Symbol Error (List Symbol)) where
  run_append_of_ok := by
    intro input value rest hrun more
    change (if length ≤ input.length then _ else _) = _ at hrun
    split_ifs at hrun with hlength
    obtain ⟨rfl, rfl⟩ := Prod.mk.inj (Except.ok.inj hrun)
    change (if length ≤ (input ++ more).length then _ else _) = _
    rw [if_pos (by simp; omega), List.take_append_of_le_length hlength,
      List.drop_append_of_le_length hlength]
  run_append_of_error := by
    intro input failure hrun hsettled
    change (if length ≤ input.length then _ else _) = _ at hrun
    split_ifs at hrun
    exact absurd (Except.error.inj hrun).symm hsettled

theorem settles_bind {first : StreamParser Symbol Error α}
    {next : α → StreamParser Symbol Error β} (hfirst : Settles ended first)
    (hnext : ∀ value, Settles ended (next value)) : Settles ended (first >>= next) where
  run_append_of_ok := by
    intro input result rest hrun more
    rw [StateT.run_bind, bind_eq_ok_iff] at hrun
    obtain ⟨⟨value, between⟩, hvalue, hresult⟩ := hrun
    rw [StateT.run_bind, hfirst.run_append_of_ok input value between hvalue more]
    exact (hnext value).run_append_of_ok between result rest hresult more
  run_append_of_error := by
    intro input failure hrun hsettled more
    rw [StateT.run_bind, bind_eq_error_iff] at hrun
    rw [StateT.run_bind]
    rcases hrun with herror | ⟨⟨value, between⟩, hvalue, herror⟩
    · rw [hfirst.run_append_of_error input failure herror hsettled more]
      rfl
    · rw [hfirst.run_append_of_ok input value between hvalue more]
      exact (hnext value).run_append_of_error between failure herror hsettled more

theorem settles_map {parse : StreamParser Symbol Error α} (convert : α → β)
    (hparse : Settles ended parse) : Settles ended (convert <$> parse) := by
  have hbind := settles_bind hparse fun value ↦ settles_pure (convert value)
  rwa [← map_eq_pure_bind] at hbind

end Settling

/-! ## Prefix codes -/

/-- Nonempty words of which none is a proper prefix of another are uniquely decodable. -/
theorem uniquelyDecodable_of_prefix_free {words : Set (List Symbol)} (hnonempty : [] ∉ words)
    (hfree : ∀ word ∈ words, ∀ word' ∈ words, word <+: word' → word = word') :
    InformationTheory.UniquelyDecodable words := by
  intro first second hfirst hsecond hflatten
  induction first generalizing second with
  | nil =>
    cases second with
    | nil => rfl
    | cons word second =>
      rw [List.flatten_nil, List.flatten_cons, eq_comm, List.append_eq_nil_iff] at hflatten
      exact absurd (hflatten.1 ▸ hsecond word (List.mem_cons_self ..)) hnonempty
  | cons word first ih =>
    rw [List.forall_mem_cons] at hfirst
    cases second with
    | nil =>
      rw [List.flatten_nil, List.flatten_cons, List.append_eq_nil_iff] at hflatten
      exact absurd (hflatten.1 ▸ hfirst.1) hnonempty
    | cons word' second =>
      rw [List.forall_mem_cons] at hsecond
      rw [List.flatten_cons, List.flatten_cons] at hflatten
      have hword : word = word' := by
        have hleading : word' <+: word ++ first.flatten := hflatten ▸ List.prefix_append _ _
        rcases List.prefix_or_prefix_of_prefix (List.prefix_append word _) hleading with
          hshort | hshort
        · exact hfree word hfirst.1 word' hsecond.1 hshort
        · exact (hfree word' hsecond.1 word hfirst.1 hshort).symm
      subst hword
      rw [ih second hfirst.2 hsecond.2 (List.append_cancel_left hflatten)]

end SunriseEdgeLedger.Foundation
