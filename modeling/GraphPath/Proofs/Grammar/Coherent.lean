import GraphPath.Proofs.Grammar.Escape

/-! # Grammars as they are asked

A grammar answers questions about characters from its tables, and questions about
whole texts from the two lists that it keeps beside them.  `Grammar.Coherent` says
that the answers fit together, in terms of the questions only; every grammar that
obeys the rules is coherent (`Valid.coherent`), and a grammar that can be in force
stays one whatever changes are asked for, and accepted or rejected
(`Reachable.foldl_attempt`).
-/

namespace GraphPath.Grammar
variable {g : Grammar} {c : Char}

/-- **The answers of a grammar fit together.** -/
structure Coherent (g : Grammar) : Prop where
  /-- There is exactly one property separator. -/
  property : ∀ c, g.separator? c = some .property ↔ c = g.propertySeparator
  /-- The characters whose meaning is fixed have no other. -/
  reserved : ∀ c, c = escapeChar ∨ c = wildcardChar →
    g.modifier? c = none ∧ g.separator? c = none ∧ g.enclosure? c = none ∧ g.isCloser c = false
  /-- Escaping puts the escape character in front of the special characters. -/
  escape : ∀ text, g.escape text = String.ofList
    (text.toList.flatMap fun c => if g.isSpecial c then [escapeChar, c] else [c])
  /-- A path needs the tokenizer if it has a special character that is more than the property
  separator. -/
  needsTokenizer : ∀ path, g.needsTokenizer path = true ↔
    ∃ c ∈ path.toList, g.isSpecial c = true ∧
      (c ≠ g.propertySeparator ∨ (g.modifier? c).isSome = true ∨
        (g.enclosure? c).isSome = true ∨ g.isCloser c = true)

theorem Valid.reserved (hg : g.Valid) (hc : isReserved c = true) :
    g.modifier? c = none ∧ g.separator? c = none ∧ g.enclosure? c = none ∧
      g.isCloser c = false := by
  have hrole : c ∉ g.roleChars := fun hrole => by
    rw [hg.unreserved c hrole] at hc
    cases hc
  simp only [roleChars, List.mem_append, not_or] at hrole
  obtain ⟨⟨⟨hmodifier, hseparator⟩, henclosure⟩, hcloser⟩ := hrole
  exact ⟨modifier?_eq_none_iff.mpr hmodifier, separator?_eq_none_iff.mpr hseparator,
    enclosure?_eq_none_iff.mpr henclosure, Bool.eq_false_iff.mpr (mt isCloser_iff.mp hcloser)⟩

theorem Valid.escapeChars_eq (hg : g.Valid) (text : List Char) :
    g.escapeChars text = text.flatMap fun c => if g.isSpecial c then [escapeChar, c] else [c] := by
  induction text with
  | nil => rfl
  | cons c rest ih => rw [escapeChars_cons hg, ih, List.flatMap_cons]

theorem Valid.needsTokenizer_iff (hg : g.Valid) (path : String) :
    g.needsTokenizer path = true ↔ ∃ c ∈ path.toList, g.isSpecial c = true ∧
      (c ≠ g.propertySeparator ∨ (g.modifier? c).isSome = true ∨
        (g.enclosure? c).isSome = true ∨ g.isCloser c = true) := by
  have hmodifier : ∀ c, (g.modifier? c).isSome = true ↔ c ∈ g.modifiers.keys :=
    g.modifiers.contains_iff_mem_keys
  have henclosure : ∀ c, (g.enclosure? c).isSome = true ↔ c ∈ g.enclosures.keys :=
    g.enclosures.contains_iff_mem_keys
  simp only [Grammar.needsTokenizer, List.any_eq_true, List.contains_iff_mem,
    hg.mem_forcingChars_iff, hmodifier, henclosure, isCloser_iff]

/-- **A grammar that obeys the rules is coherent.** -/
theorem Valid.coherent (hg : g.Valid) : g.Coherent where
  property _ := hg.separator?_eq_property_iff
  reserved c hc := hg.reserved (by rcases hc with rfl | rfl <;> rfl)
  escape text := congrArg String.ofList (hg.escapeChars_eq text.toList)
  needsTokenizer := hg.needsTokenizer_iff

/-- Any row of changes, accepted or rejected, leads to a grammar that can be in force. -/
theorem Reachable.foldl_attempt (hg : g.Reachable) (changes : List Change) :
    (changes.foldl attempt g).Reachable := by
  induction changes generalizing g with
  | nil => exact hg
  | cons change rest ih => exact ih (hg.change change)

end GraphPath.Grammar
