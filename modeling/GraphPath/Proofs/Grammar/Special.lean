import GraphPath.Proofs.Grammar.Reachable
import GraphPath.Token.Lexeme

/-! # Special characters

Three parts of the library each have their own idea of a special character:
`Grammar.isSpecial` asks the tables, `escapedChars` and `forcingChars` are lists
kept beside them, and `lexeme` tests one table after the other.  For a valid
grammar the ideas agree:

* the escaped characters are the special ones (`Valid.mem_escapedChars_iff`);
* the characters that force a path through the tokenizer are the special ones,
  except a property separator with no further role
  (`Valid.mem_forcingChars_iff`);
* a character that is not special is a letter (`lexeme_of_not_isSpecial`), any
  character behind an escape is one (`lexeme_escapeChar`), and the property
  separator separates unless it is also a modifier
  (`Valid.lexeme_propertySeparator`).
-/

namespace GraphPath.Grammar
variable {g : Grammar} {c : Char}

/-! ## The tables -/

theorem modifier?_eq_none_iff : g.modifier? c = none ↔ c ∉ g.modifiers.keys :=
  g.modifiers.get?_eq_none_iff

theorem separator?_eq_none_iff : g.separator? c = none ↔ c ∉ g.separators.keys :=
  g.separators.get?_eq_none_iff

theorem enclosure?_eq_none_iff : g.enclosure? c = none ↔ c ∉ g.enclosures.keys :=
  g.enclosures.get?_eq_none_iff

theorem isCloser_iff : g.isCloser c = true ↔ c ∈ g.closers := List.contains_iff_mem

/-- A closer is the closer of an enclosure that can be looked up. -/
theorem isCloser_iff_enclosure? {c : Char} :
    g.isCloser c = true ↔ ∃ opener enclosure, g.enclosure? opener = some enclosure ∧
      enclosure.closer = c := by
  rw [isCloser_iff, closers, List.mem_map]
  constructor
  · rintro ⟨enclosure, henclosure, rfl⟩
    obtain ⟨⟨opener, _⟩, he, rfl⟩ := List.mem_map.mp henclosure
    exact ⟨opener, _, g.enclosures.get?_eq_some_iff.mpr he, rfl⟩
  · rintro ⟨opener, enclosure, h, rfl⟩
    exact ⟨enclosure, List.mem_map.mpr ⟨_, g.enclosures.get?_eq_some_iff.mp h, rfl⟩, rfl⟩

/-- **A character is special exactly if it is reserved or has a role.** -/
theorem isSpecial_iff :
    g.isSpecial c = true ↔ c = escapeChar ∨ c = wildcardChar ∨ c ∈ g.roleChars := by
  simp only [isSpecial, roleChars, Bool.or_eq_true, beq_iff_eq, OrderedMap.contains_iff_mem_keys,
    isCloser_iff, List.mem_append, or_assoc]

theorem isSpecial_escapeChar : g.isSpecial escapeChar = true := isSpecial_iff.mpr (Or.inl rfl)

theorem ne_escapeChar_of_not_isSpecial (hc : g.isSpecial c = false) : c ≠ escapeChar := by
  rintro rfl
  rw [isSpecial_escapeChar] at hc
  cases hc

theorem mem_roleChars_of_modifier? {modifier : Modifier} (hc : g.modifier? c = some modifier) :
    c ∈ g.roleChars := by
  have hkey : c ∈ g.modifiers.keys := List.mem_map_of_mem (g.modifiers.get?_eq_some_iff.mp hc)
  simp [roleChars, hkey]

theorem mem_roleChars_of_separator? {role : SeparatorRole} (hc : g.separator? c = some role) :
    c ∈ g.roleChars := by
  have hkey : c ∈ g.separators.keys := List.mem_map_of_mem (g.separators.get?_eq_some_iff.mp hc)
  simp [roleChars, hkey]

/-- An opener has a role, and so has its closer. -/
theorem mem_roleChars_of_enclosure? {enclosure : Enclosure}
    (hc : g.enclosure? c = some enclosure) :
    c ∈ g.roleChars ∧ enclosure.closer ∈ g.roleChars := by
  have hentry : (c, enclosure) ∈ g.enclosures.entries := g.enclosures.get?_eq_some_iff.mp hc
  have hkey : c ∈ g.enclosures.keys := List.mem_map_of_mem hentry
  have hcloser : enclosure.closer ∈ g.closers :=
    isCloser_iff.mp (isCloser_iff_enclosure?.mpr ⟨c, enclosure, hc, rfl⟩)
  simp [roleChars, hkey, hcloser]

theorem isSpecial_of_mem_roleChars (hc : c ∈ g.roleChars) : g.isSpecial c = true :=
  isSpecial_iff.mpr (Or.inr (Or.inr hc))

/-- The escape character has no role. -/
theorem Valid.ne_escapeChar (hg : g.Valid) (hc : c ∈ g.roleChars) : c ≠ escapeChar := by
  rintro rfl
  have hreserved := hg.unreserved escapeChar hc
  exact absurd hreserved (by decide)

theorem Valid.mem_propertySeparators (hg : g.Valid) :
    (g.propertySeparator, SeparatorRole.property) ∈ g.separators.entries := by
  have hmem : g.propertySeparator ∈ propertySeparators g.separators := by
    rw [hg.property]
    exact List.mem_singleton_self _
  obtain ⟨⟨_, role⟩, he, rfl⟩ := List.mem_map.mp hmem
  obtain ⟨he, hrole⟩ := OrderedMap.mem_entries_filter.mp he
  exact (beq_iff_eq.mp hrole) ▸ he

/-- The property separator is a separator with that role. -/
theorem Valid.separator?_propertySeparator (hg : g.Valid) :
    g.separator? g.propertySeparator = some .property :=
  g.separators.get?_eq_some_iff.mpr hg.mem_propertySeparators

/-- **Exactly one character separates properties.** -/
theorem Valid.separator?_eq_property_iff (hg : g.Valid) :
    g.separator? c = some .property ↔ c = g.propertySeparator := by
  constructor
  · intro h
    have hentry : (c, SeparatorRole.property) ∈ g.separators.entries :=
      g.separators.get?_eq_some_iff.mp h
    have hmem : c ∈ propertySeparators g.separators :=
      List.mem_map_of_mem (OrderedMap.mem_entries_filter.mpr ⟨hentry, rfl⟩)
    rwa [hg.property, List.mem_singleton] at hmem
  · rintro rfl
    exact hg.separator?_propertySeparator

theorem Valid.propertySeparator_mem_roleChars (hg : g.Valid) :
    g.propertySeparator ∈ g.roleChars :=
  mem_roleChars_of_separator? hg.separator?_propertySeparator

theorem Valid.isSpecial_propertySeparator (hg : g.Valid) :
    g.isSpecial g.propertySeparator = true :=
  isSpecial_of_mem_roleChars hg.propertySeparator_mem_roleChars

/-- The property separator is none of the characters whose meaning is fixed. -/
theorem Valid.propertySeparator_ne_of_isReserved (hg : g.Valid) (hc : isReserved c = true) :
    g.propertySeparator ≠ c := by
  rintro rfl
  rw [hg.unreserved _ hg.propertySeparator_mem_roleChars] at hc
  cases hc

theorem Valid.propertySeparator_ne_escapeChar (hg : g.Valid) :
    g.propertySeparator ≠ escapeChar := hg.propertySeparator_ne_of_isReserved (by decide)

theorem Valid.propertySeparator_ne_wildcardChar (hg : g.Valid) :
    g.propertySeparator ≠ wildcardChar := hg.propertySeparator_ne_of_isReserved (by decide)

/-! ## The derived lists -/

/-- **What forces a path through the tokenizer**: a special character that is not the
property separator, or has a role besides. -/
theorem Valid.mem_forcingChars_iff (hg : g.Valid) :
    c ∈ g.forcingChars ↔ g.isSpecial c = true ∧
      (c ≠ g.propertySeparator ∨
        c ∈ g.modifiers.keys ∨ c ∈ g.enclosures.keys ∨ c ∈ g.closers) := by
  rw [congrArg forcingChars hg.derived]
  simp only [ofTables, isSpecial_iff, roleChars, closers, List.mem_append, List.mem_cons,
    List.not_mem_nil, or_false, List.mem_filter, decide_eq_true_eq]
  by_cases hc : c = g.propertySeparator
  · -- being a separator is no reason to force, so the further roles alone decide
    have hescape : c ≠ escapeChar := hc ▸ hg.propertySeparator_ne_escapeChar
    have hwildcard : c ≠ wildcardChar := hc ▸ hg.propertySeparator_ne_wildcardChar
    grind
  · grind

/-- **What is escaped in a literal key**: every special character. -/
theorem Valid.mem_escapedChars_iff (hg : g.Valid) :
    c ∈ g.escapedChars ↔ g.isSpecial c = true := by
  have hderived : g.escapedChars = g.forcingChars ++ [g.propertySeparator] := by
    rw [hg.derived]
    rfl
  rw [hderived, List.mem_append, List.mem_singleton, hg.mem_forcingChars_iff]
  constructor
  · rintro (⟨hspecial, -⟩ | rfl)
    · exact hspecial
    · exact hg.isSpecial_propertySeparator
  · intro hspecial
    by_cases hc : c = g.propertySeparator
    · exact Or.inr hc
    · exact Or.inl ⟨hspecial, Or.inl hc⟩

/-- A path is flat if it is made of property separators and ordinary characters only. -/
theorem Valid.not_isSpecial_of_flat (hg : g.Valid) {path : String}
    (hflat : g.needsTokenizer path = false) (hc : c ∈ path.toList)
    (hsep : c ≠ g.propertySeparator) : g.isSpecial c = false := by
  have hforce : c ∉ g.forcingChars := by simpa using List.any_eq_false.mp hflat c hc
  refine Bool.eq_false_iff.mpr fun hspecial => ?_
  exact hforce (hg.mem_forcingChars_iff.mpr ⟨hspecial, Or.inl hsep⟩)

/-- The property separator of a flat path has no other role that the scanner would see. -/
theorem Valid.propertySeparator_not_mem_modifiers_of_flat (hg : g.Valid) {path : String}
    (hflat : g.needsTokenizer path = false) (hc : g.propertySeparator ∈ path.toList) :
    g.propertySeparator ∉ g.modifiers.keys := by
  intro hmodifier
  have hforce : g.propertySeparator ∉ g.forcingChars := by
    simpa using List.any_eq_false.mp hflat _ hc
  exact hforce (hg.mem_forcingChars_iff.mpr
    ⟨hg.isSpecial_propertySeparator, Or.inr (Or.inl hmodifier)⟩)

/-! ## What the scanner takes them for -/

@[simp] theorem lexeme_escapeChar (d : Char) (rest : List Char) :
    g.lexeme escapeChar (d :: rest) = (.letter d, rest) := rfl

theorem lexeme_of_not_isSpecial (hc : g.isSpecial c = false) (rest : List Char) :
    g.lexeme c rest = (.letter c, rest) := by
  have hplain : ¬ (c = escapeChar ∨ c = wildcardChar ∨ c ∈ g.roleChars) := by
    rw [← isSpecial_iff, hc]
    exact Bool.false_ne_true
  simp only [roleChars, List.mem_append, not_or] at hplain
  obtain ⟨hescape, hwildcard, ⟨⟨hmodifier, hseparator⟩, henclosure⟩, hcloser⟩ := hplain
  have hcloser : g.isCloser c = false := Bool.eq_false_iff.mpr fun h => hcloser (isCloser_iff.mp h)
  simp only [lexeme, if_neg hescape, if_neg hwildcard, modifier?_eq_none_iff.mpr hmodifier,
    separator?_eq_none_iff.mpr hseparator, enclosure?_eq_none_iff.mpr henclosure, hcloser,
    Bool.false_eq_true, if_false]

theorem lexeme_of_modifier? (hescape : c ≠ escapeChar) {modifier : Modifier}
    (hmodifier : g.modifier? c = some modifier) (rest : List Char) :
    g.lexeme c rest = (.modifier modifier, rest) := by
  simp only [lexeme, if_neg hescape, hmodifier]

theorem lexeme_of_separator? (hescape : c ≠ escapeChar) (hmodifier : g.modifier? c = none)
    {role : SeparatorRole} (hseparator : g.separator? c = some role) (rest : List Char) :
    g.lexeme c rest = (.separator role, rest) := by
  simp only [lexeme, if_neg hescape, hmodifier, hseparator]

theorem Valid.lexeme_propertySeparator (hg : g.Valid)
    (hmodifier : g.propertySeparator ∉ g.modifiers.keys) (rest : List Char) :
    g.lexeme g.propertySeparator rest = (.separator .property, rest) :=
  lexeme_of_separator? hg.propertySeparator_ne_escapeChar (modifier?_eq_none_iff.mpr hmodifier)
    hg.separator?_propertySeparator rest

end GraphPath.Grammar
