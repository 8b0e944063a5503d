import GraphPath.Proofs.Grammar.Special
import GraphPath.Proofs.Token.Scan

/-! # Tokens depend on roles only

The tables of a grammar remember in which order characters were given their
roles, so two grammars can differ and yet say the same of every character
(`Grammar.SameRoles`).  The order does not matter for reading: closers are looked
for among all enclosures, and everything else is looked up by character.  **Grammars
with the same roles read every text into the same tokens** (`SameRoles.tokenize`).
-/

namespace GraphPath.Grammar
variable {g g' : Grammar}

/-- Every character has the same roles under both grammars. -/
structure SameRoles (g g' : Grammar) : Prop where
  /-- The same modifier. -/
  modifier? : ∀ c, g'.modifier? c = g.modifier? c
  /-- The same separator. -/
  separator? : ∀ c, g'.separator? c = g.separator? c
  /-- The same enclosure, with its closer. -/
  enclosure? : ∀ c, g'.enclosure? c = g.enclosure? c

theorem SameRoles.refl (g : Grammar) : g.SameRoles g := ⟨fun _ => rfl, fun _ => rfl, fun _ => rfl⟩

namespace SameRoles
variable (h : g.SameRoles g')
include h

theorem isCloser (c : Char) : g'.isCloser c = g.isCloser c := by
  rw [Bool.eq_iff_iff, isCloser_iff_enclosure?, isCloser_iff_enclosure?]
  simp only [h.enclosure?]

theorem isSpecial (c : Char) : g'.isSpecial c = g.isSpecial c := by
  have hmodifier : g'.modifiers.contains c = g.modifiers.contains c :=
    congrArg Option.isSome (h.modifier? c)
  have hseparator : g'.separators.contains c = g.separators.contains c :=
    congrArg Option.isSome (h.separator? c)
  have henclosure : g'.enclosures.contains c = g.enclosures.contains c :=
    congrArg Option.isSome (h.enclosure? c)
  rw [Grammar.isSpecial, Grammar.isSpecial, hmodifier, hseparator, henclosure, h.isCloser]

theorem stripChars (text : List Char) : g'.stripChars text = g.stripChars text := by
  fun_induction g.stripChars text with
  | case1 => rw [Grammar.stripChars]
  | case2 c => rw [Grammar.stripChars]
  | case3 d rest hd ih => rw [Grammar.stripChars, if_pos rfl, h.isSpecial, if_pos hd, ih]
  | case4 d rest hd ih => rw [Grammar.stripChars, if_pos rfl, h.isSpecial, if_neg hd, ih]
  | case5 c d rest hc ih => rw [Grammar.stripChars, if_neg hc, ih]

theorem joins (text : List Char) : g'.joins text = g.joins text := by
  cases text with
  | nil => rfl
  | cons c rest => rw [Grammar.joins, Grammar.joins, h.separator?]

theorem containerLexeme (opener : Char) (enclosure : Enclosure) (rest : List Char) :
    g'.containerLexeme opener enclosure rest = g.containerLexeme opener enclosure rest := by
  unfold Grammar.containerLexeme
  split <;> simp only [h.joins]

theorem lexeme (c : Char) (rest : List Char) : g'.lexeme c rest = g.lexeme c rest := by
  unfold Grammar.lexeme
  simp only [h.modifier?, h.separator?, h.enclosure?, h.isCloser, h.containerLexeme]

/-- The texts of containers and the drafts between them are read alike, which is one induction
along the scanner. -/
theorem tokenizeAt_and_scan (maxDepth : Nat) :
    (∀ level text, g'.tokenizeAt maxDepth level text = g.tokenizeAt maxDepth level text) ∧
      ∀ level size d text,
        g'.scan maxDepth level size d text = g.scan maxDepth level size d text := by
  refine tokenizeAt.mutual_induct g maxDepth _ _ ?deep ?text ?finish ?quote ?property ?container
    ?openEnd ?step
  case deep =>
    intro level text hlevel
    rw [tokenizeAt, tokenizeAt, if_pos hlevel, if_pos hlevel]
  case text =>
    intro level text hlevel ih
    rw [tokenizeAt, tokenizeAt, if_neg hlevel, if_neg hlevel, h.stripChars, ih]
  case finish =>
    intro level size d
    rw [scan_nil, scan_nil]
  case quote =>
    intro level size d c ahead interior joins rest hlexeme ih
    rw [scan_quote hlexeme, scan_quote ((h.lexeme c ahead).trans hlexeme)]
    simp only [ih]
  case property =>
    intro level size d c ahead interior joins rest hlexeme ihtree ih
    rw [scan_property hlexeme, scan_property ((h.lexeme c ahead).trans hlexeme)]
    simp only [ihtree, ih]
  case container =>
    intro level size d c ahead role interior joins rest hquote hproperty hlexeme ihtree ih
    rw [scan_container hquote hproperty hlexeme,
      scan_container hquote hproperty ((h.lexeme c ahead).trans hlexeme)]
    simp only [ihtree, ih]
  case openEnd =>
    intro level size d c ahead offset fault rest hlexeme
    rw [scan_openEnd hlexeme, scan_openEnd ((h.lexeme c ahead).trans hlexeme)]
  case step =>
    intro level size d c ahead lexeme rest _ _ hcontainer hopen hlexeme ih
    rw [scan_step hcontainer hopen hlexeme,
      scan_step hcontainer hopen ((h.lexeme c ahead).trans hlexeme)]
    simp only [ih]

/-- **The same roles, the same tokens**, or the same error at the same place. -/
theorem tokenize (maxDepth : Nat) (path : String) :
    g'.tokenize maxDepth path = g.tokenize maxDepth path :=
  (h.tokenizeAt_and_scan maxDepth).1 0 path.toList

end SameRoles

end GraphPath.Grammar
