import GraphPath.Proofs.Token.Scan

/-! # Reading under a limit

How deep containers may nest is limited, and a text with deeper ones is not read.  The limit
does nothing else: what can be read under it, or is rejected for another reason, has the same
answer under every greater limit (`tokenize_of_le`).  And it takes text to come so deep, an
opener and a closer for each container, so that no short text can (`tokenize_ne_tooDeep`).

Both are one induction along the scanner.  A reading under the limit is either cut off, and
then the text is long enough, or it agrees with the other one (`CutOff`); and this is kept when
one thing is read behind the other.
-/

namespace GraphPath.Grammar

/-- **A reading is cut off by a limit, or not touched by it**: either it is too deep, which takes a
certain length, or it fails or succeeds like another one. -/
def CutOff {α : Type} (maxDepth length : Nat) (x y : Except PathError α) : Prop :=
  (x = .error (.tooDeep maxDepth) ∧ 2 * (maxDepth + 1) ≤ length) ∨
    (x ≠ .error (.tooDeep maxDepth) ∧ y = x)

section
variable {α β : Type} {maxDepth length length' : Nat} {x y : Except PathError α}

theorem CutOff.mono (h : CutOff maxDepth length x y) (hle : length ≤ length') :
    CutOff maxDepth length' x y := h.imp_left fun hdeep => ⟨hdeep.1, Nat.le_trans hdeep.2 hle⟩

/-- One thing behind the other. -/
theorem CutOff.bind {f f' : α → Except PathError β} (h : CutOff maxDepth length x y)
    (hf : ∀ a, CutOff maxDepth length (f a) (f' a)) :
    CutOff maxDepth length (x.bind f) (y.bind f') := by
  obtain ⟨rfl, hlength⟩ | ⟨hx, rfl⟩ := h
  · exact Or.inl ⟨rfl, hlength⟩
  · cases y with
    | ok a => exact hf a
    | error e => exact Or.inr ⟨fun heq => hx (congrArg Except.error (Except.error.inj heq)), rfl⟩

/-- A fault in the text has nothing to do with the limit. -/
theorem cutOff_atPosition (maxDepth length position : Nat) (x : Except SyntaxFault α) :
    CutOff maxDepth length (atPosition position x) (atPosition position x) := by
  refine Or.inr ⟨?_, rfl⟩
  cases x <;> simp

end

variable {g : Grammar} {d d' : Nat}

/-- A container takes its opener and its closer from the text. -/
theorem length_of_container {c : Char} {ahead interior rest : List Char} {role : ContainerRole}
    {joins : Bool} (h : g.lexeme c ahead = (.container role interior joins, rest)) :
    interior.length + 2 ≤ (c :: ahead).length ∧ rest.length ≤ (c :: ahead).length := by
  obtain ⟨closer, hcapture, -⟩ := exists_capture_of_lexeme h
  have hlength := length_of_capture_closed hcapture
  rw [List.length_cons]
  omega

/-- The texts of containers and the drafts between them are cut off, or read alike.  Every level
takes two characters, and stripping only makes a text shorter. -/
theorem cutOff_tokenizeAt_and_scan (hle : d ≤ d') :
    (∀ level text, CutOff d (2 * level + text.length) (g.tokenizeAt d level text)
        (g.tokenizeAt d' level text)) ∧
      ∀ level size draft text, CutOff d (2 * level + text.length) (g.scan d level size draft text)
        (g.scan d' level size draft text) := by
  refine tokenizeAt.mutual_induct g d _ _ ?deep ?text ?finish ?quote ?property ?container
    ?openEnd ?step
  case deep =>
    intro level text hlevel
    rw [tokenizeAt, if_pos hlevel]
    exact Or.inl ⟨rfl, by omega⟩
  case text =>
    intro level text hlevel ih
    rw [tokenizeAt, tokenizeAt, if_neg hlevel, if_neg (by omega)]
    exact ih.mono (Nat.add_le_add_left (g.length_stripChars_le text) _)
  case finish =>
    intro level size draft
    rw [scan_nil, scan_nil]
    exact cutOff_atPosition d _ size draft.finish
  case quote =>
    intro level size draft c ahead interior joins rest hlexeme ih
    obtain ⟨-, hrest⟩ := length_of_container hlexeme
    rw [scan_quote hlexeme, scan_quote hlexeme]
    exact (cutOff_atPosition d _ _ _).bind fun draft => (ih draft).mono (by omega)
  case property =>
    intro level size draft c ahead interior joins rest hlexeme ihtree ih
    obtain ⟨hinterior, hrest⟩ := length_of_container hlexeme
    rw [scan_property hlexeme, scan_property hlexeme]
    exact (cutOff_atPosition d _ _ _).bind fun draft =>
      (ihtree.mono (by omega)).bind fun tree => (ih draft tree).mono (by omega)
  case container =>
    intro level size draft c ahead role interior joins rest hquote hproperty hlexeme ihtree ih
    obtain ⟨hinterior, hrest⟩ := length_of_container hlexeme
    rw [scan_container hquote hproperty hlexeme, scan_container hquote hproperty hlexeme]
    exact (cutOff_atPosition d _ _ _).bind fun draft =>
      (ihtree.mono (by omega)).bind fun tree => (ih draft tree).mono (by omega)
  case openEnd =>
    intro level size draft c ahead offset fault rest hlexeme
    rw [scan_openEnd hlexeme, scan_openEnd hlexeme]
    exact (cutOff_atPosition d _ _ _).bind fun _ => Or.inr ⟨nofun, rfl⟩
  case step =>
    intro level size draft c ahead lexeme rest _ _ hcontainer hopen hlexeme ih
    have hrest : rest.length < (c :: ahead).length := by
      simpa only [hlexeme] using g.lexeme_rest_lt c ahead
    rw [scan_step hcontainer hopen hlexeme, scan_step hcontainer hopen hlexeme]
    exact (cutOff_atPosition d _ _ _).bind fun draft => (ih draft).mono (by omega)

theorem cutOff_tokenize (hle : d ≤ d') (path : String) :
    CutOff d path.length (g.tokenize d path) (g.tokenize d' path) := by
  have hread := (cutOff_tokenizeAt_and_scan (g := g) hle).1 0 path.toList
  rwa [Nat.mul_zero, Nat.zero_add, String.length_toList] at hread

/-- **What is not too deep is read alike under every greater limit.** -/
theorem tokenize_of_le {path : String} (hle : d ≤ d')
    (h : g.tokenize d path ≠ .error (.tooDeep d)) : g.tokenize d' path = g.tokenize d path :=
  ((cutOff_tokenize hle path).resolve_left fun hdeep => h hdeep.1).2

/-- **A short text is not too deep.** -/
theorem tokenize_ne_tooDeep {path : String} (hshort : path.length < 2 * (d + 1)) :
    g.tokenize d path ≠ .error (.tooDeep d) :=
  ((cutOff_tokenize (Nat.le_refl d) path).resolve_left fun hdeep => by omega).1

end GraphPath.Grammar
