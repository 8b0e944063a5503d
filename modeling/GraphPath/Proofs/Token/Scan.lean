import GraphPath.Token.Scan

/-! # Scanning, lexeme by lexeme

One equation of `Grammar.scan` for each kind of lexeme.  A letter, a wildcard, a
modifier, a separator or a fault goes through `Draft.step` (`scan_step`); the kinds of
containers differ in how their interior is read, and in what is filed for it.
-/

namespace GraphPath.Grammar
variable {g : Grammar} {maxDepth level size : Nat} {d : Draft} {c x : Char}
  {ahead interior rest : List Char} {joins : Bool} {lexeme : Lexeme}

@[simp] theorem atPosition_ok {α : Type} (position : Nat) (a : α) :
    atPosition position (.ok a) = .ok a := rfl

@[simp] theorem atPosition_error {α : Type} (position : Nat) (fault : SyntaxFault) :
    atPosition (α := α) position (.error fault) = .error (.malformed position fault) := rfl

theorem scan_nil : g.scan maxDepth level size d [] = atPosition size d.finish := by rw [scan]

/-! ## Lexemes that are no containers -/

theorem scan_step (hcontainer : ∀ role interior joins, lexeme ≠ .container role interior joins)
    (hopen : ∀ offset fault, lexeme ≠ .openEnd offset fault)
    (h : g.lexeme c ahead = (lexeme, rest)) :
    g.scan maxDepth level size d (c :: ahead) =
      (atPosition (size - (c :: ahead).length) (d.step lexeme)).bind
        fun d => g.scan maxDepth level size d rest := by
  rw [scan]
  split <;> rename_i heq <;> rw [h] at heq <;> cases heq
  · exact absurd rfl (hcontainer _ _ _)
  · exact absurd rfl (hcontainer _ _ _)
  · exact absurd rfl (hcontainer _ _ _)
  · exact absurd rfl (hopen _ _)
  · rfl

theorem scan_letter (h : g.lexeme c ahead = (.letter x, rest)) :
    g.scan maxDepth level size d (c :: ahead) = g.scan maxDepth level size (d.push x) rest :=
  scan_step (by simp) (by simp) h

theorem scan_separator {role : SeparatorRole} (h : g.lexeme c ahead = (.separator role, rest)) :
    g.scan maxDepth level size d (c :: ahead) =
      (atPosition (size - (c :: ahead).length) (d.separate role)).bind
        fun d => g.scan maxDepth level size d rest :=
  scan_step (by simp) (by simp) h

/-! ## Containers -/

section
variable {role : ContainerRole} {enclosure : Enclosure}

theorem containerLexeme_eq_container
    (h : g.containerLexeme c enclosure ahead = (.container role interior joins, rest)) :
    enclosure.role = role ∧ capture c enclosure.closer 0 ahead = .closed interior rest ∧
      joins = g.joins rest := by
  unfold containerLexeme at h
  split at h <;> cases h
  rename_i hcapture
  exact ⟨rfl, hcapture, rfl⟩

/-- What an opener begins is a container, or one that never closes. -/
theorem containerLexeme_ne
    (hcontainer : ∀ role interior joins, lexeme ≠ .container role interior joins)
    (hopen : ∀ offset fault, lexeme ≠ .openEnd offset fault) :
    g.containerLexeme c enclosure ahead ≠ (lexeme, rest) := by
  unfold containerLexeme
  split <;> rintro ⟨⟩
  · exact hcontainer _ _ _ rfl
  · exact hopen _ _ rfl
  · exact hopen _ _ rfl

/-- **A container has been captured up to a closer**, and knows whether a collection separator
stands behind it. -/
theorem exists_capture_of_lexeme
    (h : g.lexeme c ahead = (.container role interior joins, rest)) :
    ∃ closer, capture c closer 0 ahead = .closed interior rest ∧ joins = g.joins rest := by
  unfold lexeme at h
  repeat' split at h
  all_goals first
    | exact ⟨_, (containerLexeme_eq_container h).2⟩
    | cases h

/-- An opener that is not taken for anything else begins a container, if its closer is found. -/
theorem lexeme_of_capture (hescape : c ≠ escapeChar) (hmodifier : g.modifier? c = none)
    (hseparator : g.separator? c = none) (henclosure : g.enclosure? c = some enclosure)
    (hcapture : capture c enclosure.closer 0 ahead = .closed interior rest) :
    g.lexeme c ahead = (.container enclosure.role interior (g.joins rest), rest) := by
  simp only [lexeme, if_neg hescape, hmodifier, hseparator, henclosure, containerLexeme, hcapture]

end

theorem scan_quote (h : g.lexeme c ahead = (.container .quote interior joins, rest)) :
    g.scan maxDepth level size d (c :: ahead) =
      (atPosition (size - (c :: ahead).length) d.fileWord).bind fun d =>
        let token := Token.word (String.ofList (unescape interior))
        g.scan maxDepth level size (d.enclose token [token] joins) rest := by
  rw [scan]
  split <;> simp_all
  rfl

theorem scan_property (h : g.lexeme c ahead = (.container .property interior joins, rest)) :
    g.scan maxDepth level size d (c :: ahead) =
      (atPosition (size - (c :: ahead).length) d.fileWord).bind fun d =>
        (g.tokenizeAt maxDepth (level + 1) interior).bind fun tree =>
          g.scan maxDepth level size (d.enclose (.container .property tree) tree joins) rest := by
  rw [scan]
  split <;> simp_all
  rfl

theorem scan_container {role : ContainerRole} (hquote : role ≠ .quote)
    (hproperty : role ≠ .property)
    (h : g.lexeme c ahead = (.container role interior joins, rest)) :
    g.scan maxDepth level size d (c :: ahead) =
      (atPosition (size - (c :: ahead).length) d.fileWord).bind fun d =>
        (g.tokenizeAt maxDepth (level + 1) interior).bind fun tree =>
          let token := Token.container role tree
          g.scan maxDepth level size (d.enclose token [token] joins) rest := by
  rw [scan]
  split <;> simp_all
  rfl

theorem scan_openEnd {offset : Nat} {fault : SyntaxFault}
    (h : g.lexeme c ahead = (.openEnd offset fault, rest)) :
    g.scan maxDepth level size d (c :: ahead) =
      (atPosition (size - (c :: ahead).length) d.fileWord).bind fun _ =>
        .error (.malformed (size - (c :: ahead).length + offset) fault) := by
  rw [scan]
  split <;> simp_all
  rfl

end GraphPath.Grammar
