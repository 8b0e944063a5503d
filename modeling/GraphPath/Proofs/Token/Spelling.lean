import GraphPath.Proofs.Token.Joined
import GraphPath.Proofs.Token.Nesting
import GraphPath.Proofs.Token.Stripped

/-! # Texts made of whole lexemes

What stands in front of a place in a text, as far as it is lexemes that end before that place, is
**spelled** by them (`Grammar.Spells`).  Such a front is read first and as the same lexemes,
whatever stands behind it; only a container at its end looks one character ahead
(`lexeme_of_whole`).  A text that is read is spelled as a whole (`Scans.spelled`), and what stands
behind a spelled front is read from a draft of which the lexemes tell whether a word is at hand
(`Scans.behind_spelled`).
-/

namespace GraphPath

namespace Lexeme

/-- A lexeme that is told whether a collection separator follows. -/
def joined (joins : Bool) : Lexeme → Lexeme
  | .container role interior _ => .container role interior joins
  | lexeme => lexeme

@[simp] theorem isWhole_joined (joins : Bool) (lexeme : Lexeme) :
    (lexeme.joined joins).isWhole = lexeme.isWhole := by
  cases lexeme with
  | container role interior joins' => rfl
  | _ => rfl

theorem joined_eq_self {lexeme : Lexeme}
    (hcontainer : ∀ role interior joins, lexeme ≠ .container role interior joins) (joins : Bool) :
    lexeme.joined joins = lexeme := by
  cases lexeme with
  | container role interior joins' => exact absurd rfl (hcontainer role interior joins')
  | _ => rfl

/-- Whether a word is at hand behind a lexeme, if one may have been in front of it. -/
def leavesWord (atHand : Bool) : Lexeme → Bool
  | .letter _ | .wildcard => true
  | .modifier _ => atHand
  | _ => false

@[simp] theorem leavesWord_joined (joins atHand : Bool) (lexeme : Lexeme) :
    (lexeme.joined joins).leavesWord atHand = lexeme.leavesWord atHand := by
  cases lexeme <;> rfl

end Lexeme

/-- **Whether a word is at hand behind some lexemes**: letters begin one, modifiers leave things as
they are, and anything else ends it. -/
def wordBehind (atHand : Bool) (lexemes : List Lexeme) : Bool :=
  lexemes.foldl Lexeme.leavesWord atHand

namespace Grammar
variable {g : Grammar} {maxDepth level : Nat} {d : Draft} {c : Char} {lexeme : Lexeme}
  {lexemes lexemes' : List Lexeme} {used front ahead rest text tail : List Char} {tree : TokenTree}

/-! ## Whole lexemes -/

/-- A character that is a lexeme whatever follows is no container, which takes text to close. -/
theorem ne_container_of_same (h : ∀ more, g.lexeme c more = (lexeme, more)) (role : ContainerRole)
    (interior : List Char) (joins : Bool) : lexeme ≠ .container role interior joins := by
  rintro rfl
  obtain ⟨closer, hcapture, -⟩ := exists_capture_of_lexeme (h [])
  cases hcapture

/-- **A whole lexeme is taken off with any text behind it.** -/
theorem lexeme_of_whole (hwhole : lexeme.isWhole = true) (h : g.lexeme c used = (lexeme, []))
    (tail : List Char) :
    g.lexeme c (used ++ tail) = (lexeme.joined (g.joins tail), tail) := by
  obtain ⟨x, rfl, rfl, rfl⟩ | ⟨-, rfl, hsame⟩ | ⟨enclosure, interior, -, hsame, hcapture, rfl⟩ :=
    lexeme_cases hwhole h
  · rfl
  · rw [Lexeme.joined_eq_self (ne_container_of_same hsame)]
    exact hsame tail
  · rw [hsame, containerLexeme, capture_append hcapture]
    rfl

/-- A whole lexeme takes its own text off, and leaves what is behind. -/
theorem exists_used_of_lexeme (hwhole : lexeme.isWhole = true)
    (h : g.lexeme c ahead = (lexeme, rest)) :
    ∃ used, ahead = used ++ rest ∧ g.lexeme c used = (lexeme.joined false, []) := by
  obtain ⟨x, rfl, rfl, rfl⟩ | ⟨-, rfl, hsame⟩ | ⟨enclosure, interior, -, hsame, hcapture, rfl⟩ :=
    lexeme_cases hwhole h
  · exact ⟨[x], rfl, rfl⟩
  · rw [Lexeme.joined_eq_self (ne_container_of_same hsame)]
    exact ⟨[], rfl, hsame []⟩
  · obtain ⟨hcloser, rfl, hbalanced⟩ := capture_eq_closed_iff.mp hcapture
    refine ⟨interior ++ [enclosure.closer], by simp, ?_⟩
    rw [hsame, containerLexeme, capture_eq_closed_iff.mpr ⟨hcloser, rfl, hbalanced⟩]
    rfl

/-! ## Containers and faults -/

section
variable {role : ContainerRole} {interior : List Char} {joins : Bool} {enclosure : Enclosure}
  {offset : Nat} {fault : SyntaxFault}

theorem containerLexeme_eq_openEnd
    (h : g.containerLexeme c enclosure ahead = (.openEnd offset fault, rest)) :
    (capture c enclosure.closer 0 ahead = .unclosed ∧ offset = 0 ∧
        fault = .unclosed c enclosure.closer) ∨
      ∃ before, capture c enclosure.closer 0 ahead = .dangling before ∧ offset = before + 1 ∧
        fault = .danglingEscape := by
  unfold containerLexeme at h
  split at h <;> cases h
  · exact Or.inl ⟨‹_›, rfl, rfl⟩
  · exact Or.inr ⟨_, ‹_›, rfl, rfl⟩

/-- A container is read at its opener, up to its closer. -/
theorem exists_enclosure_of_lexeme
    (h : g.lexeme c ahead = (.container role interior joins, rest)) :
    c ≠ escapeChar ∧ ∃ closer, g.enclosure? c = some ⟨closer, role⟩ ∧ closer ≠ escapeChar ∧
      ahead = interior ++ closer :: rest ∧ Balanced c closer interior := by
  have hclosed {enclosure : Enclosure} (henclosure : g.enclosure? c = some enclosure)
      (h : g.containerLexeme c enclosure ahead = (.container role interior joins, rest)) :
      ∃ closer, g.enclosure? c = some ⟨closer, role⟩ ∧ closer ≠ escapeChar ∧
        ahead = interior ++ closer :: rest ∧ Balanced c closer interior := by
    obtain ⟨rfl, hcapture, -⟩ := containerLexeme_eq_container h
    exact ⟨enclosure.closer, henclosure, capture_eq_closed_iff.mp hcapture⟩
  unfold lexeme at h
  repeat' split at h
  all_goals first
    | exact ⟨‹_›, hclosed ‹_› h⟩
    | cases h

/-- A container never closes if its closer is missing, or if the text ends in an escape. -/
theorem exists_enclosure_of_openEnd (h : g.lexeme c ahead = (.openEnd offset fault, rest)) :
    ∃ enclosure, g.enclosure? c = some enclosure ∧
      ((capture c enclosure.closer 0 ahead = .unclosed ∧ offset = 0 ∧
          fault = .unclosed c enclosure.closer) ∨
        ∃ before, capture c enclosure.closer 0 ahead = .dangling before ∧ offset = before + 1 ∧
          fault = .danglingEscape) := by
  unfold lexeme at h
  repeat' split at h
  all_goals first
    | exact ⟨_, ‹_›, containerLexeme_eq_openEnd h⟩
    | cases h

/-- A first character is out of place if it is an escape at the end, or a closer. -/
theorem fault_of_lexeme (h : g.lexeme c ahead = (.fault fault, rest)) :
    (c = escapeChar ∧ ahead = [] ∧ fault = .danglingEscape) ∨
      (g.isCloser c = true ∧ fault = .strayCloser c) := by
  unfold lexeme at h
  repeat' split at h
  all_goals first
    | cases h; exact Or.inl ⟨‹_›, rfl, rfl⟩
    | cases h; exact Or.inr ⟨‹_›, rfl⟩
    | unfold containerLexeme at h; split at h <;> cases h
    | cases h

end

/-- Whether a character ends the word in front of it: a separator or an opener. -/
def endsWord (g : Grammar) (c : Char) : Prop :=
  (∃ role, g.separator? c = some role) ∨ ∃ enclosure, g.enclosure? c = some enclosure

/-! ## Spelling -/

/-- **A text is spelled by lexemes**: it is one whole lexeme after the other, up to its end. -/
inductive Spells (g : Grammar) : List Char → List Lexeme → Prop
  /-- No text at all. -/
  | nil : Spells g [] []
  /-- A lexeme with all of its text, and more text behind. -/
  | cons {c : Char} {used rest : List Char} {lexeme : Lexeme} {lexemes : List Lexeme}
      (hlexeme : g.lexeme c used = (lexeme, [])) (hwhole : lexeme.isWhole = true)
      (hrest : Spells g rest lexemes) : Spells g (c :: (used ++ rest)) (lexeme :: lexemes)

theorem Spells.append (h : g.Spells front lexemes) (h' : g.Spells text lexemes') :
    g.Spells (front ++ text) (lexemes ++ lexemes') := by
  induction h with
  | nil => exact h'
  | cons hlexeme hwhole _ ih =>
    rw [List.cons_append, List.append_assoc]
    exact .cons hlexeme hwhole ih

/-- The text that a whole lexeme is taken off begins with the text that it spells. -/
theorem exists_spells_of_lexeme (hwhole : lexeme.isWhole = true)
    (h : g.lexeme c ahead = (lexeme, rest)) :
    ∃ used, ahead = used ++ rest ∧ g.Spells (c :: used) [lexeme.joined false] := by
  obtain ⟨used, hused, hlexeme⟩ := exists_used_of_lexeme hwhole h
  have hspells := Spells.cons hlexeme (by rwa [Lexeme.isWhole_joined]) .nil
  rw [List.append_nil] at hspells
  exact ⟨used, hused, hspells⟩

/-- A spelled text does not end in an escape. -/
theorem Spells.not_endsInEscape (h : g.Spells text lexemes) : endsInEscape text = false := by
  induction h with
  | nil => rfl
  | cons hlexeme hwhole _ ih =>
    refine (endsInEscape_of_lexeme ?_ (lexeme_of_whole hwhole hlexeme _)).trans ih
    rwa [Lexeme.isWhole_joined]

/-- A spelled front is stripped on its own. -/
theorem Spells.stripChars_append (h : g.Spells front lexemes) (tail : List Char) :
    g.stripChars (front ++ tail) = g.stripChars front ++ g.stripChars tail :=
  Grammar.stripChars_append h.not_endsInEscape tail

/-- **A text that is read is spelled.** -/
theorem Scans.spelled (h : g.Scans maxDepth level d text tree) :
    ∃ lexemes, g.Spells text lexemes := by
  induction h with
  | done _ => exact ⟨[], .nil⟩
  | step hlexeme _ hopen hstep _ ih =>
    obtain ⟨lexemes, hrest⟩ := ih
    obtain ⟨used, rfl, hfirst⟩ :=
      exists_spells_of_lexeme (Lexeme.isWhole_of_step hopen hstep) hlexeme
    exact ⟨_, hfirst.append hrest⟩
  | container hlexeme _ _ _ ih =>
    obtain ⟨lexemes, hrest⟩ := ih
    obtain ⟨used, rfl, hfirst⟩ := exists_spells_of_lexeme rfl hlexeme
    exact ⟨_, hfirst.append hrest⟩

end Grammar

/-! ## The word at hand -/

namespace Draft
variable {d d' : Draft} {lexeme : Lexeme}

/-- Taking the word leaves none. -/
theorem word_of_takeWord {word? : Option Token} (h : d.takeWord = .ok (word?, d')) :
    d'.word = [] := by
  obtain ⟨hword, -, -, rfl⟩ | ⟨-, -, rfl⟩ := takeWord_cases h
  · exact hword
  · rfl

theorem word_of_fileWord (h : d.fileWord = .ok d') : d'.word = [] := by
  unfold fileWord at h
  split at h
  · cases h
  · rename_i htake
    cases h
    exact word_of_takeWord htake
  · rename_i htake
    cases h
    rw [file_word]
    exact word_of_takeWord htake

@[simp] theorem enclose_word (d : Draft) (member : Token) (alone : List Token) (joins : Bool) :
    (d.enclose member alone joins).word = d.word := by
  unfold enclose
  dsimp only
  split
  · rfl
  · split
    · rfl
    · exact closeCollection_word _

theorem word_of_separate {role : SeparatorRole} (h : d.separate role = .ok d') : d'.word = [] := by
  unfold separate at h
  split at h
  · cases h
  rename_i word? taken htake
  split at h
  · cases h
  cases h
  dsimp only
  split <;> simp [word_of_takeWord htake]

/-- **Whether a word is at hand is told by the lexeme.** -/
theorem isEmpty_word_of_step
    (hcontainer : ∀ role interior joins, lexeme ≠ .container role interior joins)
    (hopen : ∀ offset fault, lexeme ≠ .openEnd offset fault) (h : d.step lexeme = .ok d') :
    (!d'.word.isEmpty) = lexeme.leavesWord (!d.word.isEmpty) := by
  cases lexeme with
  | letter c =>
    cases h
    show (!(d.word ++ [c]).isEmpty) = true
    simp
  | wildcard =>
    cases h
    show (!(d.word ++ [wildcardChar]).isEmpty) = true
    simp
  | modifier modifier =>
    cases h
    rfl
  | separator role =>
    rw [word_of_separate h]
    rfl
  | container role interior joins => exact absurd rfl (hcontainer role interior joins)
  | openEnd offset fault => exact absurd rfl (hopen offset fault)
  | fault fault => cases h

end Draft

namespace Grammar
variable {g : Grammar} {maxDepth level : Nat} {d : Draft} {lexemes : List Lexeme}
  {front text : List Char} {tree : TokenTree}

/-- **What stands behind a spelled front is read from some draft on**, in which a word is at hand if
the lexemes leave one. -/
theorem Scans.behind_spelled (hfront : g.Spells front lexemes)
    (h : g.Scans maxDepth level d (front ++ text) tree) :
    ∃ d', g.Scans maxDepth level d' text tree ∧
      (!d'.word.isEmpty) = wordBehind (!d.word.isEmpty) lexemes := by
  induction hfront generalizing d with
  | nil => exact ⟨d, h, rfl⟩
  | @cons c used rest lexeme lexemes hlexeme hwhole _ ih =>
    have hahead := lexeme_of_whole hwhole hlexeme (rest ++ text)
    rw [List.cons_append, List.append_assoc] at h
    -- the scan can only have taken the lexeme of the front
    cases h with
    | step hstepped hcontainer hopen hstep hscans =>
      obtain ⟨rfl, rfl⟩ := Prod.mk.inj (hahead.symm.trans hstepped)
      obtain ⟨d', hd', hword⟩ := ih hscans
      rw [Draft.isEmpty_word_of_step hcontainer hopen hstep, Lexeme.leavesWord_joined] at hword
      exact ⟨d', hd', hword⟩
    | container hfiled hfile hfiling hscans =>
      obtain ⟨hjoined, rfl⟩ := Prod.mk.inj (hahead.symm.trans hfiled)
      obtain ⟨d', hd', hword⟩ := ih hscans
      refine ⟨d', hd', ?_⟩
      have hleaves := Lexeme.leavesWord_joined (g.joins (rest ++ text)) (!d.word.isEmpty) lexeme
      rw [hjoined] at hleaves
      rw [Draft.enclose_word, Draft.word_of_fileWord hfile] at hword
      rw [hword, wordBehind, wordBehind, List.foldl_cons, ← hleaves]
      rfl

end Grammar

end GraphPath
