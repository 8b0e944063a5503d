import Mathlib
import GraphPath.Proofs.Token.Capture
import GraphPath.Proofs.Token.Success
import GraphPath.Proofs.Token.Words

/-! # Paths behind paths

Two paths with a property separator between them are read as the tokens of the first one
followed by those of the second (`tokenize_joined`), whatever stands in them.  Three things
could go wrong, and a section is about each:

* what is read before a text could change how it is read; but tokens that are finished are
  never looked at again (`Scans.behind`);
* what stands behind a text could change how it is read; but a separator ends whatever the
  text ended with, and leaves a fresh draft (`Scans.append`);
* needless escapes are dropped from the text as a whole; but a text that is read does not
  end in an escape (`Scans.not_endsInEscape`).

Here and in the modules that follow, `cbv` reads paths with containers, by equations of library
functions.  These stand all over the library; with the whole of it at hand none is made anew.
-/

namespace GraphPath

/-! ## Drafts -/

namespace Draft
variable {d d' : Draft} {front : List Token} {tree : TokenTree} {lexeme : Lexeme}

/-- A draft with tokens in front of its own, and a separator behind them. -/
def behind (front : List Token) (d : Draft) : Draft :=
  { d with tokens := front ++ d.tokens, separated := true }

/-- The draft once its word is taken. -/
def taken (d : Draft) : Draft := { d with word := [], modifiers := {}, patterned := false }

/-- Whether anything has been read, in a way that the end of the text would notice. -/
def Begun (d : Draft) : Prop :=
  d.filled = true ∨ d.separated = true ∨ d.modifiers.isEmpty = false

/-- A draft in which the wildcard belongs to a word. -/
def Tidy (d : Draft) : Prop := d.patterned = true → d.word ≠ []

theorem takeWord_of_word (hword : d.word ≠ []) :
    d.takeWord = .ok (some d.wordToken, d.taken) := by
  have hempty : d.word.isEmpty = false := List.isEmpty_eq_false_iff.mpr hword
  simp only [takeWord, hempty, Bool.false_eq_true, if_false, taken]

theorem takeWord_of_no_word (hword : d.word = []) :
    d.takeWord = if d.modifiers.isEmpty then .ok (none, d) else .error .bareModifier := by
  simp only [takeWord, hword, List.isEmpty_nil, if_true]

/-- What an answer of `takeWord` means. -/
theorem takeWord_cases {word? : Option Token} (h : d.takeWord = .ok (word?, d')) :
    (d.word = [] ∧ d.modifiers.isEmpty = true ∧ word? = none ∧ d' = d) ∨
      (d.word ≠ [] ∧ word? = some d.wordToken ∧ d' = d.taken) := by
  by_cases hword : d.word = []
  · rw [takeWord_of_no_word hword] at h
    cases hmodifiers : d.modifiers.isEmpty with
    | false => simp [hmodifiers] at h
    | true =>
      rw [hmodifiers] at h
      cases h
      exact Or.inl ⟨hword, rfl, rfl, rfl⟩
  · rw [takeWord_of_word hword] at h
    cases h
    exact Or.inr ⟨hword, rfl, rfl⟩

/-- What the end of the text means, if anything has been read. -/
theorem finish_cases (hbegun : d.Begun) (h : d.finish = .ok tree) :
    (d.word ≠ [] ∧ tree = (d.taken.file d.wordToken).closeCollection.tokens) ∨
      (d.word = [] ∧ d.modifiers.isEmpty = true ∧ d.filled = true ∧
        tree = d.closeCollection.tokens) := by
  unfold finish at h
  split at h
  · cases h
  · rename_i token d' htake
    obtain ⟨-, -, hnone, -⟩ | ⟨hword, htoken, rfl⟩ := takeWord_cases htake
    · cases hnone
    · cases htoken
      exact Or.inl ⟨hword, (Except.ok.inj h).symm⟩
  · rename_i d' htake
    obtain ⟨hword, hmodifiers, -, rfl⟩ | ⟨-, hnone, -⟩ := takeWord_cases htake
    · rw [Begun, hmodifiers] at hbegun
      have hfilled : d'.filled = true := by
        by_cases hseparated : d'.separated = true <;> grind
      simp only [hfilled, Bool.not_true, Bool.and_false, Bool.false_eq_true, if_false] at h
      exact Or.inr ⟨hword, hmodifiers, hfilled, (Except.ok.inj h).symm⟩
    · cases hnone

/-! ### What stays as it is in front of a draft -/

theorem takeWord_behind (front : List Token) (d : Draft) :
    (d.behind front).takeWord = d.takeWord.map fun taken => (taken.1, taken.2.behind front) := by
  by_cases hword : d.word = []
  · rw [takeWord_of_no_word hword, takeWord_of_no_word (d := d.behind front) hword]
    show (if d.modifiers.isEmpty then _ else _) = _
    cases d.modifiers.isEmpty <;> rfl
  · rw [takeWord_of_word hword, takeWord_of_word (d := d.behind front) hword]
    rfl

theorem file_behind (front : List Token) (d : Draft) (token : Token) :
    (d.behind front).file token = (d.file token).behind front := by
  unfold file
  show (if d.members.isEmpty then _ else _) = _
  cases d.members.isEmpty <;> simp [behind]

theorem closeCollection_behind (front : List Token) (d : Draft) :
    (d.behind front).closeCollection = d.closeCollection.behind front := by
  unfold closeCollection
  show (if d.members.isEmpty then _ else _) = _
  cases d.members.isEmpty <;> simp [behind]

theorem fileWord_behind (front : List Token) (d : Draft) :
    (d.behind front).fileWord = d.fileWord.map (behind front) := by
  rw [fileWord, fileWord, takeWord_behind]
  rcases d.takeWord with fault | ⟨word?, d'⟩
  · rfl
  cases word? with
  | none => rfl
  | some token => exact congrArg Except.ok (file_behind front d' token)

theorem enclose_behind (front : List Token) (d : Draft) (member : Token) (alone : List Token)
    (joins : Bool) :
    (d.behind front).enclose member alone joins = (d.enclose member alone joins).behind front := by
  unfold enclose
  cases joins with
  | true => rfl
  | false =>
    cases hmembers : d.members.isEmpty <;> simp [behind, closeCollection, hmembers]

theorem separate_behind (front : List Token) (d : Draft) (role : SeparatorRole) :
    (d.behind front).separate role = (d.separate role).map (behind front) := by
  rw [separate, separate, takeWord_behind]
  rcases d.takeWord with fault | ⟨word?, d'⟩
  · rfl
  show (if word?.isNone && !d'.filled then _ else _) = _
  dsimp only
  cases word?.isNone && !d'.filled with
  | true => rfl
  | false =>
    cases role <;> cases word? <;> simp [Except.map, file_behind, closeCollection_behind] <;> rfl

theorem step_behind (front : List Token) (d : Draft) (lexeme : Lexeme) :
    (d.behind front).step lexeme = (d.step lexeme).map (behind front) := by
  cases lexeme with
  | separator role => exact separate_behind front d role
  | _ => rfl

theorem finish_behind (hbegun : d.Begun) (h : d.finish = .ok tree) (front : List Token) :
    (d.behind front).finish = .ok (front ++ tree) := by
  rw [finish, takeWord_behind]
  obtain ⟨hword, rfl⟩ | ⟨hword, hmodifiers, hfilled, rfl⟩ := finish_cases hbegun h
  · rw [takeWord_of_word hword]
    show Except.ok ((d.taken.behind front).file d.wordToken).closeCollection.tokens = _
    rw [file_behind, closeCollection_behind]
    rfl
  · rw [takeWord_of_no_word hword, hmodifiers]
    show (if true && !d.filled then _ else Except.ok (d.behind front).closeCollection.tokens) = _
    rw [hfilled, closeCollection_behind]
    rfl

/-! ### What a lexeme leaves behind -/

@[simp] theorem file_word (d : Draft) (token : Token) : (d.file token).word = d.word := by
  unfold file
  split <;> rfl

@[simp] theorem file_patterned (d : Draft) (token : Token) :
    (d.file token).patterned = d.patterned := by
  unfold file
  split <;> rfl

@[simp] theorem closeCollection_word (d : Draft) : d.closeCollection.word = d.word := by
  unfold closeCollection
  split <;> rfl

@[simp] theorem closeCollection_patterned (d : Draft) :
    d.closeCollection.patterned = d.patterned := by
  unfold closeCollection
  split <;> rfl

/-- Taking the word takes the wildcard with it. -/
theorem Tidy.takeWord {word? : Option Token} (hd : d.Tidy) (h : d.takeWord = .ok (word?, d')) :
    d'.Tidy := by
  obtain ⟨-, -, -, rfl⟩ | ⟨-, -, rfl⟩ := takeWord_cases h
  · exact hd
  · exact nofun

/-- A draft is tidy if another one with the same word is. -/
theorem Tidy.of_eq (hd : d.Tidy) (hpatterned : d'.patterned = d.patterned)
    (hword : d'.word = d.word) : d'.Tidy := by
  rw [Tidy, hpatterned, hword]
  exact hd

theorem Tidy.fileWord (hd : d.Tidy) (h : d.fileWord = .ok d') : d'.Tidy := by
  unfold Draft.fileWord at h
  split at h
  · cases h
  · rename_i htake
    cases h
    exact hd.takeWord htake
  · rename_i htake
    cases h
    exact (hd.takeWord htake).of_eq (file_patterned _ _) (file_word _ _)

theorem Tidy.enclose (hd : d.Tidy) (member : Token) (alone : List Token) (joins : Bool) :
    (d.enclose member alone joins).Tidy := by
  refine hd.of_eq ?_ ?_ <;> unfold Draft.enclose <;> dsimp only <;> split
  · rfl
  · split <;> simp
  · rfl
  · split <;> simp

/-- A separator is remembered, and leaves no word. -/
theorem Tidy.separate {role : SeparatorRole} (hd : d.Tidy) (h : d.separate role = .ok d') :
    d'.Tidy ∧ d'.separated = true := by
  unfold Draft.separate at h
  split at h
  · cases h
  rename_i word? taken htake
  split at h
  · cases h
  cases h
  refine ⟨(hd.takeWord htake).of_eq ?_ ?_, rfl⟩ <;> dsimp only <;> split <;> simp

/-- **After a lexeme a draft has begun, and is tidy if it was.** -/
theorem Tidy.step (hd : d.Tidy)
    (hcontainer : ∀ role interior joins, lexeme ≠ .container role interior joins)
    (hopen : ∀ offset fault, lexeme ≠ .openEnd offset fault) (h : d.step lexeme = .ok d') :
    d'.Tidy ∧ d'.Begun := by
  cases lexeme with
  | letter c =>
    cases h
    exact ⟨fun _ => by simp [push], Or.inl rfl⟩
  | wildcard =>
    cases h
    exact ⟨fun _ => by simp [push], Or.inl rfl⟩
  | modifier modifier =>
    cases h
    exact ⟨hd, Or.inr (Or.inr (Modifiers.isEmpty_add _ _))⟩
  | separator role =>
    obtain ⟨htidy, hseparated⟩ := hd.separate h
    exact ⟨htidy, Or.inr (Or.inl hseparated)⟩
  | container role interior joins => exact absurd rfl (hcontainer role interior joins)
  | openEnd offset fault => exact absurd rfl (hopen offset fault)
  | fault fault => cases h

theorem begun_enclose (d : Draft) (member : Token) (alone : List Token) (joins : Bool) :
    (d.enclose member alone joins).Begun := Or.inl rfl

/-- A draft without a word is fresh but for its tokens, once its collection is closed. -/
theorem closeCollection_eq_fresh (hword : d.word = []) (hmodifiers : d.modifiers = {})
    (hpatterned : d.patterned = false) :
    { d.closeCollection with filled := false, separated := true } =
      ({ tokens := d.closeCollection.tokens, separated := true } : Draft) := by
  obtain ⟨tokens, members, word, modifiers, patterned, filled, separated⟩ := d
  cases hword
  cases hmodifiers
  cases hpatterned
  cases members <;> rfl

/-- **A property separator does what the end of the text does**, and leaves a fresh draft. -/
theorem separate_of_finish (hd : d.Tidy) (hbegun : d.Begun) (h : d.finish = .ok tree) :
    d.separate .property = .ok { tokens := tree, separated := true } := by
  obtain ⟨hword, rfl⟩ | ⟨hword, hmodifiers, hfilled, rfl⟩ := finish_cases hbegun h
  · have hfile : d.taken.file d.wordToken = { d.taken.file d.wordToken with
        word := [], modifiers := {}, patterned := false } := by
      unfold file
      split <;> rfl
    rw [separate, takeWord_of_word hword]
    dsimp only
    rw [hfile]
    exact congrArg Except.ok (closeCollection_eq_fresh rfl rfl rfl)
  · have hpatterned : d.patterned = false := Bool.eq_false_iff.mpr fun h => hd h hword
    rw [separate, takeWord_of_no_word hword, hmodifiers]
    simp only [if_true, hfilled, Bool.not_true, Bool.and_false, Bool.false_eq_true, if_false]
    exact congrArg Except.ok (closeCollection_eq_fresh hword (beq_iff_eq.mp hmodifiers) hpatterned)

end Draft

/-! ## Lexemes in front of more text -/

/-- Whether a lexeme is all there: a container with its closer, an escape with what it escapes. -/
def Lexeme.isWhole : Lexeme → Bool
  | .openEnd .. | .fault .danglingEscape => false
  | _ => true

/-- A lexeme that leads on to a draft is whole. -/
theorem Lexeme.isWhole_of_step {lexeme : Lexeme} {d d' : Draft}
    (hopen : ∀ offset fault, lexeme ≠ .openEnd offset fault) (h : d.step lexeme = .ok d') :
    lexeme.isWhole = true := by
  cases lexeme with
  | openEnd offset fault => exact absurd rfl (hopen offset fault)
  | fault => cases h
  | _ => rfl

namespace Grammar
variable {g : Grammar} {maxDepth level : Nat} {d : Draft} {c : Char} {lexeme : Lexeme}
  {front : List Token} {ahead rest text tail : List Char} {tree all : TokenTree}

/-- **How a first lexeme comes about**: an escaped character, a character that is a lexeme whatever
follows, or an opener with its closer further on. -/
theorem lexeme_cases (hwhole : lexeme.isWhole = true) (h : g.lexeme c ahead = (lexeme, rest)) :
    (∃ x, c = escapeChar ∧ ahead = x :: rest ∧ lexeme = .letter x) ∨
      (c ≠ escapeChar ∧ rest = ahead ∧ ∀ more, g.lexeme c more = (lexeme, more)) ∨
      ∃ enclosure interior, c ≠ escapeChar ∧
        (∀ more, g.lexeme c more = g.containerLexeme c enclosure more) ∧
        capture c enclosure.closer 0 ahead = .closed interior rest ∧
        lexeme = .container enclosure.role interior (g.joins rest) := by
  by_cases hescape : c = escapeChar
  · subst hescape
    cases ahead with
    | nil =>
      cases h
      cases hwhole
    | cons x ahead =>
      cases h
      exact Or.inl ⟨x, rfl, rfl, rfl⟩
  refine Or.inr ?_
  simp only [Grammar.lexeme, if_neg hescape] at h ⊢
  cases hmodifier : g.modifier? c with
  | some modifier =>
    simp only [hmodifier] at h
    cases h
    exact Or.inl ⟨hescape, rfl, fun _ => rfl⟩
  | none =>
  cases hseparator : g.separator? c with
  | some role =>
    simp only [hmodifier, hseparator] at h
    cases h
    exact Or.inl ⟨hescape, rfl, fun _ => rfl⟩
  | none =>
  cases henclosure : g.enclosure? c with
  | some enclosure =>
    simp only [hmodifier, hseparator, henclosure, containerLexeme] at h
    split at h
    · rename_i interior rest hcapture
      cases h
      exact Or.inr ⟨enclosure, interior, hescape, fun _ => rfl, hcapture, rfl⟩
    · cases h
      cases hwhole
    · cases h
      cases hwhole
  | none =>
  simp only [hmodifier, hseparator, henclosure] at h ⊢
  by_cases hcloser : g.isCloser c = true
  · rw [if_pos hcloser] at h
    cases h
    exact Or.inl ⟨hescape, rfl, fun _ => if_pos hcloser⟩
  · rw [if_neg hcloser] at h
    simp only [if_neg hcloser]
    by_cases hwildcard : c = wildcardChar
    · rw [if_pos hwildcard] at h
      cases h
      exact Or.inl ⟨hescape, rfl, fun _ => if_pos hwildcard⟩
    · rw [if_neg hwildcard] at h
      cases h
      exact Or.inl ⟨hescape, rfl, fun _ => if_neg hwildcard⟩

/-- **The first lexeme of a text stays what it is** with more text behind, unless the text ends in
it; a container could only be joined to what follows. -/
theorem lexeme_append (hwhole : lexeme.isWhole = true) (htail : g.joins tail = false)
    (h : g.lexeme c ahead = (lexeme, rest)) :
    g.lexeme c (ahead ++ tail) = (lexeme, rest ++ tail) := by
  obtain ⟨x, rfl, rfl, rfl⟩ | ⟨-, rfl, hsame⟩ | ⟨enclosure, interior, -, hsame, hcapture, rfl⟩ :=
    lexeme_cases hwhole h
  · rfl
  · exact hsame _
  · have hjoins : g.joins (rest ++ tail) = g.joins rest := by
      cases rest with
      | nil => exact htail
      | cons x rest => rfl
    rw [hsame, containerLexeme, capture_append hcapture]
    dsimp only
    rw [hjoins]

/-! ## Scans in front of and behind others -/

/-- **What was read before a text stays as it is.** -/
theorem Scans.behind (h : g.Scans maxDepth level d text tree) (hd : d.Tidy)
    (hbegun : d.Begun ∨ text ≠ []) (front : List Token) :
    g.Scans maxDepth level (d.behind front) text (front ++ tree) := by
  induction h with
  | done hfinish => exact .done (Draft.finish_behind (hbegun.resolve_right (by simp)) hfinish front)
  | @step d d' c ahead rest lexeme tree hlexeme hcontainer hopen hstep _ ih =>
    obtain ⟨htidy, hnext⟩ := hd.step hcontainer hopen hstep
    refine .step hlexeme hcontainer hopen ?_ (ih htidy (Or.inl hnext))
    rw [Draft.step_behind, hstep]
    rfl
  | @container d d' c ahead interior rest role joins filed tree hlexeme hword hfiling _ ih =>
    have htidy : (d'.enclose filed.1 filed.2 joins).Tidy := (hd.fileWord hword).enclose _ _ _
    have hfile : (d.behind front).fileWord = .ok (d'.behind front) := by
      rw [Draft.fileWord_behind, hword]
      rfl
    refine .container hlexeme hfile hfiling ?_
    rw [Draft.enclose_behind]
    exact ih htidy (Or.inl (Draft.begun_enclose d' _ _ _))

/-- **What stands behind a property separator is read on its own**: the separator does what the end
of the text did. -/
theorem Scans.append (hg : g.Valid) (hmodifier : g.propertySeparator ∉ g.modifiers.keys)
    (h : g.Scans maxDepth level d text tree) (hd : d.Tidy) (hbegun : d.Begun ∨ text ≠ [])
    (htail : g.Scans maxDepth level { tokens := tree, separated := true } tail all) :
    g.Scans maxDepth level d (text ++ g.propertySeparator :: tail) all := by
  have hjoins : g.joins (g.propertySeparator :: tail) = false := by
    simp [joins, hg.separator?_propertySeparator]
  induction h with
  | done hfinish =>
    refine .step (hg.lexeme_propertySeparator hmodifier tail) (by simp) (by simp) ?_ htail
    exact Draft.separate_of_finish hd (hbegun.resolve_right (by simp)) hfinish
  | @step d d' c ahead rest lexeme tree hlexeme hcontainer hopen hstep _ ih =>
    obtain ⟨htidy, hnext⟩ := hd.step hcontainer hopen hstep
    exact .step (lexeme_append (Lexeme.isWhole_of_step hopen hstep) hjoins hlexeme) hcontainer hopen
      hstep
      (ih htidy (Or.inl hnext) htail)
  | @container d d' c ahead interior rest role joins filed tree hlexeme hword hfiling _ ih =>
    have htidy : (d'.enclose filed.1 filed.2 joins).Tidy := (hd.fileWord hword).enclose _ _ _
    exact .container (lexeme_append rfl hjoins hlexeme) hword hfiling
      (ih htidy (Or.inl (Draft.begun_enclose d' _ _ _)) htail)

/-! ## Texts whose needless escapes are dropped -/

/-- Whether a text ends in an escape with nothing to escape. -/
def endsInEscape : List Char → Bool
  | [] => false
  | [c] => c == escapeChar
  | c :: d :: rest => if c = escapeChar then endsInEscape rest else endsInEscape (d :: rest)

@[simp] theorem endsInEscape_escape_cons (c : Char) (rest : List Char) :
    endsInEscape (escapeChar :: c :: rest) = endsInEscape rest := by
  simp [endsInEscape]

theorem endsInEscape_cons_of_ne (hc : c ≠ escapeChar) (rest : List Char) :
    endsInEscape (c :: rest) = endsInEscape rest := by
  cases rest <;> simp [endsInEscape, hc]

theorem endsInEscape_of_capture {opener closer : Char} {depth : Nat} {interior : List Char}
    (h : capture opener closer depth text = .closed interior rest) :
    endsInEscape text = endsInEscape rest := by
  fun_induction capture opener closer depth text generalizing interior with
  | case1 => cases h
  | case2 => cases h
  | case3 depth c text ih =>
    obtain ⟨inner, hinner, -⟩ := Capture.prepend_eq_closed.mp h
    rw [endsInEscape_escape_cons, ih hinner]
  | case4 text hescape =>
    cases h
    exact endsInEscape_cons_of_ne hescape _
  | case5 text depth hescape ih | case6 depth text hescape _ ih | case7 depth c text hescape _ _ ih =>
    obtain ⟨inner, hinner, -⟩ := Capture.prepend_eq_closed.mp h
    rw [endsInEscape_cons_of_ne hescape, ih hinner]

/-- Whether a text ends in an escape is seen behind its first lexeme. -/
theorem endsInEscape_of_lexeme (hwhole : lexeme.isWhole = true)
    (h : g.lexeme c ahead = (lexeme, rest)) : endsInEscape (c :: ahead) = endsInEscape rest := by
  obtain ⟨x, rfl, rfl, -⟩ | ⟨hescape, rfl, -⟩ | ⟨_, _, hescape, -, hcapture, -⟩ :=
    lexeme_cases hwhole h
  · exact endsInEscape_escape_cons x rest
  · exact endsInEscape_cons_of_ne hescape _
  · exact (endsInEscape_cons_of_ne hescape _).trans (endsInEscape_of_capture hcapture)

/-- **A text that is read does not end in an escape.** -/
theorem Scans.not_endsInEscape (h : g.Scans maxDepth level d text tree) :
    endsInEscape text = false := by
  induction h with
  | done _ => rfl
  | step hlexeme _ hopen hstep _ ih =>
    exact (endsInEscape_of_lexeme (Lexeme.isWhole_of_step hopen hstep) hlexeme).trans ih
  | container hlexeme _ _ _ ih => exact (endsInEscape_of_lexeme rfl hlexeme).trans ih

/-- **Stripping leaves an escape at the end there.** -/
theorem endsInEscape_stripChars (text : List Char) :
    endsInEscape (g.stripChars text) = endsInEscape text := by
  fun_induction endsInEscape text with
  | case1 => rw [stripChars_nil]; rfl
  | case2 c => rfl
  | case3 d rest ih =>
    rw [stripChars_escape_cons, ← ih]
    by_cases hd : g.isSpecial d = true
    · rw [if_pos hd]
      exact endsInEscape_escape_cons d _
    · rw [if_neg hd]
      exact endsInEscape_cons_of_ne (ne_escapeChar_of_not_isSpecial (Bool.eq_false_iff.mpr hd)) _
  | case4 c d rest hescape ih =>
    rw [stripChars_cons_of_ne hescape, endsInEscape_cons_of_ne hescape, ih]

/-- A text that does not end in an escape is stripped on its own. -/
theorem stripChars_append (h : endsInEscape text = false) (tail : List Char) :
    g.stripChars (text ++ tail) = g.stripChars text ++ g.stripChars tail := by
  fun_induction endsInEscape text with
  | case1 => rw [stripChars_nil]; rfl
  | case2 c =>
    have hescape : c ≠ escapeChar := by simpa using h
    exact stripChars_cons_of_ne hescape tail
  | case3 d rest ih =>
    rw [List.cons_append, List.cons_append, stripChars_escape_cons, stripChars_escape_cons, ih h,
      List.append_assoc]
  | case4 c d rest hescape ih =>
    rw [List.cons_append, stripChars_cons_of_ne hescape, stripChars_cons_of_ne hescape, ih h]
    rfl

theorem stripChars_ne_nil (h : text ≠ []) : g.stripChars text ≠ [] := by
  fun_cases stripChars g text <;> simp_all

/-! ## Joined paths -/

/-- **Reading is compositional**: two paths that are read, with a property separator between them,
are read as the tokens of the first and then those of the second. -/
theorem tokenize_joined (hg : g.Reachable) (hsep : g.modifier? g.propertySeparator = none)
    {maxDepth : Nat} {p q : String} {t u : TokenTree} (hp : p ≠ "") (hq : q ≠ "")
    (htp : g.tokenize maxDepth p = .ok t) (htq : g.tokenize maxDepth q = .ok u) :
    g.tokenize maxDepth (p ++ g.propertySeparator.toString ++ q) = .ok (t ++ u) := by
  have hmodifier : g.propertySeparator ∉ g.modifiers.keys := modifier?_eq_none_iff.mp hsep
  have hne {path : String} (hpath : path ≠ "") : g.stripChars path.toList ≠ [] :=
    stripChars_ne_nil fun h => hpath (String.toList_eq_nil_iff.mp h)
  rw [tokenize_eq_scan, scan_eq_ok_iff] at htp htq
  have hends : endsInEscape p.toList = false := by
    rw [← endsInEscape_stripChars (g := g), htp.not_endsInEscape]
  have hstrip : g.stripChars (p ++ g.propertySeparator.toString ++ q).toList =
      g.stripChars p.toList ++ g.propertySeparator :: g.stripChars q.toList := by
    simp only [String.toList_append, Char.toString, String.toList_singleton, List.append_assoc]
    rw [stripChars_append hends, List.singleton_append,
      stripChars_cons_of_ne hg.valid.propertySeparator_ne_escapeChar]
  rw [tokenize_eq_scan, scan_eq_ok_iff, hstrip]
  refine htp.append hg.valid hmodifier nofun (Or.inr (hne hp)) ?_
  simpa [Draft.behind] using htq.behind nofun (Or.inr (hne hq)) t

/-- A collection that the path ends in, and a container and an escape behind the separator. -/
theorem tokenize_joined_collection :
    let p := "~a,'b.c'"
    let q := "[x](y,*).\\.z"
    let t := [Token.collection [.modified "a" { root := 1 }, .word "b.c"]]
    let u := [Token.word "x", .container .call [.collection [.word "y", .modified "*" {}]],
      .word ".z"]
    p ≠ "" ∧ q ≠ "" ∧ default.tokenize 1 p = .ok t ∧ default.tokenize 1 q = .ok u ∧
      default.tokenize 1 (p ++ "." ++ q) = .ok (t ++ u) := by
  intro p q t u
  have hp : p ≠ "" := by decide
  have hq : q ≠ "" := by decide
  have htp : default.tokenize 1 p = .ok t := by cbv
  have htq : default.tokenize 1 q = .ok u := by cbv
  exact ⟨hp, hq, htp, htq, tokenize_joined .initial (by decide) hp hq htp htq⟩

end Grammar

end GraphPath
