import GraphPath.Proofs.Token.Positions

/-! # Modifiers at the end of a word

A modifier stands in front of the word that it modifies.  One that stands behind its segment's word
instead, with a separator, an opener or the end of the path next, modifies that word all the
same: modifiers and letters of a segment are collected apart, and all that is asked in the end is
whether there are letters.  So **a path with a modifier where no word follows is read like the path
with the modifier in front of the word before it**, and it is rejected only if there is no such word
(`tokenize_bareModifier`).
-/

namespace GraphPath

/-! ## Words -/

namespace Lexeme

/-- Whether a lexeme is a letter of a word, the wildcard included. -/
def isLetter : Lexeme → Bool
  | .letter _ | .wildcard => true
  | _ => false

/-- Whether a lexeme leaves a word open: a letter, or a modifier. -/
def staysInWord : Lexeme → Bool
  | .letter _ | .wildcard | .modifier _ => true
  | _ => false

end Lexeme

/-- The order of modifiers does not matter. -/
theorem Modifiers.add_right_comm (m : Modifiers) (a b : Modifier) :
    (m.add a).add b = (m.add b).add a := by
  cases a <;> cases b <;> rfl

namespace Draft
variable {d : Draft} {lexeme : Lexeme}

/-- A draft with one more modifier. -/
def modify (d : Draft) (modifier : Modifier) : Draft :=
  { d with modifiers := d.modifiers.add modifier }

/-- **Modifiers and letters are collected apart**: which comes first makes no difference. -/
theorem exists_step_modify (h : lexeme.staysInWord = true) (d : Draft) :
    ∃ d', d.step lexeme = .ok d' ∧
      ∀ modifier, (d.modify modifier).step lexeme = .ok (d'.modify modifier) := by
  cases lexeme with
  | letter c => exact ⟨_, rfl, fun _ => rfl⟩
  | wildcard => exact ⟨_, rfl, fun _ => rfl⟩
  | modifier other =>
    refine ⟨_, rfl, fun modifier => ?_⟩
    exact congrArg (fun modifiers => Except.ok { d with modifiers })
      (d.modifiers.add_right_comm modifier other)
  | separator | container | openEnd | fault => cases h

/-- Modifiers without a word are an error, whatever ends them. -/
theorem takeWord_bare (hword : d.word = []) (modifier : Modifier) :
    (d.modify modifier).takeWord = .error .bareModifier := by
  rw [takeWord_of_no_word (d := d.modify modifier) hword]
  exact if_neg (by simp [modify, Modifiers.isEmpty_add])

end Draft

namespace Grammar
variable {g : Grammar} {maxDepth level size : Nat} {d : Draft} {c : Char} {lexeme : Lexeme}
  {lexemes : List Lexeme} {modifier : Modifier} {front word rest ahead t u : List Char}
  {tree : TokenTree}

/-- The text of a word, with modifiers in it and behind it: it begins with a letter. -/
def SpellsWord (g : Grammar) (word : List Char) : Prop :=
  ∃ lexeme lexemes, g.Spells word (lexeme :: lexemes) ∧ lexeme.isLetter = true ∧
    ∀ lexeme ∈ lexemes, lexeme.staysInWord = true

/-- **A text that ends in a word**, which begins behind `before`. -/
structure EndsInWord (g : Grammar) (text before word : List Char) : Prop where
  /-- The word is the end of the text. -/
  text_eq : text = before ++ word
  /-- No word is at hand in front of it. -/
  front : ∃ lexemes, g.Spells before lexemes ∧ wordBehind false lexemes = false
  /-- It is a word, as far as the text goes. -/
  word : g.SpellsWord word

/-- If a word is at hand behind a text, it began in the text, or was at hand before. -/
theorem exists_spellsWord {atHand : Bool} (hfront : g.Spells front lexemes)
    (h : wordBehind atHand lexemes = true) :
    (atHand = true ∧ ∀ lexeme ∈ lexemes, lexeme.staysInWord = true) ∨
      ∃ before befores word, front = before ++ word ∧ g.Spells before befores ∧
        wordBehind atHand befores = false ∧ g.SpellsWord word := by
  induction hfront generalizing atHand with
  | nil => exact Or.inl ⟨h, by simp⟩
  | @cons c used rest lexeme lexemes hlexeme hwhole hrest ih =>
    obtain ⟨hatHand, hstays⟩ | ⟨before, befores, word, rfl, hbefore, hnone, hword⟩ := ih h
    · cases lexeme with
      | letter | wildcard =>
        cases atHand with
        | true => exact Or.inl ⟨rfl, List.forall_mem_cons.mpr ⟨rfl, hstays⟩⟩
        | false =>
          -- the word begins here
          exact Or.inr ⟨[], [], _, rfl, .nil, rfl, _, _, .cons hlexeme hwhole hrest, rfl, hstays⟩
      | modifier other => exact Or.inl ⟨hatHand, List.forall_mem_cons.mpr ⟨rfl, hstays⟩⟩
      | separator | container | openEnd | fault => cases hatHand
    · refine Or.inr ⟨_, _, word, ?_, .cons hlexeme hwhole hbefore, hnone, hword⟩
      rw [List.cons_append, List.append_assoc]

theorem exists_endsInWord (hfront : g.Spells front lexemes)
    (h : wordBehind false lexemes = true) : ∃ before word, g.EndsInWord front before word := by
  obtain ⟨hatHand, -⟩ | ⟨before, befores, word, htext, hbefore, hnone, hword⟩ :=
    exists_spellsWord hfront h
  · cases hatHand
  · exact ⟨before, word, htext, ⟨befores, hbefore, hnone⟩, hword⟩

/-! ## Moving a modifier to the front of the word -/

/-- The lexemes of a word stay in it with any text behind. -/
theorem lexeme_of_staysInWord (hstays : lexeme.staysInWord = true)
    (h : g.lexeme c ahead = (lexeme, [])) (tail : List Char) :
    g.lexeme c (ahead ++ tail) = (lexeme, tail) := by
  cases lexeme with
  | letter | wildcard | modifier => exact lexeme_of_whole rfl h tail
  | separator | container | openEnd | fault => cases hstays

/-- A lexeme of a word leads on to a draft, wherever it stands. -/
theorem Valid.scan_staysInWord (hg : g.Valid) {d' : Draft} (hstays : lexeme.staysInWord = true)
    (h : g.lexeme c ahead = (lexeme, rest)) (hstep : d.step lexeme = .ok d') :
    g.scan maxDepth level size d (g.stripChars (c :: ahead)) =
      g.scan maxDepth level size d' (g.stripChars rest) := by
  have hplain : (∀ role interior joins, lexeme ≠ .container role interior joins) ∧
      ∀ offset fault, lexeme ≠ .openEnd offset fault := by
    cases lexeme with
    | letter | wildcard | modifier => exact ⟨nofun, nofun⟩
    | separator | container | openEnd | fault => cases hstays
  rw [hg.scan_step_stripChars hplain.1 hplain.2 h, hstep]
  rfl

theorem Valid.scan_modifier (hg : g.Valid) (hc : g.modifier? c = some modifier)
    (rest : List Char) :
    g.scan maxDepth level size d (g.stripChars (c :: rest)) =
      g.scan maxDepth level size (d.modify modifier) (g.stripChars rest) := by
  have hescape : c ≠ escapeChar := hg.ne_escapeChar (mem_roleChars_of_modifier? hc)
  exact hg.scan_staysInWord rfl (lexeme_of_modifier? hescape hc rest) rfl

/-- **A modifier behind a word does what it does in front of it.** -/
theorem Valid.scan_word_modifier (hg : g.Valid) (hc : g.modifier? c = some modifier)
    (hword : g.Spells word lexemes) (hstays : ∀ lexeme ∈ lexemes, lexeme.staysInWord = true)
    (rest : List Char) (d : Draft) :
    g.scan maxDepth level size d (g.stripChars (word ++ c :: rest)) =
      g.scan maxDepth level size d (g.stripChars (c :: (word ++ rest))) := by
  induction hword generalizing d with
  | nil => rfl
  | @cons x used more lexeme lexemes hlexeme hwhole _ ih =>
    obtain ⟨hfirst, hothers⟩ := List.forall_mem_cons.mp hstays
    obtain ⟨d', hstep, hmodify⟩ := Draft.exists_step_modify hfirst d
    have htext (tail : List Char) :
        x :: (used ++ more) ++ tail = x :: (used ++ (more ++ tail)) := by simp
    have hlexeme := lexeme_of_staysInWord hfirst hlexeme
    calc g.scan maxDepth level size d (g.stripChars (x :: (used ++ more) ++ c :: rest))
        = g.scan maxDepth level size d' (g.stripChars (more ++ c :: rest)) := by
          rw [htext, hg.scan_staysInWord hfirst (hlexeme _) hstep]
      _ = g.scan maxDepth level size (d'.modify modifier) (g.stripChars (more ++ rest)) := by
          rw [ih hothers, hg.scan_modifier hc]
      _ = g.scan maxDepth level size (d.modify modifier)
            (g.stripChars (x :: (used ++ more) ++ rest)) := by
          rw [htext, hg.scan_staysInWord hfirst (hlexeme _) (hmodify modifier)]
      _ = g.scan maxDepth level size d (g.stripChars (c :: (x :: (used ++ more) ++ rest))) := by
          rw [hg.scan_modifier hc]

/-- Whether a text begins with a collection separator is seen from its first character. -/
theorem joins_append (front : List Char) (h : g.joins t = g.joins u) :
    g.joins (front ++ t) = g.joins (front ++ u) := by
  cases front with
  | nil => exact h
  | cons c front => rfl

/-- **Texts that are scanned alike are scanned alike behind any front**, if they are equally long
and both or neither begin with a collection separator. -/
theorem Valid.scan_behind_congr (hg : g.Valid) (hfront : g.Spells front lexemes)
    (hjoins : g.joins t = g.joins u)
    (hlength : (g.stripChars t).length = (g.stripChars u).length)
    (h : ∀ d, g.scan maxDepth level size d (g.stripChars t) =
      g.scan maxDepth level size d (g.stripChars u)) (d : Draft) :
    g.scan maxDepth level size d (g.stripChars (front ++ t)) =
      g.scan maxDepth level size d (g.stripChars (front ++ u)) := by
  induction hfront generalizing d with
  | nil => exact h d
  | @cons c used rest lexeme lexemes hlexeme hwhole hrest ih =>
    have hplace : (g.stripChars (c :: (used ++ (rest ++ t)))).length =
        (g.stripChars (c :: (used ++ (rest ++ u)))).length := by
      have hspelled := Spells.cons hlexeme hwhole hrest
      have ht := congrArg List.length (hspelled.stripChars_append t)
      have hu := congrArg List.length (hspelled.stripChars_append u)
      simp only [List.cons_append, List.append_assoc, List.length_append] at ht hu
      omega
    have htext (tail : List Char) :
        c :: (used ++ rest) ++ tail = c :: (used ++ (rest ++ tail)) := by simp
    -- both texts begin with the same lexeme, with as much behind it
    have hleft := lexeme_of_whole hwhole hlexeme (rest ++ t)
    have hright := lexeme_of_whole hwhole hlexeme (rest ++ u)
    rw [← joins_append rest hjoins] at hright
    rw [htext, htext]
    cases lexeme with
    | container role interior joins =>
      rw [hg.scan_filing_stripChars hleft, hg.scan_filing_stripChars hright, hplace]
      simp only [ih]
    | openEnd => cases hwhole
    | letter | wildcard | modifier | separator | fault =>
      simp only [Lexeme.joined] at hleft hright
      rw [hg.scan_step_stripChars (by simp) (by simp) hleft,
        hg.scan_step_stripChars (by simp) (by simp) hright, hplace]
      simp only [ih]

/-- A word does not begin with a separator. -/
theorem Valid.joins_eq_false_of_isLetter (hg : g.Valid) (hletter : lexeme.isLetter = true)
    (h : g.lexeme c ahead = (lexeme, rest)) : g.joins (c :: ahead) = false := by
  rw [joins, beq_eq_false_iff_ne]
  intro hseparator
  have hescape : c ≠ escapeChar := hg.ne_escapeChar (mem_roleChars_of_separator? hseparator)
  cases hmodifier : g.modifier? c with
  | some modifier =>
    rw [lexeme_of_modifier? hescape hmodifier] at h
    cases h
    cases hletter
  | none =>
    rw [lexeme_of_separator? hescape hmodifier hseparator] at h
    cases h
    cases hletter

/-- **A text with a modifier behind a word is read like the text with the modifier in front of the
word**, faults and their positions included. -/
theorem Valid.tokenizeAt_word_modifier (hg : g.Valid) (hc : g.modifier? c = some modifier)
    (hseparator : g.separator? c = none) (hfront : g.Spells front lexemes)
    (hword : g.SpellsWord word) (rest : List Char) (level : Nat) :
    g.tokenizeAt maxDepth level (front ++ (word ++ c :: rest)) =
      g.tokenizeAt maxDepth level (front ++ c :: (word ++ rest)) := by
  obtain ⟨lexeme, lexemes, hspelled, hletter, hothers⟩ := hword
  have hescape : c ≠ escapeChar := hg.ne_escapeChar (mem_roleChars_of_modifier? hc)
  have hstays : ∀ l ∈ lexeme :: lexemes, l.staysInWord = true := by
    refine List.forall_mem_cons.mpr ⟨?_, hothers⟩
    cases lexeme <;> first | rfl | cases hletter
  -- a container in front of the word sees no separator behind it, nor in front of the modifier
  have hjoins : g.joins (word ++ c :: rest) = g.joins (c :: (word ++ rest)) := by
    have hright : g.joins (c :: (word ++ rest)) = false := by simp [joins, hseparator]
    rw [hright]
    cases hspelled with
    | cons hlexeme hwhole hrest =>
      rw [List.cons_append, List.append_assoc]
      have hfirst := hstays lexeme List.mem_cons_self
      exact hg.joins_eq_false_of_isLetter hletter (lexeme_of_staysInWord hfirst hlexeme _)
  have hlength : (g.stripChars (word ++ c :: rest)).length =
      (g.stripChars (c :: (word ++ rest))).length := by
    rw [stripChars_cons_of_ne hescape, hspelled.stripChars_append, hspelled.stripChars_append,
      stripChars_cons_of_ne hescape]
    simp only [List.length_append, List.length_cons]
    omega
  have hsize : (g.stripChars (front ++ (word ++ c :: rest))).length =
      (g.stripChars (front ++ c :: (word ++ rest))).length := by
    rw [hfront.stripChars_append, hfront.stripChars_append, List.length_append, List.length_append,
      hlength]
  rw [tokenizeAt, tokenizeAt, hsize]
  split
  · rfl
  · refine hg.scan_behind_congr hfront hjoins hlength ?_ {}
    exact hg.scan_word_modifier hc hspelled hstays rest

/-! ## Modifiers without a word -/

/-- **Modifiers in front of no word are not read**, if the text ends there, or goes on with a
separator or a container. -/
theorem Valid.not_scans_modify (hg : g.Valid) (hword : d.word = [])
    (hrest : ∀ x ∈ rest.head?, g.modifier? x = none ∧ g.endsWord x) :
    ¬ g.Scans maxDepth level (d.modify modifier) rest tree := by
  have hbare := Draft.takeWord_bare hword modifier
  intro h
  cases h with
  | done hfinish =>
    rw [Draft.finish, hbare] at hfinish
    cases hfinish
  | container _ hfile =>
    rw [Draft.fileWord, hbare] at hfile
    cases hfile
  | @step _ _ x _ _ _ _ hlexeme hcontainer hopen hstep =>
    obtain ⟨hmodifier, hends⟩ := hrest x rfl
    cases hseparator : g.separator? x with
    | some role =>
      have hescape : x ≠ escapeChar := hg.ne_escapeChar (mem_roleChars_of_separator? hseparator)
      rw [lexeme_of_separator? hescape hmodifier hseparator] at hlexeme
      cases hlexeme
      rw [Draft.step, Draft.separate, hbare] at hstep
      cases hstep
    | none =>
      obtain ⟨role, hrole⟩ | ⟨enclosure, henclosure⟩ := hends
      · cases hseparator.symm.trans hrole
      have hescape : x ≠ escapeChar :=
        hg.ne_escapeChar (mem_roleChars_of_enclosure? henclosure).1
      simp only [lexeme, if_neg hescape, hmodifier, hseparator, henclosure] at hlexeme
      exact containerLexeme_ne hcontainer hopen hlexeme

/-- **A modifier behind no word, with no word behind it, is not read.** -/
theorem Valid.not_scans_bareModifier (hg : g.Valid) (hfront : g.Spells front lexemes)
    (hnone : wordBehind false lexemes = false) (hc : g.modifier? c = some modifier)
    (hrest : ∀ x ∈ rest.head?, g.modifier? x = none ∧ g.endsWord x) :
    ¬ g.Scans maxDepth level {} (front ++ c :: rest) tree := by
  intro h
  -- the scan comes to the modifier with no word at hand, and goes on with modifiers only
  obtain ⟨d, hscans, hword⟩ := h.behind_spelled hfront
  have hempty : d.word = [] := by
    rw [show wordBehind (!({} : Draft).word.isEmpty) lexemes = false from hnone] at hword
    simpa using hword
  have hescape : c ≠ escapeChar := hg.ne_escapeChar (mem_roleChars_of_modifier? hc)
  have hlexeme := lexeme_of_modifier? hescape hc rest
  cases hscans with
  | step hstepped _ _ hstep hbehind =>
    cases hlexeme.symm.trans hstepped
    cases hstep
    exact hg.not_scans_modify hempty hrest hbehind
  | container hfiled => cases hlexeme.symm.trans hfiled

/-! ## Why a text is not read -/

/-- The errors of a reading under a limit: faults of the text, and the limit itself. -/
def OfText (maxDepth : Nat) : PathError → Prop
  | .malformed _ _ => True
  | .tooDeep limit => limit = maxDepth
  | _ => False

section
variable {α β : Type} {x : Except PathError α}

theorem ofText_bind {f : α → Except PathError β} (hx : ∀ e, x = .error e → OfText maxDepth e)
    (hf : ∀ a e, f a = .error e → OfText maxDepth e) (e : PathError) (h : x.bind f = .error e) :
    OfText maxDepth e := by
  obtain hfails | ⟨a, -, hfails⟩ := bind_eq_error_iff.mp h
  · exact hx e hfails
  · exact hf a e hfails

theorem ofText_atPosition (position : Nat) (x : Except SyntaxFault α) (e : PathError)
    (h : atPosition position x = .error e) : OfText maxDepth e := by
  obtain ⟨fault, -, rfl⟩ := atPosition_eq_error_iff.mp h
  trivial

end

/-- **A text is not read because it is malformed, or too deep.** -/
theorem ofText_of_tokenizeAt_and_scan (maxDepth : Nat) :
    (∀ level text e, g.tokenizeAt maxDepth level text = .error e → OfText maxDepth e) ∧
      ∀ level size d text e, g.scan maxDepth level size d text = .error e →
        OfText maxDepth e := by
  refine tokenizeAt.mutual_induct g maxDepth _ _ ?deep ?text ?finish ?quote ?property ?container
    ?openEnd ?step
  case deep =>
    intro level text hlevel e h
    rw [tokenizeAt, if_pos hlevel] at h
    cases h
    rfl
  case text =>
    intro level text hlevel ih e h
    rw [tokenizeAt, if_neg hlevel] at h
    exact ih e h
  case finish =>
    intro level size d e h
    rw [scan_nil] at h
    exact ofText_atPosition _ _ e h
  case quote =>
    intro level size d c ahead interior joins rest hlexeme ih e h
    rw [scan_quote hlexeme] at h
    exact ofText_bind (ofText_atPosition _ _) ih e h
  case property =>
    intro level size d c ahead interior joins rest hlexeme ihtree ih e h
    rw [scan_property hlexeme] at h
    exact ofText_bind (ofText_atPosition _ _) (fun d => ofText_bind ihtree (ih d)) e h
  case container =>
    intro level size d c ahead role interior joins rest hquote hproperty hlexeme ihtree ih e h
    rw [scan_container hquote hproperty hlexeme] at h
    exact ofText_bind (ofText_atPosition _ _) (fun d => ofText_bind ihtree (ih d)) e h
  case openEnd =>
    intro level size d c ahead offset fault rest hlexeme e h
    rw [scan_openEnd hlexeme] at h
    refine ofText_bind (ofText_atPosition _ _) (fun _ e h => ?_) e h
    cases h
    trivial
  case step =>
    intro level size d c ahead lexeme rest _ _ hcontainer hopen hlexeme ih e h
    rw [scan_step hcontainer hopen hlexeme] at h
    exact ofText_bind (ofText_atPosition _ _) ih e h

/-! ## Paths -/

/-- In the default grammar a character has one role only. -/
theorem default_modifier?_eq_none (hc : default.endsWord c) : default.modifier? c = none := by
  have hnone : (default.separators.keys ++ default.enclosures.keys).all
      (fun c => (default.modifier? c).isNone) = true := by decide
  have hkeys (c : Char) (hkey : c ∈ default.separators.keys ++ default.enclosures.keys) :
      default.modifier? c = none := by simpa using List.all_eq_true.mp hnone c hkey
  obtain ⟨role, hrole⟩ | ⟨enclosure, henclosure⟩ := hc
  · refine hkeys c (List.mem_append_left _ ?_)
    exact List.mem_map_of_mem (default.separators.get?_eq_some_iff.mp hrole)
  · refine hkeys c (List.mem_append_right _ ?_)
    exact List.mem_map_of_mem (default.enclosures.get?_eq_some_iff.mp henclosure)

/-- **A modifier that a separator, an opener or the end of the path follows**, outside all
containers: the path is rejected if no word stands in front of the modifier in its segment, and
otherwise it is read like the path with the modifier in front of that word. -/
theorem tokenize_bareModifier (hfront : default.Spells front lexemes)
    (hc : default.modifier? c = some modifier) (hrest : ∀ x ∈ rest.head?, default.endsWord x)
    (maxDepth : Nat) :
    (wordBehind false lexemes = false →
        ∃ e, default.tokenize maxDepth (String.ofList (front ++ c :: rest)) = .error e ∧
          OfText maxDepth e) ∧
      (wordBehind false lexemes = true →
        ∃ before word, default.EndsInWord front before word ∧
          default.tokenize maxDepth (String.ofList (front ++ c :: rest)) =
            default.tokenize maxDepth (String.ofList (before ++ c :: (word ++ rest)))) := by
  refine ⟨fun hnone => ?_, fun hsome => ?_⟩
  · have hrest (x : Char) (hx : x ∈ rest.head?) : default.modifier? x = none ∧ default.endsWord x :=
      ⟨default_modifier?_eq_none (hrest x hx), hrest x hx⟩
    cases h : default.tokenize maxDepth (String.ofList (front ++ c :: rest)) with
    | error e => exact ⟨e, rfl, (ofText_of_tokenizeAt_and_scan maxDepth).1 0 _ e h⟩
    | ok tree =>
      rw [tokenize, String.toList_ofList, default_valid.tokenizeAt_eq_ok_iff] at h
      exact absurd h.2 (default_valid.not_scans_bareModifier hfront hnone hc hrest)
  · have hseparator : default.separator? c = none := by
      cases h : default.separator? c with
      | none => rfl
      | some role => cases hc.symm.trans (default_modifier?_eq_none (Or.inl ⟨role, h⟩))
    obtain ⟨before, word, hends⟩ := exists_endsInWord hfront hsome
    obtain ⟨befores, hbefore, -⟩ := hends.front
    refine ⟨before, word, hends, ?_⟩
    rw [tokenize, tokenize, String.toList_ofList, String.toList_ofList, hends.text_eq,
      List.append_assoc]
    exact default_valid.tokenizeAt_word_modifier hc hseparator hbefore hends.word rest 0

/-- A parent modifier at the end of a path, behind a word and behind no word. -/
theorem tokenize_bareModifier_at_end :
    (∃ before word, default.EndsInWord ['a'] before word ∧
        default.tokenize 0 (String.ofList (['a'] ++ ['<'])) =
          default.tokenize 0 (String.ofList (before ++ '<' :: (word ++ [])))) ∧
      (∃ e, default.tokenize 0 (String.ofList ['<']) = .error e ∧ OfText 0 e) ∧
      default.tokenize 0 "a<" = .ok [.modified "a" { parent := 1 }] := by
  have hletter : default.lexeme 'a' [] = (.letter 'a', []) := rfl
  have hword : default.Spells ['a'] [.letter 'a'] := .cons hletter rfl .nil
  have hmodifier : default.modifier? '<' = some .parent := by decide
  exact ⟨(tokenize_bareModifier hword hmodifier (by simp) 0).2 rfl,
    (tokenize_bareModifier .nil hmodifier (by simp) 0).1 rfl, by cbv⟩

end Grammar

end GraphPath
