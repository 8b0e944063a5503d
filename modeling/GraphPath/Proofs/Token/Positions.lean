import GraphPath.Proofs.Token.DepthLimit
import GraphPath.Proofs.Token.Shape
import GraphPath.Proofs.Token.Spelling

/-! # Where a malformed path fails

The position of a syntax fault counts the characters in front of its cause.  It counts them in the
text that fails, which is the path itself or the interior of a container in it
(`Grammar.Within`), and once the needless escapes have been dropped from that text.  What the cause
is, each fault tells (`Grammar.Blames`): the closer, opener or separator that it names, an escape
with nothing behind it, or the end of the text.

So **every reported position is the length of a stripped text in front of a cause**
(`tokenize_malformed_position`).  It is the place of the cause in the path just when the
cause is in no container and no needless escape stands in front of it; otherwise it falls short.

The proof goes along the scan, with what has been read spelled out in front of what is still ahead.
-/

namespace GraphPath

/-! ## Faults of drafts -/

section
variable {α β : Type} {position : Nat} {e : PathError}

theorem bind_eq_error_iff {ε : Type} {e : ε} {x : Except ε α} {f : α → Except ε β} :
    x.bind f = .error e ↔ x = .error e ∨ ∃ a, x = .ok a ∧ f a = .error e := by
  cases x <;> simp [Except.bind]

theorem atPosition_eq_error_iff {x : Except SyntaxFault α} :
    atPosition position x = .error e ↔
      ∃ fault, x = .error fault ∧ e = .malformed position fault := by
  cases x <;> simp [eq_comm]

end

namespace Draft
variable {d : Draft} {fault : SyntaxFault}

/-- A word can only not be taken if there is none for its modifiers. -/
theorem fault_of_takeWord (h : d.takeWord = .error fault) : fault = .bareModifier := by
  by_cases hword : d.word = []
  · rw [takeWord_of_no_word hword] at h
    split at h <;> cases h
    rfl
  · rw [takeWord_of_word hword] at h
    cases h

theorem fault_of_fileWord (h : d.fileWord = .error fault) : fault = .bareModifier := by
  unfold fileWord at h
  split at h <;> cases h
  exact fault_of_takeWord ‹_›

theorem fault_of_separate {role : SeparatorRole} (h : d.separate role = .error fault) :
    fault = .bareModifier ∨ fault = .emptySegment := by
  unfold separate at h
  split at h
  · cases h
    exact Or.inl (fault_of_takeWord ‹_›)
  · split at h <;> cases h
    exact Or.inr rfl

theorem fault_of_finish (h : d.finish = .error fault) :
    fault = .bareModifier ∨ fault = .trailingSeparator := by
  unfold finish at h
  split at h
  · cases h
    exact Or.inl (fault_of_takeWord ‹_›)
  · cases h
  · split at h <;> cases h
    exact Or.inr rfl

end Draft

/-! ## Escapes at the end -/

namespace Grammar
variable {g : Grammar} {opener closer : Char} {depth before : Nat} {text tail : List Char}

theorem endsInEscape_append (h : endsInEscape text = false) (tail : List Char) :
    endsInEscape (text ++ tail) = endsInEscape tail := by
  fun_induction endsInEscape text with
  | case1 => rfl
  | case2 c =>
    have hescape : c ≠ escapeChar := by simpa using h
    exact endsInEscape_cons_of_ne hescape tail
  | case3 d rest ih => exact (endsInEscape_escape_cons d (rest ++ tail)).trans (ih h)
  | case4 c d rest hescape ih => exact (endsInEscape_cons_of_ne hescape _).trans (ih h)

theorem prepend_eq_dangling_iff {cs : List Char} {captured : Capture} :
    captured.prepend cs = .dangling before ↔
      ∃ inner, captured = .dangling inner ∧ before = cs.length + inner := by
  cases captured <;> simp [Capture.prepend, eq_comm]

/-- A capture that fails at an escape has read the text up to there. -/
theorem eq_concat_of_capture (h : capture opener closer depth text = .dangling before) :
    ∃ front, text = front ++ [escapeChar] ∧ front.length = before ∧ endsInEscape front = false := by
  fun_induction capture opener closer depth text generalizing before with
  | case1 | case4 => cases h
  | case2 =>
    cases h
    exact ⟨[], rfl, rfl, rfl⟩
  | case3 depth d text ih =>
    obtain ⟨inner, hinner, rfl⟩ := prepend_eq_dangling_iff.mp h
    obtain ⟨front, rfl, rfl, hends⟩ := ih hinner
    exact ⟨escapeChar :: d :: front, rfl, by simp; omega,
      (endsInEscape_escape_cons d front).trans hends⟩
  | case5 _ depth hescape ih | case6 depth _ hescape _ ih | case7 depth c _ hescape _ _ ih =>
    obtain ⟨inner, hinner, rfl⟩ := prepend_eq_dangling_iff.mp h
    obtain ⟨front, rfl, rfl, hends⟩ := ih hinner
    exact ⟨_ :: front, rfl, by simp [Nat.add_comm], (endsInEscape_cons_of_ne hescape _).trans hends⟩

/-- A stripped text is as long as the text only if it is the text. -/
theorem length_stripChars_eq_iff :
    (g.stripChars text).length = text.length ↔ g.stripChars text = text := by
  refine ⟨fun h => ?_, congrArg List.length⟩
  fun_induction stripChars g text with
  | case1 | case2 => rfl
  | case3 d rest hspecial ih => rw [ih (by simpa using h)]
  | case4 d rest hspecial ih =>
    have hle := g.length_stripChars_le rest
    simp only [List.length_cons] at h
    omega
  | case5 c d rest hescape ih => rw [ih (by simpa using h)]

/-! ## Causes -/

/-- **Where a text stands that is read**: it is the text itself, or the interior of a container in
it other than a quote, or stands within one; `before` stands in front of it, and `behind` behind. -/
inductive Within (g : Grammar) : (text before inner behind : List Char) → Prop
  /-- The text itself. -/
  | whole {text : List Char} : Within g text [] text []
  /-- A text within the interior of a container. -/
  | inside {front interior rest before inner behind : List Char} {lexemes : List Lexeme}
      {opener closer : Char} {role : ContainerRole} {joins : Bool}
      (hfront : g.Spells front lexemes)
      (hlexeme : g.lexeme opener (interior ++ closer :: rest) =
        (.container role interior joins, rest))
      (hrole : role ≠ .quote) (hinner : Within g interior before inner behind) :
      Within g (front ++ opener :: (interior ++ closer :: rest)) (front ++ opener :: before) inner
        (behind ++ closer :: rest)

theorem Within.eq_append {text before inner behind : List Char}
    (h : g.Within text before inner behind) : text = before ++ inner ++ behind := by
  induction h with
  | whole => simp
  | inside _ _ _ _ ih => simp [ih]

/-- **What a fault blames**: the text from its cause on, with whole lexemes in front of it up to the
start of the text that fails. -/
inductive Blames (g : Grammar) : SyntaxFault → (start cause : List Char) → Prop
  /-- An escape with nothing behind it, which is not escaped itself. -/
  | danglingEscape {start : List Char} (hstart : endsInEscape start = false) :
      Blames g .danglingEscape start [escapeChar]
  /-- The closer. -/
  | strayCloser {start behind : List Char} {lexemes : List Lexeme} {closer : Char}
      (hstart : g.Spells start lexemes) (hcloser : g.isCloser closer = true) :
      Blames g (.strayCloser closer) start (closer :: behind)
  /-- The opener, whose closer is missing behind it. -/
  | unclosed {start behind : List Char} {lexemes : List Lexeme} {opener : Char}
      {enclosure : Enclosure} (hstart : g.Spells start lexemes)
      (hopener : g.enclosure? opener = some enclosure)
      (hcapture : capture opener enclosure.closer 0 behind = .unclosed) :
      Blames g (.unclosed opener enclosure.closer) start (opener :: behind)
  /-- The separator or the opener that stands where the word is missing, or the end. -/
  | bareModifier {start cause : List Char} {lexemes : List Lexeme}
      (hstart : g.Spells start lexemes) (hcause : ∀ c ∈ cause.head?, g.endsWord c) :
      Blames g .bareModifier start cause
  /-- The separator that ends the segment. -/
  | emptySegment {start behind : List Char} {lexemes : List Lexeme} {separator : Char}
      {role : SeparatorRole} (hstart : g.Spells start lexemes)
      (hseparator : g.separator? separator = some role) :
      Blames g .emptySegment start (separator :: behind)
  /-- The end. -/
  | trailingSeparator {start : List Char} {lexemes : List Lexeme}
      (hstart : g.Spells start lexemes) : Blames g .trailingSeparator start []

/-- **A fault at a position of a text**: as many characters stand in front of its cause in the text
that fails, once that is stripped. -/
def FaultAt (g : Grammar) (text : List Char) (position : Nat) (fault : SyntaxFault) : Prop :=
  ∃ before start cause behind, g.Within text before (start ++ cause) behind ∧
    g.Blames fault start cause ∧ position = (g.stripChars start).length

variable {maxDepth level position : Nat} {d : Draft} {c : Char} {fault : SyntaxFault}
  {front start cause ahead interior rest : List Char} {lexeme : Lexeme} {lexemes : List Lexeme}
  {role : ContainerRole} {joins : Bool}

theorem Blames.faultAt (h : g.Blames fault start cause) :
    g.FaultAt (start ++ cause) (g.stripChars start).length fault :=
  ⟨[], start, cause, [], .whole, h, rfl⟩

/-- A fault within a container. -/
theorem FaultAt.inside (h : g.FaultAt interior position fault) (hfront : g.Spells front lexemes)
    (hlexeme : g.lexeme c ahead = (.container role interior joins, rest)) (hrole : role ≠ .quote) :
    g.FaultAt (front ++ c :: ahead) position fault := by
  obtain ⟨-, closer, -, -, rfl, -⟩ := exists_enclosure_of_lexeme hlexeme
  obtain ⟨before, start, cause, behind, hwithin, hblames, rfl⟩ := h
  exact ⟨_, start, cause, _, .inside hfront hlexeme hrole hwithin, hblames, rfl⟩

/-! ## Along the scan -/

/-- A container fails with its interior, unless it is a quote. -/
theorem scan_of_filing_error
    (h : g.filing maxDepth level role interior = .error (.malformed position fault)) :
    role ≠ .quote ∧ g.scan maxDepth (level + 1) (g.stripChars interior).length {}
      (g.stripChars interior) = .error (.malformed position fault) := by
  have hread {f : TokenTree → Token × List Token}
      (h : (g.tokenizeAt maxDepth (level + 1) interior).map f =
        .error (.malformed position fault)) :
      g.scan maxDepth (level + 1) (g.stripChars interior).length {} (g.stripChars interior) =
        .error (.malformed position fault) := by
    cases htree : g.tokenizeAt maxDepth (level + 1) interior with
    | ok tree =>
      rw [htree] at h
      cases h
    | error e =>
      rw [htree] at h
      cases h
      rw [tokenizeAt] at htree
      split at htree
      · cases htree
      · exact htree
  cases role with
  | quote => cases h
  | property | call | evalProperty => exact ⟨by simp, hread h⟩

/-- **A scan that fails blames what stands where it fails**, behind the part of the text that it has
gone through.  The recursion is on the text that is still ahead, and on the interiors in it. -/
theorem Valid.faultAt_of_scan (hg : g.Valid) {level : Nat} {d : Draft} {front text : List Char}
    {lexemes : List Lexeme} (hfront : g.Spells front lexemes)
    (h : g.scan maxDepth level (g.stripChars (front ++ text)).length d (g.stripChars text) =
      .error (.malformed position fault)) :
    g.FaultAt (front ++ text) position fault := by
  have hplace : (g.stripChars (front ++ text)).length - (g.stripChars text).length =
      (g.stripChars front).length := by
    rw [hfront.stripChars_append, List.length_append, Nat.add_sub_cancel]
  match text with
  | [] =>
    rw [stripChars_nil, scan_nil, List.append_nil, atPosition_eq_error_iff] at h
    obtain ⟨fault, hfinish, herror⟩ := h
    cases herror
    rw [List.append_nil]
    obtain rfl | rfl := Draft.fault_of_finish hfinish
    · have hcause : ∀ c ∈ ([] : List Char).head?, g.endsWord c := by simp
      simpa using (Blames.bareModifier hfront hcause).faultAt
    · simpa using (Blames.trailingSeparator hfront).faultAt
  | c :: ahead =>
    rcases hlexeme : g.lexeme c ahead with ⟨lexeme, rest⟩
    have hshorter : rest.length < (c :: ahead).length := by
      simpa only [hlexeme] using g.lexeme_rest_lt c ahead
    -- a word that cannot be taken is missed where the lexeme begins
    have hbare (hends : g.endsWord c) :
        g.FaultAt (front ++ c :: ahead) (g.stripChars front).length .bareModifier :=
      (Blames.bareModifier hfront (by simpa using hends)).faultAt
    have hbehind (hwhole : lexeme.isWhole = true) {d' : Draft}
        (hscan : g.scan maxDepth level (g.stripChars (front ++ c :: ahead)).length d'
          (g.stripChars rest) = .error (.malformed position fault)) :
        g.FaultAt (front ++ c :: ahead) position fault := by
      -- what has been read so far grows by the text of the lexeme
      obtain ⟨used, hused, hlast⟩ := exists_spells_of_lexeme hwhole hlexeme
      have hsplit : front ++ c :: ahead = (front ++ c :: used) ++ rest := by simp [hused]
      rw [hsplit] at hscan ⊢
      exact hg.faultAt_of_scan (hfront.append hlast) hscan
    cases lexeme with
    | container role interior joins =>
      obtain ⟨-, closer, henclosure, -⟩ := exists_enclosure_of_lexeme hlexeme
      rw [hg.scan_filing_stripChars hlexeme, hplace, bind_eq_error_iff] at h
      obtain hword | ⟨d', -, h⟩ := h
      · obtain ⟨fault, hword, herror⟩ := atPosition_eq_error_iff.mp hword
        cases herror
        obtain rfl := Draft.fault_of_fileWord hword
        exact hbare (Or.inr ⟨_, henclosure⟩)
      obtain hfiling | ⟨filed, -, h⟩ := bind_eq_error_iff.mp h
      · obtain ⟨hrole, hscan⟩ := scan_of_filing_error hfiling
        have hinner : interior.length < (c :: ahead).length := by
          have hlength := (length_of_container hlexeme).1
          omega
        exact (hg.faultAt_of_scan .nil hscan).inside hfront hlexeme hrole
      · exact hbehind rfl h
    | openEnd offset cause =>
      obtain ⟨enclosure, henclosure, hcause⟩ := exists_enclosure_of_openEnd hlexeme
      rw [hg.scan_openEnd_stripChars hlexeme, hplace, bind_eq_error_iff] at h
      obtain hword | ⟨d', -, h⟩ := h
      · obtain ⟨fault, hword, herror⟩ := atPosition_eq_error_iff.mp hword
        cases herror
        obtain rfl := Draft.fault_of_fileWord hword
        exact hbare (Or.inr ⟨_, henclosure⟩)
      cases h
      obtain ⟨hcapture, rfl, rfl⟩ | ⟨before, hcapture, rfl, rfl⟩ := hcause
      · exact (Blames.unclosed hfront henclosure hcapture).faultAt
      · -- the escape is the last character, behind the opener and what was captured
        obtain ⟨inner, rfl, rfl, hends⟩ := eq_concat_of_capture hcapture
        have hescape : c ≠ escapeChar :=
          hg.ne_escapeChar (mem_roleChars_of_enclosure? henclosure).1
        have hstart : endsInEscape (front ++ c :: inner) = false := by
          rw [endsInEscape_append hfront.not_endsInEscape, endsInEscape_cons_of_ne hescape, hends]
        have hfault := (Blames.danglingEscape (g := g) hstart).faultAt
        rw [hfront.stripChars_append, List.length_append] at hfault
        simpa using hfault
    | fault cause =>
      rw [hg.scan_step_stripChars (by simp) (by simp) hlexeme, hplace] at h
      cases h
      obtain ⟨rfl, rfl, rfl⟩ | ⟨hcloser, rfl⟩ := fault_of_lexeme hlexeme
      · exact (Blames.danglingEscape hfront.not_endsInEscape).faultAt
      · exact (Blames.strayCloser hfront hcloser).faultAt
    | separator role =>
      have hseparator := separator?_of_lexeme hlexeme
      rw [hg.scan_step_stripChars (by simp) (by simp) hlexeme, hplace, bind_eq_error_iff] at h
      obtain hstep | ⟨d', -, h⟩ := h
      · obtain ⟨fault, hstep, herror⟩ := atPosition_eq_error_iff.mp hstep
        cases herror
        obtain rfl | rfl := Draft.fault_of_separate hstep
        · exact hbare (Or.inl ⟨role, hseparator⟩)
        · exact (Blames.emptySegment hfront hseparator).faultAt
      · exact hbehind rfl h
    | letter | wildcard | modifier =>
      rw [hg.scan_step_stripChars (by simp) (by simp) hlexeme] at h
      exact hbehind rfl h
termination_by text.length
decreasing_by
  · exact hshorter
  · exact hinner

/-- **What the position of a syntax fault is**: the number of characters in front of its cause, in
the text that fails and without the needless escapes there.  This is the place of the cause in the
path if and only if the path itself fails, and no needless escape stands in front of the cause. -/
theorem tokenize_malformed_position (hg : g.Reachable) {path : String}
    (h : g.tokenize maxDepth path = .error (.malformed position fault)) :
    ∃ before start cause behind, path.toList = before ++ start ++ cause ++ behind ∧
      g.Within path.toList before (start ++ cause) behind ∧ g.Blames fault start cause ∧
      position = (g.stripChars start).length ∧
      (position = (before ++ start).length ↔ before = [] ∧ g.stripChars start = start) := by
  have hscan : g.scan maxDepth 0 (g.stripChars ([] ++ path.toList)).length {}
      (g.stripChars path.toList) = .error (.malformed position fault) := tokenize_eq_scan _ _ ▸ h
  obtain ⟨before, start, cause, behind, hwithin, hblames, rfl⟩ :=
    hg.valid.faultAt_of_scan .nil hscan
  have hpath : path.toList = before ++ start ++ cause ++ behind := by
    simpa using hwithin.eq_append
  have hle := g.length_stripChars_le start
  refine ⟨before, start, cause, behind, hpath, hwithin, hblames, rfl, ?_⟩
  rw [List.length_append, ← length_stripChars_eq_iff, ← List.length_eq_zero_iff]
  omega

/-- A closer out of place in the arguments of a call, behind a needless escape: it is the character
at 5, and the position is 2. -/
theorem tokenize_malformed_position_call :
    let path := "x(\\ab])"
    let fault := SyntaxFault.strayCloser ']'
    default.tokenize 1 path = .error (.malformed 2 fault) ∧
      ∃ before start cause behind, path.toList = before ++ start ++ cause ++ behind ∧
        default.Within path.toList before (start ++ cause) behind ∧
        default.Blames fault start cause ∧ 2 = (default.stripChars start).length ∧
        (2 = (before ++ start).length ↔ before = [] ∧ default.stripChars start = start) := by
  intro path fault
  have hread : default.tokenize 1 path = .error (.malformed 2 fault) := by cbv
  exact ⟨hread, tokenize_malformed_position .initial hread⟩

end Grammar

end GraphPath
