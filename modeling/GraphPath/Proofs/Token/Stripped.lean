import GraphPath.Proofs.Token.Capture
import GraphPath.Proofs.Token.Success

/-! # Reading a text as it stands

A text is scanned without the needless escapes in it, and the text inside a container is
stripped once more when its turn comes.  None of it matters for what is read: lexeme by lexeme, a
stripped text is what the text is (`Valid.lexeme_stripChars`), with the texts inside containers
stripped as well, and these are read alike (`tokenizeAt_stripChars`).  So **a text is read if and
only if it could be scanned as it stands** (`Valid.tokenizeAt_eq_ok_iff`), and later proofs need not
speak of stripping.

Where a scan fails is another matter: stripping moves the characters that stand behind it.  For this
the lexemes of the two texts are compared with their offsets (`Lexeme.stripped`).
-/

namespace GraphPath

namespace Grammar
variable {g : Grammar} {c : Char} {text ahead rest : List Char}

/-! ## Stripping twice -/

/-- **A stripped text has no needless escapes.** -/
@[simp] theorem stripChars_stripChars (text : List Char) :
    g.stripChars (g.stripChars text) = g.stripChars text := by
  fun_induction stripChars g text with
  | case1 => exact stripChars_nil
  | case2 c => rfl
  | case3 d rest hspecial ih =>
    rw [stripChars_escape_cons, if_pos hspecial, ih]
    rfl
  | case4 d rest hspecial ih =>
    rw [stripChars_cons_of_ne (ne_escapeChar_of_not_isSpecial (Bool.eq_false_iff.mpr hspecial)), ih]
  | case5 c d rest hescape ih => rw [stripChars_cons_of_ne hescape, ih]

/-- Stripping does not change what quoted text says. -/
theorem unescape_stripChars (text : List Char) : unescape (g.stripChars text) = unescape text := by
  fun_induction stripChars g text with
  | case1 => rfl
  | case2 c => rfl
  | case3 d rest hspecial ih => rw [unescape_escape_cons, unescape_escape_cons, ih]
  | case4 d rest hspecial ih =>
    have hescape : d ≠ escapeChar := ne_escapeChar_of_not_isSpecial (Bool.eq_false_iff.mpr hspecial)
    rw [unescape_cons_of_ne hescape, unescape_escape_cons, ih]
  | case5 c d rest hescape ih => rw [unescape_cons_of_ne hescape, unescape_cons_of_ne hescape, ih]

/-- **A text is read like the stripped text.** -/
theorem tokenizeAt_stripChars (maxDepth level : Nat) (text : List Char) :
    g.tokenizeAt maxDepth level (g.stripChars text) = g.tokenizeAt maxDepth level text := by
  rw [tokenizeAt, tokenizeAt, stripChars_stripChars]

theorem filing_stripChars (maxDepth level : Nat) (role : ContainerRole) (interior : List Char) :
    g.filing maxDepth level role (g.stripChars interior) =
      g.filing maxDepth level role interior := by
  cases role <;> simp only [filing, tokenizeAt_stripChars, unescape_stripChars]

end Grammar

/-! ## Lexemes of a stripped text -/

/-- A capture once the text it is read from is stripped. -/
def Capture.stripped (g : Grammar) (text : List Char) : Capture → Capture
  | .closed interior rest => .closed (g.stripChars interior) (g.stripChars rest)
  | .unclosed => .unclosed
  | .dangling before => .dangling (g.stripChars (text.take before)).length

/-- The first lexeme of a text once the text is stripped. -/
def Lexeme.stripped (g : Grammar) (text : List Char) : Lexeme → Lexeme
  | .container role interior joins => .container role (g.stripChars interior) joins
  | .openEnd offset cause => .openEnd (g.stripChars (text.take offset)).length cause
  | lexeme => lexeme

theorem Lexeme.stripped_eq_self {g : Grammar} {text : List Char} {lexeme : Lexeme}
    (hcontainer : ∀ role interior joins, lexeme ≠ .container role interior joins)
    (hopen : ∀ offset fault, lexeme ≠ .openEnd offset fault) : lexeme.stripped g text = lexeme := by
  cases lexeme with
  | container role interior joins => exact absurd rfl (hcontainer role interior joins)
  | openEnd offset cause => exact absurd rfl (hopen offset cause)
  | _ => rfl

namespace Grammar
variable {g : Grammar} {c opener closer : Char} {text ahead rest : List Char} {lexeme : Lexeme}

/-- Characters that are stripped on their own are stripped in front of a capture. -/
theorem stripped_prepend {cs ds : List Char}
    (h : ∀ tail, g.stripChars (cs ++ tail) = ds ++ g.stripChars tail) (capture : Capture) :
    (capture.prepend cs).stripped g (cs ++ text) = (capture.stripped g text).prepend ds := by
  cases capture with
  | closed interior rest => simp only [Capture.prepend, Capture.stripped, h]
  | unclosed => rfl
  | dangling before =>
    simp only [Capture.prepend, Capture.stripped, List.take_length_add_append, h,
      List.length_append]

/-- **A stripped text is captured like the text**, since no escape in front of an opener or a
closer is needless. -/
theorem capture_stripChars (hopener : g.isSpecial opener = true)
    (hcloser : g.isSpecial closer = true) (depth : Nat) (text : List Char) :
    capture opener closer depth (g.stripChars text) =
      (capture opener closer depth text).stripped g text := by
  have hcons {c : Char} (hescape : c ≠ escapeChar) (tail : List Char) :
      g.stripChars ([c] ++ tail) = [c] ++ g.stripChars tail := stripChars_cons_of_ne hescape tail
  fun_induction capture opener closer depth text with
  | case1 => rw [stripChars_nil]; rfl
  | case2 => simp [stripChars, capture, Capture.stripped]
  | case3 depth d text ih =>
    have hstrip (tail : List Char) : g.stripChars ([escapeChar, d] ++ tail) =
        (if g.isSpecial d then [escapeChar, d] else [d]) ++ g.stripChars tail :=
      stripChars_escape_cons d tail
    refine Eq.trans ?_ (stripped_prepend hstrip _).symm
    rw [stripChars_escape_cons, ← ih]
    by_cases hd : g.isSpecial d = true
    · rw [if_pos hd]
      exact capture_escape_cons d _
    · -- an ordinary character neither opens nor closes anything
      have hne {special : Char} (hspecial : g.isSpecial special = true) : d ≠ special := by
        rintro rfl
        exact hd hspecial
      rw [if_neg hd, List.singleton_append, capture_cons_of_ne (hne isSpecial_escapeChar),
        if_neg (hne hcloser), if_neg (hne hopener)]
  | case4 text hescape =>
    rw [stripChars_cons_of_ne hescape, capture_cons_of_ne hescape, if_pos rfl]
    simp [Capture.stripped]
  | case5 text depth hescape ih =>
    refine Eq.trans ?_ (stripped_prepend (hcons hescape) _).symm
    rw [stripChars_cons_of_ne hescape, capture_cons_of_ne hescape, if_pos rfl, ← ih]
  | case6 depth text hescape hcloser' ih =>
    refine Eq.trans ?_ (stripped_prepend (hcons hescape) _).symm
    rw [stripChars_cons_of_ne hescape, capture_cons_of_ne hescape, if_neg hcloser', if_pos rfl,
      ← ih]
  | case7 depth c text hescape hcloser' hopener' ih =>
    refine Eq.trans ?_ (stripped_prepend (hcons hescape) _).symm
    rw [stripChars_cons_of_ne hescape, capture_cons_of_ne hescape, if_neg hcloser', if_neg hopener',
      ← ih]

/-- An escape is no collection separator, and what it escapes is none if the escape is needless. -/
theorem Valid.joins_stripChars (hg : g.Valid) (text : List Char) :
    g.joins (g.stripChars text) = g.joins text := by
  have hnone {c : Char} (hc : c ∉ g.roleChars) : g.separator? c = none := by
    rw [Option.eq_none_iff_forall_ne_some]
    exact fun role hrole => hc (mem_roleChars_of_separator? hrole)
  match text with
  | [] => rw [stripChars_nil]
  | [c] => rfl
  | c :: d :: rest =>
    by_cases hescape : c = escapeChar
    · subst hescape
      have hescape : g.joins (escapeChar :: d :: rest) = false := by
        simp [joins, hnone fun h => hg.ne_escapeChar h rfl]
      rw [hescape, stripChars_escape_cons]
      by_cases hd : g.isSpecial d = true
      · rw [if_pos hd]
        simp [joins, hnone fun h => hg.ne_escapeChar h rfl]
      · rw [if_neg hd]
        simp [joins, hnone fun h => hd (isSpecial_of_mem_roleChars h)]
    · rw [stripChars_cons_of_ne hescape]
      rfl

theorem Valid.containerLexeme_stripChars (hg : g.Valid) (hescape : c ≠ escapeChar)
    {enclosure : Enclosure} (hc : g.enclosure? c = some enclosure) (ahead : List Char) :
    g.containerLexeme c enclosure (g.stripChars ahead) =
      ((g.containerLexeme c enclosure ahead).1.stripped g (c :: ahead),
        g.stripChars (g.containerLexeme c enclosure ahead).2) := by
  obtain ⟨hopener, hcloser⟩ := mem_roleChars_of_enclosure? hc
  rw [containerLexeme, containerLexeme,
    capture_stripChars (isSpecial_of_mem_roleChars hopener) (isSpecial_of_mem_roleChars hcloser)]
  cases capture c enclosure.closer 0 ahead with
  | closed interior rest => simp [Capture.stripped, Lexeme.stripped, hg.joins_stripChars]
  | unclosed => simp [Capture.stripped, Lexeme.stripped]
  | dangling before =>
    simp [Capture.stripped, Lexeme.stripped, stripChars_cons_of_ne hescape]

/-- **The first lexeme of a stripped text is that of the text, stripped.** -/
theorem Valid.lexeme_stripChars (hg : g.Valid) (h : g.lexeme c ahead = (lexeme, rest)) :
    ∃ c' ahead', g.stripChars (c :: ahead) = c' :: ahead' ∧
      g.lexeme c' ahead' = (lexeme.stripped g (c :: ahead), g.stripChars rest) := by
  obtain ⟨rfl, rfl⟩ : lexeme = (g.lexeme c ahead).1 ∧ rest = (g.lexeme c ahead).2 := by simp [h]
  clear h
  by_cases hescape : c = escapeChar
  · subst hescape
    match ahead with
    | [] => exact ⟨escapeChar, [], rfl, by simp [Grammar.lexeme, Lexeme.stripped]⟩
    | d :: rest =>
      rw [stripChars_escape_cons, lexeme_escapeChar]
      by_cases hd : g.isSpecial d = true
      · exact ⟨escapeChar, d :: g.stripChars rest, by rw [if_pos hd]; rfl, lexeme_escapeChar d _⟩
      · have hplain : g.isSpecial d = false := Bool.eq_false_iff.mpr hd
        exact ⟨d, g.stripChars rest, by rw [if_neg hd]; rfl, lexeme_of_not_isSpecial hplain _⟩
  · -- what role a character has does not depend on the text behind it
    refine ⟨c, g.stripChars ahead, stripChars_cons_of_ne hescape ahead, ?_⟩
    simp only [Grammar.lexeme, if_neg hescape]
    cases g.modifier? c with
    | some modifier => rfl
    | none =>
    cases g.separator? c with
    | some role => rfl
    | none =>
    cases henclosure : g.enclosure? c with
    | some enclosure => exact hg.containerLexeme_stripChars hescape henclosure ahead
    | none =>
    dsimp only
    split
    · rfl
    · split <;> rfl

/-! ## Scans of a stripped text -/

section
variable {maxDepth level size : Nat} {d : Draft} {role : ContainerRole} {interior : List Char}
  {joins : Bool}

theorem Valid.scan_step_stripChars (hg : g.Valid)
    (hcontainer : ∀ role interior joins, lexeme ≠ .container role interior joins)
    (hopen : ∀ offset fault, lexeme ≠ .openEnd offset fault)
    (h : g.lexeme c ahead = (lexeme, rest)) :
    g.scan maxDepth level size d (g.stripChars (c :: ahead)) =
      (atPosition (size - (g.stripChars (c :: ahead)).length) (d.step lexeme)).bind
        fun d => g.scan maxDepth level size d (g.stripChars rest) := by
  obtain ⟨c', ahead', hstrip, hlexeme⟩ := hg.lexeme_stripChars h
  rw [Lexeme.stripped_eq_self hcontainer hopen] at hlexeme
  rw [hstrip, scan_step hcontainer hopen hlexeme]

theorem Valid.scan_filing_stripChars (hg : g.Valid)
    (h : g.lexeme c ahead = (.container role interior joins, rest)) :
    g.scan maxDepth level size d (g.stripChars (c :: ahead)) =
      (atPosition (size - (g.stripChars (c :: ahead)).length) d.fileWord).bind fun d =>
        (g.filing maxDepth level role interior).bind fun filed =>
          g.scan maxDepth level size (d.enclose filed.1 filed.2 joins) (g.stripChars rest) := by
  obtain ⟨c', ahead', hstrip, hlexeme⟩ := hg.lexeme_stripChars h
  rw [hstrip, scan_filing hlexeme, filing_stripChars]

theorem Valid.scan_openEnd_stripChars (hg : g.Valid) {offset : Nat} {fault : SyntaxFault}
    (h : g.lexeme c ahead = (.openEnd offset fault, rest)) :
    g.scan maxDepth level size d (g.stripChars (c :: ahead)) =
      (atPosition (size - (g.stripChars (c :: ahead)).length) d.fileWord).bind fun _ =>
        .error (.malformed (size - (g.stripChars (c :: ahead)).length +
          (g.stripChars ((c :: ahead).take offset)).length) fault) := by
  obtain ⟨c', ahead', hstrip, hlexeme⟩ := hg.lexeme_stripChars h
  rw [hstrip, scan_openEnd hlexeme]

end

/-! ## Reading without stripping -/

section
variable {ε α β : Type} {x y : Except ε α}

theorem toOption_bind {f f' : α → Except ε β} (hx : x.toOption = y.toOption)
    (hf : ∀ a, (f a).toOption = (f' a).toOption) : (x.bind f).toOption = (y.bind f').toOption := by
  cases x <;> cases y <;> cases hx
  · rfl
  · exact hf _

theorem toOption_atPosition (position position' : Nat) (x : Except SyntaxFault α) :
    (atPosition position x).toOption = (atPosition position' x).toOption := by
  cases x <;> rfl

theorem eq_ok_iff_of_toOption (h : x.toOption = y.toOption) {a : α} : x = .ok a ↔ y = .ok a := by
  cases x <;> cases y <;> cases h <;> simp

end

variable {maxDepth level : Nat} {tree : TokenTree}

/-- The recursion is on the text, lexeme by lexeme: faults apart, whose places may differ, the
same is done in both texts. -/
theorem Valid.toOption_scan_stripChars (hg : g.Valid) (size size' : Nat) (d : Draft)
    (text : List Char) :
    (g.scan maxDepth level size d (g.stripChars text)).toOption =
      (g.scan maxDepth level size' d text).toOption := by
  match text with
  | [] =>
    rw [stripChars_nil, scan_nil, scan_nil]
    exact toOption_atPosition _ _ _
  | c :: ahead =>
    rcases hlexeme : g.lexeme c ahead with ⟨lexeme, rest⟩
    have hshorter : rest.length < (c :: ahead).length := by
      simpa only [hlexeme] using g.lexeme_rest_lt c ahead
    cases lexeme with
    | container role interior joins =>
      rw [scan_filing hlexeme, hg.scan_filing_stripChars hlexeme]
      refine toOption_bind (toOption_atPosition _ _ _) fun d' => toOption_bind rfl fun filed => ?_
      exact hg.toOption_scan_stripChars size size' _ rest
    | openEnd offset fault =>
      rw [scan_openEnd hlexeme, hg.scan_openEnd_stripChars hlexeme]
      exact toOption_bind (toOption_atPosition _ _ _) fun _ => rfl
    | letter | wildcard | modifier | separator | fault =>
      rw [scan_step (by simp) (by simp) hlexeme,
        hg.scan_step_stripChars (by simp) (by simp) hlexeme]
      exact toOption_bind (toOption_atPosition _ _ _) fun d' =>
        hg.toOption_scan_stripChars size size' d' rest
termination_by text.length
decreasing_by all_goals exact hshorter

/-- **A text is read if and only if it could be scanned as it stands**, if it does not stand too
deep. -/
theorem Valid.tokenizeAt_eq_ok_iff (hg : g.Valid) :
    g.tokenizeAt maxDepth level text = .ok tree ↔
      level ≤ maxDepth ∧ g.Scans maxDepth level {} text tree := by
  rw [tokenizeAt]
  split
  · rename_i hlevel
    constructor
    · intro h
      cases h
    · intro h
      exact absurd h.1 (Nat.not_le.mpr hlevel)
  · rename_i hlevel
    rw [eq_ok_iff_of_toOption (hg.toOption_scan_stripChars _ 0 {} text), scan_eq_ok_iff]
    exact ⟨fun h => ⟨Nat.not_lt.mp hlevel, h⟩, And.right⟩

end Grammar

end GraphPath
