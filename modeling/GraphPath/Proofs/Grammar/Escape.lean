import GraphPath.Proofs.Grammar.Special

/-! # Escaping and stripping

Before a text is scanned, `stripChars` drops the escapes it does not need.  It
reads a text pair by pair at escapes and character by character elsewhere; the
lemmas here say what it does at the front of a text, and that two kinds of text
pass through it unchanged: one without any escape
(`stripChars_of_not_mem`), and one in which a key was escaped
(`Valid.stripChars_escapeChars_append`).

Quoted text is read by `unescape` instead, which undoes escaping
(`Valid.unescape_escapeChars`).
-/

namespace GraphPath.Grammar
variable {g : Grammar} {c : Char}

/-! ## Stripping, from the front -/

@[simp] theorem stripChars_nil : g.stripChars [] = [] := by rw [stripChars]

theorem stripChars_cons_of_ne (hc : c ≠ escapeChar) (rest : List Char) :
    g.stripChars (c :: rest) = c :: g.stripChars rest := by
  cases rest with
  | nil => simp [stripChars]
  | cons d rest => rw [stripChars, if_neg hc]

theorem stripChars_escape_cons (d : Char) (rest : List Char) :
    g.stripChars (escapeChar :: d :: rest) =
      (if g.isSpecial d then [escapeChar, d] else [d]) ++ g.stripChars rest := by
  rw [stripChars, if_pos rfl]
  split <;> rfl

theorem stripChars_of_not_mem {text : List Char} (htext : escapeChar ∉ text) :
    g.stripChars text = text := by
  induction text with
  | nil => exact stripChars_nil
  | cons c rest ih =>
    rw [List.mem_cons, not_or] at htext
    obtain ⟨hc, hrest⟩ := htext
    rw [stripChars_cons_of_ne (Ne.symm hc), ih hrest]

/-! ## Escaped keys -/

theorem escapeChars_cons (hg : g.Valid) (c : Char) (rest : List Char) :
    g.escapeChars (c :: rest) =
      (if g.isSpecial c then [escapeChar, c] else [c]) ++ g.escapeChars rest := by
  have hc : g.escapedChars.contains c = g.isSpecial c := by
    rw [Bool.eq_iff_iff, List.contains_iff_mem, hg.mem_escapedChars_iff]
  rw [escapeChars, List.flatMap_cons, hc, escapeChars]

/-- **An escaped key keeps all its escapes**, whatever stands behind it. -/
theorem Valid.stripChars_escapeChars_append (hg : g.Valid) (key rest : List Char) :
    g.stripChars (g.escapeChars key ++ rest) = g.escapeChars key ++ g.stripChars rest := by
  induction key with
  | nil => rfl
  | cons c key ih =>
    rw [escapeChars_cons hg]
    cases hc : g.isSpecial c with
    | true =>
      show g.stripChars (escapeChar :: c :: (g.escapeChars key ++ rest)) = _
      rw [stripChars_escape_cons, hc, ih, List.append_assoc]
    | false =>
      show g.stripChars (c :: (g.escapeChars key ++ rest)) = _
      rw [stripChars_cons_of_ne (ne_escapeChar_of_not_isSpecial hc), ih]
      rfl

/-! ## Quoted text -/

theorem unescape_escape_cons (d : Char) (rest : List Char) :
    unescape (escapeChar :: d :: rest) = d :: unescape rest := by
  rw [unescape, if_pos rfl]

theorem unescape_cons_of_ne (hc : c ≠ escapeChar) (rest : List Char) :
    unescape (c :: rest) = c :: unescape rest := by
  cases rest <;> simp [unescape, hc]

/-- **An escaped text says the text itself where it is quoted.** -/
theorem Valid.unescape_escapeChars (hg : g.Valid) (text : List Char) :
    unescape (g.escapeChars text) = text := by
  induction text with
  | nil => rfl
  | cons c text ih =>
    rw [escapeChars_cons hg]
    cases hc : g.isSpecial c with
    | true =>
      show unescape (escapeChar :: c :: g.escapeChars text) = _
      rw [unescape_escape_cons, ih]
    | false =>
      show unescape (c :: g.escapeChars text) = _
      rw [unescape_cons_of_ne (ne_escapeChar_of_not_isSpecial hc), ih]

end GraphPath.Grammar
