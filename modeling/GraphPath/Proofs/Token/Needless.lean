import GraphPath.Proofs.Token.Positions

/-! # Needless escapes

An escape in front of an ordinary character can be left out, and can be put in, anywhere in a path
where it is not itself escaped: the path is read alike, down to the position of a fault
(`tokenize_needless_escape`).

Stripping happens once for the path and again for each interior, at every level.  The later times do
nothing.  Stripping is idempotent, and a text without needless escapes has none in its interiors
either, however deep they stand (`Within.stripChars_eq`); the escapes that are left escape the same
characters as before, since stripping goes through an interior pair by pair as it went through the
path around it.
-/

namespace GraphPath.Grammar
variable {g : Grammar} {c : Char} {front tail ahead interior rest : List Char}

/-! ## Stripping part of a text -/

/-- A needless escape is dropped wherever it stands. -/
theorem stripChars_needless (hc : g.isSpecial c = false) (hfront : endsInEscape front = false)
    (tail : List Char) :
    g.stripChars (front ++ escapeChar :: c :: tail) = g.stripChars (front ++ c :: tail) := by
  have hplain : ¬ g.isSpecial c = true := Bool.eq_false_iff.mp hc
  rw [stripChars_append hfront, stripChars_append hfront, stripChars_escape_cons, if_neg hplain,
    stripChars_cons_of_ne (ne_escapeChar_of_not_isSpecial hc), List.singleton_append]

/-- What stands behind a front, in a text without needless escapes, has none either. -/
theorem stripChars_eq_of_append (hfront : endsInEscape front = false)
    (h : g.stripChars (front ++ tail) = front ++ tail) : g.stripChars tail = tail := by
  rw [stripChars_append hfront] at h
  -- neither part can make up for what the other one lost
  have hlength := congrArg List.length h
  simp only [List.length_append] at hlength
  have hfrontLe := g.length_stripChars_le front
  have htailLe := g.length_stripChars_le tail
  exact length_stripChars_eq_iff.mp (by omega)

/-- Neither has the interior of a container in it. -/
theorem stripChars_interior_eq {role : ContainerRole} {joins : Bool}
    (h : g.stripChars (c :: ahead) = c :: ahead)
    (hlexeme : g.lexeme c ahead = (.container role interior joins, rest)) :
    g.stripChars interior = interior := by
  obtain ⟨hescape, closer, henclosure, hcaptured⟩ := exists_enclosure_of_lexeme hlexeme
  obtain ⟨hopener, hcloser⟩ := mem_roleChars_of_enclosure? henclosure
  have hahead : g.stripChars ahead = ahead := by
    rw [stripChars_cons_of_ne hescape] at h
    exact (List.cons.inj h).2
  have hcapture : capture c closer 0 ahead = .closed interior rest :=
    capture_eq_closed_iff.mpr hcaptured
  have hstripped := capture_stripChars (isSpecial_of_mem_roleChars hopener)
    (isSpecial_of_mem_roleChars hcloser) 0 ahead
  rw [hahead, hcapture] at hstripped
  exact (Capture.closed.inj hstripped).1.symm

/-- **A text without needless escapes has none at any level.** -/
theorem Within.stripChars_eq {text before inner behind : List Char}
    (h : g.Within text before inner behind) (htext : g.stripChars text = text) :
    g.stripChars inner = inner := by
  induction h with
  | whole => exact htext
  | inside hfront hlexeme _ _ ih =>
    exact ih (stripChars_interior_eq (stripChars_eq_of_append hfront.not_endsInEscape htext) hlexeme)

/-! ## Paths with needless escapes -/

/-- **A needless escape is invisible**: with and without it a path has the same tokens, or the same
fault at the same position.  And a text is stripped once and for all: stripping it again does
nothing, neither to itself nor to a text in it that is read at a deeper level, and does not change
what is filed for an interior. -/
theorem tokenize_needless_escape (g : Grammar) {u : String} {c : Char}
    (hu : endsInEscape u.toList = false) (hc : g.isSpecial c = false) (v : String)
    (maxDepth : Nat) :
    g.tokenize maxDepth (u ++ escapeChar.toString ++ c.toString ++ v) =
        g.tokenize maxDepth (u ++ c.toString ++ v) ∧
      (∀ text, g.stripNeedlessEscapes (g.stripNeedlessEscapes text) =
        g.stripNeedlessEscapes text) ∧
      (∀ text before inner behind, g.Within (g.stripChars text) before inner behind →
        g.stripChars inner = inner) ∧
      (∀ level role interior, g.filing maxDepth level role (g.stripChars interior) =
        g.filing maxDepth level role interior) := by
  refine ⟨?_, fun text => ?_, fun text before inner behind h => ?_, fun level role interior => ?_⟩
  · have hwith : (u ++ escapeChar.toString ++ c.toString ++ v).toList =
        u.toList ++ escapeChar :: c :: v.toList := by
      simp [Char.toString]
    have hwithout : (u ++ c.toString ++ v).toList = u.toList ++ c :: v.toList := by
      simp [Char.toString]
    rw [tokenize_eq_scan, tokenize_eq_scan, hwith, hwithout, stripChars_needless hc hu]
  · rw [stripNeedlessEscapes, stripNeedlessEscapes, String.toList_ofList, stripChars_stripChars]
  · exact h.stripChars_eq (stripChars_stripChars text)
  · exact filing_stripChars maxDepth level role interior

/-- Behind an escaped escape character, in a call within brackets that are never closed. -/
theorem tokenize_needless_escape_unclosed :
    endsInEscape "~a.[f('x\\\\".toList = false ∧ default.isSpecial 'b' = false ∧
      default.tokenize 2 "~a.[f('x\\\\\\b')" = default.tokenize 2 "~a.[f('x\\\\b')" ∧
      default.tokenize 2 "~a.[f('x\\\\b')" = .error (.malformed 3 (.unclosed '[' ']')) := by
  have hu : endsInEscape "~a.[f('x\\\\".toList = false := by decide
  have hc : default.isSpecial 'b' = false := by decide
  exact ⟨hu, hc, (tokenize_needless_escape default hu hc "')" 2).1, by cbv⟩

end GraphPath.Grammar
