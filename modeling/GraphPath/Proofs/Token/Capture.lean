import GraphPath.Proofs.Token.Words

/-! # Capturing the interior of a container

What a container captures is told by its own text, not by what stands behind it
(`capture_append`).  Escaped characters are passed over, so that escaped texts are captured
whole, whatever characters they are made of: nothing in them opens or closes anything
(`Grammar.Valid.capture_escapeChars`, `Grammar.Valid.capture_listed`).
-/

namespace GraphPath

section
variable {opener closer c : Char} {depth : Nat} {text interior rest : List Char}

@[simp] theorem Capture.prepend_nil (capture : Capture) : capture.prepend [] = capture := by
  cases capture <;> simp [prepend]

theorem Capture.prepend_prepend (cs ds : List Char) (capture : Capture) :
    (capture.prepend ds).prepend cs = capture.prepend (cs ++ ds) := by
  cases capture <;> simp [prepend, Nat.add_assoc]

theorem capture_escape_cons (c : Char) (rest : List Char) :
    capture opener closer depth (escapeChar :: c :: rest) =
      (capture opener closer depth rest).prepend [escapeChar, c] := by
  simp [capture]

theorem capture_cons_of_ne (hc : c ≠ escapeChar) (rest : List Char) :
    capture opener closer depth (c :: rest) =
      if c = closer then
        match depth with
        | 0 => .closed [] rest
        | depth + 1 => (capture opener closer depth rest).prepend [c]
      else (capture opener closer (if c = opener then depth + 1 else depth) rest).prepend [c] := by
  rw [capture.eq_def]
  dsimp only
  rw [if_neg hc]
  split
  · rfl
  · split <;> rfl

/-- What a container captures does not depend on the text behind it. -/
theorem capture_append (h : capture opener closer depth text = .closed interior rest)
    (tail : List Char) :
    capture opener closer depth (text ++ tail) = .closed interior (rest ++ tail) := by
  fun_induction capture opener closer depth text generalizing interior with
  | case1 => cases h
  | case2 => cases h
  | case3 depth c text ih =>
    obtain ⟨inner, hinner, rfl⟩ := Capture.prepend_eq_closed.mp h
    rw [List.cons_append, List.cons_append, capture_escape_cons, ih hinner]
    rfl
  | case4 text hescape =>
    cases h
    rw [List.cons_append, capture_cons_of_ne hescape, if_pos rfl]
  | case5 text depth hescape ih =>
    obtain ⟨inner, hinner, rfl⟩ := Capture.prepend_eq_closed.mp h
    rw [List.cons_append, capture_cons_of_ne hescape, if_pos rfl]
    dsimp only
    rw [ih hinner]
    rfl
  | case6 depth text hescape hcloser ih =>
    obtain ⟨inner, hinner, rfl⟩ := Capture.prepend_eq_closed.mp h
    rw [List.cons_append, capture_cons_of_ne hescape, if_neg hcloser, if_pos rfl, ih hinner]
    rfl
  | case7 depth c text hescape hcloser hopener ih =>
    obtain ⟨inner, hinner, rfl⟩ := Capture.prepend_eq_closed.mp h
    rw [List.cons_append, capture_cons_of_ne hescape, if_neg hcloser, if_neg hopener, ih hinner]
    rfl

end

/-! ## Escaped texts -/

namespace Grammar
variable {g : Grammar} {opener closer separator : Char} {depth : Nat}

/-- **An escaped text is captured whole**, within a container of special characters. -/
theorem Valid.capture_escapeChars (hg : g.Valid) (hopener : g.isSpecial opener = true)
    (hcloser : g.isSpecial closer = true) (text rest : List Char) :
    capture opener closer depth (g.escapeChars text ++ rest) =
      (capture opener closer depth rest).prepend (g.escapeChars text) := by
  induction text with
  | nil =>
    exact (Capture.prepend_nil _).symm
  | cons c text ih =>
    rw [escapeChars_cons hg]
    cases hc : g.isSpecial c with
    | true =>
      show capture opener closer depth (escapeChar :: c :: (g.escapeChars text ++ rest)) = _
      rw [capture_escape_cons, ih, Capture.prepend_prepend]
      rfl
    | false =>
      -- an ordinary character is neither the escape character nor one of the two
      have hne (special : Char) (hspecial : g.isSpecial special = true) : c ≠ special := by
        rintro rfl
        rw [hc] at hspecial
        cases hspecial
      show capture opener closer depth (c :: (g.escapeChars text ++ rest)) = _
      rw [capture_cons_of_ne (hne _ isSpecial_escapeChar), if_neg (hne _ hcloser),
        if_neg (hne _ hopener), ih, Capture.prepend_prepend]
      rfl

/-- So a closer behind it is the one that is found. -/
theorem Valid.capture_escapeChars_closer (hg : g.Valid) (hopener : g.isSpecial opener = true)
    (hcloser : g.isSpecial closer = true) (hescape : closer ≠ escapeChar)
    (text rest : List Char) :
    capture opener closer 0 (g.escapeChars text ++ closer :: rest) =
      .closed (g.escapeChars text) rest := by
  rw [hg.capture_escapeChars hopener hcloser, capture_cons_of_ne hescape, if_pos rfl]
  simp [Capture.prepend]

/-- **Escaped texts with separators between them are captured up to the closer.** -/
theorem Valid.capture_listed (hg : g.Valid) (hopener : g.isSpecial opener = true)
    (hcloser : g.isSpecial closer = true) (hescape : closer ≠ escapeChar)
    (hseparator : separator ≠ escapeChar ∧ separator ≠ opener ∧ separator ≠ closer)
    (rest : List Char) :
    ∀ texts : List (List Char), capture opener closer 0 (g.listed separator texts ++ closer :: rest) =
      .closed (g.listed separator texts) rest
  | [] => by
    rw [listed_nil, List.nil_append, capture_cons_of_ne hescape, if_pos rfl]
  | [text] => by
    rw [listed_singleton, hg.capture_escapeChars_closer hopener hcloser hescape]
  | text :: next :: others => by
    obtain ⟨hseparator₁, hseparator₂, hseparator₃⟩ := hseparator
    rw [listed_cons_cons, List.append_assoc, hg.capture_escapeChars hopener hcloser,
      List.cons_append, capture_cons_of_ne hseparator₁, if_neg hseparator₃, if_neg hseparator₂,
      hg.capture_listed hopener hcloser hescape ⟨hseparator₁, hseparator₂, hseparator₃⟩ rest
        (next :: others)]
    simp [Capture.prepend]

end Grammar

end GraphPath
