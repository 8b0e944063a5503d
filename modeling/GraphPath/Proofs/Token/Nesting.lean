import GraphPath.Proofs.Token.Capture

/-! # How the openers and closers of a text nest

The interior of a container is captured by counting: every opener adds to the depth, every closer
takes from it, and the closer that finds nothing open ends the interior.  `depthAfter?` is this
count on its own.  A text is `Balanced` if every closer in it finds an opener and none stays open;
so **the interior of a container is the balanced text in front of a closer**
(`capture_eq_closed_iff`).
-/

namespace GraphPath

/-- How many openers are open behind a text, with `depth` of them open in front of it.  Escaped
characters are passed over; there is no answer if a closer finds nothing to close, or an escape
nothing to escape. -/
def depthAfter? (opener closer : Char) (depth : Nat) : List Char → Option Nat
  | [] => some depth
  | c :: rest =>
    if c = escapeChar then
      match rest with
      | [] => none
      | _ :: rest => depthAfter? opener closer depth rest
    else if c = closer then
      match depth with
      | 0 => none
      | depth + 1 => depthAfter? opener closer depth rest
    else if c = opener then depthAfter? opener closer (depth + 1) rest
    else depthAfter? opener closer depth rest

/-- **A balanced text**: every closer closes an opener, and every opener is closed. -/
def Balanced (opener closer : Char) (text : List Char) : Prop :=
  depthAfter? opener closer 0 text = some 0

instance (opener closer : Char) (text : List Char) : Decidable (Balanced opener closer text) :=
  inferInstanceAs (Decidable (_ = _))

example : Balanced '[' ']' ['a', '[', '\\', ']', ']', '.', '(', ')'] := by decide

variable {opener closer c : Char} {depth after : Nat} {text interior rest : List Char}

/-! ## Counting, from the front -/

theorem depthAfter?_escape_cons (c : Char) (rest : List Char) :
    depthAfter? opener closer depth (escapeChar :: c :: rest) =
      depthAfter? opener closer depth rest := by
  simp [depthAfter?]

theorem depthAfter?_cons_of_ne (hc : c ≠ escapeChar) (rest : List Char) :
    depthAfter? opener closer depth (c :: rest) =
      if c = closer then
        match depth with
        | 0 => none
        | depth + 1 => depthAfter? opener closer depth rest
      else depthAfter? opener closer (if c = opener then depth + 1 else depth) rest := by
  rw [depthAfter?.eq_def]
  dsimp only
  rw [if_neg hc]
  split
  · rfl
  · split <;> rfl

/-- A character that neither opens, closes nor escapes does not count. -/
theorem depthAfter?_cons_other (hescape : c ≠ escapeChar) (hopener : c ≠ opener)
    (hcloser : c ≠ closer) (rest : List Char) :
    depthAfter? opener closer depth (c :: rest) = depthAfter? opener closer depth rest := by
  rw [depthAfter?_cons_of_ne hescape, if_neg hcloser, if_neg hopener]

/-- One text behind another. -/
theorem depthAfter?_append (h : depthAfter? opener closer depth text = some after)
    (tail : List Char) :
    depthAfter? opener closer depth (text ++ tail) = depthAfter? opener closer after tail := by
  fun_induction depthAfter? opener closer depth text with
  | case1 depth =>
    cases h
    rfl
  | case2 | case4 => cases h
  | case3 depth d text ih => exact (depthAfter?_escape_cons d (text ++ tail)).trans (ih h)
  | case5 text depth hescape ih =>
    rw [List.cons_append, depthAfter?_cons_of_ne hescape, if_pos rfl]
    exact ih h
  | case6 depth text hescape hcloser ih =>
    rw [List.cons_append, depthAfter?_cons_of_ne hescape, if_neg hcloser, if_pos rfl]
    exact ih h
  | case7 depth c text hescape hcloser hopener ih =>
    rw [List.cons_append, depthAfter?_cons_other hescape hopener hcloser]
    exact ih h

/-- More openers in front stay open. -/
theorem depthAfter?_add (h : depthAfter? opener closer depth text = some after) (more : Nat) :
    depthAfter? opener closer (depth + more) text = some (after + more) := by
  fun_induction depthAfter? opener closer depth text with
  | case1 depth =>
    cases h
    rfl
  | case2 | case4 => cases h
  | case3 depth d text ih => exact (depthAfter?_escape_cons d text).trans (ih h)
  | case5 text depth hescape ih =>
    rw [depthAfter?_cons_of_ne hescape, if_pos rfl, Nat.succ_add]
    exact ih h
  | case6 depth text hescape hcloser ih =>
    rw [depthAfter?_cons_of_ne hescape, if_neg hcloser, if_pos rfl, Nat.add_right_comm]
    exact ih h
  | case7 depth c text hescape hcloser hopener ih =>
    rw [depthAfter?_cons_other hescape hopener hcloser]
    exact ih h

/-- **A balanced text does not count.** -/
theorem Balanced.depthAfter?_append (h : Balanced opener closer text) (depth : Nat)
    (tail : List Char) :
    depthAfter? opener closer depth (text ++ tail) = depthAfter? opener closer depth tail := by
  have hmore := depthAfter?_add h depth
  rw [Nat.zero_add] at hmore
  exact GraphPath.depthAfter?_append hmore tail

/-! ## Capturing -/

/-- **A capture goes on behind a text with its count.** -/
theorem capture_of_depthAfter? (h : depthAfter? opener closer depth text = some after)
    (tail : List Char) :
    capture opener closer depth (text ++ tail) =
      (capture opener closer after tail).prepend text := by
  fun_induction depthAfter? opener closer depth text with
  | case1 depth =>
    cases h
    exact (Capture.prepend_nil _).symm
  | case2 | case4 => cases h
  | case3 depth d text ih =>
    rw [List.cons_append, List.cons_append, capture_escape_cons, ih h, Capture.prepend_prepend]
    rfl
  | case5 text depth hescape ih =>
    rw [List.cons_append, capture_cons_of_ne hescape, if_pos rfl]
    dsimp only
    rw [ih h, Capture.prepend_prepend]
    rfl
  | case6 depth text hescape hcloser ih =>
    rw [List.cons_append, capture_cons_of_ne hescape, if_neg hcloser, if_pos rfl, ih h,
      Capture.prepend_prepend]
    rfl
  | case7 depth c text hescape hcloser hopener ih =>
    rw [List.cons_append, capture_cons_of_ne hescape, if_neg hcloser, if_neg hopener, ih h,
      Capture.prepend_prepend]
    rfl

/-- What is captured closes all that was open. -/
theorem depthAfter?_of_capture (h : capture opener closer depth text = .closed interior rest) :
    closer ≠ escapeChar ∧ text = interior ++ closer :: rest ∧
      depthAfter? opener closer depth interior = some 0 := by
  fun_induction capture opener closer depth text generalizing interior with
  | case1 => cases h
  | case2 => cases h
  | case3 depth d text ih =>
    obtain ⟨inner, hinner, rfl⟩ := Capture.prepend_eq_closed.mp h
    obtain ⟨hcloser, rfl, hafter⟩ := ih hinner
    exact ⟨hcloser, rfl, (depthAfter?_escape_cons d inner).trans hafter⟩
  | case4 text hescape =>
    cases h
    exact ⟨hescape, rfl, rfl⟩
  | case5 text depth hescape ih =>
    obtain ⟨inner, hinner, rfl⟩ := Capture.prepend_eq_closed.mp h
    obtain ⟨hcloser, rfl, hafter⟩ := ih hinner
    refine ⟨hcloser, rfl, ?_⟩
    rw [List.singleton_append, depthAfter?_cons_of_ne hescape, if_pos rfl]
    exact hafter
  | case6 depth text hescape hne ih =>
    obtain ⟨inner, hinner, rfl⟩ := Capture.prepend_eq_closed.mp h
    obtain ⟨hcloser, rfl, hafter⟩ := ih hinner
    refine ⟨hcloser, rfl, ?_⟩
    rw [List.singleton_append, depthAfter?_cons_of_ne hescape, if_neg hne, if_pos rfl]
    exact hafter
  | case7 depth c text hescape hne hopener ih =>
    obtain ⟨inner, hinner, rfl⟩ := Capture.prepend_eq_closed.mp h
    obtain ⟨hcloser, rfl, hafter⟩ := ih hinner
    exact ⟨hcloser, rfl, (depthAfter?_cons_other hescape hopener hne inner).trans hafter⟩

/-- **The interior of a container is the balanced text in front of a closer.** -/
theorem capture_eq_closed_iff :
    capture opener closer 0 text = .closed interior rest ↔
      closer ≠ escapeChar ∧ text = interior ++ closer :: rest ∧
        Balanced opener closer interior := by
  constructor
  · exact depthAfter?_of_capture
  · rintro ⟨hcloser, rfl, hbalanced⟩
    rw [capture_of_depthAfter? hbalanced, capture_cons_of_ne hcloser, if_pos rfl]
    simp [Capture.prepend]

end GraphPath
