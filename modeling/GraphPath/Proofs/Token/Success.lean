import GraphPath.Proofs.Token.Scan

/-! # Scans that succeed

Whether a text is read, and as which tokens, does not depend on positions: these are for
faults only.  A scan that succeeds is therefore told by its drafts alone (`Grammar.Scans`):
the text is read lexeme by lexeme, each one taking the draft to the next, until the last
draft is finished.  The relation says exactly when `Grammar.scan` has an answer
(`scan_eq_ok_iff`), and to argue about all texts that are read is to go by induction on it.

The containers are alike in it but for what is filed for them (`Grammar.filing`).
-/

namespace GraphPath.Grammar
variable {g : Grammar} {maxDepth level size : Nat} {d : Draft} {c : Char}
  {ahead interior rest text : List Char} {joins : Bool} {role : ContainerRole} {tree : TokenTree}

/-- **What is filed for a container** that stands inside `level` others: its token as a member of
a collection, and the tokens that it stands for elsewhere. -/
def filing (g : Grammar) (maxDepth level : Nat) (role : ContainerRole) (interior : List Char) :
    Except PathError (Token × List Token) :=
  let plain (token : Token) : Token × List Token := (token, [token])
  match role with
  | .quote => .ok (plain (.word (String.ofList (unescape interior))))
  | .property =>
    (g.tokenizeAt maxDepth (level + 1) interior).map fun tree => (.container .property tree, tree)
  | .call => (g.tokenizeAt maxDepth (level + 1) interior).map (plain <| .container .call ·)
  | .evalProperty =>
    (g.tokenizeAt maxDepth (level + 1) interior).map (plain <| .container .evalProperty ·)

/-- One equation for all containers. -/
theorem scan_filing (h : g.lexeme c ahead = (.container role interior joins, rest)) :
    g.scan maxDepth level size d (c :: ahead) =
      (atPosition (size - (c :: ahead).length) d.fileWord).bind fun d =>
        (g.filing maxDepth level role interior).bind fun filed =>
          g.scan maxDepth level size (d.enclose filed.1 filed.2 joins) rest := by
  have hmap (f : TokenTree → Token × List Token)
      (next : Token × List Token → Except PathError TokenTree) :
      ((g.tokenizeAt maxDepth (level + 1) interior).map f).bind next =
        (g.tokenizeAt maxDepth (level + 1) interior).bind fun tree => next (f tree) := by
    cases g.tokenizeAt maxDepth (level + 1) interior <;> rfl
  cases role with
  | quote => exact scan_quote h
  | property =>
    simp only [filing, hmap]
    exact scan_property h
  | call =>
    simp only [filing, hmap]
    exact scan_container nofun nofun h
  | evalProperty =>
    simp only [filing, hmap]
    exact scan_container nofun nofun h

/-- **A text is read as some tokens**, from a draft on. -/
inductive Scans (g : Grammar) (maxDepth level : Nat) : Draft → List Char → TokenTree → Prop
  /-- The text is at its end. -/
  | done {d : Draft} {tree : TokenTree} (hfinish : d.finish = .ok tree) :
      Scans g maxDepth level d [] tree
  /-- A lexeme other than a container takes the draft to the next. -/
  | step {d d' : Draft} {c : Char} {ahead rest : List Char} {lexeme : Lexeme} {tree : TokenTree}
      (hlexeme : g.lexeme c ahead = (lexeme, rest))
      (hcontainer : ∀ role interior joins, lexeme ≠ .container role interior joins)
      (hopen : ∀ offset fault, lexeme ≠ .openEnd offset fault)
      (hstep : d.step lexeme = .ok d') (hrest : Scans g maxDepth level d' rest tree) :
      Scans g maxDepth level d (c :: ahead) tree
  /-- A container finishes the word at hand and is filed. -/
  | container {d d' : Draft} {c : Char} {ahead interior rest : List Char} {role : ContainerRole}
      {joins : Bool} {filed : Token × List Token} {tree : TokenTree}
      (hlexeme : g.lexeme c ahead = (.container role interior joins, rest))
      (hword : d.fileWord = .ok d') (hfiling : g.filing maxDepth level role interior = .ok filed)
      (hrest : Scans g maxDepth level (d'.enclose filed.1 filed.2 joins) rest tree) :
      Scans g maxDepth level d (c :: ahead) tree

theorem bind_eq_ok_iff {ε α β : Type} {x : Except ε α} {f : α → Except ε β} {b : β} :
    x.bind f = .ok b ↔ ∃ a, x = .ok a ∧ f a = .ok b := by
  cases x <;> simp [Except.bind]

theorem atPosition_eq_ok_iff {α : Type} {position : Nat} {x : Except SyntaxFault α} {a : α} :
    atPosition position x = .ok a ↔ x = .ok a := by
  cases x <;> simp

theorem Scans.scan_eq (h : g.Scans maxDepth level d text tree) (size : Nat) :
    g.scan maxDepth level size d text = .ok tree := by
  induction h with
  | done hfinish => rw [scan_nil, hfinish, atPosition_ok]
  | step hlexeme hcontainer hopen hstep _ ih =>
    rw [scan_step hcontainer hopen hlexeme, hstep]
    exact ih
  | container hlexeme hword hfiling _ ih =>
    rw [scan_filing hlexeme, hword, hfiling]
    exact ih

/-- The recursion is on the text, of which every lexeme leaves less behind. -/
theorem scans_of_scan_eq (d : Draft) (text : List Char)
    (h : g.scan maxDepth level size d text = .ok tree) : g.Scans maxDepth level d text tree := by
  match text with
  | [] =>
    rw [scan_nil, atPosition_eq_ok_iff] at h
    exact .done h
  | c :: ahead =>
    rcases hlexeme : g.lexeme c ahead with ⟨lexeme, rest⟩
    have hshorter : rest.length < (c :: ahead).length := by
      simpa only [hlexeme] using g.lexeme_rest_lt c ahead
    by_cases hcontainer : ∃ role interior joins, lexeme = .container role interior joins
    · obtain ⟨role, interior, joins, rfl⟩ := hcontainer
      rw [scan_filing hlexeme, bind_eq_ok_iff] at h
      obtain ⟨d', hword, h⟩ := h
      obtain ⟨filed, hfiling, hrest⟩ := bind_eq_ok_iff.mp h
      exact .container hlexeme (atPosition_eq_ok_iff.mp hword) hfiling
        (scans_of_scan_eq _ rest hrest)
    by_cases hopen : ∃ offset fault, lexeme = .openEnd offset fault
    · obtain ⟨offset, fault, rfl⟩ := hopen
      rw [scan_openEnd hlexeme, bind_eq_ok_iff] at h
      obtain ⟨_, _, herror⟩ := h
      cases herror
    have hplain : ∀ role interior joins, lexeme ≠ .container role interior joins :=
      fun role interior joins h => hcontainer ⟨role, interior, joins, h⟩
    have hclosed : ∀ offset fault, lexeme ≠ .openEnd offset fault :=
      fun offset fault h => hopen ⟨offset, fault, h⟩
    rw [scan_step hplain hclosed hlexeme, bind_eq_ok_iff] at h
    obtain ⟨d', hstep, hrest⟩ := h
    exact .step hlexeme hplain hclosed (atPosition_eq_ok_iff.mp hstep)
      (scans_of_scan_eq d' rest hrest)
termination_by text.length
decreasing_by all_goals exact hshorter

/-- **Scanning has an answer if and only if the text is read so**, wherever it stands. -/
theorem scan_eq_ok_iff :
    g.scan maxDepth level size d text = .ok tree ↔ g.Scans maxDepth level d text tree :=
  ⟨scans_of_scan_eq d text, fun h => h.scan_eq size⟩

/-- **A text that is one container is read as what is filed for it.** -/
theorem scans_of_container {member : Token} {alone : List Token}
    (hlexeme : g.lexeme c ahead = (.container role interior false, []))
    (hfiling : g.filing maxDepth level role interior = .ok (member, alone)) :
    g.Scans maxDepth level {} (c :: ahead) alone :=
  .container hlexeme rfl hfiling (.done rfl)

end GraphPath.Grammar
