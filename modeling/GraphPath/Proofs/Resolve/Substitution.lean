import GraphPath.Proofs.Resolve.Compose

/-! # Placeholders

A word with placeholders in front of it and no other modifier names an argument by its position, and
is looked up under the text of this argument.  Putting the text into the path in the first place
(`Token.substitute`) is the same: **placeholders are substitution** (`resolveTokens_substituteAll`),
at any depth of a token tree, for whatever the argument list holds.

The argument is the one at the position that the word names, counted from one, and its text is what
stands for the placeholder (`Setup.placeholderKey?_eq_some_iff`).

Plain and modified words are looked up in two different ways.  A modified one may be a pattern, so a
text with a wildcard in it is left where it is; without one, both ways find the same
(`Step.byModifiedKey_none_eq_byKey`).  And what the text of an argument is does not depend on the
document (`Graph.toKey_of_eq_ok`), nor on what a call has made of it in the meantime.
-/

namespace GraphPath

/-! ## The keys that placeholders stand for -/

/-- The key that a modified word stands for because of its placeholders alone, unless it would be
taken for a pattern. -/
def Setup.placeholderKey? (setup : Setup) (g : Graph) (word : String) (modifiers : Modifiers) :
    Option String :=
  if 0 < modifiers.placeholder ∧ modifiers.parent = 0 ∧ modifiers.root = 0 ∧
      modifiers.context = 0 then
    match setup.finalKey g word modifiers with
    | .ok key => if Pattern.isPattern key then none else some key
    | .error _ => none
  else none

mutual

/-- A token with arguments put in for its placeholders, at any depth.  The graph is asked for their
texts, and any other graph would tell the same. -/
def Token.substitute (setup : Setup) (g : Graph) : Token → Token
  | .word key => .word key
  | .modified text modifiers =>
    match setup.placeholderKey? g text modifiers with
    | some key => .word key
    | none => .modified text modifiers
  | .container role tree => .container role (Token.substituteAll setup g tree)
  | .collection members => .collection (Token.substituteAll setup g members)

/-- So for all of a row of tokens. -/
def Token.substituteAll (setup : Setup) (g : Graph) : List Token → List Token
  | [] => []
  | token :: rest => token.substitute setup g :: Token.substituteAll setup g rest

end

/-- Which text a value has as a key is a matter of the value alone. -/
theorem Graph.toKey_of_eq_ok {g : Graph} {v : Value} {key : String} (h : g.toKey v = .ok key)
    (g' : Graph) : g'.toKey v = .ok key := by
  unfold Graph.toKey at h ⊢
  split at h
  case h_7 => cases h
  all_goals exact h

section
variable {setup : Setup} {g : Graph} {word key : String} {modifiers : Modifiers}

theorem Pattern.isPattern_eq_false_iff :
    Pattern.isPattern key = false ↔ wildcardChar ∉ key.toList := by
  rw [isPattern, List.contains_eq_mem, decide_eq_false_iff_not]

/-- **What a placeholder stands for**: the text of the argument that its word names, where it is the
only kind of modifier and the text is no pattern. -/
theorem Setup.placeholderKey?_eq_some_iff :
    setup.placeholderKey? g word modifiers = some key ↔
      (0 < modifiers.placeholder ∧ modifiers.parent = 0 ∧ modifiers.root = 0 ∧
        modifiers.context = 0) ∧
      (∃ i v, argumentIndex? word = some (i + 1) ∧ setup.arguments[i]? = some v ∧
        g.toKey v = .ok key) ∧
      wildcardChar ∉ key.toList := by
  rw [← Pattern.isPattern_eq_false_iff, placeholderKey?, finalKey]
  constructor
  · intro h
    split at h
    · rename_i halone
      rw [if_pos halone.1] at h
      cases hargument : setup.argument word with
      | error failure =>
        rw [hargument] at h
        cases h
      | ok v =>
        obtain ⟨i, hindex, hat⟩ := Setup.argument_eq_ok_iff.mp hargument
        simp only [hargument] at h
        split at h
        · rename_i text htext
          split at h
          · cases h
          · rename_i hplain
            cases h
            exact ⟨halone, ⟨i, v, hindex, hat, htext⟩, Bool.eq_false_iff.mpr hplain⟩
        · cases h
    · cases h
  · rintro ⟨halone, ⟨i, v, hindex, hat, htext⟩, hplain⟩
    have hargument : setup.argument word = .ok v :=
      Setup.argument_eq_ok_iff.mpr ⟨i, hindex, hat⟩
    simp only [if_pos halone, if_pos halone.1, hargument, htext, hplain, Bool.false_eq_true,
      if_false]

/-- A placeholder that can be put in stands for the same key whatever the document. -/
theorem Setup.finalKey_of_placeholderKey? (h : setup.placeholderKey? g word modifiers = some key)
    (g' : Graph) : setup.finalKey g' word modifiers = .ok key := by
  obtain ⟨halone, ⟨i, v, hindex, hat, htext⟩, -⟩ := Setup.placeholderKey?_eq_some_iff.mp h
  have hargument : setup.argument word = .ok v := Setup.argument_eq_ok_iff.mpr ⟨i, hindex, hat⟩
  rw [finalKey, if_pos halone.1, hargument]
  exact Graph.toKey_of_eq_ok htext g'

namespace Step
variable {trail : Trail} {target : Value}

/-- **Both ways to look up a key are one** where the key is no pattern and nothing is made. -/
theorem byModifiedKey_none_eq_byKey (hplain : Pattern.isPattern key = false) (target : Value) :
    byModifiedKey target key none = byKey target key none false := by
  funext g
  rw [byModifiedKey_none, byKey_none]
  cases g.getKey? target key with
  | some found => rfl
  | none =>
    dsimp only
    rw [if_neg (Bool.eq_false_iff.mp hplain)]

/-- A step by a word whose placeholders can be put in. -/
theorem byModified_of_placeholderKey? (h : setup.placeholderKey? g word modifiers = some key)
    (trail : Trail) :
    byModified setup trail word modifiers none = (do
      let result ← byKey trail.current key none false
      pure (result, trail)) := by
  obtain ⟨⟨-, hparent, hroot, hcontext⟩, -, hliteral⟩ := Setup.placeholderKey?_eq_some_iff.mp h
  have hplain := Pattern.isPattern_eq_false_iff.mpr hliteral
  have hkey := Setup.finalKey_of_placeholderKey? h
  have hno : ¬ 0 < modifiers.context := Nat.not_lt.mpr (Nat.le_of_eq hcontext)
  simp only [byModified_eq, Trail.select_forward hparent hroot, hkey, Edit.askFor_ok, pure_bind,
    withKey, if_neg hno, byModifiedKey_none_eq_byKey hplain]

end Step

end

/-! ## Reading with arguments put in -/

section
variable {ε : Type} {host : Host ε} {setup : Setup} {g : Graph}

theorem isEmpty_substituteAll (tokens : List Token) :
    (Token.substituteAll setup g tokens).isEmpty = tokens.isEmpty := by
  cases tokens <;> rfl

theorem enter_substituteAll (tokens : List Token) (level : Nat) :
    (enter setup (Token.substituteAll setup g tokens) level : Resolve ε Unit) =
      enter setup tokens level := by
  rw [enter, enter, isEmpty_substituteAll]

/-- A member of a collection stays a bracket of its own, or none. -/
theorem enterAlternative_substitute (level : Nat) (member : Token) :
    (enterAlternative setup level (member.substitute setup g) : Resolve ε Unit) =
      enterAlternative setup level member := by
  match member with
  | .word _ | .collection _ => rfl
  | .container role tree => cases role <;> rfl
  | .modified text modifiers =>
    rw [Token.substitute]
    split <;> rfl

theorem alternativeLevel_substitute (level : Nat) (member : Token) :
    alternativeLevel level (member.substitute setup g) = alternativeLevel level member := by
  match member with
  | .word _ | .collection _ => rfl
  | .container role tree => cases role <;> rfl
  | .modified text modifiers =>
    rw [Token.substitute]
    split <;> rfl

mutual

/-- **A step of a read is the same with arguments put in.** -/
theorem step_substitute (trail : Trail) (level : Nat) (token : Token) :
    step host setup trail none false level (token.substitute setup g) =
      step host setup trail none false level token := by
  match token with
  | .word key => rfl
  | .modified text modifiers =>
    rw [Token.substitute]
    cases hkey : setup.placeholderKey? g text modifiers with
    | none => rfl
    | some key =>
      dsimp only
      rw [step, step, Step.byModified_of_placeholderKey? hkey, Edit.run_bind]
      rfl
  | .collection members =>
    rw [Token.substitute, step, step, alternatives_substituteAll trail level members]
  | .container .call tree =>
    rw [Token.substitute]
    by_cases hcurrent : ∃ f, trail.current = .callable f
    · obtain ⟨f, hcurrent⟩ := hcurrent
      rw [step_call_callable hcurrent, step_call_callable hcurrent, callArguments, callArguments,
        isEmpty_substituteAll, enter_substituteAll,
        walkFrom_substituteAll trail (level + 1) tree]
    · rw [step_call_of_not_callable (not_exists.mp hcurrent),
        step_call_of_not_callable (not_exists.mp hcurrent)]
  | .container .evalProperty tree =>
    rw [Token.substitute, step, step, enter_substituteAll,
      walkFrom_substituteAll trail (level + 1) tree]
  | .container .property tree | .container .quote tree =>
    rw [Token.substitute, step_path_eq (by exact trivial), step_path_eq (by exact trivial),
      enter_substituteAll, walkFrom_substituteAll trail (level + 1) tree]

theorem alternatives_substituteAll (trail : Trail) (level : Nat) (members : List Token) :
    alternatives host setup trail none level (Token.substituteAll setup g members) =
      alternatives host setup trail none level members := by
  match members with
  | [] => rfl
  | member :: rest =>
    have hmember : alternative host setup trail none level (member.substitute setup g) =
        alternative host setup trail none level member := by
      rw [alternative, alternative, enterAlternative_substitute, alternativeLevel_substitute,
        step_substitute trail _ member]
    rw [Token.substituteAll, alternatives_cons, alternatives_cons, hmember,
      alternatives_substituteAll trail level rest]

theorem walkFrom_substituteAll (trail : Trail) (level : Nat) (tokens : List Token) :
    walkFrom host setup trail none level (Token.substituteAll setup g tokens) =
      walkFrom host setup trail none level tokens := by
  match tokens with
  | [] => rfl
  | token :: rest =>
    rw [Token.substituteAll, walkFrom_cons_none, walkFrom_cons_none,
      step_substitute trail level token]
    exact congrArg _ (funext fun result => walkFrom_substituteAll _ level rest)

end

end

/-- **Placeholders are substitution**: with arguments put in for the placeholders of a token tree,
at any depth, reading comes to the same value or error and leaves the same world. -/
theorem resolveTokens_substituteAll {ε : Type} (host : Host ε) (setup : Setup) (g : Graph)
    (root : Value) (tokens : List Token) :
    resolveTokens host setup root (Token.substituteAll setup g tokens) none =
      resolveTokens host setup root tokens none := by
  rw [resolveTokens, resolveTokens, enter_substituteAll, walkFrom_substituteAll]

/-- In an argument of a call and in a computed key; a pattern and a repeated root are left alone. -/
example :
    let setup : Setup := { arguments := [.string "a", .integer 2, .string "b*"], maxDepth := 8 }
    let placeholder (text : String) : Token := .modified text (.single .placeholder)
    Token.substituteAll setup {} [placeholder "1",
        .container .call [.collection [placeholder "2", placeholder "3", placeholder "4"]],
        .container .evalProperty [.modified "1" { root := 1, placeholder := 1 }]] =
      [.word "a", .container .call [.collection [.word "2", placeholder "3", placeholder "4"]],
        .container .evalProperty [.modified "1" { root := 1, placeholder := 1 }]] := by
  rfl

end GraphPath
