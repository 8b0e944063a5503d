import GraphPath.Resolve.Step

/-!
# Walking token trees

A token tree is resolved step by step from a trail, each step starting from the result
of the one before.  Four kinds of token make walks of their own inside a step — computed
keys, call arguments, alternatives and property containers — each from a copy of the
trail and one level deeper, and every walk has at least one step and stays within the
depth limit (`enter`).

With a value to write, the last step of the path writes it: in a collection, the last
step of every alternative.

The recursion is on the tokens alone.  Depth is a number the language counts, not what
makes the walk end.
-/

namespace GraphPath

section
variable {ε : Type} (host : Host ε) (setup : Setup)

/-- Begin a walk at a level. -/
def enter (tokens : List Token) (level : Nat) : Resolve ε Unit :=
  if setup.maxDepth < level then throw (.tooDeep setup.maxDepth)
  else if tokens.isEmpty then throw (.unresolved .noSteps)
  else pure ()

/-- Call a callable. -/
def call (f : Callable) (receiver : Value) (arguments : List Value) : Resolve ε Value :=
  match f.behaviour with
  | .method method => Edit.run (Edit.attempt fun g => g.callMethod method receiver arguments)
  | .host _ => host f receiver arguments

/-- The items of a list, or else the value itself, alone. -/
def spread (v : Value) : Resolve ε (List Value) :=
  Edit.run (Edit.ask fun g => (g.items? v).getD [v])

mutual

/-- Resolve one token: the result, and the trail to push it on. -/
def step (trail : Trail) (new? : Option Value) (vivify : Bool) (level : Nat) :
    Token → Resolve ε (Value × Trail)
  | .word key => do
    let result ← (Step.byKey trail.current key new? vivify).run
    pure (result, trail)
  | .modified word modifiers => (Step.byModified setup trail word modifiers new?).run
  | .collection members => do
    let results ← alternatives trail new? level members
    let result ← (Edit.make fun g => g.newList results).run
    pure (result, trail)
  | .container .call tree => do
    if new?.isSome then throw (.unresolved .writeToCall)
    match trail.current with
    | .callable f => do
      let arguments ←
        if tree.isEmpty then pure []
        else do
          enter setup tree (level + 1)
          spread (← walkFrom trail none (level + 1) tree)
      let result ← call host f trail.receiver arguments
      pure (result, trail)
    | v => do
      let kind ← (Edit.ask fun g => g.kind v).run
      throw (.uncallable (.notCallable kind))
  | .container .evalProperty tree => do
    enter setup tree (level + 1)
    let computed ← walkFrom trail none (level + 1) tree
    let key ← (Edit.askFor fun g => g.toKey computed).run
    let result ← (Step.byKey trail.current key new? vivify).run
    pure (result, trail)
  | .container _ tree => do
    enter setup tree (level + 1)
    let result ← walkFrom trail new? (level + 1) tree
    pure (result, trail)

/-- Resolve the alternatives of a collection one by one, and concatenate their results. -/
def alternatives (trail : Trail) (new? : Option Value) (level : Nat) :
    List Token → Resolve ε (List Value)
  | [] => pure []
  | member :: rest => do
    let (result, _) ←
      match member with
      | .container .call _ | .word _ | .modified _ _ | .collection _ => do
        enter setup [member] (level + 1)
        step trail new? false (level + 1) member
      | .container _ _ => step trail new? false level member
    let results ← spread result
    let others ← alternatives trail new? level rest
    pure (results ++ others)

/-- Resolve the remaining tokens of a walk. -/
def walkFrom (trail : Trail) (new? : Option Value) (level : Nat) :
    List Token → Resolve ε Value
  | [] => pure trail.current
  | token :: rest => do
    let last := rest.isEmpty
    let (result, trail) ←
      step trail (if last then new? else none) (setup.autoVivify && new?.isSome && !last) level
        token
    walkFrom (trail.push result) new? level rest

end

/-- **Resolve a token tree** from a root.  With a value to write, the last step writes it. -/
def resolveTokens (root : Value) (tokens : List Token) (new? : Option Value) : Resolve ε Value := do
  enter setup tokens 0
  walkFrom host setup ⟨root, []⟩ new? 0 tokens

end

end GraphPath
