import GraphPath.Method
import GraphPath.Pattern
import GraphPath.Resolve.Trail
import GraphPath.Resolve.World

/-!
# Single steps

The steps of a path that need no walk of their own: taking a key from a value, with
or without modifiers, and matching a pattern against its keys.  Given a value to
write, the same step assigns it instead and answers with it.

A key that a value lacks may still mean something (`missing`): an intrinsic of the value,
or, on a callable, simply its own text, so that bare words can stand for arguments.  On
the way to a write, a step may put a new map where a key is missing (`vivify`).
-/

namespace GraphPath

/-- What stays the same throughout one resolution. -/
structure Setup where
  /-- The positional arguments. -/
  arguments : List Value := []
  /-- Whether writes make the maps that are missing on their way. -/
  autoVivify : Bool := false
  /-- How deep walks may nest. -/
  maxDepth : Nat
  deriving Inhabited

/-- The argument that a word names by its position, counted from one. -/
def Setup.argument (setup : Setup) (word : String) : Except Failure Value :=
  match argumentIndex? word with
  | none => .error (.notAnIndex word)
  | some 0 => .error (.noArgument 0 setup.arguments.length)
  | some (i + 1) =>
    match setup.arguments[i]? with
    | none => .error (.noArgument (i + 1) setup.arguments.length)
    | some v => .ok v

namespace Step

/-- Read a key that a value does not have. -/
def missing (target : Value) (key : String) : Edit Value := do
  match ← Edit.ask fun g => g.intrinsic? target key with
  | some (v, g) =>
    set g
    pure v
  | none =>
    if target.isCallable then pure (.string key)
    else Edit.fail (.noKey key (← Edit.ask fun g => g.kind target))

/-- Write `v` under a key, and make sure that it is there. -/
def writeKey (target : Value) (key : String) (v : Value) : Edit Value := do
  Edit.assign target key v
  if ← Edit.ask fun g => g.hasKey target key then pure v else Edit.fail (.writeLost key)

/-- Put a new map under a key. -/
def vivifyKey (target : Value) (key : String) : Edit Value := do
  let fresh ← Edit.make fun g => g.newMap .empty
  Edit.assign target key fresh
  pure fresh

/-- **A step by a literal key.** -/
def byKey (target : Value) (key : String) (new? : Option Value) (vivify : Bool) : Edit Value := do
  match new? with
  | some v => writeKey target key v
  | none =>
    match ← Edit.ask fun g => g.getKey? target key with
    | some found => pure found
    | none =>
      if vivify && target.isContainer then vivifyKey target key else missing target key

/-- The values under the given keys, each of them first replaced by the value to write if there
is one. -/
def gather (target : Value) (new? : Option Value) : List String → Edit (List Value)
  | [] => pure []
  | key :: rest => do
    if let some v := new? then Edit.assign target key v
    let found? ← Edit.ask fun g => g.getKey? target key
    let others ← gather target new? rest
    pure (found?.toList ++ others)

/-- A step by a pattern: a new list of what stands under the matching keys. -/
def byPattern (target : Value) (pattern : String) (new? : Option Value) : Edit Value := do
  let keys ← Edit.ask fun g => (g.ownKeys target).filter (Pattern.admits pattern)
  let found ← gather target new? keys
  Edit.make fun g => g.newList found

/-- A step by the key of a modified word, on the value its modifiers lead to. -/
def byModifiedKey (target : Value) (key : String) (new? : Option Value) : Edit Value := do
  if ← Edit.ask fun g => g.hasKey target key then
    match new? with
    | some v =>
      Edit.assign target key v
      pure v
    | none =>
      match ← Edit.ask fun g => g.getKey? target key with
      | some found => pure found
      | none => Edit.fail (.noKey key (← Edit.ask fun g => g.kind target))
  else if Pattern.isPattern key then byPattern target key new?
  else
    match new? with
    | none => missing target key
    | some _ =>
      if target.isCallable then pure (.string key)
      else Edit.fail (.noKey key (← Edit.ask fun g => g.kind target))

/-- **A step by a modified word**: the value and the trail it leads to. -/
def byModified (setup : Setup) (trail : Trail) (word : String) (modifiers : Modifiers)
    (new? : Option Value) : Edit (Value × Trail) := do
  let (target, trail) ← Edit.askFor fun _ => trail.select modifiers
  let key ←
    if 0 < modifiers.placeholder then do
      let argument ← Edit.askFor fun _ => setup.argument word
      Edit.askFor fun g => g.toKey argument
    else pure word
  if 0 < modifiers.context then
    if new?.isSome then Edit.fail .writeToArgument
    else
      let argument ← Edit.askFor fun _ => setup.argument key
      pure (argument, trail)
  else
    let result ← byModifiedKey target key new?
    pure (result, trail)

end Step

end GraphPath
