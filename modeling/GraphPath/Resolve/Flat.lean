import GraphPath.Resolve.Step

/-!
# Flat paths

A path without special characters other than its property separator is a row of
literal keys.  It is resolved by splitting it, without making tokens.  All segments are
looked at before the first step is taken, so an empty one is found before anything is
changed.
-/

namespace GraphPath

namespace Flat

/-- The pieces of a text between separators; always at least one. -/
def segments (separator : Char) : List Char → List (List Char)
  | [] => [[]]
  | c :: rest =>
    if c = separator then [] :: segments separator rest
    else
      match segments separator rest with
      | [] => [[c]]
      | segment :: others => (c :: segment) :: others

/-- The position of the first empty segment, in a text whose segments begin at `position`. -/
def emptyAt? (position : Nat) : List (List Char) → Option Nat
  | [] => none
  | segment :: rest =>
    if segment.isEmpty then some position else emptyAt? (position + segment.length + 1) rest

/-- Take one literal key after the other. -/
def follow (setup : Setup) (new? : Option Value) (context : Value) : List String → Edit Value
  | [] => pure context
  | key :: rest => do
    let last := rest.isEmpty
    let result ←
      Step.byKey context key (if last then new? else none)
        (setup.autoVivify && new?.isSome && !last)
    follow setup new? result rest

theorem segments_ne_nil (separator : Char) (text : List Char) : segments separator text ≠ [] := by
  induction text with
  | nil => simp [segments]
  | cons c rest ih =>
    unfold segments
    split
    · simp
    · split <;> simp

end Flat

/-- **Resolve a flat path** from a root.  With a value to write, the last step writes it. -/
def resolveFlat {ε : Type} (setup : Setup) (separator : Char) (root : Value) (path : String)
    (new? : Option Value) : Resolve ε Value :=
  let segments := Flat.segments separator path.toList
  match Flat.emptyAt? 0 segments with
  | some position => throw (.malformed position .emptySegment)
  | none => (Flat.follow setup new? root (segments.map String.ofList)).run

example : Flat.segments '.' ['a', '.', '.', 'b'] = [['a'], [], ['b']] := by decide

end GraphPath
