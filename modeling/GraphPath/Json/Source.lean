import GraphPath.Json.Token

/-!
# JSON as it is written

The second half of reading JSON: tokens are put together to a `JsonSource`, which says
all that the text says — the order of members, repeated keys, and the spelling of numbers
and strings included.

`JsonSource.parse` takes one token at a time.  The containers that are still open wait in
a list of frames, innermost first, and `Awaiting` says what may come next.
-/

namespace GraphPath

/-- A JSON text, white space left out. -/
inductive JsonSource where
  | null
  | bool (b : Bool)
  | number (text : NumberText)
  | string (parts : List StringPart)
  | array (items : List JsonSource)
  | object (members : List (List StringPart × JsonSource))
  deriving Repr, Inhabited

namespace JsonSource

/-- A container that is still open, with what it holds so far, newest first. -/
inductive Frame where
  | array (items : List JsonSource)
  | object (members : List (List StringPart × JsonSource))
  /-- An object whose newest key still lacks its value. -/
  | member (members : List (List StringPart × JsonSource)) (key : List StringPart)
  deriving Repr

/-- What may come next. -/
inductive Awaiting where
  /-- A value, or the end of an array that has just begun. -/
  | value (orEnd : Bool)
  /-- A key, or the end of an object that has just begun. -/
  | key (orEnd : Bool)
  /-- The colon behind a key. -/
  | colon
  /-- What follows a finished value. -/
  | rest (value : JsonSource)
  deriving Repr

/-- The single value that a token is by itself. -/
def ofToken? : JsonToken → Option JsonSource
  | .null => some .null
  | .bool b => some (.bool b)
  | .number text => some (.number text)
  | .string parts => some (.string parts)
  | _ => none

/-- Take one token: the frames and what is awaited after it. -/
def step (frames : List Frame) (awaiting : Awaiting) (token : JsonToken) :
    Option (List Frame × Awaiting) :=
  match awaiting, token, frames with
  | .value _, .openArray, frames => some (.array [] :: frames, .value true)
  | .value _, .openObject, frames => some (.object [] :: frames, .key true)
  | .value true, .closeArray, .array items :: frames =>
    some (frames, .rest (.array items.reverse))
  | .value _, token, frames => (ofToken? token).map fun v => (frames, .rest v)
  | .key _, .string key, .object members :: frames => some (.member members key :: frames, .colon)
  | .key true, .closeObject, .object members :: frames =>
    some (frames, .rest (.object members.reverse))
  | .colon, .colon, frames => some (frames, .value false)
  | .rest v, .comma, .array items :: frames => some (.array (v :: items) :: frames, .value false)
  | .rest v, .closeArray, .array items :: frames =>
    some (frames, .rest (.array (v :: items).reverse))
  | .rest v, .comma, .member members key :: frames =>
    some (.object ((key, v) :: members) :: frames, .key false)
  | .rest v, .closeObject, .member members key :: frames =>
    some (frames, .rest (.object ((key, v) :: members).reverse))
  | _, _, _ => none

/-- Take all tokens. -/
def parse (frames : List Frame) (awaiting : Awaiting) : List JsonToken → Option JsonSource
  | [] =>
    match frames, awaiting with
    | [], .rest v => some v
    | _, _ => none
  | token :: tokens =>
    match step frames awaiting token with
    | some (frames, awaiting) => parse frames awaiting tokens
    | none => none

/-- **Read a JSON text** of one value. -/
def read? (text : String) : Option JsonSource :=
  match JsonToken.tokens? text.toList with
  | some tokens => parse [] (.value false) tokens
  | none => none

/-! ## Strings -/

/-- Whether sixteen bits are the first half of a pair. -/
def isLeading (n : Nat) : Bool := 0xd800 ≤ n && n < 0xdc00

/-- Whether sixteen bits are the second half of a pair. -/
def isTrailing (n : Nat) : Bool := 0xdc00 ≤ n && n < 0xe000

/-- The characters a string stands for.  Halves of a pair must come together. -/
def chars? : List StringPart → Option (List Char)
  | [] => some []
  | .char c :: parts => (chars? parts).map (c :: ·)
  | .unit n :: .unit m :: parts =>
    if isLeading n then
      if isTrailing m then
        (chars? parts).map (Char.ofNat (0x10000 + (n - 0xd800) * 0x400 + (m - 0xdc00)) :: ·)
      else none
    else if isTrailing n then none
    else (chars? (.unit m :: parts)).map (Char.ofNat n :: ·)
  | .unit n :: parts =>
    if isLeading n || isTrailing n then none else (chars? parts).map (Char.ofNat n :: ·)

/-- The text a string stands for. -/
def text? (parts : List StringPart) : Option String := (chars? parts).map String.ofList

end JsonSource

end GraphPath
