/-!
# What can go wrong

Every failure is a cause, one constructor each, with the data its message needs.
`PathError` is what reading, resolving and configuring report; `PathError.message`
is the only place where the wording stands, and `PathError.kind` sorts the causes
into the five kinds a caller can tell apart.
-/

namespace GraphPath

/-- What a value is, as far as messages and operations care. -/
inductive Kind where
  | null
  | boolean
  | integer
  | float
  | string
  | list
  | map
  | callable
  deriving DecidableEq, Repr

/-- The word for a kind of value. -/
def Kind.name : Kind → String
  | .null => "null"
  | .boolean => "boolean"
  | .integer => "integer"
  | .float => "float"
  | .string => "string"
  | .list => "list"
  | .map => "map"
  | .callable => "callable"

/-- Why a path text is malformed. -/
inductive SyntaxFault where
  /-- The text ends after an escape character. -/
  | danglingEscape
  /-- A closer stands where no container is open. -/
  | strayCloser (closer : Char)
  /-- A container is never closed. -/
  | unclosed (opener closer : Char)
  /-- Modifiers stand in front of no word. -/
  | bareModifier
  /-- Nothing stands between two separators, or in front of one. -/
  | emptySegment
  /-- The text ends after a separator. -/
  | trailingSeparator
  deriving DecidableEq, Repr

/-- Why a step of a path cannot be resolved. -/
inductive Failure where
  /-- The path has no steps. -/
  | noSteps
  /-- The value has no such key. -/
  | noKey (key : String) (kind : Kind)
  /-- More parent modifiers than values visited. -/
  | parentPastRoot (levels : Nat)
  /-- A write whose last step is a context argument. -/
  | writeToArgument
  /-- A write whose last step is a call. -/
  | writeToCall
  /-- A write that left its key unbound. -/
  | writeLost (key : String)
  /-- A placeholder or context word that is no number. -/
  | notAnIndex (text : String)
  /-- An argument position that was not supplied. -/
  | noArgument (index supplied : Nat)
  /-- A list written at a key that is no index. -/
  | notAListIndex (key : String)
  /-- A list written beyond its end. -/
  | indexOutOfRange (index size : Nat)
  /-- A write into a value that holds no keys. -/
  | notAssignable (key : String) (kind : Kind)
  /-- A value that cannot stand for a key. -/
  | notAKey (kind : Kind)
  /-- A method called on a receiver it is not for. -/
  | wrongReceiver (method needs : String) (kind : Kind)
  /-- A failure reported by a host function, in its own words. -/
  | host (text : String)
  deriving DecidableEq, Repr

/-- Why a call could not be made. -/
inductive CallFault where
  /-- The value called is no callable. -/
  | notCallable (kind : Kind)
  /-- A refusal by a host function, in its own words. -/
  | host (text : String)
  deriving DecidableEq, Repr

/-- Why a configuration was rejected. -/
inductive ConfigFault where
  /-- The escape character or the wildcard was given a role. -/
  | reserved (char : Char)
  /-- No property separator would remain. -/
  | noPropertySeparator
  /-- More than one property separator would remain. -/
  | manyPropertySeparators
  /-- A depth limit of zero. -/
  | zeroDepth
  /-- The shared engine is in the middle of resolving a path. -/
  | busy
  /-- A rejection by a host function, in its own words. -/
  | host (text : String)
  deriving DecidableEq, Repr

/-- A failure to read a path, to resolve it, or to configure an engine. -/
inductive PathError where
  /-- The path text is malformed at a character position. -/
  | malformed (position : Nat) (fault : SyntaxFault)
  /-- A step could not be resolved. -/
  | unresolved (failure : Failure)
  /-- A call could not be made. -/
  | uncallable (fault : CallFault)
  /-- Containers or walks nest deeper than the limit. -/
  | tooDeep (limit : Nat)
  /-- A configuration was rejected. -/
  | config (fault : ConfigFault)
  deriving DecidableEq, Repr

/-- The kinds of error a caller can tell apart. -/
inductive ErrorKind where
  | syntaxInvalid
  | resolutionFailed
  | notCallable
  | resourceExhausted
  | config
  deriving DecidableEq, Repr

/-- The kind of an error. -/
def PathError.kind : PathError → ErrorKind
  | .malformed _ _ => .syntaxInvalid
  | .unresolved _ => .resolutionFailed
  | .uncallable _ => .notCallable
  | .tooDeep _ => .resourceExhausted
  | .config _ => .config

/-! ## Wording -/

/-- A text between single quotation marks. -/
def quoted (text : String) : String := "'" ++ text ++ "'"

/-- The wording of a syntax fault. -/
def SyntaxFault.message : SyntaxFault → String
  | .danglingEscape => "path ends with an unmatched escape"
  | .strayCloser c => quoted c.toString ++ " has no matching opener"
  | .unclosed o c => quoted o.toString ++ " is never closed with " ++ quoted c.toString
  | .bareModifier => "modifier prefix is not followed by a word"
  | .emptySegment => "empty path segment"
  | .trailingSeparator => "path ends with a separator"

/-- The wording of a failure. -/
def Failure.message : Failure → String
  | .noSteps => "path has no steps"
  | .noKey key kind => "no key " ++ quoted key ++ " on " ++ kind.name
  | .parentPastRoot levels => "parent level " ++ levels.repr ++ " reaches past the root"
  | .writeToArgument => "a context argument cannot be the target of a write"
  | .writeToCall => "a call result cannot be assigned"
  | .writeLost key => "assignment to " ++ quoted key ++ " did not take effect"
  | .notAnIndex text => quoted text ++ " is not an argument index"
  | .noArgument index supplied =>
    "argument " ++ index.repr ++ " requested but " ++ supplied.repr ++ " supplied"
  | .notAListIndex key => quoted key ++ " is not a valid list index"
  | .indexOutOfRange index size =>
    "index " ++ index.repr ++ " is out of range for list of length " ++ size.repr
  | .notAssignable key kind => "cannot assign key " ++ quoted key ++ " on " ++ kind.name
  | .notAKey kind => "a " ++ kind.name ++ " cannot be used as a key"
  | .wrongReceiver method needs kind =>
    "." ++ method ++ "() requires " ++ needs ++ ", got " ++ kind.name
  | .host text => text

/-- The wording of a call fault. -/
def CallFault.message : CallFault → String
  | .notCallable kind => "a " ++ kind.name ++ " cannot be called"
  | .host text => text

/-- The wording of a rejected configuration. -/
def ConfigFault.message : ConfigFault → String
  | .reserved c => quoted c.toString ++ " is reserved and cannot be given a grammar role"
  | .noPropertySeparator => "no property separator is configured"
  | .manyPropertySeparators => "more than one property separator is configured"
  | .zeroDepth => "max_depth must be at least 1"
  | .busy => "default engine is busy resolving"
  | .host text => text

/-- The wording of an error. -/
def PathError.message : PathError → String
  | .malformed position fault =>
    "Syntax error at position " ++ position.repr ++ ": " ++ fault.message
  | .unresolved failure => "Resolution failed: " ++ failure.message
  | .uncallable fault => "Not callable: " ++ fault.message
  | .tooDeep limit => "Nesting depth limit of " ++ limit.repr ++ " exceeded"
  | .config fault => "Invalid configuration: " ++ fault.message

example : (PathError.malformed 1 (.strayCloser ']')).message =
    "Syntax error at position 1: ']' has no matching opener" := by decide +kernel

end GraphPath
