import GraphPath.CommandLine

/-!
# Runs of the program

A run reads its command line, then the document if the command needs one and has none,
then the file with the options, and then does what the command asks for (`run`).  It ends
with a text to print, or with a `RunError`, which has a message and an exit code.

Where texts come from is a parameter, `Sources`, so that a run says the same of files and of
texts at hand.
-/

namespace GraphPath

/-- Why a run of the program fails. -/
inductive RunError where
  /-- The command line is wrong. -/
  | usage (error : UsageError)
  /-- A text cannot be read. -/
  | unreadable (detail : String)
  /-- The command fails. -/
  | command (error : CommandError)
  deriving DecidableEq, Repr

namespace RunError

/-- The exit code of a failed run. -/
def exitCode : RunError → UInt8
  | .usage _ => 2
  | .unreadable _ | .command _ => 1

/-- The wording of a failure. -/
def message : RunError → String
  | .usage error => error.message
  | .unreadable detail => "IO error: " ++ detail
  | .command error => error.message

end RunError

/-- Where a run gets its texts: what it is sent, and files by name.  A text that cannot be read
comes with the reason. -/
structure Sources (m : Type → Type) where
  /-- Everything the run is sent; nothing if nobody sends anything. -/
  input : m (Except String (Option String))
  /-- What is in a file. -/
  file : String → m (Except String String)

/-- What is read from somewhere. -/
def fetch {m : Type → Type} [Monad m] {α : Type} (source : m (Except String α)) :
    ExceptT RunError m α :=
  ExceptT.mk do return (← source).mapError .unreadable

/-- **A run of the program**: what it prints. -/
def run {m : Type → Type} [Monad m] (sources : Sources m) (arguments : List String) :
    ExceptT RunError m String := do
  let invocation ← ExceptT.mk (pure ((CommandLine.parse arguments).mapError .usage))
  let input? ← if invocation.needsInput then fetch sources.input else pure none
  let config? ← invocation.config?.mapM fun name => fetch (sources.file name)
  ExceptT.mk (pure ((invocation.run input? config?).mapError .command))

end GraphPath
