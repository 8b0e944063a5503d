import GraphPath.Run

/-!
# The program

`main` runs a command line on standard input and files, prints what comes of it, and
exits with the code of the failure if there is one.
-/

namespace GraphPath

/-- What is read, or the reason why it cannot be. -/
def reading {α : Type} (read : IO α) : IO (Except String α) := do
  try
    return .ok (← read)
  catch e =>
    return .error e.toString

/-- Texts from standard input, unless that is a terminal, and from files. -/
def files : Sources IO where
  input := do
    let stdin ← IO.getStdin
    if ← stdin.isTty then return .ok none else reading (some <$> stdin.readToEnd)
  file := fun name => reading (IO.FS.readFile name)

end GraphPath

/-- Run a command line. -/
def main (arguments : List String) : IO UInt32 := do
  match ← GraphPath.run GraphPath.files arguments with
  | .ok text =>
    IO.print text
    return 0
  | .error e =>
    IO.eprintln e.message
    return e.exitCode.toUInt32
