import DexGraft.Command.Run

/-!
# The program
-/

namespace DexGraft

/-- Files on the disk, and the standard output. -/
def diskConsole : Command.Console IO where
  read path := do
    try return some (← IO.FS.readFile path)
    catch _ => return none
  write path content := do
    try
      IO.FS.writeFile path content
      return true
    catch _ => return false
  print text := do
    let output ← IO.getStdout
    output.putStr text
    output.flush

end DexGraft

open DexGraft Command in
def main (arguments : List String) : IO UInt32 := do
  match Request.ofArguments? arguments with
  | none =>
    IO.eprint Help.ofProgram
    return usageCode.toUInt32
  | some request =>
    match ← (runRequest diskConsole request).run with
    | .ok () => return 0
    | .error failure =>
      match failure with
      | .message text => IO.eprintln s!"Error: {text}"
      | .overflow => IO.eprintln "register number out of range"
      return failure.code.toUInt32
