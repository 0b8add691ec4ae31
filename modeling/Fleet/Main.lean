import Fleet.CommandLine

/-!
# The program

Reads the file that a command names and reports how the command ends.  There is no disk and no
network here, so every database is new and no port can be opened.
-/

namespace Fleet

def usage : String :=
  "usage: flotillad run [--config FILE] [--port PORT] [--data-dir DIR] [--log-json]\n" ++
  "       flotillad check-config [--config FILE]\n"

def readText (path : String) : IO (Option String) := do
  try
    return some (← IO.FS.readFile path)
  catch _ => return none

end Fleet

open Fleet in
def main (args : List String) : IO UInt32 := do
  match CommandLine.read args with
  | .help =>
    IO.print usage
    return 0
  | .misuse =>
    IO.eprint usage
    return 2
  | .command c =>
    let text ← readText c.file
    let outcome := c.outcome ⟨fun _ => text, fun _ => .other "", History.addressable, fun _ => false⟩
    if let some text := outcome.output then IO.print text
    return UInt32.ofNat outcome.code
