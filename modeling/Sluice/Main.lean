import Sluice.Coverage.Command
import Sluice.Markdown.Command
import Sluice.Markup.Command
import Sluice.Table.Command

/-!
# The command line

Runs the programs that need only standard input.
-/

namespace Sluice

def program? (name : String) (argv : List String) : Option (Act Unit) :=
  match name with
  | "lcov" => some (Coverage.command argv)
  | "xml" => some (Markup.command argv)
  | "table" => some (Table.command argv)
  | "markdown" => some (Markdown.command argv)
  | _ => none

def runOnMachine (act : Act Unit) : IO UInt32 := do
  let input ← (← IO.getStdin).readBinToEnd
  let (r, s) := act.run.run { input := .octets input.toList }
  IO.print s.stdout
  IO.eprint s.stderr
  match r with
  | .ok () => return 0
  | .error (.exit code) => return UInt32.ofNat code.toNat
  | .error (.farewell text) =>
    IO.eprintln text
    return 1
  | .error (.fault f) =>
    IO.eprintln s!"{f.kind.name}: {f.message}"
    return 1

end Sluice

def main (args : List String) : IO UInt32 := do
  match args.head?.bind (Sluice.program? · args.tail) with
  | some act => Sluice.runOnMachine act
  | none =>
    IO.eprintln "usage: sluice (lcov | xml | table | markdown) [argument ...]"
    return 2
