import Schematic.CommandLine

namespace Schematic

/-!
# The program

Reads the file that the arguments name and leaves the outcome of the command behind.

* `fileContents` — the file, or why it cannot be read;
* `main` — the command.
-/

/-- What reading a file gives. Only a refusal to open names the file: a path that leads through a
    file cannot be opened, whereas a directory opens and then refuses to be read. -/
def fileContents (path : String) : IO (Except FileFault ByteArray) := do
  try
    return .ok (← IO.FS.readBinFile path)
  catch
    | .permissionDenied .. => return .error .permissionDenied
    | .inappropriateType (some _) .. => return .error .notDirectory
    | .inappropriateType none .. => return .error .isDirectory
    | .invalidArgument .. => return .error .nameTooLong
    | _ => return .error .notFound

end Schematic

open Schematic

/-- Runs the command. Arguments that make no sense end it with code 2. -/
def main (arguments : List String) : IO UInt32 := do
  match Options.ofArguments arguments with
  | .error fault =>
    IO.eprintln fault.message
    return 2
  | .ok options =>
    let outcome := options.execute (← fileContents options.path)
    IO.print outcome.output
    IO.eprint outcome.errors
    return outcome.exitCode
