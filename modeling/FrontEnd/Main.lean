import FrontEnd.CommandLine.Run

/-! # The program -/
namespace FrontEnd.CommandLine

def readFile (path : String) : IO (Except ReadFault String) := do
  try
    let bytes ← IO.FS.readBinFile path
    match String.fromUTF8? bytes with
    | some text => return .ok text
    | none => return .error .invalidText
  catch
    | .noFileOrDirectory .. => return .error .notFound
    | .inappropriateType .. => return .error .isDirectory
    | error => return .error (.other (toString error))

/-- The files that the arguments name, with their contents. -/
def readInputs (arguments : List String) : IO (List (String × Except ReadFault String)) :=
  match Options.ofArguments arguments with
  | .error _ => return []
  | .ok options => options.inputs.mapM fun path => return (path, ← readFile path)

end FrontEnd.CommandLine

open FrontEnd.CommandLine in
def main (arguments : List String) : IO UInt32 := do
  let files ← readInputs arguments
  let report := run (fun path => (files.lookup path).getD (.error .notFound)) arguments
  (← IO.getStdout).putStr report.output
  (← IO.getStderr).putStr report.errors
  return UInt32.ofNat report.code
