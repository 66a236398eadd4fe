import FrontEnd.CommandLine.Directory
import FrontEnd.CommandLine.Usage
import FrontEnd.Diagnostic.Excerpt
import FrontEnd.Program

/-! # One run of the program

Every input is read and checked, also after one that fails. Code generation is not part of this
library, so a run ends with the checks: an input that passes them is reported as well. -/
namespace FrontEnd.CommandLine

/-- The program in a file with these contents, or what to print about the file. -/
def readProgram (path : String) (contents : Except ReadFault String) : Except String Program :=
  match contents with
  | .error fault => .error ("Error: failed to read " ++ path ++ ": " ++ fault.message)
  | .ok source =>
    match Program.ofSource source with
    | .ok program => .ok program
    | .error diagnostic => .error ("-> " ++ path ++ "\n" ++ diagnostic.render source)

structure Report where
  code : Nat
  output : String
  errors : String
  deriving DecidableEq, Repr

def inputMessage (path : String) (contents : Except ReadFault String) : String :=
  match readProgram path contents with
  | .error message => message
  | .ok _ => "Error: no code generator for " ++ path

def run (contents : String → Except ReadFault String) (arguments : List String) : Report :=
  match Options.ofArguments arguments with
  | .error refusal =>
    if refusal.isMistake then ⟨refusal.code, "", refusal.text⟩
    else ⟨refusal.code, refusal.text, ""⟩
  | .ok options =>
    let messages := options.inputs.map fun path => inputMessage path (contents path) ++ "\n"
    ⟨1, "", String.join messages⟩

end FrontEnd.CommandLine
