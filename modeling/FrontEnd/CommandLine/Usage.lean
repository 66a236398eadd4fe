import FrontEnd.CommandLine.Options

/-! # What the program says about its command line -/
namespace FrontEnd.CommandLine

/-- The option as usage lines show it, with a placeholder for its values. -/
def Flag.usage (flag : Flag) : String :=
  "--" ++ flag.name ++
    match flag with
    | .compile => " <COMPILE>..."
    | .output => " <OUTPUT>..."
    | .target => " <TARGET>"
    | .verbose => "..."
    | _ => ""

def helpText : String :=
  String.intercalate "\n" [
    "helang - compiles helang sources to native object files",
    "",
    "Usage: helang [OPTIONS] --compile <COMPILE>...",
    "",
    "Options:",
    "  -c, --compile <COMPILE>...  Source files to compile",
    "  -o, --output <OUTPUT>...    Object files to write, one per input; defaults to `<input>.o`",
    "  -d, --dump                  Print the LLVM IR of each module after lowering",
    "      --emit-llvm             Also save the textual IR next to the object file as `.ll`",
    "      --target <TARGET>       Target triple to emit for instead of the host's",
    "  -v, --verbose...            Increase log verbosity (-v for info, -vv for debug)",
    "  -h, --help                  Print help",
    "  -V, --version               Print version",
    ""]

def versionText : String := "helang 0.1.0\n"

/-- The last line of every refusal. -/
def hint : String := "For more information, try '--help'.\n"

def generalUsage : String := "Usage: helang [OPTIONS] --compile <COMPILE>...\n\n"

/-- The usage line that shows the options in use. -/
def usageWith (used : List Flag) : String :=
  let flags := Flag.compile :: used.filter (· != .compile)
  "Usage: helang " ++ String.intercalate " " (flags.map Flag.usage) ++ "\n\n"

namespace Refusal

/-- Help and version are asked for; everything else is a mistake. -/
def isMistake : Refusal → Bool
  | help | version => false
  | _ => true

def code (refusal : Refusal) : Nat := if refusal.isMistake then 2 else 0

def text : Refusal → String
  | help => helpText
  | version => versionText
  | unknownArgument argument =>
    "error: unexpected argument '" ++ argument ++ "' found\n\n" ++ generalUsage ++ hint
  | missingInputs used =>
    "error: the following required arguments were not provided:\n  " ++ Flag.compile.usage ++
      "\n\n" ++ usageWith used ++ hint
  | missingValue flag =>
    "error: a value is required for '" ++ flag.usage ++ "' but none was supplied\n\n" ++ hint
  | repeated flag =>
    "error: the argument '" ++ flag.usage ++ "' cannot be used multiple times\n\n" ++
      generalUsage ++ hint
  | unneededValue value flag used =>
    "error: unexpected value '" ++ value ++ "' for '" ++ flag.usage ++
      "' found; no more were expected\n\n" ++ usageWith used ++ hint

end Refusal
end FrontEnd.CommandLine
