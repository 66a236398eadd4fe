/-! # Command line options

An option is given by a long name or a letter, and letters may be grouped. Values follow an option
as separate arguments, or one value is attached to it. The values that follow an option are taken
together once the next option or the end is reached, so what is wrong with them is found then; an
argument that is no option and belongs to none is refused at once. -/
namespace FrontEnd.CommandLine

/-- The options of the program, in the order of its help. -/
inductive Flag where
  | compile
  | output
  | dump
  | emitLlvm
  | target
  | verbose
  | help
  | version
  deriving DecidableEq, Repr

namespace Flag

/-- The long name, after two hyphens. -/
def name : Flag → String
  | compile => "compile"
  | output => "output"
  | dump => "dump"
  | emitLlvm => "emit-llvm"
  | target => "target"
  | verbose => "verbose"
  | help => "help"
  | version => "version"

/-- The letter, after one hyphen. -/
def letter? : Flag → Option Char
  | compile => some 'c'
  | output => some 'o'
  | dump => some 'd'
  | verbose => some 'v'
  | help => some 'h'
  | version => some 'V'
  | emitLlvm | target => none

/-- How many values may follow the option: none, one, or any number. -/
inductive Arity where
  | none
  | one
  | many
  deriving DecidableEq, Repr

def arity : Flag → Arity
  | compile | output => .many
  | target => .one
  | _ => .none

def all : List Flag := [compile, output, dump, emitLlvm, target, verbose, help, version]

def ofName? (name : String) : Option Flag := all.find? fun flag => flag.name == name

def ofLetter? (letter : Char) : Option Flag := all.find? fun flag => flag.letter? == some letter

end Flag

/-- What the arguments ask for. -/
structure Options where
  inputs : List String := []
  outputs : List String := []
  dump : Bool := false
  emitLlvm : Bool := false
  target : Option String := none
  verbosity : Nat := 0
  deriving DecidableEq, Repr

/-- The file to write for the input at an index: the output at that index, or else a name made from
the input's. -/
def Options.outputFor (options : Options) (index : Nat) (input : String) : String :=
  options.outputs[index]?.getD (input ++ ".o")

/-- Why the arguments do not lead to options. -/
inductive Refusal where
  | help
  | version
  | unknownArgument (argument : String)
  | missingInputs (used : List Flag)
  | missingValue (flag : Flag)
  | repeated (flag : Flag)
  | unneededValue (value : String) (flag : Flag) (used : List Flag)
  deriving DecidableEq, Repr

/-- What is known after some arguments: the options so far, those options in the order of their
first use, and the option whose values are still being taken. -/
structure Progress where
  options : Options := {}
  used : List Flag := []
  pending : Option (Flag × List String) := none
  deriving DecidableEq, Repr

namespace Progress

def use (progress : Progress) (flag : Flag) : Progress :=
  if progress.used.contains flag then progress
  else { progress with used := progress.used ++ [flag] }

/-- Takes an option with its values. Files have a name, so an empty value counts as none. -/
def take (progress : Progress) (flag : Flag) (values : List String) : Except Refusal Progress :=
  let options := progress.options
  let done (options : Options) := .ok { progress.use flag with options }
  match flag with
  | .compile =>
    if values.isEmpty || values.contains "" then .error (.missingValue flag)
    else done { options with inputs := options.inputs ++ values }
  | .output =>
    if values.isEmpty || values.contains "" then .error (.missingValue flag)
    else done { options with outputs := options.outputs ++ values }
  | .target =>
    match values with
    | [] => .error (.missingValue flag)
    | value :: _ =>
      if options.target.isSome then .error (.repeated flag)
      else done { options with target := some value }
  | .dump => if options.dump then .error (.repeated flag) else done { options with dump := true }
  | .emitLlvm =>
    if options.emitLlvm then .error (.repeated flag) else done { options with emitLlvm := true }
  | .verbose => done { options with verbosity := min 255 (options.verbosity + 1) }
  | .help => .error .help
  | .version => .error .version

/-- Takes the option whose values are complete now. -/
def settle (progress : Progress) : Except Refusal Progress :=
  match progress.pending with
  | none => .ok progress
  | some (flag, values) => { progress with pending := none }.take flag values

/-- Takes an option that has no further values. -/
def takeNow (progress : Progress) (flag : Flag) (values : List String) :
    Except Refusal Progress := do
  let progress ← progress.settle
  progress.take flag values

/-- Begins an option whose values follow. -/
def await (progress : Progress) (flag : Flag) : Except Refusal Progress := do
  let progress ← progress.settle
  .ok { progress with pending := some (flag, []) }

/-- An argument by its long name, with the value attached by an equals sign. -/
def long (progress : Progress) (name : String) (value? : Option String) :
    Except Refusal Progress :=
  match Flag.ofName? name with
  | none => .error (.unknownArgument ("--" ++ name))
  | some flag =>
    match flag.arity, value? with
    | .none, none => progress.takeNow flag []
    | .none, some value => .error (.unneededValue value flag (progress.use flag).used)
    | _, some value => progress.takeNow flag [value]
    | _, none => progress.await flag

/-- The value attached to a letter; an equals sign may stand before it. -/
def attached? : List Char → Option String
  | [] => none
  | '=' :: value => some (String.ofList value)
  | value => some (String.ofList value)

/-- A group of letters. The first that takes a value has the rest of the group as its value. -/
def letters (progress : Progress) : List Char → Except Refusal Progress
  | [] => .ok progress
  | letter :: rest =>
    match Flag.ofLetter? letter with
    | none => .error (.unknownArgument (String.ofList ['-', letter]))
    | some flag =>
      match flag.arity, attached? rest with
      | .none, _ => do
        let progress ← progress.takeNow flag []
        progress.letters rest
      | _, some value => progress.takeNow flag [value]
      | _, none => progress.await flag

/-- An argument that is no option: a value of the option before it, if that takes one more. -/
def value (progress : Progress) (argument : String) : Except Refusal Progress :=
  match progress.pending with
  | none => .error (.unknownArgument argument)
  | some (flag, values) =>
    if flag.arity = .many || values.isEmpty then
      .ok { progress with pending := some (flag, values ++ [argument]) }
    else .error (.unknownArgument argument)

/-- One argument before the end of options. A lone hyphen is a value. -/
def argument (progress : Progress) (text : String) : Except Refusal Progress :=
  match text.toList with
  | '-' :: '-' :: name =>
    let (name, value) := name.span (· != '=')
    progress.long (String.ofList name) (value.tail?.map String.ofList)
  | '-' :: letter :: more => progress.letters (letter :: more)
  | _ => progress.value text

/-- All arguments. Two hyphens end the options, and no argument may follow them. -/
def arguments (progress : Progress) : List String → Except Refusal Progress
  | [] => progress.settle
  | "--" :: [] => progress.settle
  | "--" :: stray :: _ => .error (.unknownArgument stray)
  | text :: more => do
    let progress ← progress.argument text
    progress.arguments more

end Progress

/-- The options that arguments ask for. At least one input is needed. -/
def Options.ofArguments (arguments : List String) : Except Refusal Options := do
  let progress ← ({} : Progress).arguments arguments
  if progress.options.inputs.isEmpty then .error (.missingInputs progress.used)
  else .ok progress.options

end FrontEnd.CommandLine
