import FrontEnd.Token
import FrontEnd.Text.Quoted

/-! # Diagnostics

What can be wrong with a source, as causes; the wording of each cause stands in one function, so
that everything else speaks about causes and never about texts. A diagnostic is a cause at a
span, and in a function once lowering knows it. -/
namespace FrontEnd

/-- The part of the work that finds a cause. -/
inductive Phase where
  | scanning
  | reading
  | lowering
  deriving DecidableEq, Repr

def Phase.name : Phase → String
  | scanning => "lexer"
  | reading => "parser"
  | lowering => "codegen"

inductive Cause where
  | unrecognisedCharacter (character : Char)
  | unexpectedToken (expected found : TokenKind)
  | unexpectedEnd (expected : TokenKind)
  | unmatchedBracket (opening expected : TokenKind)
  | invalidPrimary (found : String)
  | expectedCall
  | expectedDeclarationEnd
  | expectedExternalEnd
  | numberOutOfRange (literal : String)
  | alreadyDeclared (name : String)
  | notDeclared (name : String)
  | immutableAssignment (name : String)
  | repeatedParameter (name : String)
  | functionNotDeclared (name : String)
  | functionAlreadyDeclared (name : String)
  | argumentCount (expected received : Nat)
  | unknownType (type : String)
  | missingInitializer (name : String)
  | noDefaultReturn (type : String)
  | unsupportedOperator (operator : String)
  | expectedValue
  | verification (message : String)
  | backend (message : String)
  deriving DecidableEq, Repr

namespace Cause

/-- The cause's identifier in reports for programs. -/
def name : Cause → String
  | unrecognisedCharacter _ => "UnrecognisedCharacter"
  | unexpectedToken .. => "UnexpectedToken"
  | unexpectedEnd _ => "UnexpectedEnd"
  | unmatchedBracket .. => "UnmatchedBracket"
  | invalidPrimary _ => "InvalidPrimaryExpression"
  | expectedCall => "ExpectedCallExpression"
  | expectedDeclarationEnd => "ExpectedDeclarationEnd"
  | expectedExternalEnd => "ExpectedExternTerminator"
  | numberOutOfRange _ => "NumberParseError"
  | alreadyDeclared _ => "VariableAlreadyDeclared"
  | notDeclared _ => "VariableNotDeclared"
  | immutableAssignment _ => "ImmutableAssignment"
  | repeatedParameter _ => "RepeatedArgument"
  | functionNotDeclared _ => "FunctionNotDeclared"
  | functionAlreadyDeclared _ => "FunctionAlreadyDeclared"
  | argumentCount .. => "ArgumentCountMismatch"
  | unknownType _ => "UnknownType"
  | missingInitializer _ => "MissingInitializer"
  | noDefaultReturn _ => "NoDefaultReturnValue"
  | unsupportedOperator _ => "UnsupportedOperator"
  | expectedValue => "ExpectedValue"
  | verification _ => "VerificationFailed"
  | backend _ => "Backend"

def phase : Cause → Phase
  | unrecognisedCharacter _ => .scanning
  | unexpectedToken .. | unexpectedEnd _ | unmatchedBracket .. | invalidPrimary _
  | expectedCall | expectedDeclarationEnd | expectedExternalEnd => .reading
  | _ => .lowering

def message : Cause → String
  | unrecognisedCharacter c => "unrecognised character " ++ Text.quoteChar c
  | unexpectedToken expected found =>
    "expected " ++ expected.describe ++ " but " ++ found.describe ++ " was found"
  | unexpectedEnd expected => "expected " ++ expected.describe ++ " but the input ended"
  | unmatchedBracket opening expected =>
    "no matching " ++ expected.describe ++ " for this " ++ opening.describe
  | invalidPrimary found => "expected a primary expression but " ++ found ++ " was found"
  | expectedCall => "expected a call expression"
  | expectedDeclarationEnd => "expected a ; at the end of declaration"
  | expectedExternalEnd => "expected a ; at the end of extern declaration"
  | numberOutOfRange literal => "cannot cast " ++ Text.quote literal ++ " to a 32-bit integer"
  | alreadyDeclared x => "variable " ++ Text.quote x ++ " already exists in this scope"
  | notDeclared x => "undefined variable " ++ Text.quote x
  | immutableAssignment x => "cannot assign to immutable binding " ++ Text.quote x
  | repeatedParameter x => "repeated function argument " ++ Text.quote x
  | functionNotDeclared f => "function " ++ Text.quote f ++ "'s definition is not found"
  | functionAlreadyDeclared f => "function " ++ Text.quote f ++ " already declared"
  | argumentCount expected received =>
    "function call expects " ++ toString expected ++ " arguments but " ++ toString received ++
      " were found"
  | unknownType type => "undefined type " ++ type
  | missingInitializer x => "expected a value for immutable binding " ++ Text.quote x
  | noDefaultReturn type =>
    "return type " ++ type ++ " has no default value so a return value must be specified"
  | unsupportedOperator operator => "unsupported operator " ++ Text.quote operator
  | expectedValue => "expression does not produce a value"
  | verification message => "function failed verification: " ++ message
  | backend message => "backend failure: " ++ message

/-- Advice on how to mend the cause, if there is any. -/
def tip? : Cause → Option String
  | unexpectedToken .semicolon _ => some "did you miss a semicolon?"
  | unmatchedBracket .. => some "check that every bracket is closed"
  | expectedCall =>
    some "two adjacent names are only valid as a declaration such as `i32 x = 1`"
  | unknownType _ => some "known types are `i32`, `u8` and `void`"
  | missingInitializer x => some ("give `" ++ x ++ "` a value or declare it with `mut`")
  | immutableAssignment x => some ("declare `" ++ x ++ "` with `mut` to allow assignment")
  | noDefaultReturn _ =>
    some "end the function body with an expression and no trailing semicolon"
  | notDeclared _ => some "variables of enclosing scopes are not visible here"
  | verification _ =>
    some "bindings declared inside an `if` branch can only be used in that branch"
  | _ => none

end Cause

/-- A cause, the place it is reported at, and the function being lowered there. -/
structure Diagnostic where
  cause : Cause
  span : Span
  function : Option String := none
  deriving DecidableEq, Repr

namespace Diagnostic

/-- The diagnostic's heading: phase, place and cause. -/
def message (d : Diagnostic) : String :=
  let place := match d.function with
    | some f => " error in function `" ++ f ++ "` at "
    | none => " error at "
  d.cause.phase.name ++ place ++ d.span.text ++ ": " ++ d.cause.message

end Diagnostic
end FrontEnd
