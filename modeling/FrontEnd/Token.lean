import FrontEnd.Span
import FrontEnd.Text.Column

/-! # Tokens

The words of the language. A token keeps the text it was read from and where that text stands;
the reader of the tree looks at kinds, and at texts only for names, numbers and operators. -/
namespace FrontEnd

/-- What a token is to the grammar. -/
inductive TokenKind where
  | number
  | identifier
  | semicolon
  | openParen
  | closeParen
  | openCurly
  | closeCurly
  | comma
  | operator
  | arrow
  | assign
  | mutKeyword
  | fnKeyword
  | ifKeyword
  | elseKeyword
  | elifKeyword
  | externKeyword
  deriving DecidableEq, Repr, Inhabited

namespace TokenKind

def name : TokenKind → String
  | number => "Number"
  | identifier => "Identifier"
  | semicolon => "Semicolon"
  | openParen => "OpenParen"
  | closeParen => "CloseParen"
  | openCurly => "OpenCurly"
  | closeCurly => "CloseCurly"
  | comma => "Comma"
  | operator => "BinaryOp"
  | arrow => "Arrow"
  | assign => "Assign"
  | mutKeyword => "Mut"
  | fnKeyword => "Fn"
  | ifKeyword => "If"
  | elseKeyword => "Else"
  | elifKeyword => "Elif"
  | externKeyword => "Extern"

/-- The kind as messages speak of it: its text in backquotes if it has only one, else a noun. -/
def describe : TokenKind → String
  | number => "number"
  | identifier => "identifier"
  | semicolon => "`;`"
  | openParen => "`(`"
  | closeParen => "`)`"
  | openCurly => "`\x7b`"
  | closeCurly => "`\x7d`"
  | comma => "`,`"
  | operator => "binary operator"
  | arrow => "`->`"
  | assign => "`=`"
  | mutKeyword => "`mut`"
  | fnKeyword => "`fn`"
  | ifKeyword => "`if`"
  | elseKeyword => "`else`"
  | elifKeyword => "`elif`"
  | externKeyword => "`extern`"

def closing? : TokenKind → Option TokenKind
  | openParen => some closeParen
  | openCurly => some closeCurly
  | _ => none

/-- The keyword with this text, or an identifier. -/
def ofWord (word : String) : TokenKind :=
  if word = "mut" then mutKeyword
  else if word = "fn" then fnKeyword
  else if word = "if" then ifKeyword
  else if word = "else" then elseKeyword
  else if word = "elif" then elifKeyword
  else if word = "extern" then externKeyword
  else identifier

end TokenKind

structure Token where
  kind : TokenKind
  text : String
  span : Span
  deriving DecidableEq, Repr, Inhabited

namespace Token

/-- The token's line in a listing: the kind in a column of twenty, the text and the span. -/
def listing (token : Token) : String :=
  "type:" ++ Text.padRight 20 token.kind.name ++ "value:\x7b" ++ token.text ++ "\x7d\tat " ++
    token.span.text

end Token
end FrontEnd
