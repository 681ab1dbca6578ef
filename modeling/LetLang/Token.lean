/-!
Tokens of the language: their kinds, the keywords, and the three ways a kind is named in text
(its symbol, its description in a message, its name in an echo).
-/

namespace LetLang

inductive TokenKind where
  | illegal | eof | ident | int
  | comma | semicolon | lparen | rparen | lbrace | rbrace
  | assign | plus | minus | bang | asterisk | slash | lt | gt | eq | notEq
  | fnWord | letWord | trueWord | falseWord | ifWord | elseWord | returnWord
  deriving DecidableEq, Repr, Inhabited

namespace TokenKind

def all : List TokenKind :=
  [illegal, eof, ident, int, comma, semicolon, lparen, rparen, lbrace, rbrace,
   assign, plus, minus, bang, asterisk, slash, lt, gt, eq, notEq,
   fnWord, letWord, trueWord, falseWord, ifWord, elseWord, returnWord]

def name : TokenKind → String
  | illegal => "Illegal" | eof => "Eof" | ident => "Ident" | int => "Int"
  | comma => "Comma" | semicolon => "Semicolon" | lparen => "Lparen" | rparen => "Rparen"
  | lbrace => "Lbrace" | rbrace => "Rbrace" | assign => "Assign" | plus => "Plus"
  | minus => "Minus" | bang => "Bang" | asterisk => "Asterisk" | slash => "Slash"
  | lt => "Lt" | gt => "Gt" | eq => "Eq" | notEq => "NotEq"
  | fnWord => "Function" | letWord => "Let" | trueWord => "True" | falseWord => "False"
  | ifWord => "If" | elseWord => "Else" | returnWord => "Return"

/-- The spelling of a symbol; a word in capitals for every other kind. -/
def symbol : TokenKind → String
  | illegal => "ILLEGAL" | eof => "EOF" | ident => "IDENT" | int => "INT"
  | comma => "," | semicolon => ";" | lparen => "(" | rparen => ")"
  | lbrace => "\x7b" | rbrace => "\x7d" | assign => "=" | plus => "+"
  | minus => "-" | bang => "!" | asterisk => "*" | slash => "/"
  | lt => "<" | gt => ">" | eq => "==" | notEq => "!="
  | fnWord => "FUNCTION" | letWord => "LET" | trueWord => "TRUE" | falseWord => "FALSE"
  | ifWord => "IF" | elseWord => "ELSE" | returnWord => "RETURN"

def describe : TokenKind → String
  | illegal => "illegal character" | eof => "end of input" | ident => "identifier"
  | int => "integer" | comma => "comma" | semicolon => "semicolon"
  | lparen => "left parenthesis" | rparen => "right parenthesis"
  | lbrace => "left brace" | rbrace => "right brace" | assign => "assignment"
  | plus => "plus" | minus => "minus" | bang => "bang" | asterisk => "asterisk"
  | slash => "slash" | lt => "less than" | gt => "greater than"
  | eq => "equality" | notEq => "inequality"
  | fnWord => "keyword fn" | letWord => "keyword let" | trueWord => "keyword true"
  | falseWord => "keyword false" | ifWord => "keyword if" | elseWord => "keyword else"
  | returnWord => "keyword return"

def ofKeyword? : String → Option TokenKind
  | "fn" => some fnWord
  | "let" => some letWord
  | "true" => some trueWord
  | "false" => some falseWord
  | "if" => some ifWord
  | "else" => some elseWord
  | "return" => some returnWord
  | _ => none

end TokenKind

structure Token where
  kind : TokenKind
  literal : String
  deriving DecidableEq, Repr, Inhabited

namespace Token

/-- The token that stands for the end of the input. -/
def eof : Token := ⟨.eof, ""⟩

/-- A word is a keyword if it is reserved, and an identifier otherwise. -/
def ofWord (word : String) : Token := ⟨(TokenKind.ofKeyword? word).getD .ident, word⟩

def display (t : Token) : String :=
  match t.kind with
  | .eof => "EOF"
  | .ident | .int | .illegal => t.kind.symbol ++ "(" ++ t.literal ++ ")"
  | _ => t.literal

end Token

end LetLang
