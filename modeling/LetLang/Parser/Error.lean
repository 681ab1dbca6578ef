import LetLang.Policy

/-!
What can be wrong with a statement, and how a message says it.
-/

namespace LetLang

def maxPrefixDepth : Nat := 256

inductive ParseFault where
  | expected (want : TokenKind) (found : Token)
  | expectedExpression (found : Token)
  /-- An integer with this literal does not fit into 64 bits. -/
  | intRange (literal : String)
  | tooDeep (depth : Nat)
  deriving DecidableEq, Repr

def ParseFault.message : ParseFault → String
  | expected want t =>
    "expected " ++ want.describe ++ " `" ++ want.symbol ++ "`, have " ++ t.kind.describe ++ " `" ++
      t.display ++ "`"
  | expectedExpression t =>
    "expected expression, have " ++ t.kind.describe ++ " `" ++ t.display ++ "`"
  | intRange literal => "could not parse `" ++ literal ++ "` as a 64-bit integer"
  | tooDeep depth =>
    toString depth ++ " nested prefix operators, at most " ++ toString maxPrefixDepth ++ " allowed"

structure ParseError where
  statement : StatementKind
  fault : ParseFault
  deriving DecidableEq, Repr

def ParseError.message (e : ParseError) : String := e.statement.describe ++ ": " ++ e.fault.message

end LetLang
