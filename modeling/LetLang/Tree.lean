import LetLang.Token

/-!
Programs as trees. Every node keeps the token it starts with; its text shows literals as they were
written, and ends each statement with a semicolon.
-/

namespace LetLang

inductive PrefixOp where
  | not | neg
  deriving DecidableEq, Repr

def PrefixOp.ofKind? : TokenKind → Option PrefixOp
  | .bang => some not
  | .minus => some neg
  | _ => none

structure Identifier where
  token : Token
  value : String
  deriving DecidableEq, Repr

inductive Expr where
  | ident (name : Identifier)
  | int (token : Token) (value : Int64)
  | prefixed (token : Token) (op : PrefixOp) (operand : Expr)
  deriving DecidableEq, Repr

inductive Statement where
  | letStmt (token : Token) (name : Identifier) (value : Expr)
  | returnStmt (token : Token) (value : Expr)
  | exprStmt (token : Token) (value : Expr)
  deriving DecidableEq, Repr

structure Program where
  statements : List Statement := []
  deriving DecidableEq, Repr

def PrefixOp.symbol : PrefixOp → String
  | not => "!"
  | neg => "-"

/-- An integer is shown by its literal, so leading zeros stay. -/
def Expr.render : Expr → String
  | ident name => name.value
  | int token _ => token.literal
  | prefixed _ op operand => op.symbol ++ operand.render

def Statement.render : Statement → String
  | letStmt token name value => token.literal ++ " " ++ name.value ++ " = " ++ value.render ++ ";"
  | returnStmt token value => token.literal ++ " " ++ value.render ++ ";"
  | exprStmt _ value => value.render ++ ";"

def Program.render (p : Program) : String := "\n".intercalate (p.statements.map Statement.render)

def Expr.literal : Expr → String
  | ident name => name.token.literal
  | int token _ => token.literal
  | prefixed token _ _ => token.literal

def Statement.literal : Statement → String
  | letStmt token _ _ => token.literal
  | returnStmt token _ => token.literal
  | exprStmt token _ => token.literal

def Program.literal (p : Program) : String := (p.statements.head?.map Statement.literal).getD ""

def Statement.value : Statement → Expr
  | letStmt _ _ value => value
  | returnStmt _ value => value
  | exprStmt _ value => value

def Statement.name? : Statement → Option Identifier
  | letStmt _ name _ => some name
  | _ => none

end LetLang
