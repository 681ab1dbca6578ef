import LetLang.Tree

/-!
Which statements have to end with a semicolon. A policy is chosen for each kind of statement.
-/

namespace LetLang

inductive StatementKind where
  | letStmt | returnStmt | exprStmt
  deriving DecidableEq, Repr

namespace StatementKind

def ofToken (kind : TokenKind) : StatementKind :=
  match kind with
  | .letWord => letStmt
  | .returnWord => returnStmt
  | _ => exprStmt

def describe : StatementKind → String
  | letStmt => "let statement"
  | returnStmt => "return statement"
  | exprStmt => "expression statement"

end StatementKind

def Statement.kind : Statement → StatementKind
  | letStmt .. => .letStmt
  | returnStmt .. => .returnStmt
  | exprStmt .. => .exprStmt

inductive SemicolonPolicy where
  | required | optional
  deriving DecidableEq, Repr

structure Policies where
  letStmt : SemicolonPolicy := .required
  returnStmt : SemicolonPolicy := .required
  exprStmt : SemicolonPolicy := .optional
  deriving DecidableEq, Repr

namespace Policies

def lenient : Policies := ⟨.optional, .optional, .optional⟩

/-- The policy for a kind of statement. -/
def ofKind (p : Policies) : StatementKind → SemicolonPolicy
  | .letStmt => p.letStmt
  | .returnStmt => p.returnStmt
  | .exprStmt => p.exprStmt

end Policies

end LetLang
