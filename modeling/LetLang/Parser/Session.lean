import LetLang.Parser

/-!
Sessions with a parser: operations on it, what each answers, and how many tokens the parser has
taken from its source by then.
-/

namespace LetLang

inductive ParserOp where
  | nextToken
  | errors
  | parseProgram
  | parse
  deriving DecidableEq, Repr

inductive ParserAnswer where
  | done
  | errors (es : List ParseError)
  | program (p : Program) (errorCount : Nat)
  | parsed (p : Parsed)
  deriving DecidableEq, Repr

namespace Parser

variable {σ : Type} [TokenSource σ]

def step (p : Parser σ) : ParserOp → ParserAnswer × Parser σ
  | .nextToken => (.done, p.nextToken)
  | .errors => (.errors p.errors, p)
  | .parseProgram => let (program, p') := p.parseProgram; (.program program p'.errors.length, p')
  | .parse => let (program, p') := p.parseProgram; (.parsed ⟨program, p'.errors⟩, p')

/-- The tokens taken so far, those in the window included. -/
def pulled (p : Parser (Counted σ)) : Nat := p.window.source.pulled

def run (p : Parser (Counted σ)) : List ParserOp → List (ParserAnswer × Nat)
  | [] => []
  | op :: ops => ((p.step op).1, (p.step op).2.pulled) :: (p.step op).2.run ops

end Parser

end LetLang
