import LetLang.Source

/-!
Sessions with a lexer: operations on a current lexer and on a copy put aside, and what each answers.
-/

namespace LetLang

inductive LexerOp where
  | nextToken
  | fromSource
  | next
  | nth (n : Nat)
  | take (n : Nat)
  | collect
  | count
  /-- Puts a copy of the current lexer aside. -/
  | save
  | swap
  deriving DecidableEq, Repr

inductive LexerAnswer where
  | token (t : Token)
  | token? (t : Option Token)
  | tokens (ts : List Token)
  | count (n : Nat)
  | done
  deriving DecidableEq, Repr

/-- The current lexer and the copy put aside. -/
structure LexerPair where
  current : Lexer
  saved : Lexer
  deriving DecidableEq, Repr

namespace LexerPair

def ofString (text : String) : LexerPair := ⟨Lexer.ofString text, Lexer.ofString text⟩

def step (p : LexerPair) : LexerOp → LexerAnswer × LexerPair
  | .nextToken => let (t, l) := p.current.nextToken; (.token t, { p with current := l })
  | .fromSource => let (t, l) := TokenSource.next p.current; (.token t, { p with current := l })
  | .next => let (t, l) := p.current.next?; (.token? t, { p with current := l })
  | .nth n => let (t, l) := p.current.nth? n; (.token? t, { p with current := l })
  | .take n => let (ts, l) := p.current.take n; (.tokens ts, { p with current := l })
  | .collect => let (ts, l) := p.current.collect; (.tokens ts, { p with current := l })
  | .count => let (ts, l) := p.current.collect; (.count ts.length, { p with current := l })
  | .save => (.done, { p with saved := p.current })
  | .swap => (.done, ⟨p.saved, p.current⟩)

def run (p : LexerPair) : List LexerOp → List LexerAnswer
  | [] => []
  | op :: ops => (p.step op).1 :: (p.step op).2.run ops

end LexerPair

end LetLang
