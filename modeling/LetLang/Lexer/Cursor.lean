import LetLang.Lexer

/-!
The lexer as a cursor over an array of characters. It keeps the character at its position beside
the position; past the last character that is the end mark, which a text may hold as well. A loop
needs a guard that fails at the end of the text. A slice may lie outside the text, and then a call
gives nothing.
-/

namespace LetLang

structure Cursor where
  chars : Array Char
  position : Nat
  ch : Char
  finished : Bool := false
  deriving DecidableEq, Repr

namespace Cursor

/-- Stands for the character after the last. -/
def endMark : Char := '\x00'

def charAt (c : Cursor) (i : Nat) : Char := c.chars[i]?.getD endMark

def ofString (text : String) : Cursor :=
  let c : Cursor := { chars := text.toList.toArray, position := 0, ch := endMark }
  { c with ch := c.charAt 0 }

def atEnd (c : Cursor) : Bool := c.chars.size ≤ c.position

/-- Moves on by one character, and not beyond the end. -/
def readChar (c : Cursor) : Cursor :=
  let position := if c.atEnd then c.position else c.position + 1
  { c with position, ch := c.charAt position }

def peekChar (c : Cursor) : Char := c.charAt (c.position + 1)

theorem readChar_chars (c : Cursor) : c.readChar.chars = c.chars := rfl

theorem readChar_of_atEnd {c : Cursor} (h : c.atEnd) :
    c.readChar.position = c.position ∧ c.readChar.ch = endMark := by
  have hsize : c.chars.size ≤ c.position := by simpa [atEnd] using h
  simp [readChar, h, charAt, hsize]

theorem readChar_of_not_atEnd {c : Cursor} (h : c.atEnd = false) :
    c.position < c.chars.size ∧ c.readChar.position = c.position + 1 := by
  have hsize : c.position < c.chars.size := by simpa [atEnd] using h
  exact ⟨hsize, by simp [readChar, h]⟩

/-- The condition of a loop that moves on: it fails where the text is at its end. -/
structure Guard where
  holds : Cursor → Bool
  not_holds : ∀ c : Cursor, c.atEnd → c.ch = endMark → holds c = false

/-- Moves on for as long as the guard holds. At the end of the text one turn may be left, since the
character beside the position need not be the one that is there. -/
def readOn (g : Guard) (c : Cursor) : Cursor :=
  if g.holds c then readOn g c.readChar else c
termination_by (c.chars.size - c.position, if c.ch = endMark then 0 else 1)
decreasing_by
  next hgoOn =>
  rw [readChar_chars]
  cases hend : c.atEnd with
  | false =>
    obtain ⟨hlt, hposition⟩ := readChar_of_not_atEnd hend
    exact Prod.Lex.left _ _ (by omega)
  | true =>
    obtain ⟨hposition, hch⟩ := readChar_of_atEnd hend
    have hne : c.ch ≠ endMark := fun h => by simp [g.not_holds c hend h] at hgoOn
    rw [hposition, hch, if_pos rfl, if_neg hne]
    exact Prod.Lex.right _ Nat.one_pos

/-- Only the character is looked at, not the position: the end mark is no blank. -/
def blanks : Guard where
  holds c := isSeparator c.ch
  not_holds c _ h := by rw [h]; rfl

def inClass (p : Char → Bool) : Guard where
  holds c := !c.atEnd && p c.ch
  not_holds c h _ := by simp [h]

theorem blanks_holds (c : Cursor) : blanks.holds c = isSeparator c.ch := rfl

theorem inClass_holds (p : Char → Bool) (c : Cursor) :
    (inClass p).holds c = (!c.atEnd && p c.ch) := rfl

def skipBlanks (c : Cursor) : Cursor := c.readOn blanks

def slice? (c : Cursor) (i j : Nat) : Option String :=
  if i ≤ j ∧ j ≤ c.chars.size then some (String.ofList (c.chars.extract i j).toList) else none

def readWhile (p : Char → Bool) (c : Cursor) : Option (String × Cursor) :=
  let d := c.readOn (inClass p)
  (d.slice? c.position d.position).map fun word => (word, d)

def single (c : Cursor) (kind : TokenKind) : Token := ⟨kind, String.ofList [c.ch]⟩

/-- The longer symbol, which stays under its second character, if the next one is `next`. -/
def joined (c : Cursor) (next : Char) (longer short : TokenKind) : Token × Cursor :=
  if c.peekChar == next then
    let d := c.readChar
    (⟨longer, String.ofList [c.ch, d.ch]⟩, d)
  else (c.single short, c)

def lexeme (c : Cursor) : Option (Token × Cursor) :=
  match TokenKind.ofChar? c.ch with
  | some kind =>
    match kind.withEquals? with
    | some longer =>
      let (t, d) := c.joined '=' longer kind
      some (t, d.readChar)
    | none => some (c.single kind, c.readChar)
  | none =>
    if isLetter c.ch then
      (c.readWhile isLetter).map fun (word, d) => (Token.ofWord word, d)
    else if c.ch.isDigit then
      (c.readWhile Char.isDigit).map fun (digits, d) => (⟨.int, digits⟩, d)
    else some (c.single .illegal, c.readChar)

def nextToken (c : Cursor) : Option (Token × Cursor) :=
  let d := c.skipBlanks
  if d.atEnd then some (Token.eof, d) else d.lexeme

def next? (c : Cursor) : Option (Option Token × Cursor) :=
  if c.finished then some (none, c)
  else c.nextToken.map fun (t, d) =>
    if t.kind = .eof then (none, { d with finished := true }) else (some t, d)

end Cursor

inductive LexerCall where
  | nextToken
  | next
  deriving DecidableEq, Repr

namespace Lexer

def call (l : Lexer) : LexerCall → Option Token × Lexer
  | .nextToken => (some l.nextToken.1, l.nextToken.2)
  | .next => l.next?

def after (l : Lexer) (calls : List LexerCall) : Lexer :=
  calls.foldl (fun l call => (l.call call).2) l

end Lexer

namespace Cursor

def call (c : Cursor) : LexerCall → Option (Option Token × Cursor)
  | .nextToken => c.nextToken.map fun (t, d) => (some t, d)
  | .next => c.next?

def after (c : Cursor) (calls : List LexerCall) : Option Cursor :=
  calls.foldlM (fun c call => (c.call call).map Prod.snd) c

end Cursor

end LetLang
