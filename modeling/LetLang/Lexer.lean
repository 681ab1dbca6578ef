import LetLang.Token

/-!
The lexer: blanks are skipped, and the next token is the longest one that starts there. A lexer
holds the text not yet read, so what it has already delivered cannot matter later.
-/

namespace LetLang

def isSeparator (c : Char) : Bool := c == ' ' || c == '\t' || c == '\n' || c == '\r'

def isLetter (c : Char) : Bool := c == '_' || c.isAlpha

def TokenKind.ofChar? : Char → Option TokenKind
  | '(' => some lparen
  | ')' => some rparen
  | '\x7b' => some lbrace
  | '\x7d' => some rbrace
  | ',' => some comma
  | ';' => some semicolon
  | '+' => some plus
  | '-' => some minus
  | '*' => some asterisk
  | '/' => some slash
  | '<' => some lt
  | '>' => some gt
  | '!' => some bang
  | '=' => some assign
  | _ => none

/-- The kind that a symbol becomes when an equals sign follows it at once. -/
def TokenKind.withEquals? : TokenKind → Option TokenKind
  | assign => some eq
  | bang => some notEq
  | _ => none

def lexeme (c : Char) (rest : List Char) : Token × List Char :=
  match TokenKind.ofChar? c with
  | some kind =>
    match kind.withEquals?, rest with
    | some longer, '=' :: rest' => (⟨longer, String.ofList [c, '=']⟩, rest')
    | _, _ => (⟨kind, String.ofList [c]⟩, rest)
  | none =>
    if isLetter c then
      (Token.ofWord (String.ofList (c :: rest.takeWhile isLetter)), rest.dropWhile isLetter)
    else if c.isDigit then
      (⟨.int, String.ofList (c :: rest.takeWhile Char.isDigit)⟩, rest.dropWhile Char.isDigit)
    else
      (⟨.illegal, String.ofList [c]⟩, rest)

/-- The first token of a text and what follows it; nothing if only blanks are left. -/
def scanToken (text : List Char) : Option (Token × List Char) :=
  match text.dropWhile isSeparator with
  | [] => none
  | c :: rest => some (lexeme c rest)

theorem lexeme_length_le (c : Char) (rest : List Char) :
    (lexeme c rest).2.length ≤ rest.length := by
  unfold lexeme
  split
  · split <;> simp
  · split
    · exact (List.dropWhile_sublist _).length_le
    · split
      · exact (List.dropWhile_sublist _).length_le
      · simp

theorem scanToken_length_lt {text rest : List Char} {t : Token}
    (h : scanToken text = some (t, rest)) : rest.length < text.length := by
  have hle : (text.dropWhile isSeparator).length ≤ text.length :=
    (List.dropWhile_sublist _).length_le
  unfold scanToken at h
  split at h
  · simp at h
  · next c r heq =>
    have := lexeme_length_le c r
    rw [heq] at hle
    simp only [Option.some.injEq] at h
    simp only [h, List.length_cons] at this hle
    omega

/-- A reader of tokens: the text still to be read, and whether iterating over it has met the end. -/
structure Lexer where
  rest : List Char
  finished : Bool := false
  deriving DecidableEq, Repr

namespace Lexer

def ofString (text : String) : Lexer := ⟨text.toList, false⟩

/-- The next token; at the end, and ever after, the end-of-input token. -/
def nextToken (l : Lexer) : Token × Lexer :=
  match scanToken l.rest with
  | some (t, rest) => (t, { l with rest })
  | none => (Token.eof, { l with rest := [] })

def skip (l : Lexer) : Nat → Lexer
  | 0 => l
  | n + 1 => l.nextToken.2.skip n

/-- One step of iterating: the tokens before the end, then nothing for ever. -/
def next? (l : Lexer) : Option Token × Lexer :=
  if l.finished then (none, l)
  else
    match scanToken l.rest with
    | some (t, rest) => (some t, { l with rest })
    | none => (none, ⟨[], true⟩)

/-- Skips `n` tokens by iterating and gives the next; stops at the first end it meets. -/
def nth? (l : Lexer) : Nat → Option Token × Lexer
  | 0 => l.next?
  | n + 1 =>
    match l.next? with
    | (some _, l') => l'.nth? n
    | (none, l') => (none, l')

def takeAfter (done : Array Token) (l : Lexer) : Nat → Array Token × Lexer
  | 0 => (done, l)
  | n + 1 =>
    match l.next? with
    | (some t, l') => takeAfter (done.push t) l' n
    | (none, l') => (done, l')

def take (l : Lexer) (n : Nat) : List Token × Lexer :=
  let (tokens, l') := takeAfter #[] l n
  (tokens.toList, l')

def collect (l : Lexer) : List Token × Lexer := l.take (l.rest.length + 1)

end Lexer

def tokens (text : String) : List Token := (Lexer.ofString text).collect.1

end LetLang
