import LetLang.Text.Extender

/-!
Text between double quotes, with escapes for the quote, the backslash and all that would not show.
-/

namespace LetLang.Text

/-- The escape of a character by its number, in lower-case hexadecimal. -/
def numericEscape (c : Char) : List Char :=
  ['\\', 'u', '\x7b'] ++ Nat.toDigits 16 c.toNat ++ ['\x7d']

/-- How a character is written between quotes, where `shown` says which stand for themselves. -/
def escape (shown : Char → Bool) (c : Char) : List Char :=
  match c with
  | '\x00' => ['\\', '0']
  | '\t' => ['\\', 't']
  | '\n' => ['\\', 'n']
  | '\r' => ['\\', 'r']
  | '"' => ['\\', '"']
  | '\\' => ['\\', '\\']
  | c => if shown c then [c] else numericEscape c

def quoteWith (shown : Char → Bool) (s : List Char) : List Char :=
  '"' :: s.flatMap (escape shown) ++ ['"']

def isFiller (c : Char) : Bool :=
  c == '\u115f' || c == '\u1160' || c == '\u3164' || c == '\uffa0'

/-- Halfwidth voicing marks extend the character before them and still take up a place of their
own. -/
def isHalfwidthMark (c : Char) : Bool := c == '\uff9e' || c == '\uff9f'

/-- A character shows if it has a shape and does not merge with the one before it. -/
def isShown (c : Char) : Bool :=
  isPrintable c && !isFiller c && (!isExtender c || isHalfwidthMark c)

def quote (s : String) : String := String.ofList (quoteWith isShown s.toList)

end LetLang.Text
