import LetLang.Number.Integer
import LetLang.Yaml.Mark

/-!
Tags and directives. A tag is a handle, which a directive may give a meaning, and a suffix, in which
percent escapes stand for octets. A zero octet ends a suffix or a meaning; what is written after it
does not count.
-/

namespace LetLang.Yaml

/-- A tag as it is written: the handle is empty for a tag written in full. -/
structure TagName where
  handle : List Char
  suffix : List UInt8
  deriving DecidableEq, Repr

inductive Directive where
  | version (major minor : Nat)
  | tag (handle : List Char) (meaning : List UInt8)
  deriving DecidableEq, Repr

namespace Tag

def isUriChar (full : Bool) (c : Char) : Bool :=
  isWordChar c || c == ';' || c == '/' || c == '?' || c == ':' || c == '@' || c == '&' ||
    c == '=' || c == '+' || c == '$' || c == '.' || c == '%' || c == '!' || c == '~' ||
    c == '*' || c == '\'' || c == '(' || c == ')' || (full && (c == ',' || c == '[' || c == ']'))

def octetWidth? (b : Nat) : Option Nat :=
  if b < 0x80 then some 1
  else if b / 0x20 == 0x6 then some 2
  else if b / 0x10 == 0xe then some 3
  else if b / 0x8 == 0x1e then some 4
  else none

/-- The octets of a suffix. `owed` escapes have to follow to end a character. -/
def octets? (owed : Nat) : List Char → Option (List UInt8)
  | '%' :: a :: b :: rest => do
    let octet ← Number.natUpTo? 16 255 [a, b]
    let owed ← if owed == 0 then (octetWidth? octet).map (· - 1)
      else if octet / 0x40 == 2 then some (owed - 1) else none
    return UInt8.ofNat octet :: (← octets? owed rest)
  | c :: rest =>
    if owed == 0 && c != '%' then (octets? 0 rest).map (UInt8.ofNat c.toNat :: ·) else none
  | [] => if owed == 0 then some [] else none

/-- The octets before the first zero. -/
def upToZero (octets : List UInt8) : List UInt8 := octets.takeWhile (· != 0)

def handle? : List Glyph → Option (List Char × List Glyph)
  | [] => none
  | g :: rest =>
    if g.char != '!' then none
    else
      let word := takeChars isWordChar rest
      let rest := dropChars isWordChar rest
      if startsWith (· == '!') rest then some ('!' :: word ++ ['!'], rest.drop 1)
      else some ('!' :: word, rest)

def isClosed (handle : List Char) : Bool := handle.length ≥ 2 && handle.getLast? == some '!'

def full? (gs : List Glyph) : Option (TagName × List Glyph) := do
  let uri := takeChars (isUriChar true) gs
  let rest := dropChars (isUriChar true) gs
  if uri.isEmpty || !startsWith (· == '>') rest then none
  else return (⟨[], upToZero (← octets? 0 uri)⟩, rest.drop 1)

/-- Reads a tag that starts with a handle. Without a second exclamation mark the word is part of
the suffix, and a lone mark is a tag by itself. -/
def short? (gs : List Glyph) : Option (TagName × List Glyph) := do
  let (handle, rest) ← handle? gs
  let uri := takeChars (isUriChar false) rest
  let rest := dropChars (isUriChar false) rest
  let suffix := upToZero (← octets? 0 uri)
  if isClosed handle then
    if uri.isEmpty then none else return (⟨handle, suffix⟩, rest)
  else
    let suffix := (handle.drop 1).map (fun c => UInt8.ofNat c.toNat) ++ suffix
    if suffix.isEmpty then return (⟨[], "!".toUTF8.toList⟩, rest)
    else return (⟨['!'], suffix⟩, rest)

def read? (flow : Bool) (gs : List Glyph) : Option (TagName × List Glyph) := do
  let (tag, rest) ← if startsWith (· == '<') (gs.drop 1) then full? (gs.drop 2) else short? gs
  if endsWord rest || (flow && startsWith (· == ',') rest) then return (tag, rest) else none

end Tag

namespace Directive

def number? (gs : List Glyph) : Option (Nat × List Glyph) :=
  let digits := takeChars Char.isDigit gs
  if digits.isEmpty || digits.length > 9 then none
  else some (Nat.ofDigitChars 10 digits 0, dropChars Char.isDigit gs)

def version? (gs : List Glyph) : Option (Directive × List Glyph) := do
  let (major, rest) ← number? (dropChars isSpaceOrTab gs)
  if !startsWith (· == '.') rest then none
  else
    let (minor, rest) ← number? (rest.drop 1)
    return (.version major minor, rest)

def tag? (gs : List Glyph) : Option (Directive × List Glyph) := do
  let (handle, rest) ← Tag.handle? (dropChars isSpaceOrTab gs)
  if !(handle == ['!'] || Tag.isClosed handle) || !startsWith isSpaceOrTab rest then none
  else
    let rest := dropChars isSpaceOrTab rest
    let uri := takeChars (Tag.isUriChar true) rest
    let rest := dropChars (Tag.isUriChar true) rest
    if uri.isEmpty || !endsWord rest then none
    else return (.tag handle (Tag.upToZero (← Tag.octets? 0 uri)), rest)

def read? (gs : List Glyph) : Option (Directive × List Glyph) := do
  let name := takeChars isWordChar gs
  let rest := dropChars isWordChar gs
  if !endsWord rest then none
  else
    let (directive, rest) ←
      if name == "YAML".toList then version? rest
      else if name == "TAG".toList then tag? rest
      else none
    let rest := dropChars isSpaceOrTab rest
    let rest := if startsWith (· == '#') rest then dropChars (!isBreak ·) rest else rest
    if endsLine rest then return (directive, rest.drop 1) else none

end Directive

end LetLang.Yaml
