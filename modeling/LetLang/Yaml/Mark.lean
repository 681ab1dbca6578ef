/-!
Places in a YAML text. A text is read as a list of characters with their places, in which every
line break is a single character. In a scalar a single line break becomes a space, and of several
the first is left out.
-/

namespace LetLang.Yaml

/-- A place: the octets before it in UTF-8, the lines before it, and the characters before it in
its line. -/
structure Mark where
  offset : Nat := 0
  line : Nat := 0
  column : Nat := 0
  deriving DecidableEq, Repr, Inhabited

namespace Mark

def next (m : Mark) (c : Char) : Mark := ⟨m.offset + c.utf8Size, m.line, m.column + 1⟩

def nextLine (m : Mark) (width : Nat) : Mark := ⟨m.offset + width, m.line + 1, 0⟩

def afterIndicator (m : Mark) : Mark := ⟨m.offset + 1, m.line, m.column + 1⟩

end Mark

structure Glyph where
  char : Char
  mark : Mark
  deriving DecidableEq, Repr, Inhabited

/-- The character that stands for a line break written as `c`. -/
def lineBreak? (c : Char) : Option Char :=
  if c == '\n' || c == '\r' || c == '\u0085' then some '\n'
  else if c == '\u2028' || c == '\u2029' then some c
  else none

/-- The characters of a text with their places, after those in `done`, and the place of its end. -/
def locateAfter (done : Array Glyph) (m : Mark) : List Char → Array Glyph × Mark
  | '\r' :: '\n' :: rest => locateAfter (done.push ⟨'\n', m⟩) (m.nextLine 2) rest
  | c :: rest =>
    match lineBreak? c with
    | some b => locateAfter (done.push ⟨b, m⟩) (m.nextLine c.utf8Size) rest
    | none => locateAfter (done.push ⟨c, m⟩) (m.next c) rest
  | [] => (done, m)

def locate (text : List Char) : List Glyph × Mark :=
  let (done, m) := locateAfter #[] {} text
  (done.toList, m)

def markAt (fin : Mark) : List Glyph → Mark
  | [] => fin
  | g :: _ => g.mark

def isAllowed (c : Char) : Bool :=
  let n := c.toNat
  n == 0x9 || n == 0xa || n == 0xd || (0x20 ≤ n && n ≤ 0x7e) || n == 0x85 ||
    (0xa0 ≤ n && n ≤ 0xd7ff) || (0xe000 ≤ n && n ≤ 0xfffd) || 0x10000 ≤ n

def isBreak (c : Char) : Bool := c == '\n' || c == '\u2028' || c == '\u2029'

def isSpaceOrTab (c : Char) : Bool := c == ' ' || c == '\t'

def isGap (c : Char) : Bool := isSpaceOrTab c || isBreak c

def isWordChar (c : Char) : Bool := c.isAlphanum || c == '_' || c == '-'

def startsWith (p : Char → Bool) : List Glyph → Bool
  | [] => false
  | g :: _ => p g.char

def endsWord : List Glyph → Bool
  | [] => true
  | g :: _ => isGap g.char

def endsLine : List Glyph → Bool
  | [] => true
  | g :: _ => isBreak g.char

/-- Three times `c` at the start of a line, as a word of its own. -/
def isMarker (c : Char) : List Glyph → Bool
  | a :: b :: d :: rest =>
    a.mark.column == 0 && a.char == c && b.char == c && d.char == c && endsWord rest
  | _ => false

def isDocumentMarker (gs : List Glyph) : Bool := isMarker '-' gs || isMarker '.' gs

def chars (gs : List Glyph) : List Char := gs.map Glyph.char

def takeChars (p : Char → Bool) (gs : List Glyph) : List Char :=
  chars (gs.takeWhile fun g => p g.char)

def dropChars (p : Char → Bool) (gs : List Glyph) : List Glyph := gs.dropWhile fun g => p g.char

/-- What the white space `cs` between two words stands for; `escaped` says that an escaped line
break comes right before it. -/
def foldGap (escaped : Bool) (cs : List Char) : List Char :=
  match escaped, cs.filter isBreak with
  | true, breaks => breaks
  | false, [] => cs
  | false, ['\n'] => [' ']
  | false, '\n' :: more => more
  | false, breaks => breaks

theorem dropChars_length_le (p : Char → Bool) (gs : List Glyph) :
    (dropChars p gs).length ≤ gs.length :=
  (List.dropWhile_sublist _).length_le

theorem dropChars_length_lt {p : Char → Bool} {gs : List Glyph} (h : startsWith p gs = true) :
    (dropChars p gs).length < gs.length := by
  cases gs with
  | nil => simp [startsWith] at h
  | cons g rest =>
    simp only [startsWith] at h
    rw [dropChars, List.dropWhile_cons, if_pos h]
    exact Nat.lt_succ_of_le (dropChars_length_le p rest)

end LetLang.Yaml
