import LetLang.Yaml.Tag
import LetLang.Yaml.Scalar.Plain
import LetLang.Yaml.Scalar.Quoted
import LetLang.Yaml.Scalar.Block

/-!
From a text to its tokens. Indentation opens and closes block collections. What starts a mapping
key is known only when its colon comes, on the same line and not far away; until then the place is
remembered, and the key's token is then put in before the tokens read since.
-/

namespace LetLang.Yaml

inductive TokenKind where
  | directive (d : Directive)
  | documentStart | documentEnd | streamEnd
  | blockSequence | blockMapping | blockEnd
  | flowSequence | flowSequenceEnd | flowMapping | flowMappingEnd
  | blockEntry | flowEntry | key | value
  | aliasOf (name : String)
  | anchor (name : String)
  | tag (name : TagName)
  | scalar (text : String) (plain : Bool)
  deriving DecidableEq, Repr

structure Token where
  kind : TokenKind
  mark : Mark
  deriving DecidableEq, Repr

/-- A place where a key may have started: inside so many pairs of brackets, before the token of this
number. If it is required, what starts there can be nothing but a key. -/
structure PossibleKey where
  depth : Nat
  required : Bool
  number : Nat
  mark : Mark

namespace PossibleKey

/-- A key ends on the line where it starts, within 1024 octets. -/
def isStale (k : PossibleKey) (now : Mark) : Bool :=
  k.mark.line < now.line || k.mark.offset + 1024 < now.offset

end PossibleKey

/-- The state of reading tokens. `margin` is the column after that of the innermost block
collection, and `margins` those around it; `depth` counts the open brackets, and `keys` holds the
possible keys, at most one for each depth, the innermost first. -/
structure Scan where
  rest : List Glyph
  fin : Mark
  tokens : Array Token := #[]
  margin : Nat := 0
  margins : List Nat := []
  depth : Nat := 0
  keys : List PossibleKey := []
  keyAllowed : Bool := true

namespace Scan

def mark (s : Scan) : Mark := markAt s.fin s.rest

def inFlow (s : Scan) : Bool := s.depth != 0

def emit (s : Scan) (kind : TokenKind) : Scan := { s with tokens := s.tokens.push ⟨kind, s.mark⟩ }

def skip (s : Scan) (n : Nat) : Scan := { s with rest := s.rest.drop n }

def innerKey? (s : Scan) : Option PossibleKey := s.keys.head?.filter (·.depth == s.depth)

def forgetKey (s : Scan) : Scan := { s with keys := s.keys.dropWhile (·.depth == s.depth) }

/-- Gives up the possible key inside the innermost brackets, unless it is required. -/
def dropKey? (s : Scan) : Option Scan :=
  if s.innerKey?.any PossibleKey.required then none else some s.forgetKey

def saveKey? (s : Scan) : Option Scan :=
  if s.keyAllowed then
    s.dropKey?.map fun s =>
      let required := !s.inFlow && s.margin == s.mark.column + 1
      { s with keys := ⟨s.depth, required, s.tokens.size, s.mark⟩ :: s.keys }
  else some s

def expireKeys? (s : Scan) : Option Scan :=
  if s.keys.any fun k => k.isStale s.mark && k.required then none
  else some { s with keys := s.keys.filter (!·.isStale s.mark) }

def leaveLevels (limit closed margin : Nat) : List Nat → Nat × Nat × List Nat
  | [] => if margin ≤ limit then (closed, margin, []) else (closed + 1, 0, [])
  | m :: ms =>
    if margin ≤ limit then (closed, margin, m :: ms) else leaveLevels limit (closed + 1) m ms

def closeBlocks (s : Scan) (limit : Nat) : Scan :=
  if s.inFlow then s
  else
    let (closed, margin, margins) := leaveLevels limit 0 s.margin s.margins
    let ends := List.replicate closed (Token.mk .blockEnd s.mark)
    { s with tokens := s.tokens ++ ends, margin, margins }

/-- Starts a block collection at a column that is beyond the margin, before the token of this
number. -/
def openBlock (s : Scan) (kind : TokenKind) (number : Nat) (mark : Mark) : Scan :=
  if s.inFlow || mark.column < s.margin then s
  else
    { s with
      tokens := s.tokens.insertIdxIfInBounds number ⟨kind, mark⟩
      margin := mark.column + 1
      margins := s.margin :: s.margins }

/-- Skips spaces, comments and line breaks. A tab is skipped too where no key may start, and a byte
order mark where it starts a line; outside brackets a key may start on each new line. -/
def skipBlanks (flow allowed comment : Bool) : List Glyph → Bool × List Glyph
  | [] => (allowed, [])
  | g :: rest =>
    if isBreak g.char then skipBlanks flow (allowed || !flow) false rest
    else if comment then skipBlanks flow allowed comment rest
    else if g.char == ' ' || (g.char == '\t' && (flow || !allowed)) ||
        (g.char == '\uFEFF' && g.mark.column == 0) then
      skipBlanks flow allowed comment rest
    else if g.char == '#' then skipBlanks flow allowed true rest
    else (allowed, g :: rest)

def streamEnd? (s : Scan) : Option Scan := do
  let fin := if s.fin.column == 0 then s.fin else ⟨s.fin.offset, s.fin.line + 1, 0⟩
  let s ← ({ s with fin }.closeBlocks 0).dropKey?
  return s.emit .streamEnd

def directive? (s : Scan) : Option Scan := do
  let s ← (s.closeBlocks 0).dropKey?
  let (d, rest) ← Directive.read? (s.rest.drop 1)
  return { s.emit (.directive d) with rest, keyAllowed := false }

def documentMarker? (s : Scan) (kind : TokenKind) : Option Scan := do
  let s ← (s.closeBlocks 0).dropKey?
  return { (s.emit kind).skip 3 with keyAllowed := false }

def openFlow? (s : Scan) (kind : TokenKind) : Option Scan := do
  let s ← s.saveKey?
  let depth := s.depth + 1
  return { (s.emit kind).skip 1 with depth, keyAllowed := true }

def closeFlow? (s : Scan) (kind : TokenKind) : Option Scan := do
  let s ← s.dropKey?
  let depth := s.depth - 1
  return { (s.emit kind).skip 1 with depth, keyAllowed := false }

def flowEntry? (s : Scan) : Option Scan := do
  let s ← s.dropKey?
  return { (s.emit .flowEntry).skip 1 with keyAllowed := true }

def openHere? (s : Scan) (kind : TokenKind) : Option Scan :=
  if s.inFlow then some s
  else if s.keyAllowed then some (s.openBlock kind s.tokens.size s.mark)
  else none

def blockEntry? (s : Scan) : Option Scan := do
  let s ← s.openHere? .blockSequence
  let s ← s.dropKey?
  return { (s.emit .blockEntry).skip 1 with keyAllowed := true }

def key? (s : Scan) : Option Scan := do
  let s ← s.openHere? .blockMapping
  let s ← s.dropKey?
  let keyAllowed := !s.inFlow
  return { (s.emit .key).skip 1 with keyAllowed }

def value? (s : Scan) : Option Scan :=
  match s.innerKey? with
  | some k =>
    let s := { s with tokens := s.tokens.insertIdxIfInBounds k.number ⟨.key, k.mark⟩ }
    let s := s.openBlock .blockMapping k.number k.mark
    some { (s.forgetKey.emit .value).skip 1 with keyAllowed := false }
  | none => do
    let s ← s.openHere? .blockMapping
    let keyAllowed := !s.inFlow
    return { (s.emit .value).skip 1 with keyAllowed }

def name? (gs : List Glyph) : Option (String × List Glyph) :=
  let name := takeChars isWordChar gs
  let rest := dropChars isWordChar gs
  let ends (c : Char) : Bool :=
    c == '?' || c == ':' || c == ',' || c == ']' || c == '\x7d' || c == '%' || c == '@' || c == '`'
  if name.isEmpty || !(endsWord rest || startsWith ends rest) then none
  else some (String.ofList name, rest)

def named? (s : Scan) (make : String → TokenKind) : Option Scan := do
  let s ← s.saveKey?
  let (name, rest) ← name? (s.rest.drop 1)
  return { s.emit (make name) with rest, keyAllowed := false }

def tag? (s : Scan) : Option Scan := do
  let s ← s.saveKey?
  let (tag, rest) ← Tag.read? s.inFlow s.rest
  return { s.emit (.tag tag) with rest, keyAllowed := false }

def block? (s : Scan) (folded : Bool) : Option Scan := do
  let s ← s.dropKey?
  let (text, rest) ← Block.read? folded s.margin s.fin (s.rest.drop 1)
  return { s.emit (.scalar (String.ofList text) false) with rest, keyAllowed := true }

def quoted? (s : Scan) (quote : Char) : Option Scan := do
  let s ← s.saveKey?
  let (text, rest) ← Quoted.read? quote (s.rest.drop 1)
  return { s.emit (.scalar (String.ofList text) false) with rest, keyAllowed := false }

def plain? (s : Scan) : Option Scan := do
  if !Plain.starts s.inFlow s.rest then none
  else
    let s ← s.saveKey?
    let r ← Plain.read? s.inFlow s.margin s.fin s.rest
    return { s.emit (.scalar (String.ofList r.text) true) with
      rest := r.rest, keyAllowed := r.atLineStart }

def token? (s : Scan) (c : Char) : Option Scan :=
  let after := s.rest.drop 1
  if s.mark.column == 0 && c == '%' then s.directive?
  else if isMarker '-' s.rest then s.documentMarker? .documentStart
  else if isMarker '.' s.rest then s.documentMarker? .documentEnd
  else match c with
  | '[' => s.openFlow? .flowSequence
  | '\x7b' => s.openFlow? .flowMapping
  | ']' => s.closeFlow? .flowSequenceEnd
  | '\x7d' => s.closeFlow? .flowMappingEnd
  | ',' => s.flowEntry?
  | '-' => if endsWord after then s.blockEntry? else s.plain?
  | '?' => if s.inFlow || endsWord after then s.key? else s.plain?
  | ':' => if s.inFlow || endsWord after then s.value? else s.plain?
  | '*' => s.named? .aliasOf
  | '&' => s.named? .anchor
  | '!' => s.tag?
  | '|' => if s.inFlow then s.plain? else s.block? false
  | '>' => if s.inFlow then s.plain? else s.block? true
  | '\'' => s.quoted? '\''
  | '"' => s.quoted? '"'
  | _ => s.plain?

/-- Reads tokens to the end of the text, at most `fuel` of them. -/
def run? (s : Scan) (fuel : Nat) : Option (List Token) :=
  match fuel with
  | 0 => none
  | fuel + 1 => do
    let (keyAllowed, rest) := skipBlanks s.inFlow s.keyAllowed false s.rest
    let s ← { s with keyAllowed, rest }.expireKeys?
    let s := s.closeBlocks (s.mark.column + 1)
    match s.rest with
    | [] => return (← s.streamEnd?).tokens.toList
    | g :: _ => (← s.token? g.char).run? fuel

end Scan

/-- The tokens of a text, unless it is malformed. Each token but the last takes a character, so the
fuel suffices. -/
def tokens? (text : List Char) : Option (List Token) :=
  if text.all isAllowed then
    let (gs, fin) := locate text
    ({ rest := gs, fin : Scan }).run? (gs.length + 1)
  else none

end LetLang.Yaml
