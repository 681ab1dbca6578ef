import LetLang.Yaml.Scan
import LetLang.Yaml.Node

/-!
From tokens to the tree of a document. A text holds one document; it is malformed if there are more,
if tokens are left over, or if an alias has no anchor before it.
-/

namespace LetLang.Yaml

/-- The state of reading a document: the tokens to come, the meanings of the handles, the numbers
of the anchors' names, and the anchored nodes in the order of their starts. -/
structure Reading where
  tokens : List Token
  handles : List (List Char × List UInt8) := []
  names : List (String × Nat) := []
  anchored : Array (Nat × Option Node) := #[]

abbrev ReadM := StateT Reading Option

namespace ReadM

def peek : ReadM Token := do
  match (← get).tokens with
  | [] => failure
  | t :: _ => return t

def skip : ReadM Unit := modify fun r => { r with tokens := r.tokens.drop 1 }

def anchorNumber (name : String) : ReadM Nat := do
  match (← get).names.lookup name with
  | some n => return n
  | none => failure

/-- Numbers an anchor by the names known before it; gives its place among the anchored nodes. -/
def bindAnchor (name : String) : ReadM Nat := do
  let place := (← get).anchored.size
  modify fun r =>
    let n := r.names.length
    let others := r.names.filter (·.1 != name)
    { r with names := (name, n) :: others, anchored := r.anchored.push (n, none) }
  return place

def fillAnchor (place : Nat) (node : Node) : ReadM Unit :=
  modify fun r => { r with anchored := r.anchored.modify place fun (n, _) => (n, some node) }

def resolveTag (t : TagName) : ReadM Tag := do
  if t.handle.isEmpty then return ⟨t.suffix⟩
  else
    match (← get).handles.lookup t.handle with
    | some meaning => return ⟨meaning ++ t.suffix⟩
    | none => failure

def anchor? : ReadM (Option String) := do
  match (← peek).kind with
  | .anchor name => skip; return some name
  | _ => return none

def tag? : ReadM (Option Tag) := do
  match (← peek).kind with
  | .tag name => skip; return some (← resolveTag name)
  | _ => return none

def properties : ReadM (Option String × Option Tag) := do
  match ← anchor? with
  | some name => return (some name, ← tag?)
  | none =>
    match ← tag? with
    | some tag => return (← anchor?, some tag)
    | none => return (none, none)

mutual

/-- Reads a node. In a `block` place it may be a block collection; in an `indentless` place also a
sequence whose entries are not indented. -/
def node (fuel : Nat) (block indentless : Bool) : ReadM Node :=
  match fuel with
  | 0 => failure
  | fuel + 1 => do
    let start ← peek
    match start.kind with
    | .aliasOf name => skip; return .aliasOf (← anchorNumber name) start.mark
    | _ =>
      let (anchor, tag) ← properties
      let place ← anchor.mapM bindAnchor
      let bare := anchor.isNone && tag.isNone
      let content ← content fuel block indentless bare tag start.mark
      place.forM (fillAnchor · content)
      return content

/-- Reads what follows the anchor and the tag of a node. If it is not `bare`, nothing need
follow. -/
def content (fuel : Nat) (block indentless bare : Bool) (tag : Option Tag) (mark : Mark) :
    ReadM Node :=
  match fuel with
  | 0 => failure
  | fuel + 1 => do
    let sequence (items : Array Node) : Node := .sequence items.toList tag mark
    let mapping (entries : Array (Node × Node)) : Node := .mapping entries.toList tag mark
    match (← peek).kind, block, indentless with
    | .blockEntry, _, true => return sequence (← indentlessSequence fuel #[])
    | .scalar text plain, _, _ => skip; return .scalar text plain tag mark
    | .flowSequence, _, _ => skip; return sequence (← flowSequence fuel true #[])
    | .flowMapping, _, _ => skip; return mapping (← flowMapping fuel true #[])
    | .blockSequence, true, _ => skip; return sequence (← blockSequence fuel #[])
    | .blockMapping, true, _ => skip; return mapping (← blockMapping fuel #[])
    | _, _, _ => if bare then failure else return Node.empty tag mark

def nodeUnless (fuel : Nat) (kinds : List TokenKind) (block indentless : Bool) (missing : Mark) :
    ReadM Node :=
  match fuel with
  | 0 => failure
  | fuel + 1 => do
    if kinds.contains (← peek).kind then return Node.empty none missing
    else node fuel block indentless

def blockSequence (fuel : Nat) (items : Array Node) : ReadM (Array Node) :=
  match fuel with
  | 0 => failure
  | fuel + 1 => do
    let t ← peek
    skip
    match t.kind with
    | .blockEntry =>
      let item ← nodeUnless fuel [.blockEntry, .blockEnd] true false t.mark.afterIndicator
      blockSequence fuel (items.push item)
    | .blockEnd => return items
    | _ => failure

def indentlessSequence (fuel : Nat) (items : Array Node) : ReadM (Array Node) :=
  match fuel with
  | 0 => failure
  | fuel + 1 => do
    let t ← peek
    match t.kind with
    | .blockEntry =>
      skip
      let next := t.mark.afterIndicator
      let item ← nodeUnless fuel [.blockEntry, .key, .value, .blockEnd] true false next
      indentlessSequence fuel (items.push item)
    | _ => return items

def blockMapping (fuel : Nat) (entries : Array (Node × Node)) : ReadM (Array (Node × Node)) :=
  match fuel with
  | 0 => failure
  | fuel + 1 => do
    let t ← peek
    skip
    match t.kind with
    | .key =>
      let key ← nodeUnless fuel [.key, .value, .blockEnd] true true t.mark.afterIndicator
      let v ← peek
      match v.kind with
      | .value =>
        skip
        let value ← nodeUnless fuel [.key, .value, .blockEnd] true true v.mark.afterIndicator
        blockMapping fuel (entries.push (key, value))
      | _ => blockMapping fuel (entries.push (key, Node.empty none v.mark))
    | .blockEnd => return entries
    | _ => failure

def flowValue (fuel : Nat) (close : TokenKind) : ReadM Node :=
  match fuel with
  | 0 => failure
  | fuel + 1 => do
    let t ← peek
    match t.kind with
    | .value => skip; nodeUnless fuel [.flowEntry, close] false false (← peek).mark
    | _ => return Node.empty none t.mark

/-- Reads the items of a sequence in brackets; `first` says that no comma is due. An item with a
key is a mapping of one pair. A key without content takes the token after it along. -/
def flowSequence (fuel : Nat) (first : Bool) (items : Array Node) : ReadM (Array Node) :=
  match fuel with
  | 0 => failure
  | fuel + 1 => do
    match (← peek).kind, first with
    | .flowSequenceEnd, _ => skip; return items
    | .flowEntry, false => skip
    | _, false => failure
    | _, true => pure ()
    let t ← peek
    match t.kind with
    | .flowSequenceEnd => skip; return items
    | .key =>
      skip
      let next ← peek
      let key ←
        if [TokenKind.value, .flowEntry, .flowSequenceEnd].contains next.kind then do
          skip
          pure (Node.empty none next.mark.afterIndicator)
        else node fuel false false
      let value ← flowValue fuel .flowSequenceEnd
      flowSequence fuel false (items.push (.mapping [(key, value)] none t.mark))
    | _ =>
      let item ← node fuel false false
      flowSequence fuel false (items.push item)

def flowMapping (fuel : Nat) (first : Bool) (entries : Array (Node × Node)) :
    ReadM (Array (Node × Node)) :=
  match fuel with
  | 0 => failure
  | fuel + 1 => do
    match (← peek).kind, first with
    | .flowMappingEnd, _ => skip; return entries
    | .flowEntry, false => skip
    | _, false => failure
    | _, true => pure ()
    let t ← peek
    match t.kind with
    | .flowMappingEnd => skip; return entries
    | .key =>
      skip
      let missing := (← peek).mark
      let key ← nodeUnless fuel [.value, .flowEntry, .flowMappingEnd] false false missing
      let value ← flowValue fuel .flowMappingEnd
      flowMapping fuel false (entries.push (key, value))
    | _ =>
      let key ← node fuel false false
      flowMapping fuel false (entries.push (key, Node.empty none (← peek).mark))

end

def standardHandles : List (List Char × List UInt8) :=
  [("!".toList, "!".toUTF8.toList), ("!!".toList, "tag:yaml.org,2002:".toUTF8.toList)]

/-- The meanings of handles that the directives give; a handle has only one, and only one directive
gives the version, which is 1.1 or 1.2. -/
def handlesOf? (ds : List Directive) : Option (List (List Char × List UInt8)) :=
  let versions := ds.filterMap fun
    | .version major minor => some (major, minor)
    | .tag _ _ => none
  let handles := ds.filterMap fun
    | .version _ _ => none
    | .tag handle meaning => some (handle, meaning)
  if (versions == [] || versions == [(1, 1)] || versions == [(1, 2)]) &&
      (handles.map Prod.fst).eraseDups.length == handles.length then
    some (handles ++ standardHandles)
  else none

def directive? (t : Token) : Option Directive :=
  match t.kind with
  | .directive d => some d
  | _ => none

def markedRoot (fuel : Nat) : ReadM Node := do
  let t ← peek
  match t.kind with
  | .directive _ => return Node.empty none t.mark
  | .documentStart => return Node.empty none t.mark
  | .documentEnd => return Node.empty none t.mark
  | .streamEnd => return Node.empty none t.mark
  | _ => node fuel true false

/-- Reads the root of the first document; a text without one has an empty root. -/
def root (fuel : Nat) : ReadM Node := do
  let r ← get
  let directives := r.tokens.takeWhile fun t => (directive? t).isSome
  match handlesOf? (directives.filterMap directive?) with
  | none => failure
  | some handles =>
    set { r with handles, tokens := r.tokens.drop directives.length }
    let t ← peek
    match t.kind, directives.isEmpty with
    | .documentStart, _ => skip; markedRoot fuel
    | _, false => failure
    | .streamEnd, true => return Node.empty none t.mark
    | _, true => node fuel true false

def isOver (ts : List Token) : Bool :=
  match ts.dropWhile fun t => t.kind == .documentEnd with
  | [t] => t.kind == .streamEnd
  | _ => false

end ReadM

namespace Document

/-- The document that the tokens make up. Of two calls in a row, one takes a token, so the fuel
suffices. -/
def ofTokens? (ts : List Token) : Option Document := do
  let (root, r) ← (ReadM.root (4 * ts.length + 4)).run { tokens := ts }
  if ReadM.isOver r.tokens then
    return ⟨root, r.anchored.toList.filterMap fun (n, node) => node.map (n, ·)⟩
  else none

/-- The document that a text holds, unless the text is malformed. -/
def read? (text : String) : Option Document := do ofTokens? (← tokens? text.toList)

end Document

end LetLang.Yaml
