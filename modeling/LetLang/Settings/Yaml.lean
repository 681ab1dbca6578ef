import LetLang.Settings
import LetLang.Yaml.Document
import LetLang.Yaml.Value

/-!
The decoder of YAML. The message of a fault has the path of keys that leads to it, and its place.
-/

namespace LetLang.Settings

open Yaml (Document Mark Node)

def describe : Node → Except ContentFault String
  | .scalar s plain tag _ =>
    match Yaml.Value.ofScalar s plain tag with
    | .ok value => .ok value.describe
    | .error wanted => .error (.invalidValue (Yaml.Value.text s).describe wanted)
  | .sequence .. => .ok "sequence"
  | .mapping .. => .ok "map"
  | .aliasOf .. => .ok "alias"

def mismatch (wanted : String) (node : Node) : ContentFault :=
  match describe node with
  | .ok found => .invalidType found wanted
  | .error fault => fault

def fieldName (d : Document) (known : List String) (path : Path) (key : Node) :
    Except ContentError String :=
  match d.follow key with
  | .scalar s _ _ mark =>
    if s ∈ known then .ok s else .error ⟨.unknownField s known, path, mark⟩
  | other => .error ⟨mismatch "field identifier" other, path, other.mark⟩

def segment : Node → String
  | .scalar s _ _ _ => s
  | _ => "?"

/-- Decodes the entries of a mapping that starts at `mark`, after the fields in `done`. -/
def decodeEntries {α : Type} (d : Document) (known : List String)
    (value : Slot → Node → Except ContentError α) (path : Path) (mark : Mark)
    (done : List (String × α)) : List (Node × Node) → Except ContentError (List (String × α))
  | [] => .ok done
  | (key, node) :: entries => do
    let name ← fieldName d known path key
    if (done.lookup name).isSome then throw ⟨.duplicateField name, path, mark⟩
    let v ← value ⟨path, mark, segment key⟩ node
    decodeEntries d known value path mark ((name, v) :: done) entries

/-- Decodes a mapping with known fields; an empty scalar counts as an empty mapping. -/
def decodeMapping {α : Type} (d : Document) (wanted : String) (known : List String)
    (value : Slot → Node → Except ContentError α) (path : Path) (node : Node) :
    Except ContentError (List (String × α)) :=
  match d.follow node with
  | .mapping entries _ mark => decodeEntries d known value path mark [] entries
  | .scalar "" true _ _ => .ok []
  | other => .error ⟨mismatch wanted other, path, other.mark⟩

def isNothing : Node → Bool
  | .scalar s plain _ _ => plain && (s.isEmpty || (Yaml.Value.null? s).isSome)
  | _ => false

def notNothing : Node → ContentFault
  | .scalar s _ _ _ => .invalidValue (Yaml.Value.text s).describe "null"
  | other => mismatch "unit" other

section

variable {α : Type} (variants : List (String × α))

def variantNamed (path : Path) (mark : Mark) (name : String) : Except ContentError α :=
  (variants.lookup name).elim
    (.error ⟨.unknownVariant name (variants.map Prod.fst), path, mark⟩) .ok

/-- The variant that a tag names. A tag that names none is a fault of the alias that leads to it, or
else of the mapping around it. -/
def variantTagged (slot : Slot) (name : String) : Node → Except ContentError α
  | .aliasOf _ mark => variantNamed variants slot.inner mark name
  | _ => variantNamed variants slot.path slot.mark name

/-- Decodes a variant: a scalar with its name, or nothing, tagged with its name. -/
def decodeVariant (d : Document) (slot : Slot) (node : Node) : Except ContentError α :=
  let target := d.follow node
  match target.tag.bind Yaml.Tag.localName?, target with
  | some name, _ => do
    let v ← variantTagged variants slot name node
    if isNothing target then return v
    else throw ⟨notNothing target, slot.inner, target.mark⟩
  | none, .scalar s _ _ _ => variantNamed variants slot.inner target.mark s
  | none, other =>
    throw ⟨mismatch "a YAML tag starting with '!'" other, slot.inner, target.mark⟩

end

namespace Decoder

def yaml : Decoder where
  document? := Document.read?
  record d wanted known value path node :=
    (decodeMapping d wanted known value path node).map fun fields name => fields.lookup name
  variant d variants := decodeVariant variants d

end Decoder

def read : String → Except SettingsError Settings := Decoder.yaml.read

end LetLang.Settings
