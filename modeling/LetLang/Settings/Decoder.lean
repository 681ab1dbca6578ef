import LetLang.Settings.Error
import LetLang.Yaml.Node

/-!
What settings are decoded with: a reader of documents, and two ways to decode their nodes. A record
takes values for its fields from a mapping; a variant is chosen by its name.
-/

namespace LetLang.Settings

open Yaml (Document Mark Node)

/-- Keys from the root of a document; one that is not written as a scalar counts as unknown. -/
abbrev Path := List String

/-- Where a value stands: under a key of the mapping that has this path and starts at this place. -/
structure Slot where
  path : Path
  mark : Mark
  key : String

def Slot.inner (slot : Slot) : Path := slot.path ++ [slot.key]

/-- A library for documents. A record is decoded from its known fields and a way to decode the value
of each, to what is given for a field; `wanted` is what a message calls it. -/
structure Decoder where
  document? : String → Option Document
  record {α : Type} (d : Document) (wanted : String) (known : List String)
    (value : Slot → Node → Except ContentError α) (path : Path) (node : Node) :
    Except ContentError (String → Option α)
  variant {α : Type} (d : Document) (variants : List (String × α)) (slot : Slot) (node : Node) :
    Except ContentError α

end LetLang.Settings
