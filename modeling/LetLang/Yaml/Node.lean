import LetLang.Yaml.Mark

/-!
YAML documents as trees. Each node has the place where it starts, and perhaps a tag; an alias stands
for a node that is anchored elsewhere in the document.
-/

namespace LetLang.Yaml

structure Tag where
  octets : List UInt8
  deriving DecidableEq, Repr

inductive Node where
  | scalar (text : String) (plain : Bool) (tag : Option Tag) (mark : Mark)
  | sequence (items : List Node) (tag : Option Tag) (mark : Mark)
  | mapping (entries : List (Node × Node)) (tag : Option Tag) (mark : Mark)
  | aliasOf (target : Nat) (mark : Mark)

/-- A tree, and the nodes that its aliases stand for, each under its number. -/
structure Document where
  root : Node
  anchored : List (Nat × Node) := []

namespace Tag

def ofString (text : String) : Tag := ⟨text.toUTF8.toList⟩

def isLocal (t : Tag) : Bool := t.octets.head? == some 33

/-- What a local tag is called, without its exclamation mark unless that is all. -/
def localName? (t : Tag) : Option String :=
  match t.octets with
  | [33] => some "!"
  | 33 :: name => String.fromUTF8? name.toByteArray
  | _ => none

end Tag

namespace Node

def empty (tag : Option Tag) (mark : Mark) : Node := scalar "" true tag mark

def mark : Node → Mark
  | scalar _ _ _ m => m
  | sequence _ _ m => m
  | mapping _ _ m => m
  | aliasOf _ m => m

def tag : Node → Option Tag
  | scalar _ _ t _ => t
  | sequence _ t _ => t
  | mapping _ t _ => t
  | aliasOf _ _ => none

end Node

/-- The node that an alias stands for: the last one with its number. -/
def Document.target? (d : Document) (n : Nat) : Option Node :=
  d.anchored.foldl (fun found (k, node) => if k == n then some node else found) none

/-- The node itself, or the one that it stands for as an alias. -/
def Document.follow (d : Document) : Node → Node
  | .aliasOf n m => (d.target? n).getD (.aliasOf n m)
  | node => node

end LetLang.Yaml
