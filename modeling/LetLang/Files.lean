import LetLang.Settings.Error

/-!
A tree of files, and reading one by its path.
-/

namespace LetLang

inductive FileTree where
  | file (content : List UInt8)
  | dir (entries : List (String × FileTree))

namespace FileTree

def maxName : Nat := 255

def maxPath : Nat := 4095

/-- Follows the parts of a path. `above` holds the directories that lead to a node, the innermost
first; a part can follow a directory only. -/
def walk (above : List FileTree) (node : FileTree) : List String → Except ReadFault FileTree
  | [] => .ok node
  | part :: parts =>
    match node with
    | .file _ => .error .notDirectory
    | .dir entries =>
      if part == "" || part == "." then walk above node parts
      else if part == ".." then
        match above with
        | [] => walk [] node parts
        | parent :: above => walk above parent parts
      else if part.utf8ByteSize > maxName then .error .nameTooLong
      else
        match entries.lookup part with
        | none => .error .notFound
        | some next => walk (node :: above) next parts

def text? : FileTree → Except ReadFault String
  | .dir _ => .error .isDirectory
  | .file content =>
    match String.fromUTF8? content.toByteArray with
    | some text => .ok text
    | none => .error .notText

def parts (path : String) : List String := (path.toList.splitOn '/').map String.ofList

def read (root : FileTree) (path : String) : Except ReadFault String :=
  if path.contains '\x00' then .error .zeroInName
  else if path.isEmpty then .error .notFound
  else if path.utf8ByteSize > maxPath then .error .nameTooLong
  else do (← walk [] root (parts path)).text?

/-- Adds a node at the end of a path, with the directories that lead to it. A directory that is
there already stays as it is. -/
def insert (tree : FileTree) (node : FileTree) : List String → FileTree
  | [] =>
    match tree, node with
    | .dir entries, .dir _ => .dir entries
    | _, _ => node
  | part :: parts =>
    match tree with
    | .file content => .file content
    | .dir entries =>
      let next := (entries.lookup part).getD (.dir [])
      .dir ((part, insert next node parts) :: entries.filter (·.1 != part))

end FileTree

end LetLang
