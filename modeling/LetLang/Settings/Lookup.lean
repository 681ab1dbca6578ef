import LetLang.Settings.Yaml

/-!
Where settings are looked for. Of the files that may hold them, the first that exists decides alone;
reading is a function from paths, so nothing else about the files can matter.
-/

namespace LetLang.Settings

/-- Reading a file gives its text, or the reason why it cannot. -/
abbrev ReadFile := String → Except ReadFault String

def fileName : String := ".alian.yml"

/-- The path of a file in a directory. An empty directory is the current one. -/
def joinPath (dir file : String) : String :=
  if dir.isEmpty || dir.toList.getLast? == some '/' then dir ++ file else dir ++ "/" ++ file

/-- The paths of the files that may hold settings: of the project, and of the user. -/
def candidates (project home : Option String) : List String :=
  (project.toList ++ home.toList).map fun dir => joinPath dir fileName

namespace Decoder

variable (c : Decoder) (readFile : ReadFile)

def loadFrom (path : String) : Except SettingsError Settings :=
  match readFile path with
  | .ok text => c.read text
  | .error fault => .error (.unreadable fault)

def loadIfFound (path : String) : Except SettingsError (Option Settings) :=
  match readFile path with
  | .ok text => (c.read text).map some
  | .error .notFound => .ok none
  | .error fault => .error (.unreadable fault)

/-- The settings from the first of some files that exists; the default if none does. -/
def search : List String → Except SettingsError Settings
  | [] => .ok {}
  | path :: paths =>
    match c.loadIfFound readFile path with
    | .ok (some settings) => .ok settings
    | .ok none => search paths
    | .error cause => .error (.inFile path cause)

def load (project home : Option String) : Except SettingsError Settings :=
  c.search readFile (candidates project home)

end Decoder

def loadFrom : ReadFile → String → Except SettingsError Settings := Decoder.yaml.loadFrom

def load : ReadFile → Option String → Option String → Except SettingsError Settings :=
  Decoder.yaml.load

end LetLang.Settings
