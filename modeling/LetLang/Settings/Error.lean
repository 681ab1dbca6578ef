import LetLang.Yaml.Mark

/-!
What can be wrong with a settings file, and how a message says it.
-/

namespace LetLang

/-- What can be wrong with the content of a settings file. -/
inductive ContentFault where
  | unknownField (name : String) (known : List String)
  | duplicateField (name : String)
  | unknownVariant (name : String) (known : List String)
  | invalidType (found wanted : String)
  | invalidValue (found wanted : String)
  deriving DecidableEq, Repr

namespace ContentFault

def oneOf (known : List String) : String :=
  let quoted := known.map fun name => "`" ++ name ++ "`"
  match quoted with
  | [a] => a
  | [a, b] => a ++ " or " ++ b
  | _ => "one of " ++ ", ".intercalate quoted

def message : ContentFault → String
  | unknownField name known => "unknown field `" ++ name ++ "`, expected " ++ oneOf known
  | duplicateField name => "duplicate field `" ++ name ++ "`"
  | unknownVariant name known => "unknown variant `" ++ name ++ "`, expected " ++ oneOf known
  | invalidType found wanted => "invalid type: " ++ found ++ ", expected " ++ wanted
  | invalidValue found wanted => "invalid value: " ++ found ++ ", expected " ++ wanted

end ContentFault

/-- A fault with its place, and the path of keys that leads there. -/
structure ContentError where
  fault : ContentFault
  path : List String
  mark : Yaml.Mark
  deriving DecidableEq, Repr

/-- The path is left out if it is empty, and the place if it is the start of the text. -/
def ContentError.message (e : ContentError) : String :=
  let place :=
    if e.mark.line = 0 ∧ e.mark.column = 0 then ""
    else " at line " ++ toString (e.mark.line + 1) ++ " column " ++ toString (e.mark.column + 1)
  (if e.path.isEmpty then "" else ".".intercalate e.path ++ ": ") ++ e.fault.message ++ place

inductive ReadFault where
  | notFound
  | notDirectory
  | isDirectory
  | nameTooLong
  | zeroInName
  | notText
  | other (text : String)
  deriving DecidableEq, Repr

def ReadFault.message : ReadFault → String
  | notFound => "No such file or directory (os error 2)"
  | notDirectory => "Not a directory (os error 20)"
  | isDirectory => "Is a directory (os error 21)"
  | nameTooLong => "File name too long (os error 36)"
  | zeroInName => "file name contained an unexpected NUL byte"
  | notText => "stream did not contain valid UTF-8"
  | other text => text

inductive SettingsError where
  | unreadable (fault : ReadFault)
  /-- The file holds no YAML document, or more than one. -/
  | malformed
  | content (error : ContentError)
  | inFile (path : String) (cause : SettingsError)
  deriving DecidableEq, Repr

namespace SettingsError

def message : SettingsError → String
  | unreadable fault => "failed to read config: " ++ fault.message
  | malformed => "invalid config: malformed document"
  | content error => "invalid config: " ++ error.message
  | inFile path cause => path ++ ": " ++ cause.message

def sourceMessage : SettingsError → String
  | unreadable fault => fault.message
  | malformed => "malformed document"
  | content error => error.message
  | inFile _ cause => cause.message

end SettingsError

end LetLang
