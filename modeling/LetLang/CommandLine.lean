import LetLang.CommandLine.Arguments
import LetLang.Settings.Lookup
import LetLang.Shell

/-!
The program: it reads its arguments and the settings, then runs a session of the shell.
-/

namespace LetLang.CommandLine

open Settings (Decoder ReadFile)

def settings (c : Decoder) (options : Options) (readFile : ReadFile)
    (project home : Option String) : Except String Settings :=
  match options.config with
  | some path => (c.loadFrom readFile path).mapError fun e => path ++ ": " ++ e.message ++ "\n"
  | none => (c.load readFile project home).mapError fun e => e.message ++ "\n"

def welcome (mode : Mode) : String :=
  "Welcome to the 👽 programming language in " ++ mode.describe ++ "!\n\n"

/-- How a run of the program ends, with the part of its input that it has not read. -/
structure Outcome where
  code : UInt32
  stdout : Array UInt8
  stderr : String
  unread : List UInt8
  deriving DecidableEq, Repr

def session (mode : Mode) (settings : Settings) (stdin : List UInt8) : Outcome :=
  let sink : Sink := { written := (welcome mode).toUTF8.data }
  let ending := Shell.run mode settings.parser sink stdin
  match ending.result with
  | .ok () => ⟨0, ending.sink.written, "", ending.unread⟩
  | .error fault => ⟨1, ending.sink.written, fault.message ++ "\n", ending.unread⟩

/-- Runs the program on the bytes of its standard input, with libraries for the documents and for
the arguments. -/
def runWith (c : Decoder) (readArguments : ReadArguments) (args : List String)
    (readFile : ReadFile) (project home : Option String) (stdin : List UInt8) : Outcome :=
  match readArguments args with
  | .error (.shown text) => ⟨0, text.toUTF8.data, "", stdin⟩
  | .error (.refused message) => ⟨1, #[], message, stdin⟩
  | .ok options =>
    match settings c options readFile project home with
    | .error message => ⟨1, #[], message, stdin⟩
    | .ok settings => session options.mode settings stdin

def run : List String → ReadFile → Option String → Option String → List UInt8 → Outcome :=
  runWith .yaml readArguments

end LetLang.CommandLine
