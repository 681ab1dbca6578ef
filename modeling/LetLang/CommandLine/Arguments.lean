import LetLang.Shell.Echo

/-!
The arguments of the program: options for the mode and the settings file. An option that only asks
for a text, and arguments that are not usable, end the program before it starts.
-/

namespace LetLang.CommandLine

structure Options where
  mode : Mode := .tokens
  config : Option String := none
  deriving DecidableEq, Repr

/-- A text was asked for, or the arguments are not usable. -/
inductive Early where
  | shown (text : String)
  | refused (message : String)
  deriving DecidableEq, Repr

/-- Reading the arguments gives the options, or ends the program. -/
abbrev ReadArguments := List String → Except Early Options

inductive Flag where
  | mode | config | help | version
  deriving DecidableEq, Repr

abbrev Given := List (Flag × Option String)

def Flag.ofName? : String → Option Flag
  | "mode" => some mode
  | "config" => some config
  | "help" => some help
  | "version" => some version
  | _ => none

def Flag.ofLetter? : Char → Option Flag
  | 'm' => some mode
  | 'c' => some config
  | 'h' => some help
  | 'V' => some version
  | _ => none

def versionText : String := "alian 0.1.0\n"

def helpText : String :=
  versionText ++ "
USAGE:
    alian [OPTIONS]

FLAGS:
    -h, --help       Prints help information
    -V, --version    Prints version information

OPTIONS:
    -c, --config <config>    Parser config file, defaults to `.alian.yml` in the current or home directory
    -m, --mode <mode>        `tokens` echoes every token of a line, `ast` parses it [default: tokens]
"

def refusal : Early := .refused "usage"

/-- A text that is asked for is shown at once, whatever comes after it. -/
def Flag.take : Option Flag → Except Early Flag
  | some help => .error (.shown helpText)
  | some version => .error (.shown versionText)
  | some flag => .ok flag
  | none => .error refusal

def afterEquals (cs : List Char) : String := String.ofList (cs.dropWhile (· == '='))

def longOption (arg : List Char) : Except Early (Flag × Option String) := do
  let name := arg.takeWhile (· != '=')
  let rest := arg.dropWhile (· != '=')
  let flag ← Flag.take (Flag.ofName? (String.ofList name))
  return (flag, if rest.isEmpty then none else some (afterEquals rest))

def shortOption (letter : Char) (rest : List Char) : Except Early (Flag × Option String) := do
  let flag ← Flag.take (Flag.ofLetter? letter)
  return (flag, if rest.isEmpty then none else some (afterEquals rest))

/-- Reads the arguments after those in `given`. An argument that is no option is the value of the
option before it, if that has none yet. Two hyphens alone end the options, and nothing may follow
them. -/
def readArgs (given : Given) : List String → Except Early Given
  | [] => .ok given
  | arg :: args =>
    match arg.toList with
    | ['-', '-'] => if args.isEmpty then .ok given else .error refusal
    | '-' :: '-' :: cs => do
      let option ← longOption (cs.dropWhile (· == '-'))
      readArgs (option :: given) args
    | '-' :: c :: cs => do
      let option ← shortOption c cs
      readArgs (option :: given) args
    | _ =>
      match given with
      | (flag, none) :: before => readArgs ((flag, some arg) :: before) args
      | _ => .error refusal

def valuesOf (given : Given) (flag : Flag) : List (Option String) :=
  (given.filter fun g => g.1 == flag).map Prod.snd

/-- Without a value, the mode is the default one. -/
def modeOf? (given : Given) : Option Mode :=
  match valuesOf given .mode with
  | [] => some .tokens
  | [none] => some .tokens
  | [some name] => Mode.ofName? name
  | _ => none

def configOf? (given : Given) : Option (Option String) :=
  match valuesOf given .config with
  | [] => some none
  | [some path] => some (some path)
  | _ => none

def readArguments : ReadArguments := fun args => do
  let given ← readArgs [] args
  match modeOf? given, configOf? given with
  | some mode, some config => return ⟨mode, config⟩
  | _, _ => throw refusal

end LetLang.CommandLine
