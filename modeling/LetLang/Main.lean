import LetLang.CommandLine

/-!
The program: it reads the settings files and then answers its standard input line by line.
-/

open LetLang

def readFaultOf (e : IO.Error) : ReadFault :=
  match e with
  | .noFileOrDirectory _ _ _ => .notFound
  | .inappropriateType _ code _ => ofCode code
  | e => .other (toString e)
where
  ofCode (code : UInt32) : ReadFault :=
    if code == 20 then .notDirectory else if code == 21 then .isDirectory else .other (toString e)

def readText (path : String) : IO (Except ReadFault String) := do
  try
    match String.fromUTF8? (← IO.FS.readBinFile path) with
    | some text => return .ok text
    | none => return .error .notText
  catch e => return .error (readFaultOf e)

/-- Reads some files in advance. -/
def readAll (paths : List String) : IO Settings.ReadFile := do
  let found ← paths.mapM fun path => return (path, ← readText path)
  return fun path => (found.lookup path).getD (.error .notFound)

partial def converse (mode : Mode) (policies : Policies) : IO UInt32 := do
  let stdin ← IO.getStdin
  let stdout ← IO.getStdout
  stdout.putStr Shell.prompt
  stdout.flush
  let line? ← try
      let line ← stdin.getLine
      pure (some line)
    catch _ => pure none
  match line? with
  | none =>
    (← IO.getStderr).putStrLn ShellFault.notText.message
    return 1
  | some line =>
    if line.isEmpty || Shell.isExit line then
      stdout.putStr Shell.farewell
      return 0
    else
      stdout.putStr (echo mode policies line)
      converse mode policies

def main (args : List String) : IO UInt32 := do
  let stdout ← IO.getStdout
  let stderr ← IO.getStderr
  match CommandLine.readArguments args with
  | .error (.shown text) =>
    stdout.putStr text
    return 0
  | .error (.refused message) =>
    stderr.putStrLn message
    return 1
  | .ok options =>
    let project := toString (← IO.currentDir)
    let home ← IO.getEnv "HOME"
    let paths := match options.config with
      | some path => [path]
      | none => Settings.candidates (some project) home
    match CommandLine.settings .yaml options (← readAll paths) (some project) home with
    | .error message =>
      stderr.putStr message
      return 1
    | .ok settings =>
      stdout.putStr (CommandLine.welcome options.mode)
      converse options.mode settings.parser
