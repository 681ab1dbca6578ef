import LetLang.CommandLine
import LetLang.Files
import Mathlib

/-! Where settings come from. Of the files of the project and of the user the first that is not
missing decides alone: what comes after it is not looked at, and its fault is not passed over. A
file that is asked for by name has to exist. -/

namespace LetLang

namespace Settings

/-- The path of the settings file in a directory, if there is a directory. -/
def InDir (dir : Option String) (path : String) : Prop :=
  ∃ d, dir = some d ∧ path = joinPath d ".alian.yml"

def Missing (readFile : ReadFile) (dir : Option String) : Prop :=
  ∀ path, InDir dir path → readFile path = .error .notFound

/-- The file at this path decides: it is the project's, or else the user's, and is not missing. -/
inductive Decides (readFile : ReadFile) (project home : Option String) (path : String) : Prop where
  | project (hpath : InDir project path) (hfound : readFile path ≠ .error .notFound)
  | home (hmissing : Missing readFile project) (hpath : InDir home path)
      (hfound : readFile path ≠ .error .notFound)

def verdict (c : Decoder) (path : String) (content : Except ReadFault String) :
    Except SettingsError Settings :=
  match content with
  | .error fault => .error (.inFile path (.unreadable fault))
  | .ok text =>
    match c.read text with
    | .error cause => .error (.inFile path cause)
    | .ok settings => .ok settings

theorem joinPath_eq (dir : String) : joinPath dir ".alian.yml" =
    if dir = "" ∨ dir.toList.getLast? = some '/' then dir ++ ".alian.yml"
    else dir ++ "/.alian.yml" := by
  rw [joinPath]
  by_cases h : dir = "" ∨ dir.toList.getLast? = some '/'
  · rw [if_pos h, if_pos (by simpa using h)]
  · rw [if_neg h, if_neg (by simpa using h), String.append_assoc]
    rfl

section

variable {c : Decoder} {readFile readFile' : ReadFile} {path : String} {paths : List String}

theorem loadIfFound_of_found (h : readFile path ≠ .error .notFound) :
    c.loadIfFound readFile path = (c.loadFrom readFile path).map some := by
  rw [Decoder.loadIfFound, Decoder.loadFrom]
  match hread : readFile path with
  | .ok text => rfl
  | .error .notFound => exact absurd hread h
  | .error .notDirectory | .error .isDirectory | .error .nameTooLong | .error .zeroInName
  | .error .notText | .error (.other _) => rfl

theorem search_cons_of_missing (h : readFile path = .error .notFound) :
    c.search readFile (path :: paths) = c.search readFile paths := by
  rw [Decoder.search, Decoder.loadIfFound, h]

theorem search_cons_of_found (h : readFile path ≠ .error .notFound) :
    c.search readFile (path :: paths) = verdict c path (readFile path) := by
  rw [Decoder.search, loadIfFound_of_found h, Decoder.loadFrom]
  cases readFile path with
  | error fault => rfl
  | ok text => cases hread : c.read text <;> simp [hread, verdict, Except.map]

variable {project home home' : Option String} {settings : Settings}

theorem decides_or_missing (readFile : ReadFile) (project home : Option String) :
    (∃ path, Decides readFile project home path) ∨
      Missing readFile project ∧ Missing readFile home := by
  by_cases hproject : Missing readFile project
  · by_cases hhome : Missing readFile home
    · exact .inr ⟨hproject, hhome⟩
    · obtain ⟨path, hpath, hfound⟩ : ∃ path, InDir home path ∧
          readFile path ≠ .error .notFound := by
        simpa [Missing] using hhome
      exact .inl ⟨path, .home hproject hpath hfound⟩
  · obtain ⟨path, hpath, hfound⟩ : ∃ path, InDir project path ∧
        readFile path ≠ .error .notFound := by
      simpa [Missing] using hproject
    exact .inl ⟨path, .project hpath hfound⟩

theorem load_of_missing_project (h : Missing readFile project) :
    c.load readFile project home = c.load readFile none home := by
  cases project with
  | none => rfl
  | some root => exact search_cons_of_missing (h _ ⟨root, rfl, rfl⟩)

theorem load_of_missing (hproject : Missing readFile project) (hhome : Missing readFile home) :
    c.load readFile project home = .ok ⟨⟨.required, .required, .optional⟩⟩ := by
  rw [load_of_missing_project hproject]
  cases home with
  | none => rfl
  | some user => exact search_cons_of_missing (hhome _ ⟨user, rfl, rfl⟩)

theorem Decides.load_eq (h : Decides readFile project home path) :
    c.load readFile project home = verdict c path (readFile path) := by
  cases h with
  | project hpath hfound =>
    obtain ⟨root, rfl, rfl⟩ := hpath
    exact search_cons_of_found hfound
  | home hmissing hpath hfound =>
    rw [load_of_missing_project hmissing]
    obtain ⟨user, rfl, rfl⟩ := hpath
    exact search_cons_of_found hfound

theorem Decides.congr (hproject : ∀ path, InDir project path → readFile' path = readFile path)
    (hhome : Missing readFile project → ∀ path, InDir home path → readFile' path = readFile path)
    (h : Decides readFile project home path) :
    Decides readFile' project home path ∧ readFile' path = readFile path := by
  cases h with
  | project hpath hfound =>
    have heq := hproject path hpath
    exact ⟨.project hpath (heq ▸ hfound), heq⟩
  | home hmissing hpath hfound =>
    have heq := hhome hmissing path hpath
    have hmissing' : Missing readFile' project := fun path hpath =>
      (hproject path hpath).trans (hmissing path hpath)
    exact ⟨.home hmissing' hpath (heq ▸ hfound), heq⟩

theorem load_congr (hproject : ∀ path, InDir project path → readFile' path = readFile path)
    (hhome : Missing readFile project → ∀ path, InDir home path → readFile' path = readFile path) :
    c.load readFile' project home = c.load readFile project home := by
  rcases decides_or_missing readFile project home with ⟨path, hpath⟩ | ⟨hmissing, hmissing'⟩
  · obtain ⟨hpath', heq⟩ := hpath.congr hproject hhome
    rw [hpath.load_eq, hpath'.load_eq, heq]
  · rw [load_of_missing hmissing hmissing', load_of_missing
      (fun path hpath => (hproject path hpath).trans (hmissing path hpath))
      (fun path hpath => (hhome hmissing path hpath).trans (hmissing' path hpath))]

theorem exists_of_verdict_eq_ok {content : Except ReadFault String}
    (h : verdict c path content = .ok settings) :
    ∃ text, content = .ok text ∧ c.read text = .ok settings := by
  cases content with
  | error fault => cases h
  | ok text =>
    cases hread : c.read text with
    | error cause => simp [verdict, hread] at h
    | ok found => exact ⟨text, rfl, by simpa [verdict, hread] using h⟩

theorem exists_of_load_eq_ok (h : c.load readFile project home = .ok settings) :
    settings = ⟨⟨.required, .required, .optional⟩⟩ ∨ ∃ path text,
      Decides readFile project home path ∧ readFile path = .ok text ∧
      c.read text = .ok settings := by
  rcases decides_or_missing readFile project home with ⟨path, hpath⟩ | ⟨hmissing, hmissing'⟩
  · obtain ⟨text, hfile, hread⟩ := exists_of_verdict_eq_ok (hpath.load_eq ▸ h)
    exact .inr ⟨path, text, hpath, hfile, hread⟩
  · rw [load_of_missing hmissing hmissing'] at h
    exact .inl (Except.ok.inj h).symm

end

end Settings

namespace CommandLine

open Settings (Decides Decoder InDir Missing ReadFile decides_or_missing
  exists_of_load_eq_ok joinPath joinPath_eq load_congr load_of_missing verdict)

/-- A library for arguments does what is documented, without any and for `--config`. -/
structure LawfulArguments (readArguments : ReadArguments) : Prop where
  nil : readArguments [] = .ok ⟨.tokens, none⟩
  config {path : String} (h : path.toList.head? ≠ some '-') :
    readArguments ["--config", path] = .ok ⟨.tokens, some path⟩

theorem eq_ok_of_toOption_eq_some {ε α : Type} {x : Except ε α} {a : α}
    (h : x.toOption = some a) : x = .ok a := by
  cases x with
  | error e => cases h
  | ok b => exact congrArg Except.ok (Option.some.inj h)

theorem readArgs_of_value {given : Given} {flag : Flag} {arg : String} {args : List String}
    (h : arg.toList.head? ≠ some '-') :
    readArgs ((flag, none) :: given) (arg :: args) = readArgs ((flag, some arg) :: given) args := by
  rw [readArgs]
  split <;> simp_all

theorem lawful_readArguments : LawfulArguments readArguments where
  nil := rfl
  config {path} h := by
    have hread : readArgs [] ["--config", path] = readArgs [(.config, none)] [path] := rfl
    rw [readArguments, hread, readArgs_of_value h]
    rfl

/-- How a run ends that was asked for the settings in one file. -/
def outcomeOfFile (c : Decoder) (mode : Mode) (path : String) (content : Except ReadFault String)
    (stdin : List UInt8) : Outcome :=
  match content with
  | .error fault => ⟨1, #[], path ++ ": failed to read config: " ++ fault.message ++ "\n", stdin⟩
  | .ok text =>
    match c.read text with
    | .error cause => ⟨1, #[], path ++ ": " ++ cause.message ++ "\n", stdin⟩
    | .ok settings => session mode settings stdin

/-- How a run ends that has looked for settings. -/
def outcomeOfLookup (mode : Mode) (found : Except SettingsError Settings) (stdin : List UInt8) :
    Outcome :=
  match found with
  | .error cause => ⟨1, #[], cause.message ++ "\n", stdin⟩
  | .ok settings => session mode settings stdin

section

variable {c : Decoder} {readArguments : ReadArguments} {args : List String} {options : Options}
  {readFile : ReadFile} {project home : Option String} {path message : String}

theorem run_of_settings_eq_error (hoptions : readArguments args = .ok options)
    (h : settings c options readFile project home = .error message) (stdin : List UInt8) :
    runWith c readArguments args readFile project home stdin = ⟨1, #[], message, stdin⟩ := by
  simp only [runWith, hoptions, h]

theorem append_message_unreadable (path : String) (fault : ReadFault) :
    path ++ ": " ++ (SettingsError.unreadable fault).message ++ "\n" =
      path ++ ": failed to read config: " ++ fault.message ++ "\n" := by
  have h : ": " ++ "failed to read config: " = ": failed to read config: " := by decide
  calc path ++ ": " ++ ("failed to read config: " ++ fault.message) ++ "\n"
      = path ++ (": " ++ "failed to read config: ") ++ fault.message ++ "\n" := by
        simp only [String.append_assoc]
    _ = path ++ ": failed to read config: " ++ fault.message ++ "\n" :=
        congrArg (fun s => path ++ s ++ fault.message ++ "\n") h

theorem run_eq_outcomeOfFile (hoptions : readArguments args = .ok options)
    (hconfig : options.config = some path) (stdin : List UInt8) :
    runWith c readArguments args readFile project home stdin =
      outcomeOfFile c options.mode path (readFile path) stdin := by
  simp only [runWith, hoptions, settings, hconfig, outcomeOfFile, Decoder.loadFrom]
  cases readFile path with
  | error fault => simp only [Except.mapError, append_message_unreadable]
  | ok text => cases hread : c.read text <;> simp only [hread, Except.mapError]

theorem run_eq_outcomeOfLookup (hoptions : readArguments args = .ok options)
    (hconfig : options.config = none) (stdin : List UInt8) :
    runWith c readArguments args readFile project home stdin =
      outcomeOfLookup options.mode (c.load readFile project home) stdin := by
  simp only [runWith, hoptions, settings, hconfig, outcomeOfLookup]
  cases c.load readFile project home <;> simp [Except.mapError]

end

/-- One file decides about the settings. Without a name it is `.alian.yml` of the project, or else
of the user, whichever is not missing: the result is the same wherever the files up to it are the
same, and a broken file of the project is an error whatever the user has. With a name it is the file
with this name, which has to exist. If there are no settings then nothing is written but a message,
and no input is read. -/
theorem one_file_decides (c : Decoder) {readArguments : ReadArguments}
    (hargs : LawfulArguments readArguments) (readFile : ReadFile) (project home : Option String) :
    (∀ dir, joinPath dir ".alian.yml" =
      if dir = "" ∨ dir.toList.getLast? = some '/' then dir ++ ".alian.yml"
      else dir ++ "/.alian.yml") ∧
    (∀ path, Decides readFile project home path →
      c.load readFile project home = verdict c path (readFile path)) ∧
    ((∀ path, ¬ Decides readFile project home path) →
      c.load readFile project home = .ok ⟨⟨.required, .required, .optional⟩⟩) ∧
    (∀ readFile', (∀ path, InDir project path → readFile' path = readFile path) →
      (Missing readFile project → ∀ path, InDir home path → readFile' path = readFile path) →
      c.load readFile' project home = c.load readFile project home) ∧
    (∀ settings, c.load readFile project home = .ok settings →
      settings = ⟨⟨.required, .required, .optional⟩⟩ ∨ ∃ path text,
        Decides readFile project home path ∧ readFile path = .ok text ∧
        c.read text = .ok settings) ∧
    (∀ path cause, InDir project path → readFile path ≠ .error .notFound →
      verdict c path (readFile path) = .error cause →
      ∀ home', c.load readFile project home' = .error cause) ∧
    (∀ path, path.toList.head? ≠ some '-' → ∀ stdin,
      runWith c readArguments ["--config", path] readFile project home stdin =
        outcomeOfFile c .tokens path (readFile path) stdin) ∧
    (∀ stdin, runWith c readArguments [] readFile project home stdin =
      outcomeOfLookup .tokens (c.load readFile project home) stdin) ∧
    ∀ args options, readArguments args = .ok options → ∀ stdin,
      (∀ path, options.config = some path →
        runWith c readArguments args readFile project home stdin =
          outcomeOfFile c options.mode path (readFile path) stdin) ∧
      (options.config = none → runWith c readArguments args readFile project home stdin =
        outcomeOfLookup options.mode (c.load readFile project home) stdin) ∧
      ∀ message, settings c options readFile project home = .error message →
        runWith c readArguments args readFile project home stdin = ⟨1, #[], message, stdin⟩ := by
  refine ⟨joinPath_eq, fun _ hpath => hpath.load_eq, fun hnone => ?_,
    fun _ => load_congr, fun _ => exists_of_load_eq_ok, ?_, ?_, ?_, ?_⟩
  · rcases decides_or_missing readFile project home with ⟨path, hpath⟩ | ⟨hmissing, hmissing'⟩
    · exact absurd hpath (hnone path)
    · exact load_of_missing hmissing hmissing'
  · intro path cause hpath hfound hcause home'
    rw [← hcause]
    exact (Decides.project hpath hfound).load_eq
  · intro path hpath stdin
    exact run_eq_outcomeOfFile (hargs.config hpath) rfl stdin
  · exact run_eq_outcomeOfLookup hargs.nil rfl
  · intro args options hoptions stdin
    exact ⟨fun path hconfig => run_eq_outcomeOfFile hoptions hconfig stdin,
      fun hconfig => run_eq_outcomeOfLookup hoptions hconfig stdin,
      fun message herror => run_of_settings_eq_error hoptions herror stdin⟩

/-- A directory in the place of the project's file is an error, although the user's file is good; in
a project without the file the user's decides. The user's file asked for by name is all that counts,
and a file that is asked for and missing is an error. -/
theorem one_file_decides_directory :
    let good := "parser: \x7blet-semicolon: optional\x7d"
    let tree : FileTree := .dir [("w", .dir [(".alian.yml", .dir [])]), ("v", .dir []),
      ("u", .dir [(".alian.yml", .file good.toUTF8.toList)])]
    Decoder.yaml.load tree.read (some "/w") (some "/u") =
      .error (.inFile "/w/.alian.yml" (.unreadable .isDirectory)) ∧
    Decoder.yaml.load tree.read (some "/v") (some "/u") =
      .ok ⟨⟨.optional, .required, .optional⟩⟩ ∧
    ∀ stdin,
      runWith .yaml readArguments [] tree.read (some "/w") (some "/u") stdin =
        ⟨1, #[], "/w/.alian.yml: failed to read config: Is a directory (os error 21)\n", stdin⟩ ∧
      runWith .yaml readArguments ["--config", "/u/.alian.yml"] tree.read (some "/w") none stdin =
        session .tokens ⟨⟨.optional, .required, .optional⟩⟩ stdin ∧
      runWith .yaml readArguments ["--config", "/v/.alian.yml"] tree.read none (some "/u") stdin =
        ⟨1, #[], "/v/.alian.yml: failed to read config: No such file or directory (os error 2)\n",
          stdin⟩ := by
  intro good tree
  have hw : tree.read "/w/.alian.yml" = .error .isDirectory := by cbv
  have hv : tree.read "/v/.alian.yml" = .error .notFound := by cbv
  have hu : tree.read "/u/.alian.yml" = .ok good := by cbv
  have hgood : Decoder.yaml.read good = .ok ⟨⟨.optional, .required, .optional⟩⟩ :=
    eq_ok_of_toOption_eq_some (by decide +kernel)
  have hdirectory : verdict .yaml "/w/.alian.yml" (tree.read "/w/.alian.yml") =
      .error (.inFile "/w/.alian.yml" (.unreadable .isDirectory)) := by
    rw [hw]
    rfl
  obtain ⟨-, -, -, -, -, hbroken, -, hlookup, -⟩ :=
    one_file_decides .yaml lawful_readArguments tree.read (some "/w") (some "/u")
  obtain ⟨-, hdecides, -⟩ :=
    one_file_decides .yaml lawful_readArguments tree.read (some "/v") (some "/u")
  obtain ⟨-, -, -, -, -, -, hnamed, -⟩ :=
    one_file_decides .yaml lawful_readArguments tree.read (some "/w") none
  obtain ⟨-, -, -, -, -, -, hgone, -⟩ :=
    one_file_decides .yaml lawful_readArguments tree.read none (some "/u")
  have hload := hbroken "/w/.alian.yml" _ ⟨"/w", rfl, rfl⟩ (by simp [hw]) hdirectory (some "/u")
  have hmissing : Missing tree.read (some "/v") := by
    rintro _ ⟨_, ⟨⟩, rfl⟩
    exact hv
  refine ⟨hload, ?_, fun stdin => ⟨?_, ?_, ?_⟩⟩
  · rw [hdecides "/u/.alian.yml" (.home hmissing ⟨"/u", rfl, rfl⟩ (by simp [hu])), hu, verdict]
    simp only [hgood]
  · rw [hlookup, hload]
    rfl
  · rw [hnamed "/u/.alian.yml" (by decide), hu, outcomeOfFile]
    simp only [hgood]
  · rw [hgone "/v/.alian.yml" (by decide), hv]
    rfl

/-- A path through a file is no missing file, and neither is one whose octets are no text. -/
example :
    let tree : FileTree := .dir [("f", .file []), ("b", .dir [(".alian.yml", .file [0xff])])]
    Settings.load tree.read (some "/f") (some "/b") =
        .error (.inFile "/f/.alian.yml" (.unreadable .notDirectory)) ∧
      Settings.load tree.read none (some "/b") =
        .error (.inFile "/b/.alian.yml" (.unreadable .notText)) := by
  constructor <;> cbv

end CommandLine

end LetLang
