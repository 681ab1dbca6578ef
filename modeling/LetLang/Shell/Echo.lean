import LetLang.Parser
import LetLang.Text.Quoted

/-!
What the shell writes for a line: its tokens, or the program that it is.
-/

namespace LetLang

inductive Mode where
  | tokens | ast
  deriving DecidableEq, Repr

namespace Mode

def ofName? : String → Option Mode
  | "tokens" => some tokens
  | "token" => some tokens
  | "ast" => some ast
  | _ => none

def describe : Mode → String
  | tokens => "token mode"
  | ast => "ast mode"

def unknownMessage (name : String) : String :=
  "unknown mode `" ++ name ++ "`, expected `tokens` or `ast`"

end Mode

namespace Token

def echo (t : Token) : String :=
  "Token \x7b kind: " ++ t.kind.name ++ ", literal: " ++ Text.quote t.literal ++ " \x7d"

end Token

def tokenLines (ts : List Token) : List String := ts.map fun t => t.echo ++ "\n"

/-- The errors if there are any, else the program unless it is empty. -/
def Parsed.reply (p : Parsed) : List String :=
  if p.errors.isEmpty then
    if p.program.statements.isEmpty then [] else [p.program.render ++ "\n"]
  else
    "parser errors:\n" :: p.errors.map fun e => "\t" ++ e.message ++ "\n"

/-- What the shell writes for a line of text, write by write. -/
def reply (mode : Mode) (policies : Policies) (line : String) : List String :=
  match mode with
  | .tokens => tokenLines (tokens line)
  | .ast => (parse line policies).reply

def echo (mode : Mode) (policies : Policies) (line : String) : String :=
  String.join (reply mode policies line)

end LetLang
