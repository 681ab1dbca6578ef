import LetLang.Policy
import LetLang.Settings.Decoder

/-!
Settings and how a document gives them: a mapping with one section for the parser, which is a
mapping from kinds of statements to policies. What is not given keeps its default; what is not
known, or is given twice, rejects the document.
-/

namespace LetLang

structure Settings where
  parser : Policies := {}
  deriving DecidableEq, Repr

namespace Settings

open Yaml (Document Node)

def policyVariants : List (String × SemicolonPolicy) :=
  [("required", .required), ("optional", .optional)]

def policyFields : List String := ["let-semicolon", "return-semicolon", "expression-semicolon"]

/-- Policies from the fields that are given; each other field has a default of its own. -/
def policiesOf (given : String → Option SemicolonPolicy) : Policies where
  letStmt := (given "let-semicolon").getD .required
  returnStmt := (given "return-semicolon").getD .required
  exprStmt := (given "expression-semicolon").getD .optional

def ofSections (given : String → Option Policies) : Settings where
  parser := (given "parser").getD {}

namespace Decoder

variable (c : Decoder)

def policy (d : Document) : Slot → Node → Except ContentError SemicolonPolicy :=
  c.variant d policyVariants

def policies (d : Document) (slot : Slot) (node : Node) : Except ContentError Policies :=
  (c.record d "struct ParserConfig" policyFields (c.policy d) slot.inner node).map policiesOf

def settings (d : Document) : Except ContentError Settings :=
  (c.record d "struct Config" ["parser"] (c.policies d) [] d.root).map ofSections

def read (text : String) : Except SettingsError Settings :=
  match c.document? text with
  | none => .error .malformed
  | some d => (c.settings d).mapError .content

end Decoder

end Settings

end LetLang
