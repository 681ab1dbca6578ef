import LetLang.Number.Decimal
import LetLang.Number.Integer
import LetLang.Text.Quoted
import LetLang.Yaml.Node

/-!
What a scalar means: nothing, a truth value, a number or a text. Without quotes the spelling
decides, unless a tag does.
-/

namespace LetLang.Yaml

/-- The meaning of a scalar. A number too wide for 64 bits is kept apart, and a number with a point
or an exponent is given by its text. -/
inductive Value where
  | null
  | bool (b : Bool)
  | int (n : Int)
  | wideInt (n : Int)
  | float (text : String)
  | text (s : String)
  deriving DecidableEq, Repr

namespace Value

def describe : Value → String
  | null => "unit value"
  | bool b => "boolean `" ++ (if b then "true" else "false") ++ "`"
  | int n => "integer `" ++ toString n ++ "`"
  | wideInt n => "integer `" ++ toString n ++ "` as " ++ (if n < 0 then "i128" else "u128")
  | float t => "floating point `" ++ t ++ "`"
  | text s => "string " ++ Text.quote s

def null? (s : String) : Option Value :=
  if s == "null" || s == "Null" || s == "NULL" || s == "~" then some null else none

def bool? (s : String) : Option Value :=
  if s == "true" || s == "True" || s == "TRUE" then some (bool true)
  else if s == "false" || s == "False" || s == "FALSE" then some (bool false)
  else none

/-- Reads a natural number. A letter after a zero gives another base than ten; no other zero starts
a number of several digits. -/
def magnitude? (bound : Nat) : List Char → Option Nat
  | '0' :: 'x' :: digits => Number.natUpTo? 16 bound digits
  | '0' :: 'o' :: digits => Number.natUpTo? 8 bound digits
  | '0' :: 'b' :: digits => Number.natUpTo? 2 bound digits
  | '0' :: _ :: _ => none
  | digits => Number.natUpTo? 10 bound digits

def int? (s : String) : Option Value :=
  match s.toList with
  | '-' :: digits =>
    (magnitude? (1 <<< 127) digits).map fun n =>
      if n ≤ 1 <<< 63 then int (-n) else wideInt (-n)
  | '+' :: digits => (magnitude? ((1 <<< 128) - 1) digits).map natural
  | digits => (magnitude? ((1 <<< 128) - 1) digits).map natural
where
  natural (n : Nat) : Value := if n < 1 <<< 64 then int n else wideInt n

def finite? (sign : String) (cs : List Char) : Option Value := do
  let x ← Number.Decimal.read? cs
  return float (sign ++ (← x.toBinary64?).render)

def isInfinity (cs : List Char) : Bool :=
  cs == ".inf".toList || cs == ".Inf".toList || cs == ".INF".toList

def float? (s : String) : Option Value :=
  if s == ".nan" || s == ".NaN" || s == ".NAN" then some (float "NaN")
  else
    match s.toList with
    | '-' :: cs => if isInfinity cs then some (float "-inf") else finite? "-" cs
    | '+' :: cs => if isInfinity cs then some (float "inf") else finite? "" cs
    | cs => if isInfinity cs then some (float "inf") else finite? "" cs

/-- Several digits that start with a zero, perhaps after a sign; this is no number. -/
def isPadded (s : String) : Bool :=
  let digits := match s.toList with
    | '-' :: cs => cs
    | '+' :: cs => cs
    | cs => cs
  digits.length > 1 && digits.head? == some '0' && digits.all Char.isDigit

/-- The meaning of a spelling without quotes. -/
def ofPlain (s : String) : Value :=
  if s.isEmpty then null
  else
    let number := (int? s).or (if isPadded s then none else float? s)
    (((null? s).or (bool? s)).or number).getD (text s)

def ofTag? (t : Tag) : Option ((String → Option Value) × String) :=
  if t == Tag.ofString "tag:yaml.org,2002:bool" then some (bool?, "a boolean")
  else if t == Tag.ofString "tag:yaml.org,2002:int" then some (int?, "an integer")
  else if t == Tag.ofString "tag:yaml.org,2002:float" then some (float?, "a float")
  else if t == Tag.ofString "tag:yaml.org,2002:null" then some (null?, "null")
  else none

/-- The meaning of a scalar; if its tag asks for a meaning that its text does not have, what a
message calls that meaning. -/
def ofScalar (s : String) (plain : Bool) (tag : Option Tag) : Except String Value :=
  match tag with
  | none => .ok (if plain then ofPlain s else text s)
  | some t =>
    match ofTag? t with
    | some (read, name) => (read s).elim (.error name) .ok
    | none => .ok (if plain && t.isLocal then ofPlain s else text s)

end Value

end LetLang.Yaml
