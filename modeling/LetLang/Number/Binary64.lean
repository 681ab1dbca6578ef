/-!
Numbers in binary floating point with 53 bits, and their shortest decimal text. The arithmetic is
exact: rounding compares fractions of natural numbers.
-/

namespace LetLang.Number

/-- The number `significand * 2 ^ exponent / 2 ^ 1074`. -/
structure Binary64 where
  significand : Nat
  exponent : Nat
  deriving DecidableEq, Repr

namespace Binary64

/-- The natural number nearest to a fraction; of two, the even one. -/
def roundDiv (num den : Nat) : Nat :=
  let q := num / den
  let r := num % den
  if 2 * r < den then q
  else if den < 2 * r then q + 1
  else q + q % 2

def bitLength (n : Nat) : Nat := if n = 0 then 0 else n.log2 + 1

/-- The number nearest to a positive fraction, unless that is too large to be finite. -/
def ofFraction? (num den : Nat) : Option Binary64 :=
  -- with this scale the quotient has 53 or 54 bits, or the smallest exponent is reached
  let scale := bitLength num + 1074 - bitLength den - 53
  let significand (e : Nat) := roundDiv (num <<< 1074) (den <<< e)
  let exponent := if significand scale < 1 <<< 53 then scale else scale + 1
  let m := significand exponent
  let (m, e) := if m = 1 <<< 53 then (1 <<< 52, exponent + 1) else (m, exponent)
  if e ≤ 2045 then some ⟨m, e⟩ else none

/-- The ends of the interval of fractions that round to a number, in quarters of its last place. At
a power of two the numbers below are closer. -/
def interval (x : Binary64) : Nat × Nat :=
  let low := if x.significand = 1 <<< 52 ∧ x.exponent ≠ 0 then 1 else 2
  (4 * x.significand - low, 4 * x.significand + 2)

/-- With `4 * significand * unit` and `grid` in the same measure, the multiple of `grid` that is
nearest to a number, if one of its two neighbours rounds to it. -/
def multiple? (x : Binary64) (unit grid : Nat) : Option Nat :=
  let (low, high) := x.interval
  let inside (n : Nat) : Bool :=
    if x.significand % 2 = 0 then low * unit ≤ n * grid && n * grid ≤ high * unit
    else low * unit < n * grid && n * grid < high * unit
  let value := 4 * x.significand * unit
  let below := value / grid
  match inside below, inside (below + 1) with
  | true, true => if 2 * (value - below * grid) < grid then some below else some (below + 1)
  | true, false => some below
  | false, true => some (below + 1)
  | false, false => none

/-- The powers of ten of all finite numbers lie between this many below one and above it. -/
def span : Nat := 400

/-- The shortest decimal number that rounds to a positive number: its digits, and the power of ten
that they are multiplied by, counted from `span` below. -/
def shortest (x : Binary64) : Nat × Nat :=
  -- both measures are multiplied by this power of ten, so that the grids are whole numbers
  let unit := Nat.pow 10 span <<< x.exponent
  let found := (List.range (2 * span)).findSome? fun i =>
    let power := 2 * span - 1 - i
    (x.multiple? unit ((4 * Nat.pow 10 power) <<< 1074)).bind fun n =>
      if n = 0 then none else some (n, power)
  found.getD (0, span)

def positional (digits power : Nat) : String :=
  let ds := Nat.toDigits 10 digits
  if span ≤ power then String.ofList (ds ++ List.replicate (power - span) '0') ++ ".0"
  else
    let places := span - power
    let padded := List.replicate (places + 1 - ds.length) '0' ++ ds
    let whole := padded.length - places
    String.ofList (padded.take whole) ++ "." ++ String.ofList (padded.drop whole)

def render (x : Binary64) : String :=
  if x.significand = 0 then "0.0"
  else
    let (digits, power) := x.shortest
    positional digits power

end Binary64

end LetLang.Number
