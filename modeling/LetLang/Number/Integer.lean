/-!
Natural numbers in a base up to sixteen, up to a bound, and decimal integers of 64 bits. The digits
are added up from the left, and the reading fails as soon as the sum exceeds the bound.
-/

namespace LetLang.Number

def digitValue? (c : Char) : Option Nat :=
  if c.isDigit then some (c.toNat - '0'.toNat)
  else if 'a' ≤ c && c ≤ 'f' then some (c.toNat - 'a'.toNat + 10)
  else if 'A' ≤ c && c ≤ 'F' then some (c.toNat - 'A'.toNat + 10)
  else none

def appendDigit? (base bound n : Nat) (c : Char) : Option Nat := do
  let d ← digitValue? c
  if d < base ∧ n * base + d ≤ bound then some (n * base + d) else none

/-- At least one digit of a base, with a value of at most `bound`. -/
def natUpTo? (base bound : Nat) (digits : List Char) : Option Nat :=
  if digits.isEmpty then none else digits.foldlM (appendDigit? base bound) 0

def int64? (text : List Char) : Option Int64 :=
  match text with
  | '-' :: digits => (natUpTo? 10 (1 <<< 63) digits).map fun n => Int64.ofInt (-n)
  | '+' :: digits => (natUpTo? 10 ((1 <<< 63) - 1) digits).map Int64.ofNat
  | digits => (natUpTo? 10 ((1 <<< 63) - 1) digits).map Int64.ofNat

end LetLang.Number
