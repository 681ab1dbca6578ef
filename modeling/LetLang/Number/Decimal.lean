import LetLang.Number.Binary64

/-!
Decimal numbers as they are written, with a point or an exponent, and the nearest binary number.
Digits are joined in pairs, so that long lists cost little more than a few products of large
numbers.
-/

namespace LetLang.Number

/-- Makes one digit of the squared base of every two, after those in `done`. -/
def pairUp (base : Nat) (done : Array Nat) : List Nat → List Nat
  | low :: high :: rest => pairUp base (done.push (low + base * high)) rest
  | [d] => (done.push d).toList
  | [] => done.toList

theorem length_pairUp (base : Nat) (done : Array Nat) (digits : List Nat) :
    (pairUp base done digits).length = done.size + (digits.length + 1) / 2 := by
  fun_induction pairUp base done digits with
  | case1 done low high rest ih => simp only [ih, Array.size_push, List.length_cons]; omega
  | case2 done d => simp
  | case3 done => simp

def ofDigits (base : Nat) (digits : List Nat) : Nat :=
  if digits.length ≤ 1 then digits.headD 0
  else ofDigits (base * base) (pairUp base #[] digits)
termination_by digits.length
decreasing_by rw [length_pairUp]; simp; omega

/-- The digits without the point, and the power of ten that they are multiplied by. -/
structure Decimal where
  digits : List Char
  power : Int
  deriving DecidableEq, Repr

namespace Decimal

def digitOf (c : Char) : Nat := c.toNat - '0'.toNat

/-- From here on, the further digits of an exponent do not count. -/
def exponentLimit : Nat := 65536

def appendExponentDigit (n : Nat) (c : Char) : Nat :=
  if n < exponentLimit then 10 * n + digitOf c else n

def exponent? (cs : List Char) : Option Int :=
  let (negative, digits) := match cs with
    | '-' :: ds => (true, ds)
    | '+' :: ds => (false, ds)
    | ds => (false, ds)
  if digits.isEmpty || !digits.all Char.isDigit then none
  else
    let n := digits.foldl appendExponentDigit 0
    some (if negative then -n else n)

def read? (cs : List Char) : Option Decimal := do
  let whole := cs.takeWhile Char.isDigit
  let rest := cs.dropWhile Char.isDigit
  let (fraction, rest) := match rest with
    | '.' :: r => (r.takeWhile Char.isDigit, r.dropWhile Char.isDigit)
    | r => ([], r)
  if whole.isEmpty && fraction.isEmpty then none
  else
    let exponent ← match rest with
      | [] => some 0
      | c :: r => if c == 'e' || c == 'E' then exponent? r else none
    return ⟨whole ++ fraction, exponent - fraction.length⟩

/-- The nearest binary number, unless that is too large to be finite. -/
def toBinary64? (x : Decimal) : Option Binary64 :=
  let digits := x.digits.dropWhile (· == '0')
  let magnitude := x.power + digits.length
  if digits.isEmpty || magnitude < -330 then some ⟨0, 0⟩
  else if 310 < magnitude then none
  else
    let n := ofDigits 10 (digits.map digitOf).reverse
    if 0 ≤ x.power then Binary64.ofFraction? (n * Nat.pow 10 x.power.toNat) 1
    else Binary64.ofFraction? n (Nat.pow 10 (-x.power).toNat)

end Decimal

end LetLang.Number
