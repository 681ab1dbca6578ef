import LetLang.Number.Integer
import Mathlib

/-! Integers from digits: a literal of decimal digits is worth what its digits say, however many
zeros it starts with, and is no integer if that does not fit into 64 bits. -/

namespace LetLang.Number

theorem digitValue?_of_isDigit {c : Char} (h : c.isDigit) :
    digitValue? c = some (c.toNat - '0'.toNat) := by
  simp [digitValue?, h]

theorem toNat_sub_lt_ten {c : Char} (h : c.isDigit) : c.toNat - '0'.toNat < 10 := by
  simp only [Char.isDigit, Bool.and_eq_true, decide_eq_true_eq, UInt32.le_iff_toNat_le] at h
  have h9 : '9'.val.toNat = 57 := rfl
  have h0 : '0'.toNat = 48 := rfl
  have hc : c.toNat = c.val.toNat := rfl
  omega

theorem appendDigit?_of_isDigit (bound n : Nat) {c : Char} (h : c.isDigit) :
    appendDigit? 10 bound n c =
      if 10 * n + (c.toNat - '0'.toNat) ≤ bound then some (10 * n + (c.toNat - '0'.toNat))
      else none := by
  have hlt := toNat_sub_lt_ten h
  simp only [appendDigit?, digitValue?_of_isDigit h, Option.bind_eq_bind, Option.bind_some, hlt,
    true_and, Nat.mul_comm n 10]

theorem le_ofDigitChars (digits : List Char) (n : Nat) : n ≤ Nat.ofDigitChars 10 digits n := by
  rw [Nat.ofDigitChars_eq_ofDigitChars_zero]
  have hpow : 0 < 10 ^ digits.length := Nat.pow_pos (by decide)
  exact Nat.le_trans (Nat.le_mul_of_pos_left n hpow) (Nat.le_add_right _ _)

/-- The bound is exceeded on the way only if it is exceeded at the end: every further digit makes
the number larger. -/
theorem foldlM_appendDigit? {digits : List Char} (h : ∀ c ∈ digits, c.isDigit) {bound n : Nat}
    (hn : n ≤ bound) : digits.foldlM (appendDigit? 10 bound) n =
      if Nat.ofDigitChars 10 digits n ≤ bound then some (Nat.ofDigitChars 10 digits n)
      else none := by
  induction digits generalizing n with
  | nil => simp [hn]
  | cons c digits ih =>
    obtain ⟨hc, hdigits⟩ := List.forall_mem_cons.1 h
    rw [List.foldlM_cons, appendDigit?_of_isDigit bound n hc, Nat.ofDigitChars_cons]
    split
    · next hle => exact ih hdigits hle
    · next hgt =>
      have hle := le_ofDigitChars digits (10 * n + (c.toNat - '0'.toNat))
      rw [if_neg (by omega)]
      rfl

theorem natUpTo?_of_isDigit {digits : List Char} (hne : digits ≠ [])
    (h : ∀ c ∈ digits, c.isDigit) (bound : Nat) : natUpTo? 10 bound digits =
      if Nat.ofDigitChars 10 digits 0 ≤ bound then some (Nat.ofDigitChars 10 digits 0)
      else none := by
  have hempty : digits.isEmpty = false := by simpa using hne
  rw [natUpTo?, hempty, foldlM_appendDigit? h (Nat.zero_le bound)]
  rfl

theorem natUpTo?_toDigits {base bound n : Nat} (hbase : 1 < base) (hdigits : base ≤ 16)
    (hn : n ≤ bound) : natUpTo? base bound (Nat.toDigits base n) = some n := by
  have hvalue : ∀ d, d < 16 → digitValue? (Nat.digitChar d) = some d := by decide
  have happend (m d : Nat) (hd : d < base) (hle : m * base + d ≤ bound) :
      appendDigit? base bound m (Nat.digitChar d) = some (m * base + d) := by
    simp [appendDigit?, hvalue d (by omega), hd, hle]
  have hfold : (Nat.toDigits base n).foldlM (appendDigit? base bound) 0 = some n := by
    induction n using Nat.strongRecOn with
    | ind n ih =>
      rw [Nat.toDigits_eq_if hbase]
      split
      · next hlt =>
        have h := happend 0 n hlt (by omega)
        simpa using h
      · next hge =>
        have hless : n / base < n := Nat.div_lt_self (by omega) hbase
        have hsum : n / base * base + n % base = n := Nat.div_add_mod' n base
        rw [List.foldlM_append, ih _ hless (by omega)]
        have h := happend (n / base) (n % base) (Nat.mod_lt n (by omega)) (by omega)
        rw [hsum] at h
        simpa using h
  have hne : (Nat.toDigits base n).isEmpty = false := by simp [Nat.toDigits_ne_nil]
  rw [natUpTo?, hne]
  exact hfold

theorem int64?_of_isDigit {digits : List Char} (h : ∀ c ∈ digits, c.isDigit) :
    int64? digits = (natUpTo? 10 ((1 <<< 63) - 1) digits).map Int64.ofNat := by
  unfold int64?
  split
  · exact absurd (h '-' List.mem_cons_self) (by decide)
  · exact absurd (h '+' List.mem_cons_self) (by decide)
  · rfl

theorem int64?_eq_some_iff {digits : List Char} (hne : digits ≠ []) (h : ∀ c ∈ digits, c.isDigit)
    {value : Int64} :
    int64? digits = some value ↔ value.toInt = Nat.ofDigitChars 10 digits 0 := by
  have hbound : (1 <<< 63) - 1 = 9223372036854775807 := rfl
  have hlt := value.toInt_lt
  rw [int64?_of_isDigit h, natUpTo?_of_isDigit hne h, hbound]
  split
  · next hle =>
    have hofNat : (Int64.ofNat (Nat.ofDigitChars 10 digits 0)).toInt = _ :=
      Int64.toInt_ofNat_of_lt (by omega)
    rw [Option.map_some, Option.some.injEq, ← Int64.toInt_inj, hofNat, eq_comm]
  · next hgt =>
    refine ⟨nofun, fun heq => ?_⟩
    omega

theorem int64?_eq_none_iff {digits : List Char} (hne : digits ≠ [])
    (h : ∀ c ∈ digits, c.isDigit) :
    int64? digits = none ↔ 2 ^ 63 - 1 < Nat.ofDigitChars 10 digits 0 := by
  have hbound : (1 <<< 63) - 1 = 2 ^ 63 - 1 := rfl
  rw [int64?_of_isDigit h, natUpTo?_of_isDigit hne h, hbound, Option.map_eq_none_iff]
  split
  · next hle => exact iff_of_false (Option.some_ne_none _) (Nat.not_lt.2 hle)
  · next hgt => exact iff_of_true rfl (Nat.lt_of_not_le hgt)

end LetLang.Number
