import CommunicationProtocols.Library.Binary64
import CommunicationProtocols.Library.Decimal

/-!
# Texts with a fixed number of decimals

What the C library prints with `%.kf`: the number in units of the last decimal, rounded
to an integer, with a point in front of the last `k` digits. The digits are those of the
integer, so that distinct integers have distinct texts.
-/

namespace CommunicationProtocols.Library.FixedPoint

open Decimal

/-- The last digits of a number, with zeros in front if it has fewer. -/
def padded : ℕ → ℕ → List UInt8
  | 0, _ => []
  | k + 1, n => padded k (n / 10) ++ [digit (n % 10)]

/-- The text of a number of units of the last of some decimals. -/
def text (decimals n : ℕ) : List UInt8 := Decimal.text (n / 10 ^ decimals) ++ 46 :: padded decimals n

/-- The units of the last decimal in a double, rounded. -/
def units (decimals : ℕ) (x : Magnitude) : ℕ := (roundEven (x.value * 10 ^ decimals)).toNat

/-- The text of a double. -/
def print (decimals : ℕ) (x : Magnitude) : List UInt8 := text decimals (units decimals x)

/-! ## The digits -/

variable {decimals n m : ℕ} {byte : UInt8}

/-- A padded text has the length asked for. -/
theorem length_padded (k n : ℕ) : (padded k n).length = k := by
  induction k generalizing n with
  | zero => rfl
  | succ k ih => rw [padded, List.length_append, ih, List.length_singleton]

/-- A padded text is made of digits. -/
theorem isDigit_of_mem_padded {k : ℕ} (member : byte ∈ padded k n) : isDigit byte = true := by
  induction k generalizing n with
  | zero => cases member
  | succ k ih =>
      rw [padded, List.mem_append] at member
      rcases member with front | last
      · exact ih front
      · rw [List.mem_singleton.mp last, isDigit_iff, toNat_digit (Nat.mod_lt _ (by decide))]
        omega

/-- A digit more multiplies the number by ten and adds the digit. -/
theorem value_concat (bytes : List UInt8) (byte : UInt8) :
    value (bytes ++ [byte]) = byte.toNat - 48 + 10 * value bytes := by
  rw [value, List.foldl_append]
  rfl

/-- Without the point, the digits are those of the number. -/
theorem value_digits (k n : ℕ) : value (Decimal.text (n / 10 ^ k) ++ padded k n) = n := by
  induction k generalizing n with
  | zero => rw [Nat.pow_zero, Nat.div_one, padded, List.append_nil, value_text]
  | succ k ih =>
      have shifted : n / 10 ^ (k + 1) = n / 10 / 10 ^ k := by
        rw [Nat.pow_succ', Nat.div_div_eq_div_mul]
      have small := toNat_digit (Nat.mod_lt n (by decide : 0 < 10))
      rw [padded, ← List.append_assoc, value_concat, shifted, ih, small]
      omega

/-- Different numbers have different texts, with as many decimals. -/
theorem text_injective (decimals : ℕ) : Function.Injective (text decimals) := by
  intro n m same
  have lengths : (46 :: padded decimals n).length = (46 :: padded decimals m).length := by
    rw [List.length_cons, List.length_cons, length_padded, length_padded]
  obtain ⟨whole, behind⟩ := List.append_inj' same lengths
  have fraction := (List.cons.inj behind).2
  rw [← value_digits decimals n, ← value_digits decimals m, whole, fraction]

/-- A zero more. -/
theorem text_mul_ten (decimals n : ℕ) : text (decimals + 1) (n * 10) = text decimals n ++ [48] := by
  have whole : n * 10 / 10 ^ (decimals + 1) = n / 10 ^ decimals := by
    rw [Nat.pow_succ, Nat.mul_div_mul_right _ _ (by decide)]
  rw [text, text, whole, padded, Nat.mul_div_cancel _ (by decide), Nat.mul_mod_left,
    List.append_assoc]
  rfl

/-- Decimals that are not needed are zeros at the end. -/
theorem text_mul_pow (decimals n k : ℕ) :
    text (decimals + k) (n * 10 ^ k) = text decimals n ++ List.replicate k 48 := by
  induction k with
  | zero => rw [Nat.pow_zero, Nat.mul_one, List.replicate_zero, List.append_nil, Nat.add_zero]
  | succ k ih =>
      rw [Nat.pow_succ, ← Nat.mul_assoc, ← Nat.add_assoc, text_mul_ten, ih, List.append_assoc,
        List.replicate_succ']

/-- The length of a text: the whole part, the point and the decimals. -/
theorem length_text (decimals n : ℕ) :
    (text decimals n).length = (Decimal.text (n / 10 ^ decimals)).length + 1 + decimals := by
  rw [text, List.length_append, List.length_cons, length_padded]
  omega

/-- A text is made of digits and the point. -/
theorem mem_text (member : byte ∈ text decimals n) : isDigit byte = true ∨ byte = 46 := by
  rw [text, List.mem_append, List.mem_cons] at member
  rcases member with whole | rfl | fraction
  · exact .inl (isDigit_of_mem_text whole)
  · exact .inr rfl
  · exact .inl (isDigit_of_mem_padded fraction)

/-! ## Rounding to decimals -/

variable {x : Magnitude}

/-- What is nearer to an integer number of units than half a unit is printed as it. -/
theorem units_eq (near : |x.value * 10 ^ decimals - n| < 1 / 2) : units decimals x = n := by
  have rounded : roundEven (x.value * 10 ^ decimals) = (n : ℤ) :=
    roundEven_eq (by rwa [Int.cast_natCast])
  rw [units, rounded, Int.toNat_natCast]

/-- The text is as near as its decimals allow. -/
theorem units_near (decimals : ℕ) (x : Magnitude) :
    |(units decimals x : ℚ) - x.value * 10 ^ decimals| ≤ 1 / 2 := by
  have nonnegative : 0 ≤ x.value * 10 ^ decimals := by
    have unit : (0 : ℚ) < 2 ^ x.exponent := zpow_pos (by norm_num) _
    rw [Magnitude.value]
    positivity
  have least : (0 : ℤ) ≤ roundEven (x.value * 10 ^ decimals) := by
    refine le_roundEven ?_
    rwa [Int.cast_zero]
  have near := roundEven_near (x.value * 10 ^ decimals)
  have same : ((units decimals x : ℕ) : ℚ) = (roundEven (x.value * 10 ^ decimals) : ℤ) := by
    rw [units, ← Int.cast_natCast, Int.toNat_of_nonneg least]
  rwa [same]

end CommunicationProtocols.Library.FixedPoint
