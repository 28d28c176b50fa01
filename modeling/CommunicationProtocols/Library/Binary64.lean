import Mathlib.Algebra.Order.Field.Power
import Mathlib.Data.Int.Log
import Mathlib.Data.Nat.Log
import Mathlib.Data.Rat.Floor
import Mathlib.Tactic.FieldSimp
import Mathlib.Tactic.Linarith
import Mathlib.Tactic.NormNum
import Mathlib.Tactic.Positivity
import Mathlib.Tactic.Ring

/-!
# Double precision

A finite number is a mantissa of 53 bits scaled by a power of two; the exponent is the
least one possible. Rounding is to the nearest number, and to the one with the even
mantissa between two. A rational number that differs from a normal number by less than
one part in `2 ^ 54` is rounded to it, and seventeen decimal digits are that close.
-/

namespace CommunicationProtocols.Library

/-- The nearest integer, and the even one between two. -/
def roundEven (q : ℚ) : ℤ :=
  if q - ⌊q⌋ < 1 / 2 then ⌊q⌋
  else if 1 / 2 < q - ⌊q⌋ then ⌊q⌋ + 1
  else if ⌊q⌋ % 2 = 0 then ⌊q⌋
  else ⌊q⌋ + 1

/-- The magnitude of a finite number. -/
structure Magnitude where
  mantissa : ℕ
  exponent : ℤ
  mantissa_lt : mantissa < 2 ^ 53
  lowest : -1074 ≤ exponent
  highest : exponent ≤ 971
  canonical : 2 ^ 52 ≤ mantissa ∨ exponent = -1074
deriving DecidableEq

/-- A number in double precision. -/
inductive Binary64 where
  | finite (negative : Bool) (magnitude : Magnitude)
  | infinite (negative : Bool)
  | nan
deriving DecidableEq

namespace Magnitude

def zero : Magnitude := ⟨0, -1074, by decide, by decide, by decide, .inr rfl⟩

/-- The rational number. -/
def value (x : Magnitude) : ℚ := x.mantissa * 2 ^ x.exponent

/-- A magnitude without leading zeros in its mantissa. -/
def Normal (x : Magnitude) : Prop := 2 ^ 52 ≤ x.mantissa

instance (x : Magnitude) : Decidable x.Normal := inferInstanceAs (Decidable (2 ^ 52 ≤ x.mantissa))

/-- The number of a mantissa and an exponent, if it is one. -/
def ofParts (mantissa : ℕ) (exponent : ℤ) : Option Magnitude :=
  if parts : mantissa < 2 ^ 53 ∧ -1074 ≤ exponent ∧ exponent ≤ 971 ∧
      (2 ^ 52 ≤ mantissa ∨ exponent = -1074) then
    some ⟨mantissa, exponent, parts.1, parts.2.1, parts.2.2.1, parts.2.2.2⟩
  else none

/-- The number nearest to a positive one, unless that is too large. -/
def nearest (q : ℚ) : Option Magnitude :=
  let exponent := max (Int.log 2 q - 52) (-1074)
  let mantissa := (roundEven (q / 2 ^ exponent)).toNat
  if mantissa = 2 ^ 53 then ofParts (2 ^ 52) (exponent + 1) else ofParts mantissa exponent

end Magnitude

/-- The first seventeen digits of a positive number as an integer, and the power of ten
of the first of them. -/
def digits17 (q : ℚ) : ℕ × ℤ :=
  let exponent := Int.log 10 q
  let digits := (roundEven (q / 10 ^ (exponent - 16))).toNat
  if digits = 10 ^ 17 then (10 ^ 16, exponent + 1) else (digits, exponent)

/-! ## Rounding -/

section

variable {q : ℚ} {n : ℤ}

/-- A number closer than half to an integer is rounded to it. -/
theorem roundEven_eq (near : |q - n| < 1 / 2) : roundEven q = n := by
  obtain ⟨lower, upper⟩ := abs_lt.mp near
  have floor_le := Int.floor_le q
  have lt_floor := Int.lt_floor_add_one q
  by_cases above : (n : ℚ) ≤ q
  · have floor : ⌊q⌋ = n := Int.floor_eq_iff.mpr ⟨above, by linarith⟩
    rw [roundEven, floor, if_pos upper]
  · have floor : ⌊q⌋ = n - 1 := Int.floor_eq_iff.mpr ⟨by push_cast; linarith, by push_cast; linarith⟩
    have far : 1 / 2 < q - (n - 1 : ℤ) := by
      push_cast
      linarith
    rw [roundEven, floor, if_neg (by linarith), if_pos far, Int.sub_add_cancel]

/-- Rounding moves a number by half at most. -/
theorem roundEven_near (q : ℚ) : |roundEven q - q| ≤ 1 / 2 := by
  have floor_le := Int.floor_le q
  have lt_floor := Int.lt_floor_add_one q
  rw [roundEven, abs_le]
  split_ifs
  all_goals
    push_cast
    constructor <;> linarith

/-- Rounding does not go below an integer that the number is not below. -/
theorem le_roundEven (below : (n : ℚ) ≤ q) : n ≤ roundEven q := by
  have floor := Int.le_floor.mpr below
  rw [roundEven]
  split_ifs <;> omega

/-- Rounding does not go above an integer that the number is below. -/
theorem roundEven_le (above : q < n) : roundEven q ≤ n := by
  have floor := Int.floor_lt.mpr above
  rw [roundEven]
  split_ifs <;> omega

/-- The power below a positive number is the one between whose successor it lies. -/
theorem log_eq {base : ℕ} (large : 1 < base) (lower : (base : ℚ) ^ n ≤ q)
    (upper : q < (base : ℚ) ^ (n + 1)) : Int.log base q = n := by
  have positive : 0 < q := (zpow_pos (by positivity) n).trans_le lower
  have above := (Int.zpow_le_iff_le_log large positive).mp lower
  have below := (Int.lt_zpow_iff_log_lt large positive).mp upper
  omega

end

namespace Magnitude

variable {x : Magnitude} {q : ℚ}

/-- The parts of a magnitude give it back. -/
theorem ofParts_self (x : Magnitude) : ofParts x.mantissa x.exponent = some x :=
  dif_pos ⟨x.mantissa_lt, x.lowest, x.highest, x.canonical⟩

/-- A normal magnitude is not zero. -/
theorem value_pos (normal : x.Normal) : 0 < x.value := by
  have positive : (0 : ℚ) < x.mantissa := by
    exact_mod_cast Nat.lt_of_lt_of_le (Nat.two_pow_pos 52) normal
  exact mul_pos positive (zpow_pos (by norm_num) _)

/-- A number that differs from a normal one by less than one part in `2 ^ 54` is rounded to it. -/
theorem nearest_eq (normal : x.Normal) (near : |q - x.value| < x.value / 2 ^ 54) :
    nearest q = some x := by
  obtain ⟨lower, upper⟩ := abs_lt.mp near
  have unit : (0 : ℚ) < 2 ^ x.exponent := zpow_pos (by norm_num) _
  have least : (2 ^ 52 : ℚ) ≤ x.mantissa := by exact_mod_cast normal
  have greatest : (x.mantissa : ℚ) + 1 ≤ 2 ^ 53 := by exact_mod_cast x.mantissa_lt
  have power (k : ℤ) : (2 : ℚ) ^ (k + x.exponent) = 2 ^ k * 2 ^ x.exponent :=
    zpow_add₀ two_ne_zero _ _
  rw [value] at lower upper
  -- what is measured in units of the last place
  obtain ⟨r, rfl⟩ : ∃ r, q = r * 2 ^ x.exponent := ⟨q / 2 ^ x.exponent, by field_simp⟩
  have lower' : -(x.mantissa / 2 ^ 54) < r - x.mantissa := by
    refine lt_of_mul_lt_mul_right ?_ unit.le
    linarith
  have upper' : r - x.mantissa < x.mantissa / 2 ^ 54 := by
    refine lt_of_mul_lt_mul_right ?_ unit.le
    linarith
  by_cases same : 2 ^ 52 ≤ r
  · have log : Int.log 2 (r * 2 ^ x.exponent) = 52 + x.exponent := by
      refine log_eq (by norm_num) ?_ ?_
      · rw [Nat.cast_ofNat, power]
        exact mul_le_mul_of_nonneg_right (by norm_num; linarith) unit.le
      · rw [Nat.cast_ofNat, show 52 + x.exponent + 1 = 53 + x.exponent by ring, power]
        exact mul_lt_mul_of_pos_right (by norm_num; linarith) unit
    have lowest := x.lowest
    have exponent : max (Int.log 2 (r * 2 ^ x.exponent) - 52) (-1074) = x.exponent := by
      rw [log]
      omega
    have rounded : roundEven (r * 2 ^ x.exponent / 2 ^ x.exponent) = (x.mantissa : ℤ) := by
      rw [mul_div_assoc, div_self unit.ne', mul_one]
      refine roundEven_eq (abs_lt.mpr ⟨?_, ?_⟩)
      · push_cast
        linarith
      · push_cast
        linarith
    rw [nearest, exponent, rounded, Int.toNat_natCast]
    exact (if_neg x.mantissa_lt.ne).trans (ofParts_self x)
  · -- below a power of two the numbers are twice as dense
    have power_two : x.mantissa = 2 ^ 52 := by
      have small : (x.mantissa : ℚ) < 2 ^ 52 + 1 := by linarith
      have small' : x.mantissa < 2 ^ 52 + 1 := by exact_mod_cast small
      exact Nat.le_antisymm (Nat.lt_succ_iff.mp small') normal
    rw [power_two] at lower' upper'
    push_cast at lower'
    have log : Int.log 2 (r * 2 ^ x.exponent) = 51 + x.exponent := by
      refine log_eq (by norm_num) ?_ ?_
      · rw [Nat.cast_ofNat, power]
        exact mul_le_mul_of_nonneg_right (by norm_num; linarith) unit.le
      · rw [Nat.cast_ofNat, show 51 + x.exponent + 1 = 52 + x.exponent by ring, power]
        exact mul_lt_mul_of_pos_right (by norm_num; linarith) unit
    by_cases last : x.exponent = -1074
    · have exponent : max (Int.log 2 (r * 2 ^ x.exponent) - 52) (-1074) = x.exponent := by
        rw [log]
        omega
      have rounded : roundEven (r * 2 ^ x.exponent / 2 ^ x.exponent) = (x.mantissa : ℤ) := by
        rw [mul_div_assoc, div_self unit.ne', mul_one, power_two]
        refine roundEven_eq (abs_lt.mpr ⟨?_, ?_⟩)
        · push_cast
          linarith
        · push_cast
          linarith
      rw [nearest, exponent, rounded, Int.toNat_natCast]
      exact (if_neg x.mantissa_lt.ne).trans (ofParts_self x)
    · have lowest := x.lowest
      have exponent : max (Int.log 2 (r * 2 ^ x.exponent) - 52) (-1074) = x.exponent - 1 := by
        rw [log]
        omega
      have rounded : roundEven (r * 2 ^ x.exponent / 2 ^ (x.exponent - 1)) = (2 ^ 53 : ℕ) := by
        have twice : r * 2 ^ x.exponent / 2 ^ (x.exponent - 1) = 2 * r := by
          rw [zpow_sub_one₀ two_ne_zero]
          field_simp
        rw [twice]
        refine roundEven_eq (abs_lt.mpr ⟨?_, ?_⟩)
        · push_cast
          linarith
        · push_cast
          linarith
      rw [nearest, exponent, rounded, Int.toNat_natCast, Int.sub_add_cancel, ← power_two]
      exact (if_pos rfl).trans (ofParts_self x)

/-- A positive integer of at most 53 bits is a number, and so are its multiples by powers
of two that are not too large. -/
theorem nearest_natCast_mul {n : ℕ} (positive : 0 < n) (small : n < 2 ^ 53) {j : ℕ}
    (inside : j ≤ 971) :
    ∃ x : Magnitude, nearest (n * 2 ^ j) = some x ∧ x.value = n * 2 ^ j ∧ x.Normal := by
  have below := Nat.pow_log_le_self 2 positive.ne'
  have above := Nat.lt_pow_succ_log_self (b := 2) (by norm_num) n
  have bits : Nat.log 2 n ≤ 52 := Nat.lt_succ_iff.mp (Nat.log_lt_of_lt_pow positive.ne' small)
  generalize Nat.log 2 n = k at below above bits
  have least : 2 ^ 52 ≤ n * 2 ^ (52 - k) := by
    calc 2 ^ 52 = 2 ^ k * 2 ^ (52 - k) := by rw [← pow_add, Nat.add_sub_of_le bits]
      _ ≤ n * 2 ^ (52 - k) := Nat.mul_le_mul_right _ below
  have greatest : n * 2 ^ (52 - k) < 2 ^ 53 := by
    calc n * 2 ^ (52 - k) < 2 ^ (k + 1) * 2 ^ (52 - k) :=
          Nat.mul_lt_mul_of_pos_right above (Nat.two_pow_pos _)
      _ = 2 ^ 53 := by rw [← pow_add]; congr 1; omega
  have value : (n * 2 ^ (52 - k) : ℕ) * (2 : ℚ) ^ ((k : ℤ) - 52 + j) = n * 2 ^ j := by
    have scale : (2 : ℚ) ^ (52 - k) * 2 ^ ((k : ℤ) - 52 + j) = 2 ^ j := by
      rw [← zpow_natCast, ← zpow_natCast, ← zpow_add₀ two_ne_zero, Nat.cast_sub bits]
      congr 1
      push_cast
      ring
    push_cast
    rw [mul_assoc, scale]
  let x : Magnitude :=
    ⟨n * 2 ^ (52 - k), (k : ℤ) - 52 + j, greatest, by omega, by omega, .inl least⟩
  have normal : x.Normal := least
  refine ⟨x, nearest_eq normal ?_, value, normal⟩
  have same : x.value = n * 2 ^ j := value
  rw [same, sub_self, abs_zero]
  have cast : (0 : ℚ) < n := by exact_mod_cast positive
  positivity

/-- A natural number of at most 53 bits is a double of its own. -/
theorem nearest_natCast {n : ℕ} (positive : 0 < n) (small : n < 2 ^ 53) :
    ∃ x : Magnitude, nearest n = some x ∧ x.value = n ∧ x.Normal := by
  simpa using nearest_natCast_mul positive small (Nat.zero_le 971)

/-- Rounding in the normal range is exact to one part in `2 ^ 53`. -/
theorem nearest_near (lower : (2 : ℚ) ^ (-1022 : ℤ) ≤ q) (upper : q < 2 ^ (1023 : ℤ)) :
    ∃ x : Magnitude, nearest q = some x ∧ |x.value - q| ≤ q / 2 ^ 53 ∧ x.Normal := by
  have positive : 0 < q := (zpow_pos (by norm_num) _).trans_le lower
  have below := Int.zpow_log_le_self (b := 2) (by norm_num) positive
  have above := Int.lt_zpow_succ_log_self (b := 2) (by norm_num) q
  have large : -1022 ≤ Int.log 2 q :=
    (Int.zpow_le_iff_le_log (by norm_num) positive).mp (by rwa [Nat.cast_ofNat])
  have small : Int.log 2 q < 1023 :=
    (Int.lt_zpow_iff_log_lt (by norm_num) positive).mp (by rwa [Nat.cast_ofNat])
  rw [Nat.cast_ofNat] at below above
  rw [nearest]
  generalize Int.log 2 q = e at below above large small ⊢
  have exponent : max (e - 52) (-1074) = e - 52 := by omega
  rw [exponent]
  have unit : (0 : ℚ) < 2 ^ (e - 52) := zpow_pos (by norm_num) _
  have power : (2 : ℚ) ^ e = 2 ^ 52 * 2 ^ (e - 52) := by
    rw [← zpow_natCast, ← zpow_add₀ two_ne_zero, Nat.cast_ofNat, add_sub_cancel]
  have power' : (2 : ℚ) ^ (e + 1) = 2 ^ 53 * 2 ^ (e - 52) := by
    rw [zpow_add_one₀ two_ne_zero, power]
    ring
  rw [power] at below
  rw [power'] at above
  -- what is measured in units of the last place
  obtain ⟨r, rfl⟩ : ∃ r, q = r * 2 ^ (e - 52) := ⟨q / 2 ^ (e - 52), by field_simp⟩
  have least : (2 : ℚ) ^ 52 ≤ r := le_of_mul_le_mul_right below unit
  have greatest : r < (2 : ℚ) ^ 53 := lt_of_mul_lt_mul_right above unit.le
  rw [mul_div_assoc, div_self unit.ne', mul_one]
  have least' : (2 ^ 52 : ℤ) ≤ roundEven r := le_roundEven (by push_cast; exact least)
  have greatest' : roundEven r ≤ (2 ^ 53 : ℤ) := roundEven_le (by push_cast; exact greatest)
  obtain ⟨m, rounded⟩ : ∃ m : ℕ, roundEven r = m := Int.eq_ofNat_of_zero_le (by omega)
  have near := roundEven_near r
  rw [rounded, Int.cast_natCast] at near
  rw [rounded] at least' greatest'
  rw [rounded, Int.toNat_natCast]
  have close : |(m : ℚ) * 2 ^ (e - 52) - r * 2 ^ (e - 52)| ≤ r * 2 ^ (e - 52) / 2 ^ 53 := by
    calc |(m : ℚ) * 2 ^ (e - 52) - r * 2 ^ (e - 52)| = |(m : ℚ) - r| * 2 ^ (e - 52) := by
          rw [← sub_mul, abs_mul, abs_of_pos unit]
      _ ≤ 1 / 2 * 2 ^ (e - 52) := mul_le_mul_of_nonneg_right near unit.le
      _ ≤ r / 2 ^ 53 * 2 ^ (e - 52) :=
          mul_le_mul_of_nonneg_right (by norm_num at least ⊢; linarith) unit.le
      _ = r * 2 ^ (e - 52) / 2 ^ 53 := by ring
  split_ifs with carry
  · have parts : (2 ^ 52 : ℕ) < 2 ^ 53 ∧ -1074 ≤ e - 52 + 1 ∧ e - 52 + 1 ≤ 971 ∧
        ((2 ^ 52 : ℕ) ≤ 2 ^ 52 ∨ e - 52 + 1 = -1074) :=
      ⟨by norm_num, by omega, by omega, .inl le_rfl⟩
    refine ⟨_, dif_pos parts, ?_, Nat.le_refl (2 ^ 52)⟩
    have value : ((2 ^ 52 : ℕ) : ℚ) * 2 ^ (e - 52 + 1) = m * 2 ^ (e - 52) := by
      rw [carry, zpow_add_one₀ two_ne_zero]
      push_cast
      ring
    rw [Magnitude.value, value]
    exact close
  · have normal : 2 ^ 52 ≤ m := by omega
    have parts : m < 2 ^ 53 ∧ -1074 ≤ e - 52 ∧ e - 52 ≤ 971 ∧ (2 ^ 52 ≤ m ∨ e - 52 = -1074) :=
      ⟨by omega, by omega, by omega, .inl normal⟩
    exact ⟨_, dif_pos parts, close, normal⟩

end Magnitude

/-! ## Seventeen digits -/

/-- Seventeen digits differ from the number by at most five parts in `10 ^ 17`. -/
theorem digits17_near {q : ℚ} (positive : 0 < q) :
    10 ^ 16 ≤ (digits17 q).1 ∧ (digits17 q).1 < 10 ^ 17 ∧
      |((digits17 q).1 : ℚ) * 10 ^ ((digits17 q).2 - 16) - q| ≤ q * 5 / 10 ^ 17 := by
  have lower := Int.zpow_log_le_self (b := 10) (by norm_num) positive
  have upper := Int.lt_zpow_succ_log_self (b := 10) (by norm_num) q
  rw [Nat.cast_ofNat] at lower upper
  rw [digits17]
  generalize Int.log 10 q = X at lower upper ⊢
  have unit : (0 : ℚ) < 10 ^ (X - 16) := zpow_pos (by norm_num) _
  have powerX : (10 : ℚ) ^ X = 10 ^ 16 * 10 ^ (X - 16) := by
    rw [← zpow_natCast, ← zpow_add₀ (by norm_num), Nat.cast_ofNat, add_sub_cancel]
  have powerX1 : (10 : ℚ) ^ (X + 1) = 10 ^ 17 * 10 ^ (X - 16) := by
    rw [zpow_add_one₀ (by norm_num), powerX]
    ring
  rw [powerX] at lower
  rw [powerX1] at upper
  -- what is measured in units of the last digit
  obtain ⟨r, rfl⟩ : ∃ r, q = r * 10 ^ (X - 16) := ⟨q / 10 ^ (X - 16), by field_simp⟩
  have least : (10 : ℚ) ^ 16 ≤ r := le_of_mul_le_mul_right lower unit
  have greatest : r < (10 : ℚ) ^ 17 := lt_of_mul_lt_mul_right upper unit.le
  rw [mul_div_assoc, div_self unit.ne', mul_one]
  have below : (10 ^ 16 : ℤ) ≤ roundEven r := le_roundEven (by push_cast; exact least)
  have above : roundEven r ≤ (10 ^ 17 : ℤ) := roundEven_le (by push_cast; exact greatest)
  obtain ⟨D, rounded⟩ : ∃ D : ℕ, roundEven r = D := Int.eq_ofNat_of_zero_le (by omega)
  have near := roundEven_near r
  have close : |(D : ℚ) * 10 ^ (X - 16) - r * 10 ^ (X - 16)| ≤ r * 10 ^ (X - 16) * 5 / 10 ^ 17 := by
    rw [rounded, Int.cast_natCast] at near
    calc |(D : ℚ) * 10 ^ (X - 16) - r * 10 ^ (X - 16)| = |(D : ℚ) - r| * 10 ^ (X - 16) := by
          rw [← sub_mul, abs_mul, abs_of_pos unit]
      _ ≤ 1 / 2 * 10 ^ (X - 16) := mul_le_mul_of_nonneg_right near unit.le
      _ ≤ r * 5 / 10 ^ 17 * 10 ^ (X - 16) :=
          mul_le_mul_of_nonneg_right (by norm_num at least ⊢; linarith) unit.le
      _ = r * 10 ^ (X - 16) * 5 / 10 ^ 17 := by ring
  rw [rounded, Int.toNat_natCast]
  rw [rounded] at below above
  split_ifs with carry
  · have shifted : ((10 ^ 16 : ℕ) : ℚ) * 10 ^ (X + 1 - 16) = D * 10 ^ (X - 16) := by
      rw [carry, show X + 1 - 16 = X - 16 + 1 by ring, zpow_add_one₀ (by norm_num)]
      push_cast
      ring
    exact ⟨Nat.le_refl _, by norm_num, by rw [shifted]; exact close⟩
  · exact ⟨by omega, by omega, close⟩

/-- The seventeen digits of a normal number are rounded to it. -/
theorem nearest_digits17 {x : Magnitude} (normal : x.Normal) :
    Magnitude.nearest ((digits17 x.value).1 * 10 ^ ((digits17 x.value).2 - 16)) = some x := by
  have positive := Magnitude.value_pos normal
  obtain ⟨_, _, near⟩ := digits17_near positive
  refine Magnitude.nearest_eq normal (near.trans_lt ?_)
  have finer : (5 : ℚ) / 10 ^ 17 < 1 / 2 ^ 54 := by norm_num
  calc x.value * 5 / 10 ^ 17 = x.value * (5 / 10 ^ 17) := by ring
    _ < x.value * (1 / 2 ^ 54) := mul_lt_mul_of_pos_left finer positive
    _ = x.value / 2 ^ 54 := by ring

end CommunicationProtocols.Library
