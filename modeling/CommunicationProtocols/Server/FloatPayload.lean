import CommunicationProtocols.Library.FixedPoint
import CommunicationProtocols.Server.Numeric

/-!
# FLOAT datagrams

The server divides a 32-bit number by a power of ten in double precision and prints the
quotient with `%lf`. Up to six decimals the text is the decimal fraction that was sent:
the error of the division is less than half a unit of the last decimal. The exponent is
a signed `char`, so that a large one multiplies, and then the text leaves its block.
-/

namespace CommunicationProtocols.Server

open Library Library.ByteBuffer

/-- `pow(10, e)` for a signed `char`: exact where the power is a double, and otherwise
off by less than one part in `2 ^ 52`. -/
structure PowerOfTen where
  pow : Int → Magnitude
  exact : ∀ k : Nat, k ≤ 22 → (pow k).value = 10 ^ k
  near : ∀ e : Int, -128 ≤ e → e ≤ 127 → |(pow e).value - 10 ^ e| ≤ 10 ^ e / 2 ^ 52

/-- The value of a signed `char`. -/
def signedChar (byte : UInt8) : Int := if byte < 128 then byte.toNat else byte.toNat - 256

/-- `real_num / power` on magnitudes; there is none if it is infinite. -/
def quotient (num : Nat) (power : Magnitude) : Option Magnitude :=
  if num = 0 then some .zero else Magnitude.nearest (num / power.value)

/-- The text of a FLOAT. -/
def doubleText (power : PowerOfTen) : FloatText := fun negative num exponent =>
  signed negative <|
    match quotient num (power.pow (signedChar exponent)) with
    | some x => FixedPoint.print 6 x
    | none => ascii "inf"

/-- A FLOAT datagram: the sign byte, a 32-bit number, most significant byte first, and
the number of its decimals. -/
def encodeFloat (topic : CString) (negative : Bool) (n : BitVec 32) (decimals : UInt8) :
    List UInt8 :=
  encodeTopic topic ++ [2, if negative then 1 else 0, UInt8.ofNat (n.toNat / 2 ^ 24),
    UInt8.ofNat (n.toNat / 2 ^ 16), UInt8.ofNat (n.toNat / 2 ^ 8), UInt8.ofNat n.toNat, decimals]

/-! ## The division -/

section

variable {power : PowerOfTen} {num : Nat}

/-- The powers of ten of a `char` lie well inside the range of doubles. -/
theorem ten_zpow_bounds {e : Int} (lower : -128 ≤ e) (upper : e ≤ 127) :
    (2 : ℚ) ^ (-512 : ℤ) ≤ 10 ^ e ∧ (10 : ℚ) ^ e ≤ 2 ^ (508 : ℤ) := by
  have sixteen (k j : ℕ) (bits : j = 4 * k) : (10 : ℚ) ^ k ≤ 2 ^ j := by
    rw [bits, pow_mul]
    exact pow_le_pow_left₀ (by norm_num) (by norm_num) k
  constructor
  · calc (2 : ℚ) ^ (-512 : ℤ) = (2 ^ 512)⁻¹ := by rw [zpow_neg, zpow_ofNat]
      _ ≤ (10 ^ 128)⁻¹ := inv_anti₀ (by positivity) (sixteen 128 512 rfl)
      _ = 10 ^ (-128 : ℤ) := by rw [zpow_neg, zpow_ofNat]
      _ ≤ 10 ^ e := zpow_le_zpow_right₀ (by norm_num) lower
  · calc (10 : ℚ) ^ e ≤ 10 ^ (127 : ℤ) := zpow_le_zpow_right₀ (by norm_num) upper
      _ = 10 ^ 127 := zpow_ofNat _ _
      _ ≤ 2 ^ 508 := sixteen 127 508 rfl
      _ = 2 ^ (508 : ℤ) := (zpow_ofNat _ _).symm

/-- The powers rounded correctly. -/
def PowerOfTen.nearest : PowerOfTen where
  pow e := (Magnitude.nearest (10 ^ e)).getD .zero
  exact k small := by
    have odd : 5 ^ k < 2 ^ 53 := by
      calc 5 ^ k ≤ 5 ^ 22 := Nat.pow_le_pow_right (by decide) small
        _ < 2 ^ 53 := by norm_num
    obtain ⟨x, rounded, value, -⟩ :=
      @Magnitude.nearest_natCast_mul (5 ^ k) (Nat.pow_pos (by decide)) odd k (by omega)
    have split : (10 : ℚ) ^ (k : ℤ) = (5 ^ k : ℕ) * 2 ^ k := by
      rw [zpow_natCast, Nat.cast_pow, ← mul_pow]
      norm_num
    rw [split, rounded, Option.getD_some, value, ← split, zpow_natCast]
  near e lower upper := by
    obtain ⟨least, greatest⟩ := ten_zpow_bounds lower upper
    have tiny : (2 : ℚ) ^ (-1022 : ℤ) ≤ 2 ^ (-512 : ℤ) :=
      zpow_le_zpow_right₀ (by norm_num) (by norm_num)
    have huge : (2 : ℚ) ^ (508 : ℤ) < 2 ^ (1023 : ℤ) :=
      zpow_lt_zpow_right₀ (by norm_num) (by norm_num)
    obtain ⟨x, rounded, near, -⟩ :=
      Magnitude.nearest_near (tiny.trans least) (greatest.trans_lt huge)
    have unit : (0 : ℚ) < 10 ^ e := zpow_pos (by norm_num) _
    rw [rounded, Option.getD_some]
    refine near.trans (div_le_div_of_nonneg_left unit.le (by norm_num) (by norm_num))

/-- A power of ten is off by one part in `2 ^ 52` at most. -/
theorem PowerOfTen.bounds (power : PowerOfTen) {e : Int} (lower : -128 ≤ e) (upper : e ≤ 127) :
    (10 : ℚ) ^ e * (1 - 1 / 2 ^ 52) ≤ (power.pow e).value ∧
      (power.pow e).value ≤ 10 ^ e * (1 + 1 / 2 ^ 52) := by
  obtain ⟨below, above⟩ := abs_le.mp (power.near e lower upper)
  constructor <;> linarith

/-- The quotient of a number that is not zero. -/
theorem quotient_near (power : PowerOfTen) {e : Int} (lower : -128 ≤ e) (upper : e ≤ 127)
    (positive : 0 < num) (small : num < 2 ^ 32) :
    ∃ x, quotient num (power.pow e) = some x ∧
      |x.value - num / (power.pow e).value| ≤ num / (power.pow e).value / 2 ^ 53 := by
  obtain ⟨below, above⟩ := power.bounds lower upper
  obtain ⟨least, greatest⟩ := ten_zpow_bounds lower upper
  have tiny : (2 : ℚ) ^ (-1022 : ℤ) ≤ 2 ^ (-509 : ℤ) :=
    zpow_le_zpow_right₀ (by norm_num) (by norm_num)
  have huge : (2 : ℚ) ^ (545 : ℤ) ≤ 2 ^ (1023 : ℤ) := zpow_le_zpow_right₀ (by norm_num) (by norm_num)
  have one : (1 : ℚ) ≤ num := by exact_mod_cast positive
  have many : (num : ℚ) < 2 ^ 32 := by exact_mod_cast small
  have unit : (0 : ℚ) < 10 ^ e := zpow_pos (by norm_num) _
  have divisor : (0 : ℚ) < (power.pow e).value :=
    (mul_pos unit (by norm_num)).trans_le below
  have half : (2 : ℚ) ^ (-509 : ℤ) * 2 ^ (508 : ℤ) = 1 / 2 := by
    rw [← zpow_add₀ two_ne_zero]
    norm_num
  have whole : (2 : ℚ) ^ (545 : ℤ) * 2 ^ (-512 : ℤ) = 2 ^ 33 := by
    rw [← zpow_add₀ two_ne_zero]
    norm_num
  have enough : (2 : ℚ) ^ (-1022 : ℤ) ≤ num / (power.pow e).value := by
    refine tiny.trans ((le_div_iff₀ divisor).mpr ?_)
    calc (2 : ℚ) ^ (-509 : ℤ) * (power.pow e).value
        ≤ 2 ^ (-509 : ℤ) * (2 ^ (508 : ℤ) * (1 + 1 / 2 ^ 52)) :=
          mul_le_mul_of_nonneg_left (above.trans (mul_le_mul_of_nonneg_right greatest (by norm_num)))
            (zpow_pos (by norm_num) _).le
      _ = 1 / 2 * (1 + 1 / 2 ^ 52) := by rw [← mul_assoc, half]
      _ ≤ 1 := by norm_num
      _ ≤ num := one
  have bounded : num / (power.pow e).value < 2 ^ (1023 : ℤ) := by
    refine ((div_lt_iff₀ divisor).mpr ?_).trans_le huge
    calc (num : ℚ) < 2 ^ 32 := many
      _ ≤ 2 ^ 33 * (1 - 1 / 2 ^ 52) := by norm_num
      _ = 2 ^ (545 : ℤ) * (2 ^ (-512 : ℤ) * (1 - 1 / 2 ^ 52)) := by rw [← mul_assoc, whole]
      _ ≤ 2 ^ (545 : ℤ) * (power.pow e).value :=
          mul_le_mul_of_nonneg_left
            ((mul_le_mul_of_nonneg_right least (by norm_num)).trans below)
            (zpow_pos (by norm_num) _).le
  obtain ⟨x, rounded, near, -⟩ := Magnitude.nearest_near enough bounded
  exact ⟨x, (if_neg positive.ne').trans rounded, near⟩

/-! ## The text of the quotient -/

/-- An exponent below 128 is not negative. -/
theorem signedChar_small {exponent : UInt8} (small : exponent < 128) :
    signedChar exponent = exponent.toNat := if_pos small

/-- The text in units of the last decimal. -/
theorem doubleText_of_quotient {x : Magnitude} {exponent : UInt8} (negative : Bool)
    (divided : quotient num (power.pow (signedChar exponent)) = some x) :
    doubleText power negative num exponent =
      signed negative (FixedPoint.text 6 (FixedPoint.units 6 x)) := by
  rw [doubleText, divided]
  rfl

/-- Zero is written as zero, whatever the exponent. -/
theorem doubleText_zero (negative : Bool) (exponent : UInt8) :
    doubleText power negative 0 exponent = signed negative (FixedPoint.text 6 0) := by
  have zero : FixedPoint.units 6 .zero = 0 := by
    refine FixedPoint.units_eq ?_
    rw [Magnitude.value, Magnitude.zero]
    norm_num
  rw [doubleText_of_quotient negative (if_pos rfl), zero]

/-- The text is within half a unit and the error of the division. -/
theorem doubleText_near (power : PowerOfTen) (negative : Bool) (small : num < 2 ^ 32)
    {exponent : UInt8} (exact : exponent.toNat ≤ 22) :
    ∃ m : ℕ, doubleText power negative num exponent = signed negative (FixedPoint.text 6 m) ∧
      |(m : ℚ) - num / 10 ^ exponent.toNat * 10 ^ 6| ≤
        1 / 2 + (num : ℚ) / 10 ^ exponent.toNat * 10 ^ 6 / 2 ^ 53 := by
  rcases Nat.eq_zero_or_pos num with rfl | positive
  · exact ⟨0, doubleText_zero negative exponent, by norm_num⟩
  · have isSmall : exponent < 128 := UInt8.lt_iff_toNat_lt.mpr (by simp; omega)
    obtain ⟨x, divided, near⟩ := @quotient_near num power exponent.toNat (by omega) (by omega)
      positive small
    rw [← signedChar_small isSmall] at divided
    refine ⟨_, doubleText_of_quotient negative divided, ?_⟩
    have rounded := FixedPoint.units_near 6 x
    rw [power.exact _ exact] at near
    generalize (num : ℚ) / 10 ^ exponent.toNat = q at near ⊢
    have scaled : |x.value * 10 ^ 6 - q * 10 ^ 6| ≤ q * 10 ^ 6 / 2 ^ 53 := by
      calc |x.value * 10 ^ 6 - q * 10 ^ 6| = |x.value - q| * 10 ^ 6 := by
            rw [← sub_mul, abs_mul, abs_of_pos (by norm_num : (0 : ℚ) < 10 ^ 6)]
        _ ≤ q / 2 ^ 53 * 10 ^ 6 := mul_le_mul_of_nonneg_right near (by norm_num)
        _ = q * 10 ^ 6 / 2 ^ 53 := by ring
    calc |(FixedPoint.units 6 x : ℚ) - q * 10 ^ 6|
        ≤ |(FixedPoint.units 6 x : ℚ) - x.value * 10 ^ 6| + |x.value * 10 ^ 6 - q * 10 ^ 6| :=
          abs_sub_le _ _ _
      _ ≤ 1 / 2 + q * 10 ^ 6 / 2 ^ 53 := add_le_add rounded scaled

/-- Up to six decimals the text is exact. -/
theorem doubleText_exact (power : PowerOfTen) (negative : Bool) (small : num < 2 ^ 32)
    {exponent : UInt8} (few : exponent.toNat ≤ 6) :
    doubleText power negative num exponent =
      signed negative (FixedPoint.text 6 (num * 10 ^ (6 - exponent.toNat))) := by
  obtain ⟨m, text, near⟩ := doubleText_near power negative small (few.trans (by decide))
  have whole : (num : ℚ) / 10 ^ exponent.toNat * 10 ^ 6 = (num * 10 ^ (6 - exponent.toNat) : ℕ) := by
    have split : (10 : ℚ) ^ 6 = 10 ^ exponent.toNat * 10 ^ (6 - exponent.toNat) := by
      rw [← pow_add, Nat.add_sub_of_le few]
    rw [split]
    push_cast
    field_simp
  have bounded : num * 10 ^ (6 - exponent.toNat) < 2 ^ 52 := by
    calc num * 10 ^ (6 - exponent.toNat) ≤ num * 10 ^ 6 :=
          Nat.mul_le_mul_left _ (Nat.pow_le_pow_right (by decide) (Nat.sub_le _ _))
      _ < 2 ^ 32 * 10 ^ 6 := Nat.mul_lt_mul_of_pos_right small (by decide)
      _ < 2 ^ 52 := by norm_num
  rw [whole] at near
  rw [text]
  generalize num * 10 ^ (6 - exponent.toNat) = n at near bounded ⊢
  -- integers that are less than one apart
  have small' : (n : ℚ) < 2 ^ 52 := by exact_mod_cast bounded
  have apart : |((m - n : ℤ) : ℚ)| < 1 := by
    push_cast
    refine near.trans_lt ?_
    linarith
  have same : (m : ℤ) - n = 0 := Int.abs_lt_one_iff.mp (by exact_mod_cast apart)
  rw [show m = n by omega]

/-! ## The block of the text -/

/-- A minus sign is one byte. -/
theorem length_signed (negative : Bool) (text : CString) :
    (signed negative text).length = text.length + if negative then 1 else 0 := by
  cases negative with
  | true => rfl
  | false => rfl

/-- A quotient is at most eighteen characters long. -/
theorem length_doubleText_le (power : PowerOfTen) (negative : Bool) (small : num < 2 ^ 32)
    {exponent : UInt8} (divides : exponent < 128) :
    (doubleText power negative num exponent).length ≤ 18 := by
  have most {m : ℕ} (few : m < 10 ^ 16) : (signed negative (FixedPoint.text 6 m)).length ≤ 18 := by
    have whole : m / 10 ^ 6 < 10 ^ 10 := Nat.div_lt_of_lt_mul (by omega)
    have digits := (Decimal.length_text_le_iff (by decide)).mpr whole
    rw [length_signed, FixedPoint.length_text]
    split_ifs <;> omega
  rcases Nat.eq_zero_or_pos num with rfl | positive
  · rw [doubleText_zero]
    exact most (by norm_num)
  · have range : exponent.toNat < 128 := by simpa using UInt8.lt_iff_toNat_lt.mp divides
    obtain ⟨x, divided, near⟩ := @quotient_near num power exponent.toNat (by omega) (by omega)
      positive small
    have bound := (power.bounds (e := exponent.toNat) (by omega) (by omega)).1
    rw [← signedChar_small divides] at divided
    rw [doubleText_of_quotient negative divided]
    refine most ?_
    have one : (1 : ℚ) ≤ 10 ^ (exponent.toNat : ℤ) := by
      rw [zpow_natCast]
      exact one_le_pow₀ (by norm_num)
    have many : (num : ℚ) < 2 ^ 32 := by exact_mod_cast small
    have least : (1 : ℚ) - 1 / 2 ^ 52 ≤ (power.pow exponent.toNat).value := by
      refine le_trans ?_ bound
      calc (1 : ℚ) - 1 / 2 ^ 52 = 1 * (1 - 1 / 2 ^ 52) := by ring
        _ ≤ 10 ^ (exponent.toNat : ℤ) * (1 - 1 / 2 ^ 52) :=
            mul_le_mul_of_nonneg_right one (by norm_num)
    have divisor : (0 : ℚ) < (power.pow exponent.toNat).value := lt_of_lt_of_le (by norm_num) least
    have quotient : (num : ℚ) / (power.pow exponent.toNat).value ≤ 2 ^ 33 := by
      refine (div_le_iff₀ divisor).mpr ?_
      calc (num : ℚ) ≤ 2 ^ 32 := many.le
        _ ≤ 2 ^ 33 * (1 - 1 / 2 ^ 52) := by norm_num
        _ ≤ 2 ^ 33 * (power.pow exponent.toNat).value :=
            mul_le_mul_of_nonneg_left least (by norm_num)
    have rounded := (abs_le.mp (FixedPoint.units_near 6 x)).2
    have upper := (abs_le.mp near).2
    have bounded : (FixedPoint.units 6 x : ℚ) < 10 ^ 16 := by linarith
    exact_mod_cast bounded

/-- A large exponent is negative and multiplies; the text has forty characters or more. -/
theorem le_length_doubleText (power : PowerOfTen) (negative : Bool) (positive : 0 < num)
    (small : num < 2 ^ 32) {exponent : UInt8} (multiplies : 128 ≤ exponent.toNat)
    (far : exponent.toNat ≤ 223) :
    40 ≤ (doubleText power negative num exponent).length := by
  have isSigned : signedChar exponent = exponent.toNat - 256 :=
    if_neg (by rw [UInt8.lt_iff_toNat_lt]; simp; omega)
  obtain ⟨x, divided, near⟩ := @quotient_near num power (exponent.toNat - 256) (by omega) (by omega)
    positive small
  have bound := (power.bounds (e := exponent.toNat - 256) (by omega) (by omega)).2
  have above := (power.bounds (e := exponent.toNat - 256) (by omega) (by omega)).1
  rw [← isSigned] at divided near bound above
  rw [doubleText_of_quotient negative divided]
  have least : (10 : ℚ) ^ signedChar exponent ≤ 10 ^ (-33 : ℤ) :=
    zpow_le_zpow_right₀ (by norm_num) (by omega)
  have unit : (0 : ℚ) < 10 ^ signedChar exponent := zpow_pos (by norm_num) _
  have divisor : (0 : ℚ) < (power.pow (signedChar exponent)).value :=
    (mul_pos unit (by norm_num)).trans_le above
  have one : (1 : ℚ) ≤ num := by exact_mod_cast positive
  have quotient : (2 : ℚ) * 10 ^ 32 ≤ num / (power.pow (signedChar exponent)).value := by
    refine (le_div_iff₀ divisor).mpr ?_
    calc (2 : ℚ) * 10 ^ 32 * (power.pow (signedChar exponent)).value
        ≤ 2 * 10 ^ 32 * (10 ^ (-33 : ℤ) * (1 + 1 / 2 ^ 52)) :=
          mul_le_mul_of_nonneg_left (bound.trans (mul_le_mul_of_nonneg_right least (by norm_num)))
            (by norm_num)
      _ ≤ 1 := by norm_num
      _ ≤ num := one
  have rounded := (abs_le.mp (FixedPoint.units_near 6 x)).1
  have lower := (abs_le.mp near).1
  have bounded : (10 : ℚ) ^ 38 ≤ FixedPoint.units 6 x := by linarith
  have bounded' : 10 ^ 38 ≤ FixedPoint.units 6 x := by exact_mod_cast bounded
  have whole : ¬FixedPoint.units 6 x / 10 ^ 6 < 10 ^ 32 := by omega
  have digits := mt (Decimal.length_text_le_iff (by decide)).mp whole
  rw [length_signed, FixedPoint.length_text]
  omega

/-- The texts of doubles are as faithful as is relied on. -/
theorem doubleText_faithful (power : PowerOfTen) : (doubleText power).Faithful where
  zero negative exponent := by rw [doubleText_zero, doubleText_zero]
  whole negative num small := by
    have text := FixedPoint.text_mul_pow 0 num 6
    rw [Nat.zero_add] at text
    rw [doubleText_exact power negative small (by decide)]
    change signed negative (FixedPoint.text 6 (num * 10 ^ 6)) = _
    rw [text, FixedPoint.text, Nat.pow_zero, Nat.div_one, List.append_assoc]
    rfl
  tenths negative num small := by
    have text := FixedPoint.text_mul_pow 1 num 5
    rw [doubleText_exact power negative small (by decide)]
    change signed negative (FixedPoint.text 6 (num * 10 ^ 5)) = _
    rw [text, FixedPoint.text, Nat.pow_one, List.append_assoc]
    rfl

/-! ## What was encoded -/

variable {topic : CString}

/-- The payload of a FLOAT datagram is the text of its fields. -/
theorem decodePayload_encodeFloat (fits : topic.length ≤ 50) (buffer : ByteBuffer)
    (floatText : FloatText) (negative : Bool) (n : BitVec 32) (decimals : UInt8) :
    decodePayload floatText (buffer.receive (encodeFloat topic negative n decimals)) =
      (floatType, floatText negative n.toNat decimals) := by
  have bound := n.isLt
  have byte (k : Nat) (inside : k < 7) := receive_encodeTopic fits buffer [2,
    if negative then 1 else 0, UInt8.ofNat (n.toNat / 2 ^ 24), UInt8.ofNat (n.toNat / 2 ^ 16),
    UInt8.ofNat (n.toNat / 2 ^ 8), UInt8.ofNat n.toNat, decimals] inside
  have type : buffer.receive (encodeFloat topic negative n decimals) 50 = 2 := byte 0 (by decide)
  have sign : buffer.receive (encodeFloat topic negative n decimals) 51 =
      if negative then 1 else 0 := byte 1 (by decide)
  have first : buffer.receive (encodeFloat topic negative n decimals) 52 =
      UInt8.ofNat (n.toNat / 2 ^ 24) := byte 2 (by decide)
  have second : buffer.receive (encodeFloat topic negative n decimals) (52 + 1) =
      UInt8.ofNat (n.toNat / 2 ^ 16) := byte 3 (by decide)
  have third : buffer.receive (encodeFloat topic negative n decimals) (52 + 2) =
      UInt8.ofNat (n.toNat / 2 ^ 8) := byte 4 (by decide)
  have fourth : buffer.receive (encodeFloat topic negative n decimals) (52 + 3) =
      UInt8.ofNat n.toNat := byte 5 (by decide)
  have last : buffer.receive (encodeFloat topic negative n decimals) 56 = decimals :=
    byte 6 (by decide)
  have word : networkWord (buffer.receive (encodeFloat topic negative n decimals)) 52 =
      n.toNat := by
    rw [networkWord, first, second, third, fourth]
    simp only [UInt8.toNat_ofNat']
    omega
  have signBit : decide (0 < (if negative then 1 else 0 : UInt8) ∧
      (if negative then 1 else 0 : UInt8) < 128) = negative := by
    cases negative with
    | true => rfl
    | false => rfl
  rw [decodePayload_float type, floatPayload, sign, word, last, signBit]

/-- The text of the payload fits into its block with its NUL. -/
def FitsFloatBlock (text : CString) : Prop := text.length + 1 ≤ 40

/-- FLOAT datagrams for a topic decode to what was encoded: exactly up to six decimals, to
the error of a double up to twenty-two. The text fits its block whenever the exponent
divides, and never when it multiplies by `10 ^ 33` or more. -/
structure FloatDecodes (power : PowerOfTen) (topic : CString) : Prop where
  exact : ∀ (buffer : ByteBuffer) (negative : Bool) (n : BitVec 32) (decimals : UInt8),
    decimals.toNat ≤ 6 →
      DecodesTo (doubleText power) (buffer.receive (encodeFloat topic negative n decimals)) topic
        floatType fun text => text = signed negative
          (FixedPoint.text decimals.toNat n.toNat ++ List.replicate (6 - decimals.toNat) 48)
  near : ∀ (buffer : ByteBuffer) (negative : Bool) (n : BitVec 32) (decimals : UInt8),
    decimals.toNat ≤ 22 →
      DecodesTo (doubleText power) (buffer.receive (encodeFloat topic negative n decimals)) topic
        floatType fun text => ∃ m : ℕ, text = signed negative (FixedPoint.text 6 m) ∧
          |(m : ℚ) / 10 ^ 6 - n.toNat / 10 ^ decimals.toNat| ≤
            1 / 2 / 10 ^ 6 + (n.toNat : ℚ) / 10 ^ decimals.toNat / 2 ^ 53
  fits : ∀ (buffer : ByteBuffer) (negative : Bool) (n : BitVec 32) (decimals : UInt8),
    decimals < 128 →
      DecodesTo (doubleText power) (buffer.receive (encodeFloat topic negative n decimals)) topic
        floatType FitsFloatBlock
  overflows : ∀ (buffer : ByteBuffer) (negative : Bool) (n : BitVec 32) (exponent : UInt8),
    n ≠ 0 → 128 ≤ exponent.toNat → exponent.toNat ≤ 223 →
      DecodesTo (doubleText power) (buffer.receive (encodeFloat topic negative n exponent)) topic
        floatType fun text => ¬FitsFloatBlock text

/-- A FLOAT datagram decodes to the text of its double. -/
theorem decodesTo_float (power : PowerOfTen) (fits : topic.length ≤ 50) (whole : 0 ∉ topic)
    (buffer : ByteBuffer) (negative : Bool) (n : BitVec 32) (decimals : UInt8)
    {meaning : CString → Prop} (means : meaning (doubleText power negative n.toNat decimals)) :
    DecodesTo (doubleText power) (buffer.receive (encodeFloat topic negative n decimals)) topic
      floatType meaning := by
  have type : buffer.receive (encodeFloat topic negative n decimals) 50 = 2 :=
    receive_encodeTopic fits buffer _ (k := 0) (by simp)
  have accepted : isValidUdpMessage (buffer.receive (encodeFloat topic negative n decimals)) =
      true := by
    simp [isValidUdpMessage, type]
  exact decodesTo_of_decoded fits whole buffer accepted
    (decodePayload_encodeFloat fits buffer (doubleText power) negative n decimals) means

/-- FLOAT datagrams decode to their numbers, for every topic that fits its field. -/
theorem float_decodes (power : PowerOfTen) (topic : CString) (fits : topic.length ≤ 50)
    (whole : 0 ∉ topic) : FloatDecodes power topic where
  exact buffer negative n decimals few := by
    refine decodesTo_float power fits whole buffer negative n decimals ?_
    have text := FixedPoint.text_mul_pow decimals.toNat n.toNat (6 - decimals.toNat)
    rw [Nat.add_sub_of_le few] at text
    rw [doubleText_exact power negative n.isLt few, text]
  near buffer negative n decimals exact := by
    refine decodesTo_float power fits whole buffer negative n decimals ?_
    obtain ⟨m, text, near⟩ := doubleText_near power negative n.isLt exact
    refine ⟨m, text, ?_⟩
    generalize (n.toNat : ℚ) / 10 ^ decimals.toNat = q at near ⊢
    have scaled : |(m : ℚ) / 10 ^ 6 - q| * 10 ^ 6 = |(m : ℚ) - q * 10 ^ 6| := by
      calc |(m : ℚ) / 10 ^ 6 - q| * 10 ^ 6 = |((m : ℚ) / 10 ^ 6 - q) * 10 ^ 6| := by
            rw [abs_mul, abs_of_pos (by norm_num : (0 : ℚ) < 10 ^ 6)]
        _ = |(m : ℚ) - q * 10 ^ 6| := by
            congr 1
            ring
    refine le_of_mul_le_mul_right ?_ (by norm_num : (0 : ℚ) < 10 ^ 6)
    rw [scaled]
    refine near.trans (le_of_eq ?_)
    ring
  fits buffer negative n decimals divides := by
    refine decodesTo_float power fits whole buffer negative n decimals ?_
    have short := length_doubleText_le power negative n.isLt divides
    rw [FitsFloatBlock]
    omega
  overflows buffer negative n exponent nonzero multiplies far := by
    refine decodesTo_float power fits whole buffer negative n exponent ?_
    have positive : 0 < n.toNat := Nat.pos_of_ne_zero fun zero =>
      nonzero (BitVec.eq_of_toNat_eq zero)
    have long := le_length_doubleText power negative positive n.isLt multiplies far
    rw [FitsFloatBlock]
    omega

theorem float_decodes_long : FloatDecodes .nearest longTopic :=
  float_decodes .nearest longTopic (by decide) (by decide)

end

end CommunicationProtocols.Server
