import CommunicationProtocols.Library.Binary64
import CommunicationProtocols.Library.Decimal
import CommunicationProtocols.Library.Json
import Mathlib.Data.List.DropRight

/-!
# Texts of numbers in double precision

What the C library prints with `%1.17g`, and what `strtod` reads. A number that is zero
or normal is read back from its text. The text of a number below the normal ones is
not the number, so that `strtod` sets `errno` to `ERANGE`.
-/

namespace CommunicationProtocols.Library.FloatText

open Decimal

/-! ## Printing -/

/-- Digits without the zeros at the end. -/
def stripZeros (digits : List UInt8) : List UInt8 := digits.rdropWhile fun byte => byte = 48

/-- Digits with a point before the fraction, if there is one. -/
def withFraction (whole fraction : List UInt8) : List UInt8 :=
  if fraction = [] then whole else whole ++ 46 :: fraction

/-- An exponent has a sign and at least two digits. -/
def exponentText (exponent : ℤ) : List UInt8 :=
  (if exponent < 0 then 45 else 43) ::
    ((if exponent.natAbs < 10 then [48] else []) ++ text exponent.natAbs)

/-- `%.17g` of the number whose seventeen digits start at a power of ten. -/
def general (digits : List UInt8) (exponent : ℤ) : List UInt8 :=
  if exponent < -4 ∨ 17 ≤ exponent then
    withFraction (digits.take 1) (stripZeros (digits.drop 1)) ++ 101 :: exponentText exponent
  else if 0 ≤ exponent then
    withFraction (digits.take (exponent.toNat + 1)) (stripZeros (digits.drop (exponent.toNat + 1)))
  else withFraction [48] (stripZeros (List.replicate (-exponent - 1).toNat 48 ++ digits))

/-- The text of a magnitude. -/
def magnitudeText (x : Magnitude) : List UInt8 :=
  if x.mantissa = 0 then [48] else general (text (digits17 x.value).1) (digits17 x.value).2

/-- `sprintf` with the format `%1.17g`. -/
def print : Binary64 → List UInt8
  | .finite negative magnitude => (if negative then [45] else []) ++ magnitudeText magnitude
  | .infinite negative => (if negative then [45] else []) ++ ascii "inf"
  | .nan => ascii "nan"

/-! ## Reading -/

/-- The exponent behind one of two letters, and how many bytes it has. -/
def scanExponent (letters : List UInt8) : List UInt8 → ℤ × ℕ
  | [] => (0, 0)
  | letter :: rest =>
      let signed := rest.head? = some 43 ∨ rest.head? = some 45
      let digits := (if signed then rest.tail else rest).takeWhile isDigit
      if letter ∉ letters ∨ digits = [] then (0, 0)
      else
        (if rest.head? = some 45 then -(value digits : ℤ) else value digits,
          1 + (if signed then 1 else 0) + digits.length)

/-- How the digits of a number are read: which bytes are digits, the number of a list of
digits, the base of the exponent, its power in a digit, and the letters in front of it. -/
structure Radix where
  isDigit : UInt8 → Bool
  value : List UInt8 → ℕ
  base : ℚ
  perDigit : ℕ
  letters : List UInt8

def decimal : Radix := ⟨isDigit, value, 10, 1, [101, 69]⟩

def hexadecimal : Radix where
  isDigit byte := (Json.hexValue byte).isSome
  value bytes := bytes.foldl (fun n byte => (Json.hexValue byte).getD 0 + 16 * n) 0
  base := 2
  perDigit := 4
  letters := [112, 80]

/-- A number with an optional fraction and exponent, and how many bytes it has. -/
def scanNumber (radix : Radix) (text : List UInt8) : Option (ℚ × ℕ) :=
  let whole := text.takeWhile radix.isDigit
  let behind := text.drop whole.length
  let fraction := if behind.head? = some 46 then behind.tail.takeWhile radix.isDigit else []
  let length := whole.length + if behind.head? = some 46 then 1 + fraction.length else 0
  if whole = [] ∧ fraction = [] then none
  else
    let (exponent, exponentLength) := scanExponent radix.letters (text.drop length)
    some (radix.value (whole ++ fraction) * radix.base ^ (exponent - radix.perDigit * fraction.length),
      length + exponentLength)

/-- What `strtod` finds behind white space and a sign. -/
inductive Subject where
  | number (magnitude : ℚ)
  | infinity
  | nan

/-- Letters are compared without regard to their case. -/
def startsWith (word text : List UInt8) : Bool :=
  (text.take word.length).map (fun byte => if 65 ≤ byte ∧ byte ≤ 90 then byte + 32 else byte) = word

/-- The characters between parentheses behind a NaN. -/
def nanLength (text : List UInt8) : ℕ :=
  let chars := (text.drop 1).takeWhile fun byte =>
    isDigit byte || (97 ≤ byte && byte ≤ 122) || (65 ≤ byte && byte ≤ 90) || byte == 95
  if text.head? = some 40 ∧ (text.drop (1 + chars.length)).head? = some 41 then chars.length + 2 else 0

/-- The longest subject at the start of a text, and how many bytes it has. -/
def scanSubject (text : List UInt8) : Option (Subject × ℕ) :=
  if startsWith (ascii "infinity") text then some (.infinity, 8)
  else if startsWith (ascii "inf") text then some (.infinity, 3)
  else if startsWith (ascii "nan") text then some (.nan, 3 + nanLength (text.drop 3))
  else
    let hex :=
      if startsWith (ascii "0x") text then scanNumber hexadecimal (text.drop 2) else none
    match hex with
    | some (magnitude, length) => some (.number magnitude, 2 + length)
    | none => (scanNumber decimal text).map fun (magnitude, length) => (.number magnitude, length)

/-- A magnitude below the normal ones even after it is rounded. -/
def Tiny (q : ℚ) : Prop := q < 2 ^ (-1022 : ℤ) * (1 - 1 / 2 ^ 54)

instance (q : ℚ) : Decidable (Tiny q) :=
  inferInstanceAs (Decidable (q < 2 ^ (-1022 : ℤ) * (1 - 1 / 2 ^ 54)))

/-- The number nearest to a magnitude, and whether `errno` is set to `ERANGE`: for an
overflow, and for a tiny magnitude that is not exact. -/
def rounded (negative : Bool) (q : ℚ) : Binary64 × Bool :=
  if q = 0 then (.finite negative .zero, false)
  else
    match Magnitude.nearest q with
    | none => (.infinite negative, true)
    | some x => (.finite negative x, decide (Tiny q ∧ x.value ≠ q))

/-- `strtod`: the number, how many bytes are read, and whether `errno` is set. -/
def strtod (text : List UInt8) : Binary64 × ℕ × Bool :=
  let blanks := (text.takeWhile isSpace).length
  let behind := text.drop blanks
  let signLength := if behind.head? = some 45 ∨ behind.head? = some 43 then 1 else 0
  match scanSubject (behind.drop signLength) with
  | none => (.finite false .zero, 0, false)
  | some (subject, length) =>
      let negative := decide (behind.head? = some 45)
      let (number, errno) :=
        match subject with
        | .number magnitude => rounded negative magnitude
        | .infinity => (.infinite negative, false)
        | .nan => (.nan, false)
      (number, blanks + signLength + length, errno)

/-! ## Reading what is printed -/

section

variable {digits whole fraction tail : List UInt8} {exponent : ℤ}

/-- The number of two texts of digits, one behind the other. -/
theorem value_append (front back : List UInt8) :
    value (front ++ back) = value front * 10 ^ back.length + value back := by
  induction back using List.reverseRecOn with
  | nil => simp [value]
  | append_singleton back byte ih =>
      have last (bytes : List UInt8) : value (bytes ++ [byte]) = byte.toNat - 48 + 10 * value bytes := by
        simp [value]
      rw [← List.append_assoc, last, last, ih, List.length_append, List.length_singleton]
      ring

/-- Zeros stand for zero. -/
theorem value_zeros (n : ℕ) : value (List.replicate n 48) = 0 := by
  induction n with
  | zero => rfl
  | succ n ih =>
      rw [List.replicate_succ', value_append, ih]
      rfl

/-- What is stripped are zeros. -/
theorem exists_zeros (digits : List UInt8) :
    ∃ n, digits = stripZeros digits ++ List.replicate n 48 := by
  refine ⟨(digits.rtakeWhile fun byte => byte = 48).length, ?_⟩
  have zeros : digits.rtakeWhile (fun byte => byte = 48) = List.replicate
      (digits.rtakeWhile fun byte => byte = 48).length 48 := by
    refine List.eq_replicate_iff.mpr ⟨rfl, fun byte member => ?_⟩
    simpa using List.mem_rtakeWhile_imp member
  rw [← zeros]
  exact List.rdropWhile_append_rtakeWhile.symm

/-- The zeros at the end of a fraction do not count. -/
theorem value_stripZeros (whole fraction : List UInt8) (exponent : ℤ) :
    (value (whole ++ stripZeros fraction) : ℚ) * 10 ^ (exponent - (stripZeros fraction).length) =
      value (whole ++ fraction) * 10 ^ (exponent - fraction.length) := by
  obtain ⟨n, same⟩ := exists_zeros fraction
  generalize stripZeros fraction = stripped at same ⊢
  subst same
  rw [← List.append_assoc, value_append _ (List.replicate n 48), value_zeros, List.length_append,
    List.length_replicate, Nat.add_zero]
  push_cast
  rw [← sub_sub, zpow_sub₀ (by norm_num : (10 : ℚ) ≠ 0) _ (n : ℤ), zpow_natCast, mul_assoc]
  congr 1
  field_simp

/-- A printed exponent is read back, up to what is no digit. -/
theorem scanExponent_text (stops : ∀ byte, tail.head? = some byte → isDigit byte = false) :
    scanExponent [101, 69] (101 :: (exponentText exponent ++ tail)) =
      (exponent, 1 + (exponentText exponent).length) := by
  have padded : ∀ byte ∈ (if exponent.natAbs < 10 then [48] else []) ++ text exponent.natAbs,
      isDigit byte = true := by
    intro byte member
    rcases List.mem_append.mp member with pad | own
    · split_ifs at pad with one
      · obtain rfl := List.mem_singleton.mp pad
        rfl
      · cases pad
    · exact isDigit_of_mem_text own
  have taken := takeWhile_stop padded stops
  have number : value ((if exponent.natAbs < 10 then [48] else []) ++ text exponent.natAbs) =
      exponent.natAbs := by
    rw [value_append, value_text]
    split_ifs
    · simp [value]
    · simp [value]
  have nonempty : (if exponent.natAbs < 10 then [48] else []) ++ text exponent.natAbs ≠ [] :=
    List.append_ne_nil_of_right_ne_nil _ (text_ne_nil _)
  rw [exponentText]
  generalize (if exponent.natAbs < 10 then [48] else []) ++ text exponent.natAbs = body at *
  by_cases negative : exponent < 0
  · simp only [scanExponent, if_pos negative, List.cons_append, List.head?_cons, List.tail_cons,
      or_true, if_true, taken, number, List.length_cons]
    rw [if_neg (by simp [nonempty])]
    have magnitude : -(exponent.natAbs : ℤ) = exponent := by omega
    rw [magnitude, Nat.add_assoc, Nat.add_comm body.length]
  · simp only [scanExponent, if_neg negative, List.cons_append, List.head?_cons, List.tail_cons,
      true_or, if_true, taken, number, List.length_cons]
    rw [if_neg (by simp [nonempty]), if_neg (by simp)]
    have magnitude : (exponent.natAbs : ℤ) = exponent := by omega
    rw [magnitude, Nat.add_assoc, Nat.add_comm body.length]

/-- Without its letter there is no exponent. -/
theorem scanExponent_none {letters : List UInt8}
    (stops : ∀ byte, tail.head? = some byte → byte ∉ letters) : scanExponent letters tail = (0, 0) := by
  cases tail with
  | nil => rfl
  | cons byte tail =>
      rw [scanExponent]
      exact if_pos (.inl (stops byte rfl))

/-- Digits with a fraction are read up to the exponent. -/
theorem scanNumber_withFraction (nonempty : whole ≠ [])
    (digits : ∀ byte ∈ whole, isDigit byte = true)
    (digits' : ∀ byte ∈ fraction, isDigit byte = true)
    (stops : ∀ byte, tail.head? = some byte → isDigit byte = false ∧ byte ≠ 46) :
    scanNumber decimal (withFraction whole fraction ++ tail) =
      some ((value (whole ++ fraction) : ℚ) *
          10 ^ ((scanExponent [101, 69] tail).1 - fraction.length),
        (withFraction whole fraction).length + (scanExponent [101, 69] tail).2) := by
  by_cases integer : fraction = []
  · subst integer
    have taken : (whole ++ tail).takeWhile isDigit = whole :=
      takeWhile_stop digits fun byte head => (stops byte head).1
    have noPoint : tail.head? ≠ some 46 := fun head => (stops 46 head).2 rfl
    simp [scanNumber, decimal, withFraction, taken, noPoint, nonempty]
  · have taken : (whole ++ 46 :: (fraction ++ tail)).takeWhile isDigit = whole := by
      refine takeWhile_stop digits fun byte head => ?_
      obtain rfl := Option.some.inj head
      rfl
    have taken' : (fraction ++ tail).takeWhile isDigit = fraction :=
      takeWhile_stop digits' fun byte head => (stops byte head).1
    have behind : (whole ++ 46 :: (fraction ++ tail)).drop (whole.length + (1 + fraction.length)) =
        tail := by
      rw [List.drop_append, List.drop_eq_nil_iff.mpr (by omega), Nat.add_sub_cancel_left, Nat.add_comm,
        List.drop_succ_cons, List.drop_left, List.nil_append]
    simp [scanNumber, decimal, withFraction, integer, taken, taken', nonempty, behind]
    omega

/-- Stripping zeros adds no byte. -/
theorem mem_stripZeros {byte : UInt8} (member : byte ∈ stripZeros digits) : byte ∈ digits :=
  (List.rdropWhile_prefix _ _).subset member

/-- Seventeen digits are read with their power of ten, in whichever style they are printed. -/
theorem scanNumber_general (length : digits.length = 17) (all : ∀ byte ∈ digits, isDigit byte = true)
    (stops : ∀ byte, tail.head? = some byte → isDigit byte = false ∧ byte ≠ 46 ∧ byte ∉ [101, 69]) :
    scanNumber decimal (general digits exponent ++ tail) =
      some ((value digits : ℚ) * 10 ^ (exponent - 16), (general digits exponent).length) := by
  have front (n : ℕ) : digits.take (n + 1) ≠ [] ∧ ∀ byte ∈ digits.take (n + 1), isDigit byte = true := by
    refine ⟨fun empty => ?_, fun byte member => all byte (List.mem_of_mem_take member)⟩
    have := congrArg List.length empty
    rw [List.length_take, List.length_nil] at this
    omega
  have back (n : ℕ) : ∀ byte ∈ stripZeros (digits.drop (n + 1)), isDigit byte = true :=
    fun byte member => all byte (List.mem_of_mem_drop (mem_stripZeros member))
  have ends : ∀ byte, tail.head? = some byte → isDigit byte = false ∧ byte ≠ 46 :=
    fun byte head => ⟨(stops byte head).1, (stops byte head).2.1⟩
  have noExponent : scanExponent [101, 69] tail = (0, 0) :=
    scanExponent_none fun byte head => (stops byte head).2.2
  rw [general]
  split_ifs with scientific nonnegative
  · have behind : ∀ byte, (101 :: (exponentText exponent ++ tail)).head? = some byte →
        isDigit byte = false ∧ byte ≠ 46 := by
      intro byte head
      obtain rfl := Option.some.inj head
      decide
    rw [List.append_assoc, List.cons_append,
      scanNumber_withFraction (front 0).1 (front 0).2 (back 0) behind,
      scanExponent_text fun byte head => (ends byte head).1, value_stripZeros,
      List.take_append_drop, List.length_drop, length, List.length_append, List.length_cons,
      Nat.add_comm 1]
    norm_num
  · have digitsBehind : exponent = exponent.toNat := by omega
    have few : exponent.toNat < 17 := by omega
    rw [scanNumber_withFraction (front _).1 (front _).2 (back _) ends, noExponent, value_stripZeros,
      List.take_append_drop, List.length_drop, length]
    congr 4
    omega
  · have zeros : ∀ byte ∈ stripZeros (List.replicate (-exponent - 1).toNat 48 ++ digits),
        isDigit byte = true := by
      intro byte member
      rcases List.mem_append.mp (mem_stripZeros member) with zero | own
      · rw [List.eq_of_mem_replicate zero]
        rfl
      · exact all byte own
    have lead : ∀ byte ∈ ([48] : List UInt8), isDigit byte = true := by decide +kernel
    rw [scanNumber_withFraction (List.cons_ne_nil _ _) lead zeros ends, noExponent,
      value_stripZeros, value_append [48], value_append, value_zeros, List.length_append,
      List.length_replicate, length, show value [48] = 0 from rfl, Nat.zero_mul, Nat.zero_add,
      Nat.zero_mul, Nat.zero_add]
    congr 4
    omega

/-- A text that starts with a digit other than zero, or with a zero that is alone or in
front of a point, and has no letter but that of the exponent. -/
structure Plain (text : List UInt8) : Prop where
  starts : ∃ first rest, text = first :: rest ∧ isDigit first = true ∧
    (first = 48 → rest = [] ∨ ∃ more, rest = 46 :: more)
  bytes : ∀ byte ∈ text, isDigit byte = true ∨ byte ∈ [46, 101, 43, 45]

/-- The text of a positive number starts with a digit other than zero. -/
theorem head_text {n : ℕ} (positive : n ≠ 0) :
    ∃ first rest, text n = first :: rest ∧ isDigit first = true ∧ first ≠ 48 := by
  have nonempty : Nat.digits 10 n ≠ [] := Nat.digits_ne_nil_iff_ne_zero.mpr positive
  have last := Nat.getLast_digit_ne_zero 10 positive
  have small := Nat.digits_lt_base (by norm_num) (List.getLast_mem nonempty)
  have split := List.dropLast_append_getLast nonempty
  generalize (Nat.digits 10 n).getLast nonempty = d at last small split
  have first := toNat_digit small
  refine ⟨digit d, (Nat.digits 10 n).dropLast.reverse.map digit, ?_, ?_, ?_⟩
  · rw [text, if_neg positive, ← split, List.reverse_append, List.dropLast_concat]
    rfl
  · rw [isDigit_iff, first]
    omega
  · intro zero
    rw [zero] at first
    exact last (Nat.add_left_cancel first).symm

/-- The bytes of a text with a fraction are those of its parts, and the point. -/
theorem mem_withFraction {byte : UInt8} (member : byte ∈ withFraction whole fraction) :
    byte ∈ whole ∨ byte = 46 ∨ byte ∈ fraction := by
  rw [withFraction] at member
  split_ifs at member
  · exact .inl member
  · exact (List.mem_append.mp member).imp id List.mem_cons.mp

/-- A text with a fraction starts as its whole part does. -/
theorem head_withFraction (first : UInt8) (rest fraction tail : List UInt8) :
    ∃ behind, withFraction (first :: rest) fraction ++ tail = first :: behind := by
  rw [withFraction]
  split_ifs
  · exact ⟨_, rfl⟩
  · exact ⟨_, rfl⟩

/-- What `%g` prints for digits that do not start with a zero is plain. -/
theorem plain_general (all : ∀ byte ∈ digits, isDigit byte = true)
    (lead : ∃ first rest, digits = first :: rest ∧ first ≠ 48) : Plain (general digits exponent) := by
  obtain ⟨first, rest, rfl, nonzero⟩ := lead
  have isFirst := all first List.mem_cons_self
  have front (n : ℕ) : ∀ byte ∈ withFraction ((first :: rest).take (n + 1))
      (stripZeros ((first :: rest).drop (n + 1))), isDigit byte = true ∨ byte ∈ [46, 101, 43, 45] := by
    intro byte member
    rcases mem_withFraction member with inside | rfl | inside
    · exact .inl (all byte (List.mem_of_mem_take inside))
    · exact .inr (by decide)
    · exact .inl (all byte (List.mem_of_mem_drop (mem_stripZeros inside)))
  rw [general]
  split_ifs with scientific nonnegative
  · constructor
    · obtain ⟨behind, same⟩ := head_withFraction first (rest.take 0)
        (stripZeros ((first :: rest).drop 1)) (101 :: exponentText exponent)
      exact ⟨first, behind, same, isFirst, fun zero => absurd zero nonzero⟩
    · intro byte member
      rcases List.mem_append.mp member with inside | inside
      · exact front 0 byte inside
      · rcases List.mem_cons.mp inside with rfl | inside
        · exact .inr (by decide)
        · rcases List.mem_cons.mp inside with rfl | inside
          · exact .inr (by split_ifs <;> decide)
          · rcases List.mem_append.mp inside with pad | own
            · split_ifs at pad
              · exact .inl (List.mem_singleton.mp pad ▸ rfl)
              · cases pad
            · exact .inl (isDigit_of_mem_text own)
  · constructor
    · obtain ⟨behind, same⟩ := head_withFraction first (rest.take exponent.toNat)
        (stripZeros ((first :: rest).drop (exponent.toNat + 1))) []
      rw [List.append_nil] at same
      exact ⟨first, behind, same, isFirst, fun zero => absurd zero nonzero⟩
    · exact front _
  · have fraction : stripZeros (List.replicate (-exponent - 1).toNat 48 ++ first :: rest) ≠ [] := by
      rw [stripZeros, Ne, List.rdropWhile_eq_nil_iff]
      intro zeros
      exact nonzero (by simpa using zeros first (by simp))
    constructor
    · rw [withFraction, if_neg fraction]
      exact ⟨48, _, rfl, rfl, fun _ => .inr ⟨_, rfl⟩⟩
    · intro byte member
      rcases mem_withFraction member with inside | rfl | inside
      · exact .inl (List.mem_singleton.mp inside ▸ rfl)
      · exact .inr (by decide)
      · rcases List.mem_append.mp (mem_stripZeros inside) with zero | own
        · exact .inl (List.eq_of_mem_replicate zero ▸ rfl)
        · exact .inl (all byte own)

/-- The text of a magnitude is plain, and `strtod` finds a number of about the same value in it. -/
theorem plain_magnitudeText (x : Magnitude) : Plain (magnitudeText x) := by
  rw [magnitudeText]
  split_ifs with zero
  · exact ⟨⟨48, [], rfl, rfl, fun _ => .inl rfl⟩, by decide +kernel⟩
  · have positive : 0 < x.value := by
      have : (0 : ℚ) < x.mantissa := by exact_mod_cast Nat.pos_of_ne_zero zero
      exact mul_pos this (zpow_pos (by norm_num) _)
    obtain ⟨least, -, -⟩ := digits17_near positive
    have nonzero : (digits17 x.value).1 ≠ 0 := by
      have : 0 < 10 ^ 16 := by norm_num
      omega
    obtain ⟨first, rest, same, -, lead⟩ := head_text nonzero
    exact plain_general (fun _ => isDigit_of_mem_text) ⟨first, rest, same, lead⟩

/-- A text that cannot go on as a number. -/
def Stops (tail : List UInt8) : Prop :=
  ∀ byte, tail.head? = some byte → isDigit byte = false ∧ byte ∉ [46, 101, 69, 120, 88]

/-- A word that starts with another letter is not there. -/
theorem startsWith_false {word : List UInt8} {letter first : UInt8}
    (differs : (if 65 ≤ first ∧ first ≤ 90 then first + 32 else first) ≠ letter) :
    startsWith (letter :: word) (first :: tail) = false := by
  rw [startsWith, List.length_cons, List.take_succ_cons, List.map_cons]
  exact decide_eq_false fun same => differs (List.cons.inj same).1

/-- Behind a plain text no word and no hexadecimal number is found. -/
theorem scanSubject_plain {body : List UInt8} (plain : Plain body) (stops : Stops tail) :
    scanSubject (body ++ tail) =
      (scanNumber decimal (body ++ tail)).map fun (magnitude, length) => (.number magnitude, length) := by
  obtain ⟨⟨first, rest, rfl, isFirst, alone⟩, -⟩ := plain
  have range := isDigit_iff.mp isFirst
  have lower : (if 65 ≤ first ∧ first ≤ 90 then first + 32 else first) = first := by
    refine if_neg fun upper => ?_
    have above : 65 ≤ first.toNat := upper.1
    omega
  have notLetter : ∀ letter ∈ ascii "in",
      (if 65 ≤ first ∧ first ≤ 90 then first + 32 else first) ≠ letter := by
    have letters : ∀ letter ∈ ascii "in", 57 < letter.toNat := by decide +kernel
    rw [lower]
    rintro letter listed rfl
    have above := letters first listed
    omega
  have noHex : startsWith (ascii "0x") (first :: (rest ++ tail)) = false := by
    by_cases zero : first = 48
    · subst zero
      refine decide_eq_false fun same => ?_
      rcases alone rfl with rfl | ⟨more, rfl⟩
      · cases tail with
        | nil => cases same
        | cons byte tail =>
            obtain ⟨-, other⟩ := stops byte rfl
            have isX : (if 65 ≤ byte ∧ byte ≤ 90 then byte + 32 else byte) = 120 :=
              (List.cons.inj (List.cons.inj same).2).1
            have letter : ∀ byte : UInt8, (if 65 ≤ byte ∧ byte ≤ 90 then byte + 32 else byte) = 120 →
                byte ∈ [46, 101, 69, 120, 88] := by
              intro byte same
              split_ifs at same with upper
              · obtain rfl : byte = 120 - 32 := UInt8.eq_sub_iff_add_eq.mpr same
                decide
              · subst same
                decide
            exact other (letter byte isX)
      · cases same
    · exact startsWith_false (by rwa [lower])
  have noInfinity : startsWith (ascii "infinity") (first :: (rest ++ tail)) = false :=
    startsWith_false (notLetter _ (by decide))
  have noInf : startsWith (ascii "inf") (first :: (rest ++ tail)) = false :=
    startsWith_false (notLetter _ (by decide))
  have noNan : startsWith (ascii "nan") (first :: (rest ++ tail)) = false :=
    startsWith_false (notLetter _ (by decide))
  rw [List.cons_append, scanSubject, noInfinity, noInf, noNan, noHex]
  rfl

/-- Seventeen significant digits are seventeen bytes. -/
theorem length_digits17 {q : ℚ} (positive : 0 < q) : (text (digits17 q).1).length = 17 := by
  obtain ⟨least, greatest, -⟩ := digits17_near positive
  have above := (length_text_le_iff (n := (digits17 q).1) (k := 17) (by norm_num)).mpr greatest
  have below := (length_text_le_iff (n := (digits17 q).1) (k := 16) (by norm_num)).not.mpr (by omega)
  omega

/-- A number as close to a normal double as its seventeen digits is not tiny. -/
theorem not_tiny {x : Magnitude} (normal : x.Normal) {q : ℚ}
    (near : |q - x.value| ≤ x.value * 5 / 10 ^ 17) : ¬Tiny q := by
  have least : (2 : ℚ) ^ (-1022 : ℤ) ≤ x.value := by
    have mantissa : (2 ^ 52 : ℚ) ≤ x.mantissa := by exact_mod_cast normal
    have exponent : (2 : ℚ) ^ (-1074 : ℤ) ≤ 2 ^ x.exponent :=
      zpow_le_zpow_right₀ (by norm_num) x.lowest
    calc (2 : ℚ) ^ (-1022 : ℤ) = 2 ^ 52 * 2 ^ (-1074 : ℤ) := by
          rw [← zpow_natCast, ← zpow_add₀ two_ne_zero]
          rfl
      _ ≤ x.mantissa * 2 ^ x.exponent := by gcongr
  have positive : (0 : ℚ) < 2 ^ (-1022 : ℤ) := zpow_pos (by norm_num) _
  have lower := (abs_le.mp near).1
  refine not_lt.mpr ?_
  have finer : (1 : ℚ) - 1 / 2 ^ 54 ≤ 1 - 5 / 10 ^ 17 := by norm_num
  calc (2 : ℚ) ^ (-1022 : ℤ) * (1 - 1 / 2 ^ 54) ≤ x.value * (1 - 1 / 2 ^ 54) :=
        mul_le_mul_of_nonneg_right least (by norm_num)
    _ ≤ x.value * (1 - 5 / 10 ^ 17) :=
        mul_le_mul_of_nonneg_left finer (Magnitude.value_pos normal).le
    _ ≤ q := by linarith

/-- The text of zero or of a normal number is read as the number. -/
theorem scan_magnitudeText {x : Magnitude} (readable : x.mantissa = 0 ∨ x.Normal)
    (negative : Bool) (stops : Stops tail) :
    ∃ q, scanNumber decimal (magnitudeText x ++ tail) = some (q, (magnitudeText x).length) ∧
      rounded negative q = (.finite negative x, false) := by
  have ends : ∀ byte, tail.head? = some byte →
      isDigit byte = false ∧ byte ≠ 46 ∧ byte ∉ [101, 69] := by
    intro byte head
    obtain ⟨noDigit, other⟩ := stops byte head
    simp only [List.mem_cons, List.not_mem_nil, or_false, not_or] at other ⊢
    exact ⟨noDigit, other.1, other.2.1, other.2.2.1⟩
  by_cases zero : x.mantissa = 0
  · have isZero : x = .zero := by
      obtain ⟨mantissa, exponent, _, _, _, canonical⟩ := x
      dsimp only at zero
      subst zero
      obtain rfl : exponent = -1074 := canonical.resolve_left (by norm_num)
      rfl
    have scanned := @scanNumber_withFraction [48] [] tail
      (List.cons_ne_nil _ _) (by decide +kernel) (by decide +kernel)
      fun byte head => ⟨(ends byte head).1, (ends byte head).2.1⟩
    rw [scanExponent_none fun byte head => (ends byte head).2.2] at scanned
    refine ⟨_, by rw [magnitudeText, if_pos zero]; exact scanned, ?_⟩
    have value : value [48] = 0 := rfl
    rw [List.append_nil, value, Nat.cast_zero, zero_mul, rounded, if_pos rfl, isZero]
  · have normal := readable.resolve_left zero
    have positive := Magnitude.value_pos normal
    obtain ⟨least, -, near⟩ := digits17_near positive
    have nearest := nearest_digits17 normal
    refine ⟨_, by
      rw [magnitudeText, if_neg zero]
      exact scanNumber_general (length_digits17 positive) (fun _ => isDigit_of_mem_text) ends, ?_⟩
    rw [value_text]
    have nonzero : ((digits17 x.value).1 : ℚ) * 10 ^ ((digits17 x.value).2 - 16) ≠ 0 := by
      refine mul_ne_zero (Nat.cast_ne_zero.mpr ?_) (zpow_ne_zero _ (by norm_num))
      have : 0 < 10 ^ 16 := by norm_num
      omega
    have notTiny := not_tiny normal near
    rw [rounded, if_neg nonzero, nearest]
    dsimp only
    rw [decide_eq_false fun underflow => notTiny underflow.1]

/-- The sign is read, and the magnitude is rounded. -/
theorem strtod_scanned {x : Magnitude} {q : ℚ} (negative : Bool) (stops : Stops tail)
    (scanned : scanNumber decimal (magnitudeText x ++ tail) = some (q, (magnitudeText x).length)) :
    strtod (print (.finite negative x) ++ tail) =
      ((rounded negative q).1, (print (.finite negative x)).length, (rounded negative q).2) := by
  have subject := scanSubject_plain (plain_magnitudeText x) stops
  rw [scanned] at subject
  obtain ⟨⟨first, rest, same, isFirst, -⟩, -⟩ := plain_magnitudeText x
  have visible := not_isSpace_of_isDigit isFirst
  have noSign : first ≠ 45 ∧ first ≠ 43 := by
    constructor
    · rintro rfl
      cases isFirst
    · rintro rfl
      cases isFirst
  cases negative with
  | true =>
      have minus : isSpace 45 = false := rfl
      simp [print, strtod, minus, subject, Nat.add_comm]
  | false =>
      have front : magnitudeText x ++ tail = first :: (rest ++ tail) := by rw [same]; rfl
      simp only [print, Bool.false_eq_true, if_false, List.nil_append]
      rw [front] at subject ⊢
      simp [strtod, visible, noSign, subject]

/-- A number that is zero or normal is read back from its text, whatever follows that
cannot belong to it. -/
theorem strtod_print {x : Magnitude} (readable : x.mantissa = 0 ∨ x.Normal) (negative : Bool)
    (stops : Stops tail) :
    strtod (print (.finite negative x) ++ tail) =
      (.finite negative x, (print (.finite negative x)).length, false) := by
  obtain ⟨q, scanned, result⟩ := scan_magnitudeText readable negative stops
  rw [strtod_scanned negative stops scanned, result]

/-! ## The length of a text -/

/-- Stripping zeros makes a text no longer. -/
theorem length_withFraction_le (whole fraction : List UInt8) :
    (withFraction whole (stripZeros fraction)).length ≤ whole.length + 1 + fraction.length := by
  have stripped : (stripZeros fraction).length ≤ fraction.length :=
    (List.rdropWhile_prefix _ _).length_le
  rw [withFraction]
  split_ifs
  · omega
  · rw [List.length_append, List.length_cons]
    omega

/-- Seventeen digits are printed in 25 bytes at most. -/
theorem length_general_le (length : digits.length = 17) (small : exponent.natAbs < 10 ^ 4) :
    (general digits exponent).length ≤ 25 := by
  rw [general]
  split_ifs with scientific nonnegative
  · have front := length_withFraction_le (digits.take 1) (digits.drop 1)
    have short := (length_text_le_iff (k := 4) (by norm_num)).mpr small
    rw [List.length_take, List.length_drop, length] at front
    rw [List.length_append, List.length_cons, exponentText, List.length_cons, List.length_append]
    split_ifs with one
    · have single := (length_text_le_iff (n := exponent.natAbs) (k := 1) (by norm_num)).mpr one
      rw [List.length_singleton]
      omega
    · rw [List.length_nil]
      omega
  · have front := length_withFraction_le (digits.take (exponent.toNat + 1))
      (digits.drop (exponent.toNat + 1))
    rw [List.length_take, List.length_drop, length] at front
    omega
  · have front := length_withFraction_le [48]
      (List.replicate (-exponent - 1).toNat 48 ++ digits)
    rw [List.length_append, List.length_replicate, length, List.length_singleton] at front
    omega

/-- A text has at most 25 bytes, one more with a sign. -/
theorem length_magnitudeText_le (x : Magnitude) : (magnitudeText x).length ≤ 25 := by
  rw [magnitudeText]
  split_ifs with zero
  · decide
  · have mantissa : (1 : ℚ) ≤ x.mantissa := by exact_mod_cast Nat.pos_of_ne_zero zero
    have small : (x.mantissa : ℚ) < 2 ^ 53 := by exact_mod_cast x.mantissa_lt
    have below : (2 : ℚ) ^ (-1074 : ℤ) ≤ 2 ^ x.exponent :=
      zpow_le_zpow_right₀ (by norm_num) x.lowest
    have above : (2 : ℚ) ^ x.exponent ≤ 2 ^ (971 : ℤ) :=
      zpow_le_zpow_right₀ (by norm_num) x.highest
    have unit : (0 : ℚ) < 2 ^ x.exponent := zpow_pos (by norm_num) _
    have positive : 0 < x.value := mul_pos (by linarith) unit
    have coarser (k : ℕ) : (2 : ℚ) ^ k ≤ 10 ^ k := pow_le_pow_left₀ (by norm_num) (by norm_num) k
    have tenth : (10 : ℚ) ^ (-1074 : ℤ) ≤ 2 ^ (-1074 : ℤ) :=
      inv_anti₀ (pow_pos (by norm_num) 1074) (coarser 1074)
    have least : ((10 : ℕ) : ℚ) ^ (-1074 : ℤ) ≤ x.value := by
      rw [Nat.cast_ofNat, Magnitude.value]
      exact (tenth.trans below).trans (le_mul_of_one_le_left unit.le mantissa)
    have whole : (2 : ℚ) ^ 53 * 2 ^ (971 : ℤ) = 2 ^ 1024 := (pow_add 2 53 971).symm
    have scaled : (2 : ℚ) ^ 53 * 2 ^ x.exponent ≤ 2 ^ 53 * 2 ^ (971 : ℤ) :=
      mul_le_mul_of_nonneg_left above (by positivity)
    have greatest : x.value < ((10 : ℕ) : ℚ) ^ (1024 : ℤ) := by
      rw [Nat.cast_ofNat]
      exact (mul_lt_mul_of_pos_right small unit).trans_le
        (scaled.trans (whole.trans_le (coarser 1024)))
    have low := (Int.zpow_le_iff_le_log (by norm_num) positive).mp least
    have high := (Int.lt_zpow_iff_log_lt (by norm_num) positive).mp greatest
    refine length_general_le (length_digits17 positive) ?_
    rw [digits17]
    split_ifs
    · dsimp only
      omega
    · dsimp only
      omega

/-! ## Numbers below the normal ones -/

/-- Few digits behind many places are no binary fraction: the power of ten in the
denominator has more factors of five than the digits. -/
theorem binary_ne_decimal {D m a b k : ℕ} (positive : 0 < D) (few : D < 10 ^ 17) :
    (m : ℚ) * (2 ^ a / 2 ^ k) ≠ D * (10 ^ (b + 25))⁻¹ := by
  intro same
  have two : (2 : ℚ) ^ k ≠ 0 := pow_ne_zero _ two_ne_zero
  have ten : (10 : ℚ) ^ (b + 25) ≠ 0 := pow_ne_zero _ (by norm_num)
  have scaled : (m : ℚ) * 2 ^ a * 10 ^ (b + 25) = D * 2 ^ k := by
    field_simp at same
    linarith
  have integers : m * 2 ^ a * 10 ^ (b + 25) = D * 2 ^ k := by exact_mod_cast scaled
  have divides : 5 ^ 25 ∣ D * 2 ^ k := by
    rw [← integers, pow_add, show (10 : ℕ) ^ 25 = 5 ^ 25 * 2 ^ 25 from by norm_num]
    exact Dvd.dvd.mul_left (Dvd.dvd.mul_left (Nat.dvd_mul_right _ _) _) _
  have coprime : Nat.Coprime (5 ^ 25) (2 ^ k) := Nat.Coprime.pow _ _ (by decide)
  have large := Nat.le_of_dvd positive (coprime.dvd_of_dvd_mul_right divides)
  have more : 10 ^ 17 < 5 ^ 25 := by norm_num
  omega

/-- A decimal of seventeen digits with an exponent that small is no double. -/
theorem value_ne_digits {D : ℕ} {X : ℤ} (positive : 0 < D) (few : D < 10 ^ 17) (small : X ≤ -10)
    (y : Magnitude) : y.value ≠ D * 10 ^ (X - 16) := by
  obtain ⟨a, k, exponent⟩ : ∃ a k : ℕ, y.exponent = a - k :=
    ⟨y.exponent.toNat, (-y.exponent).toNat, by omega⟩
  obtain ⟨b, power⟩ : ∃ b : ℕ, X - 16 = -(b + 25 : ℕ) := ⟨(-(X + 9)).toNat, by push_cast; omega⟩
  rw [Magnitude.value, exponent, power, zpow_sub₀ two_ne_zero, zpow_neg, zpow_natCast, zpow_natCast,
    zpow_natCast]
  exact binary_ne_decimal positive few

/-- `strtod` sets `errno` on the text of a number below the normal ones. -/
theorem strtod_subnormal {x : Magnitude} (nonzero : x.mantissa ≠ 0) (subnormal : ¬x.Normal)
    (negative : Bool) : (strtod (print (.finite negative x))).2.2 = true := by
  have mantissa : (0 : ℚ) < x.mantissa := by exact_mod_cast Nat.pos_of_ne_zero nonzero
  have positive : 0 < x.value := mul_pos mantissa (zpow_pos (by norm_num) _)
  obtain ⟨least, few, near⟩ := digits17_near positive
  have lead : 0 < (digits17 x.value).1 := Nat.lt_of_lt_of_le (by norm_num) least
  have unit : (0 : ℚ) < 2 ^ (-1022 : ℤ) := zpow_pos (by norm_num) _
  have below : x.value ≤ 2 ^ (-1022 : ℤ) * (1 - 1 / 2 ^ 52) := by
    have small : (x.mantissa : ℚ) ≤ 2 ^ 52 - 1 := by
      have : x.mantissa + 1 ≤ 2 ^ 52 := Nat.not_le.mp subnormal
      have : (x.mantissa : ℚ) + 1 ≤ 2 ^ 52 := by exact_mod_cast this
      linarith
    have exponent := x.canonical.resolve_left subnormal
    have scale : (2 : ℚ) ^ (-1022 : ℤ) = 2 ^ (-1074 : ℤ) * 2 ^ 52 := by
      rw [← zpow_natCast, ← zpow_add₀ two_ne_zero]
      rfl
    rw [Magnitude.value, exponent, scale, mul_assoc, mul_comm]
    exact mul_le_mul_of_nonneg_left (by linarith) (zpow_pos (by norm_num) _).le
  have tiny : Tiny ((digits17 x.value).1 * 10 ^ ((digits17 x.value).2 - 16)) := by
    have upper := (abs_le.mp near).2
    have factor : ((1 : ℚ) - 1 / 2 ^ 52) * (1 + 5 / 10 ^ 17) < 1 - 1 / 2 ^ 54 := by norm_num
    calc ((digits17 x.value).1 : ℚ) * 10 ^ ((digits17 x.value).2 - 16)
        ≤ x.value * (1 + 5 / 10 ^ 17) := by linarith
      _ ≤ 2 ^ (-1022 : ℤ) * (1 - 1 / 2 ^ 52) * (1 + 5 / 10 ^ 17) :=
          mul_le_mul_of_nonneg_right below (by norm_num)
      _ < 2 ^ (-1022 : ℤ) * (1 - 1 / 2 ^ 54) := by
          rw [mul_assoc]
          exact mul_lt_mul_of_pos_left factor unit
  have start : (digits17 x.value).2 ≤ -10 := by
    have coarse : x.value < ((10 : ℕ) : ℚ) ^ (-10 : ℤ) := by
      have power : (2 : ℚ) ^ (-1022 : ℤ) ≤ 2 ^ (-34 : ℤ) :=
        zpow_le_zpow_right₀ (by norm_num) (by norm_num)
      have small : (2 : ℚ) ^ (-34 : ℤ) < ((10 : ℕ) : ℚ) ^ (-10 : ℤ) := by norm_num
      have whole : (2 : ℚ) ^ (-1022 : ℤ) * (1 - 1 / 2 ^ 52) ≤ 2 ^ (-1022 : ℤ) :=
        mul_le_of_le_one_right unit.le (by norm_num)
      exact (below.trans (whole.trans power)).trans_lt small
    have log := (Int.lt_zpow_iff_log_lt (by norm_num) positive).mp coarse
    rw [digits17]
    split_ifs
    · dsimp only
      omega
    · dsimp only
      omega
  have inexact := value_ne_digits lead few start
  have nonzero' : ((digits17 x.value).1 : ℚ) * 10 ^ ((digits17 x.value).2 - 16) ≠ 0 :=
    mul_ne_zero (Nat.cast_ne_zero.mpr lead.ne') (zpow_ne_zero _ (by norm_num))
  have ends {byte : UInt8} (head : ([] : List UInt8).head? = some byte) : False :=
    Option.some_ne_none byte head.symm
  have stops : Stops [] := fun _ head => (ends head).elim
  have scanned : scanNumber decimal (magnitudeText x ++ []) =
      some (((digits17 x.value).1 : ℚ) * 10 ^ ((digits17 x.value).2 - 16),
        (magnitudeText x).length) := by
    have read := @scanNumber_general _ [] (digits17 x.value).2
      (length_digits17 positive) (fun _ => isDigit_of_mem_text) (fun _ head => (ends head).elim)
    rw [value_text] at read
    rw [magnitudeText, if_neg nonzero]
    exact read
  have result := strtod_scanned negative stops scanned
  rw [List.append_nil] at result
  rw [result, rounded, if_neg nonzero']
  cases Magnitude.nearest ((digits17 x.value).1 * 10 ^ ((digits17 x.value).2 - 16)) with
  | none => rfl
  | some y => exact decide_eq_true ⟨tiny, inexact y⟩

/-! ## The bytes that are read -/

/-- As many bytes as `takeWhile` keeps are the bytes it keeps. -/
theorem take_takeWhile (p : UInt8 → Bool) (body : List UInt8) :
    body.take (body.takeWhile p).length = body.takeWhile p :=
  (List.prefix_iff_eq_take.mp (List.takeWhile_prefix p)).symm

/-- A byte of a front is in its first part or in its second. -/
theorem mem_take_add {body : List UInt8} {m n : ℕ} {byte : UInt8} (member : byte ∈ body.take (m + n)) :
    byte ∈ body.take m ∨ byte ∈ (body.drop m).take n := by
  rwa [List.take_add, List.mem_append] at member

/-- The bytes that `takeWhile` keeps satisfy its test. -/
theorem mem_take_takeWhile {p : UInt8 → Bool} {body : List UInt8} {byte : UInt8}
    (member : byte ∈ body.take (body.takeWhile p).length) : p byte = true := by
  rw [take_takeWhile] at member
  exact List.all_eq_true.mp List.all_takeWhile byte member

/-- An exponent consists of a letter, a sign and digits. -/
theorem mem_scanExponent {letters body : List UInt8} {byte : UInt8}
    (member : byte ∈ body.take (scanExponent letters body).2) :
    byte ∈ letters ∨ byte ∈ [43, 45] ∨ isDigit byte = true := by
  cases body with
  | nil => simp at member
  | cons letter rest =>
      rw [scanExponent] at member
      by_cases signed : rest.head? = some 43 ∨ rest.head? = some 45
      · obtain ⟨sign, digits, rfl⟩ : ∃ sign digits, rest = sign :: digits :=
          List.exists_cons_of_ne_nil (by rintro rfl; simp at signed)
        simp only [if_pos signed, List.tail_cons] at member
        by_cases none : letter ∉ letters ∨ digits.takeWhile isDigit = []
        · rw [if_pos none] at member
          simp at member
        · rw [if_neg none, Nat.add_comm, ← Nat.add_assoc, List.take_succ_cons, List.take_succ_cons] at member
          rw [not_or, not_not] at none
          rcases List.mem_cons.mp member with rfl | member
          · exact .inl none.1
          · rcases List.mem_cons.mp member with rfl | member
            · exact .inr (.inl (by simpa using signed))
            · exact .inr (.inr (mem_take_takeWhile member))
      · simp only [if_neg signed] at member
        by_cases none : letter ∉ letters ∨ rest.takeWhile isDigit = []
        · rw [if_pos none] at member
          simp at member
        · rw [if_neg none, Nat.add_zero, Nat.add_comm, List.take_succ_cons] at member
          rw [not_or, not_not] at none
          rcases List.mem_cons.mp member with rfl | member
          · exact .inl none.1
          · exact .inr (.inr (mem_take_takeWhile member))

/-- A number consists of digits, a point and an exponent. -/
theorem mem_scanNumber {radix : Radix} {body : List UInt8} {q : ℚ} {length : ℕ} {byte : UInt8}
    (scanned : scanNumber radix body = some (q, length)) (member : byte ∈ body.take length) :
    radix.isDigit byte = true ∨ byte ∈ radix.letters ∨ byte ∈ [46, 43, 45] ∨ isDigit byte = true := by
  have exponent {rest : List UInt8} (inside : byte ∈ rest.take (scanExponent radix.letters rest).2) :
      radix.isDigit byte = true ∨ byte ∈ radix.letters ∨ byte ∈ [46, 43, 45] ∨ isDigit byte = true := by
    rcases mem_scanExponent inside with letter | sign | digit
    · exact .inr (.inl letter)
    · exact .inr (.inr (.inl (List.mem_cons_of_mem _ sign)))
    · exact .inr (.inr (.inr digit))
  rw [scanNumber] at scanned
  by_cases point : (body.drop (body.takeWhile radix.isDigit).length).head? = some 46
  · obtain ⟨more, behind⟩ := List.head?_eq_some_iff.mp point
    simp only [if_pos point] at scanned
    by_cases none : body.takeWhile radix.isDigit = [] ∧
        (body.drop (body.takeWhile radix.isDigit).length).tail.takeWhile radix.isDigit = []
    · rw [if_pos none] at scanned
      cases scanned
    · rw [if_neg none] at scanned
      obtain ⟨-, rfl⟩ := Prod.mk.inj (Option.some.inj scanned)
      rcases mem_take_add member with front | inside
      · rcases mem_take_add front with whole | fraction
        · exact .inl (mem_take_takeWhile whole)
        · rw [behind, List.tail_cons, Nat.add_comm, List.take_succ_cons] at fraction
          rcases List.mem_cons.mp fraction with rfl | fraction
          · exact .inr (.inr (.inl (by decide)))
          · exact .inl (mem_take_takeWhile fraction)
      · exact exponent inside
  · simp only [if_neg point, Nat.add_zero] at scanned
    by_cases none : body.takeWhile radix.isDigit = [] ∧ True
    · rw [if_pos none] at scanned
      cases scanned
    · rw [if_neg none] at scanned
      obtain ⟨-, rfl⟩ := Prod.mk.inj (Option.some.inj scanned)
      rcases mem_take_add member with whole | inside
      · exact .inl (mem_take_takeWhile whole)
      · exact exponent inside

/-- What matches a word in ASCII is ASCII. -/
theorem startsWith_ascii {word body : List UInt8} {byte : UInt8}
    (plain : ∀ letter ∈ word, letter.toNat < 128) (starts : startsWith word body = true)
    (member : byte ∈ body.take word.length) : byte.toNat < 128 := by
  have lowered := List.mem_map_of_mem (f := fun byte : UInt8 =>
    if 65 ≤ byte ∧ byte ≤ 90 then byte + 32 else byte) member
  rw [of_decide_eq_true starts] at lowered
  have small := plain _ lowered
  split_ifs at small with upper
  · have below : byte.toNat ≤ 90 := upper.2
    omega
  · exact small

/-- Digits are ASCII. -/
theorem isDigit_ascii {byte : UInt8} (digit : isDigit byte = true) : byte.toNat < 128 := by
  have range := isDigit_iff.mp digit
  omega

/-- The bytes of a number are ASCII, like the digits and letters of its radix. -/
theorem scanNumber_ascii {radix : Radix} {text : List UInt8} {q : ℚ} {length : ℕ} {byte : UInt8}
    (digits : ∀ digit, radix.isDigit digit = true → digit.toNat < 128)
    (letters : ∀ letter ∈ radix.letters, letter.toNat < 128)
    (scanned : scanNumber radix text = some (q, length)) (inside : byte ∈ text.take length) :
    byte.toNat < 128 := by
  have signs : ∀ sign ∈ ([46, 43, 45] : List UInt8), sign.toNat < 128 := by decide +kernel
  rcases mem_scanNumber scanned inside with digit | letter | sign | digit
  · exact digits byte digit
  · exact letters byte letter
  · exact signs byte sign
  · exact isDigit_ascii digit

/-- A decimal number that is read is ASCII. -/
theorem decimal_ascii {text : List UInt8} {q : ℚ} {length : ℕ} {byte : UInt8}
    (scanned : scanNumber decimal text = some (q, length)) (inside : byte ∈ text.take length) :
    byte.toNat < 128 :=
  scanNumber_ascii (fun _ => isDigit_ascii) (by decide +kernel) scanned inside

/-- A hexadecimal number that is read is ASCII. -/
theorem hexadecimal_ascii {text : List UInt8} {q : ℚ} {length : ℕ} {byte : UInt8}
    (scanned : scanNumber hexadecimal text = some (q, length))
    (inside : byte ∈ text.take length) : byte.toNat < 128 := by
  refine scanNumber_ascii (fun digit isDigit => ?_) (by decide +kernel) scanned inside
  obtain ⟨value, found⟩ := Option.isSome_iff_exists.mp isDigit
  exact (Json.hexValue_ascii found).1

/-- The bytes of a number with or without `0x` are ASCII. -/
theorem scanSubject_ascii {text : List UInt8} {q : ℚ} {length : ℕ} {byte : UInt8}
    (scanned : scanSubject text = some (.number q, length)) (inside : byte ∈ text.take length) :
    byte.toNat < 128 := by
  rw [scanSubject] at scanned
  split at scanned
  · cases scanned
  split at scanned
  · cases scanned
  split at scanned
  · cases scanned
  dsimp only at scanned
  split at scanned
  case h_1 length found =>
    split_ifs at found with isHex
    obtain ⟨-, rfl⟩ := Prod.mk.inj (Option.some.inj scanned)
    rcases mem_take_add inside with lead | number
    · exact startsWith_ascii (by decide +kernel) isHex lead
    · exact hexadecimal_ascii found number
  case h_2 =>
    obtain ⟨⟨_, _⟩, found, same⟩ := Option.map_eq_some_iff.mp scanned
    obtain ⟨-, rfl⟩ := Prod.mk.inj same
    exact decimal_ascii found inside

/-- A finite number is read from white space, a sign, and the bytes of a number. -/
theorem strtod_ascii {body : List UInt8} {negative errno : Bool} {x : Magnitude} {length : ℕ}
    {byte : UInt8} (read : strtod body = (.finite negative x, length, errno))
    (member : byte ∈ body.take length) : byte.toNat < 128 := by
  rw [strtod] at read
  dsimp only at read
  split at read
  case h_1 =>
    obtain ⟨-, read⟩ := Prod.mk.inj read
    obtain ⟨rfl, -⟩ := Prod.mk.inj read
    simp at member
  case h_2 subject n found =>
    obtain ⟨value, read⟩ := Prod.mk.inj read
    obtain ⟨rfl, -⟩ := Prod.mk.inj read
    rcases mem_take_add member with front | inside
    · rcases mem_take_add front with blank | sign
      · have space := mem_take_takeWhile blank
        exact isSpace_ascii space
      · split_ifs at sign with signed
        · cases behind : body.drop (body.takeWhile isSpace).length with
          | nil => simp [behind] at sign
          | cons first rest =>
              rw [behind] at sign signed
              obtain rfl : byte = first := by simpa using sign
              rcases signed with plus | minus
              · rw [Option.some.inj plus]
                decide
              · rw [Option.some.inj minus]
                decide
        · simp at sign
    · rw [← List.drop_drop] at inside
      cases subject with
      | number q => exact scanSubject_ascii found inside
      | infinity => cases value
      | nan => cases value

end

end CommunicationProtocols.Library.FloatText
