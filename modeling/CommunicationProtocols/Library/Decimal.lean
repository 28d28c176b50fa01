import Mathlib.Data.Nat.Digits.Lemmas

/-!
# Decimal texts

Numbers as strings of ASCII digits, without leading zeros. Reading a text back
gives the number, so distinct numbers have distinct texts. `strtol` reads a
number at the start of a string.
-/

namespace CommunicationProtocols.Library.Decimal

/-- The ASCII digit of a number below ten. -/
def digit (d : ℕ) : UInt8 := UInt8.ofNat (48 + d)

/-- The text of a number. -/
def text (n : ℕ) : List UInt8 :=
  if n = 0 then [digit 0] else (Nat.digits 10 n).reverse.map digit

/-- The number of a text of digits. -/
def value (bytes : List UInt8) : ℕ := bytes.foldl (fun n byte => byte.toNat - 48 + 10 * n) 0

/-- The text of an integer. -/
def intText (z : ℤ) : List UInt8 :=
  if z < 0 then 45 :: text z.natAbs else text z.natAbs

/-- The code of a digit. -/
theorem toNat_digit {d : ℕ} (small : d < 10) : (digit d).toNat = 48 + d := by
  unfold digit
  rw [UInt8.toNat_ofNat']
  omega

/-- The digits of a number are read as the number they stand for. -/
theorem value_map_digit (digits : List ℕ) (small : ∀ d ∈ digits, d < 10) :
    value (digits.reverse.map digit) = Nat.ofDigits 10 digits := by
  induction digits with
  | nil => rfl
  | cons d rest ih =>
      have later := ih fun other member => small other (List.mem_cons_of_mem d member)
      have here := toNat_digit (small d List.mem_cons_self)
      rw [Nat.ofDigits_cons, ← later]
      simp [value, here]

/-- Reading the text of a number gives the number. -/
theorem value_text (n : ℕ) : value (text n) = n := by
  unfold text
  split
  case isTrue zero => rw [zero]; rfl
  case isFalse =>
    rw [value_map_digit _ fun d member => Nat.digits_lt_base (by omega) member,
      Nat.ofDigits_digits]

/-- A text has one digit for each power of ten up to the number. -/
theorem length_text (n : ℕ) : (text n).length = Nat.log 10 n + 1 := by
  unfold text
  split
  case isTrue zero => rw [zero]; rfl
  case isFalse positive =>
    rw [List.length_map, List.length_reverse, Nat.length_digits 10 n (by omega) positive]

/-- A text has at most `k` digits exactly if its number is below `10 ^ k`. -/
theorem length_text_le_iff {n k : ℕ} (positive : 0 < k) : (text n).length ≤ k ↔ n < 10 ^ k := by
  rw [length_text, Nat.succ_le_iff]
  rcases Nat.eq_zero_or_pos n with rfl | nonzero
  · exact iff_of_true (by simpa using positive) (Nat.pow_pos (by omega))
  · exact Nat.log_lt_iff_lt_pow (by omega) (by omega)

/-- Different numbers have different texts. -/
theorem text_injective : Function.Injective text := fun n m same => by
  rw [← value_text n, same, value_text]

/-- Different digits have different codes. -/
theorem digit_injective {d e : ℕ} (small : d < 10) (small' : e < 10) (same : digit d = digit e) :
    d = e := by
  have values := congrArg UInt8.toNat same
  rw [toNat_digit small, toNat_digit small'] at values
  omega

/-- A text consists of digits. -/
theorem mem_text {n : ℕ} {byte : UInt8} (member : byte ∈ text n) :
    ∃ d, d < 10 ∧ byte = digit d := by
  unfold text at member
  split at member
  · exact ⟨0, by omega, List.mem_singleton.mp member⟩
  · obtain ⟨d, isDigit, rfl⟩ := List.mem_map.mp member
    exact ⟨d, Nat.digits_lt_base (by omega) (List.mem_reverse.mp isDigit), rfl⟩

/-- No digit is below the ASCII digits. -/
theorem not_mem_text {n : ℕ} {byte : UInt8} (low : byte.toNat < 48) : byte ∉ text n := by
  intro member
  obtain ⟨d, small, rfl⟩ := mem_text member
  rw [toNat_digit small] at low
  omega

/-- Different integers have different texts. -/
theorem intText_injective : Function.Injective intText := by
  have low : (45 : UInt8).toNat < 48 := by decide
  have minus (n : ℕ) (rest : List UInt8) : text n ≠ 45 :: rest := by
    intro same
    have member : 45 ∈ text n := by
      rw [same]
      exact List.mem_cons_self
    exact not_mem_text low member
  intro z w same
  unfold intText at same
  split at same
  case isTrue negative =>
    split at same
    case isTrue negative' =>
      have magnitudes := text_injective (List.cons.inj same).2
      omega
    case isFalse => exact absurd same.symm (minus _ _)
  case isFalse =>
    split at same
    case isTrue => exact absurd same (minus _ _)
    case isFalse =>
      have magnitudes := text_injective same
      omega

/-! ## Reading a number from a string -/

/-- `isspace` in the C locale. -/
def isSpace (byte : UInt8) : Bool := byte == 32 || (9 ≤ byte.toNat && byte.toNat ≤ 13)

/-- `isdigit`. -/
def isDigit (byte : UInt8) : Bool := 48 ≤ byte.toNat && byte.toNat ≤ 57

/-- `strtol` in base 10 for a `long` of 64 bits, on the bytes from its argument
to the end of the block. It reads up to the first byte that is no digit, and has
no result if the block ends before one. -/
def strtol (bytes : List UInt8) : Option ℤ :=
  match bytes.dropWhile isSpace with
  | [] => none
  | sign :: rest =>
      let digits := if sign = 43 ∨ sign = 45 then rest else sign :: rest
      let magnitude : ℤ := value (digits.takeWhile isDigit)
      if digits.dropWhile isDigit = [] then none
      else some (max (-2 ^ 63) (min (if sign = 45 then -magnitude else magnitude) (2 ^ 63 - 1)))

/-- The digits are the bytes from 48 to 57. -/
theorem isDigit_iff {byte : UInt8} : isDigit byte = true ↔ 48 ≤ byte.toNat ∧ byte.toNat ≤ 57 := by
  simp [isDigit]

/-- White space is ASCII. -/
theorem isSpace_ascii {byte : UInt8} (isSpace : isSpace byte = true) : byte.toNat < 128 := by
  rw [Decimal.isSpace, Bool.or_eq_true, Bool.and_eq_true, beq_iff_eq] at isSpace
  rcases isSpace with rfl | ⟨-, small⟩
  · decide
  · have := of_decide_eq_true small
    omega

/-- No digit is white space. -/
theorem not_isSpace_of_isDigit {byte : UInt8} (isDigit : isDigit byte = true) :
    isSpace byte = false := by
  have range := isDigit_iff.mp isDigit
  rw [isSpace, Bool.or_eq_false_iff, Bool.and_eq_false_iff, beq_eq_false_iff_ne]
  refine ⟨?_, .inr (by simp; omega)⟩
  rintro rfl
  exact absurd range.1 (by decide)

/-- Bytes of a kind are taken up to the first one of another kind. -/
theorem takeWhile_stop {p : UInt8 → Bool} {front tail : List UInt8}
    (all : ∀ byte ∈ front, p byte = true)
    (stops : ∀ byte, tail.head? = some byte → p byte = false) :
    (front ++ tail).takeWhile p = front := by
  rw [List.takeWhile_append_of_pos all]
  cases tail with
  | nil => simp
  | cons byte tail => simp [stops byte rfl]

/-- Dropping stops at the first byte behind a front that is dropped whole. -/
theorem dropWhile_stop {p : UInt8 → Bool} {front tail : List UInt8}
    (all : ∀ byte ∈ front, p byte = true)
    (stops : ∀ byte, tail.head? = some byte → p byte = false) :
    (front ++ tail).dropWhile p = tail := by
  rw [List.dropWhile_append_of_pos all]
  cases tail with
  | nil => rfl
  | cons byte tail => simp [stops byte rfl]

/-- Digits in front of another byte are read as their number, or as the greatest
`long` if they exceed it. -/
theorem strtol_digits_saturates {digits rest : List UInt8} {stop : UInt8} (nonempty : digits ≠ [])
    (decimal : ∀ byte ∈ digits, isDigit byte = true) (stops : isDigit stop = false) :
    strtol (digits ++ stop :: rest) = some (min (value digits : ℤ) (2 ^ 63 - 1)) := by
  obtain ⟨lead, more, rfl⟩ := List.exists_cons_of_ne_nil nonempty
  have leading := isDigit_iff.mp (decimal lead List.mem_cons_self)
  have notSpace : isSpace lead = false := by
    have differs : lead ≠ 32 := fun same => by rw [same] at leading; simp at leading
    simp [isSpace, differs]
    omega
  have notSign : ¬ (lead = 43 ∨ lead = 45) := by
    rintro (rfl | rfl) <;> simp at leading
  have skipped : ((lead :: more) ++ stop :: rest).dropWhile isSpace =
      lead :: (more ++ stop :: rest) := by
    simp [notSpace]
  have whole : lead :: (more ++ stop :: rest) = (lead :: more) ++ stop :: rest := rfl
  have taken : ((lead :: more) ++ stop :: rest).takeWhile isDigit = lead :: more :=
    takeWhile_stop decimal (by simpa using stops)
  have dropped : ((lead :: more) ++ stop :: rest).dropWhile isDigit = stop :: rest :=
    dropWhile_stop decimal (by simpa using stops)
  have unsigned : lead ≠ 45 := fun minus => notSign (.inr minus)
  rw [strtol, skipped]
  dsimp only
  rw [if_neg notSign, whole, taken, dropped, if_neg unsigned, if_neg (List.cons_ne_nil stop rest)]
  congr 1
  omega

/-- Digits of a number that is a `long` are read as this number. -/
theorem strtol_digits {digits rest : List UInt8} {stop : UInt8} (nonempty : digits ≠ [])
    (decimal : ∀ byte ∈ digits, isDigit byte = true) (stops : isDigit stop = false)
    (small : value digits < 2 ^ 63) : strtol (digits ++ stop :: rest) = some (value digits : ℤ) := by
  rw [strtol_digits_saturates nonempty decimal stops]
  congr 1
  omega

/-- A last byte that is not dropped stays behind whatever is left. -/
theorem dropWhile_concat_of_neg {p : UInt8 → Bool} {last : UInt8} (stops : p last = false)
    (string : List UInt8) : (string ++ [last]).dropWhile p = string.dropWhile p ++ [last] := by
  induction string with
  | nil => simp [stops]
  | cons byte rest ih =>
      rw [List.cons_append, List.dropWhile_cons, List.dropWhile_cons, ih]
      split <;> rfl

/-- Reading the number of a string stops at its terminator at the latest. -/
theorem isSome_strtol_string (string : List UInt8) : (strtol (string ++ [0])).isSome := by
  have stopped (digits : List UInt8) : (digits ++ [0]).dropWhile isDigit ≠ [] := by
    rw [dropWhile_concat_of_neg rfl]
    exact List.append_ne_nil_of_right_ne_nil _ (List.cons_ne_nil _ _)
  rw [strtol, dropWhile_concat_of_neg rfl]
  cases string.dropWhile isSpace with
  | nil => rfl
  | cons sign rest =>
      dsimp only [List.cons_append]
      split
      case isTrue => rw [if_neg (stopped rest)]; rfl
      case isFalse => rw [← List.cons_append, if_neg (stopped (sign :: rest))]; rfl

/-- No number has an empty text. -/
theorem text_ne_nil (n : ℕ) : text n ≠ [] := by
  intro empty
  have zero : n = 0 := by
    rw [← value_text n, empty]
    rfl
  rw [zero] at empty
  exact List.cons_ne_nil _ _ empty

/-- The text of a number is made of digits. -/
theorem isDigit_of_mem_text {n : ℕ} {byte : UInt8} (member : byte ∈ text n) :
    isDigit byte = true := by
  obtain ⟨d, small, rfl⟩ := mem_text member
  rw [isDigit_iff, toNat_digit small]
  omega

/-- The text of an integer in front of another byte is read as the integer. -/
theorem strtol_intText {z : ℤ} {stop : UInt8} {rest : List UInt8} (stops : isDigit stop = false)
    (small : z.natAbs < 2 ^ 63) : strtol (intText z ++ stop :: rest) = some z := by
  have decimal : ∀ byte ∈ text z.natAbs, isDigit byte = true := fun _ => isDigit_of_mem_text
  have magnitude := value_text z.natAbs
  unfold intText
  split
  case isTrue negative =>
    have taken : (text z.natAbs ++ stop :: rest).takeWhile isDigit = text z.natAbs :=
      takeWhile_stop decimal (by simpa using stops)
    have dropped : (text z.natAbs ++ stop :: rest).dropWhile isDigit = stop :: rest :=
      dropWhile_stop decimal (by simpa using stops)
    have skipped : (45 :: text z.natAbs ++ stop :: rest).dropWhile isSpace =
        45 :: (text z.natAbs ++ stop :: rest) := rfl
    have isSign : (45 : UInt8) = 43 ∨ (45 : UInt8) = 45 := .inr rfl
    rw [strtol, skipped]
    dsimp only
    rw [if_pos isSign, taken, dropped, magnitude, if_neg (List.cons_ne_nil stop rest), if_pos rfl]
    congr 1
    omega
  case isFalse nonnegative =>
    rw [strtol_digits (text_ne_nil _) decimal stops (by rwa [magnitude]), magnitude]
    congr 1
    omega

end CommunicationProtocols.Library.Decimal
