import CommunicationProtocols.Library.ByteBuffer
import CommunicationProtocols.Library.Decimal
import Mathlib.Algebra.Order.Ring.Nat

/-!
# Internet addresses in numbers-and-dots notation

An address is one to four numbers, each in decimal, octal or hexadecimal. All but the last
are single bytes, and the last fills the bytes that are left, most significant byte first.
-/

namespace CommunicationProtocols.Library.InetAddr

open Decimal

/-! ## Numbers -/

/-- The value of a digit in the bases up to sixteen. -/
def digitValue (byte : UInt8) : Option ℕ :=
  if isDigit byte then some (byte.toNat - 48)
  else if 97 ≤ byte.toNat ∧ byte.toNat ≤ 102 then some (byte.toNat - 87)
  else if 65 ≤ byte.toNat ∧ byte.toNat ≤ 70 then some (byte.toNat - 55)
  else none

def isDigitOf (base : ℕ) (byte : UInt8) : Bool := (digitValue byte).any (· < base)

/-- The number in front of a text and the text behind it. -/
def readDigits (base : ℕ) (text : List UInt8) : ℕ × List UInt8 :=
  ((text.takeWhile (isDigitOf base)).foldl
    (fun n byte => (digitValue byte).getD 0 + base * n) 0, text.dropWhile (isDigitOf base))

/-- `strtoul` with base 0 on a text that starts with a digit. -/
def strtoul (text : List UInt8) : ℕ × List UInt8 :=
  if text.head? = some 48 then
    if (text.tail.head? = some 120 ∨ text.tail.head? = some 88) ∧
        (text.drop 2).head?.any (isDigitOf 16) then readDigits 16 (text.drop 2)
    else readDigits 8 text
  else readDigits 10 text

/-! ## Addresses -/

def dot : UInt8 := 46

/-- The bytes of an address: those that have been read, and the number behind them. -/
def addressBytes (parts : List ℕ) (val : ℕ) : List ℕ :=
  parts ++ (List.range (4 - parts.length)).reverse.map fun i => val / 256 ^ i % 256

/-- The word in memory, in network byte order. -/
def address (parts : List ℕ) (val : ℕ) : BitVec 32 :=
  word32 (Vector.ofFn fun i => UInt8.ofNat ((addressBytes parts val).getD i 0))

/-- The loop of `inet_aton`, with the dots that may still come. -/
def atonLoop (dots : ℕ) (parts : List ℕ) (text : List UInt8) : Option (BitVec 32) :=
  if text.head?.any isDigit then
    let read := strtoul text
    if 2 ^ 32 ≤ read.1 then none
    else if read.2.head? = some dot then
      match dots with
      | 0 => none
      | dots + 1 => if 255 < read.1 then none else atonLoop dots (parts ++ [read.1]) read.2.tail
    else if read.2.head?.all isSpace then
      if read.1 < 256 ^ (4 - parts.length) then some (address parts read.1) else none
    else none
  else none

/-- `inet_addr`, which answers `INADDR_NONE` for what is no address. -/
def inetAddr (text : List UInt8) : BitVec 32 := (atonLoop 3 [] text).getD (BitVec.allOnes 32)

/-- Numbers with dots between them. -/
def withDots : List UInt8 → List UInt8
  | [] => []
  | octet :: [] => text octet.toNat
  | octet :: octets => text octet.toNat ++ dot :: withDots octets

/-- The usual text of an address. -/
def dotted (octets : Vector UInt8 4) : List UInt8 := withDots octets.toList

example : inetAddr (ascii "192.168.1.7") = word32 #v[192, 168, 1, 7] := by decide +kernel

example : inetAddr (ascii "0x0a.010.513") = word32 #v[10, 8, 2, 1] := by decide +kernel

example : inetAddr (ascii "10.0.0.256") = BitVec.allOnes 32 := by decide +kernel

/-! ## Reading the usual text -/

/-- The digits to base ten are the decimal digits. -/
theorem isDigitOf_ten (byte : UInt8) : isDigitOf 10 byte = isDigit byte := by
  rw [isDigitOf, digitValue]
  cases digit : isDigit byte with
  | true =>
      have range := isDigit_iff.mp digit
      simp
      omega
  | false =>
      simp only [Bool.false_eq_true, if_false]
      split_ifs
      · simp
        omega
      · simp
        omega
      · rfl

/-- Decimal digits are read as their number. -/
theorem readDigits_ten {digits rest : List UInt8} (decimal : ∀ byte ∈ digits, isDigit byte = true)
    (stops : ∀ byte ∈ rest.head?, isDigit byte = false) :
    readDigits 10 (digits ++ rest) = (value digits, rest) := by
  have same : isDigitOf 10 = isDigit := funext isDigitOf_ten
  have taken : (digits ++ rest).takeWhile isDigit = digits := takeWhile_stop decimal stops
  have dropped : (digits ++ rest).dropWhile isDigit = rest := dropWhile_stop decimal stops
  have folded (n : ℕ) : digits.foldl (fun n byte => (digitValue byte).getD 0 + 10 * n) n =
      digits.foldl (fun n byte => byte.toNat - 48 + 10 * n) n := by
    clear taken dropped
    induction digits generalizing n with
    | nil => rfl
    | cons byte digits ih =>
        rw [List.forall_mem_cons] at decimal
        rw [List.foldl_cons, List.foldl_cons, ih decimal.2, digitValue, if_pos decimal.1,
          Option.getD_some]
  rw [readDigits, same, taken, dropped, folded, value]

/-- The text of a positive number does not start with a zero. -/
theorem head_text {n : ℕ} (positive : 0 < n) : (text n).head? ≠ some 48 := by
  have last := Nat.getLast_digit_ne_zero 10 positive.ne'
  have nonempty : Nat.digits 10 n ≠ [] := Nat.digits_ne_nil_iff_ne_zero.mpr positive.ne'
  rw [text, if_neg positive.ne', List.head?_map, List.head?_reverse,
    List.getLast?_eq_getLast_of_ne_nil nonempty, Option.map_some]
  intro same
  have small := Nat.digits_lt_base (by decide : 1 < 10) (List.getLast_mem nonempty)
  have values := congrArg UInt8.toNat (Option.some.inj same)
  rw [toNat_digit small] at values
  simp at values
  omega

/-- The text of a number is read as the number, whatever base its first digit announces. -/
theorem strtoul_text (n : ℕ) {rest : List UInt8}
    (stops : rest = [] ∨ ∃ behind, rest = dot :: behind) :
    strtoul (text n ++ rest) = (n, rest) := by
  have stop : ∀ byte ∈ rest.head?, isDigit byte = false := by
    rcases stops with rfl | ⟨behind, rfl⟩
    · simp
    · rintro byte member
      cases member
      rfl
  rcases Nat.eq_zero_or_pos n with rfl | positive
  · rcases stops with rfl | ⟨behind, rfl⟩
    · decide
    · rfl
  · obtain ⟨lead, more, split⟩ := List.exists_cons_of_ne_nil (text_ne_nil n)
    have head : (text n ++ rest).head? ≠ some 48 := by
      have first := head_text positive
      rw [split] at first ⊢
      exact first
    rw [strtoul, if_neg head, readDigits_ten (fun _ => isDigit_of_mem_text) stop, value_text]

/-- The text of a number starts with a digit. -/
theorem head_isDigit (n : ℕ) (rest : List UInt8) : (text n ++ rest).head?.any isDigit = true := by
  obtain ⟨lead, more, split⟩ := List.exists_cons_of_ne_nil (text_ne_nil n)
  have digit : isDigit lead = true := isDigit_of_mem_text (by rw [split]; exact List.mem_cons_self)
  rw [split]
  exact digit

/-- A number with a dot behind it is one part of the address. -/
theorem atonLoop_byte (dots : ℕ) (parts : List ℕ) (octet : UInt8) (behind : List UInt8) :
    atonLoop (dots + 1) parts (text octet.toNat ++ dot :: behind) =
      atonLoop dots (parts ++ [octet.toNat]) behind := by
  have small := octet.toNat_lt
  rw [atonLoop, if_pos (head_isDigit _ _), strtoul_text _ (.inr ⟨behind, rfl⟩)]
  dsimp only
  rw [if_neg (by omega), if_pos (List.head?_cons), if_neg (by omega), List.tail_cons]

/-- An address as its four bytes. -/
theorem exists_dotted_eq (octets : Vector UInt8 4) :
    ∃ a b c d : UInt8, octets.toList = [a, b, c, d] ∧
      dotted octets = text a.toNat ++ dot :: (text b.toNat ++ dot :: (text c.toNat ++
        dot :: text d.toNat)) := by
  obtain ⟨a, b, c, d, bytes⟩ := List.length_eq_four.mp octets.length_toList
  refine ⟨a, b, c, d, bytes, ?_⟩
  rw [dotted, bytes]
  rfl

/-- The usual text of an address is read as the address. -/
theorem inetAddr_dotted (octets : Vector UInt8 4) : inetAddr (dotted octets) = word32 octets := by
  obtain ⟨a, b, c, d, whole, parts⟩ := exists_dotted_eq octets
  have small := d.toNat_lt
  have read := strtoul_text d.toNat (.inl rfl)
  have digit := head_isDigit d.toNat []
  have blank : ([] : List UInt8).head?.all isSpace = true := rfl
  rw [List.append_nil] at read digit
  rw [inetAddr, parts, atonLoop_byte, atonLoop_byte, atonLoop_byte, atonLoop, if_pos digit, read]
  dsimp only
  have bytes : addressBytes [a.toNat, b.toNat, c.toNat] d.toNat =
      [a.toNat, b.toNat, c.toNat, d.toNat] := by
    simp [addressBytes, Nat.mod_eq_of_lt small]
  have word : Vector.ofFn (fun i : Fin 4 =>
      UInt8.ofNat ([a.toNat, b.toNat, c.toNat, d.toNat].getD i 0)) = octets := by
    rw [← Vector.toList_inj, whole]
    simp [Vector.toList_ofFn, List.ofFn_succ]
  rw [if_neg (by omega), if_neg (by simp), if_pos blank, if_pos (by simpa using small),
    Option.getD_some]
  change address [a.toNat, b.toNat, c.toNat] d.toNat = _
  rw [address, bytes, word]

end CommunicationProtocols.Library.InetAddr
