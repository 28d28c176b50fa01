import CommunicationProtocols.Library.Json
import Mathlib.Algebra.Ring.Nat

/-!
# Quoted strings

Reading a string is done in two passes: `skip_quotes` looks for the closing quote,
and `process_string` copies what is between the quotes and resolves the escapes. A
text is given by the bytes from the current position to the terminating NUL, which
is not among them. The escape of a UTF-16 code unit is resolved by looking at the
text itself and not at the part between the quotes, but a quote is no hexadecimal
digit, so what is behind it never plays a part.
-/

namespace CommunicationProtocols.Parson

open Library Library.Json

/-- `hex_char_to_int`. -/
def hexCharToInt (c : UInt8) : Int :=
  if c ≥ 48 ∧ c ≤ 57 then c.toNat - 48
  else if c ≥ 97 ∧ c ≤ 102 then c.toNat - 97 + 10
  else if c ≥ 65 ∧ c ≤ 70 then c.toNat - 65 + 10
  else -1

/-- `parse_utf16_hex`. -/
def parseUtf16Hex : List UInt8 → Option Nat
  | s0 :: s1 :: s2 :: s3 :: _ =>
      let x1 := hexCharToInt s0
      let x2 := hexCharToInt s1
      let x3 := hexCharToInt s2
      let x4 := hexCharToInt s3
      if x1 = -1 ∨ x2 = -1 ∨ x3 = -1 ∨ x4 = -1 then none
      else some (x1.toNat <<< 12 ||| x2.toNat <<< 8 ||| x3.toNat <<< 4 ||| x4.toNat)
  | _ => none

/-- `parse_utf16` at the letter of the escape: the bytes that are written, and by how
much the position moves, which is to the last digit. -/
def parseUtf16 (unprocessed : List UInt8) : Option (List UInt8 × Nat) :=
  match parseUtf16Hex (unprocessed.drop 1) with
  | none => none
  | some cp =>
      if cp < 0x80 then some ([UInt8.ofNat cp], 4)
      else if cp < 0x800 then
        some ([UInt8.ofNat ((cp >>> 6) &&& 0x1F ||| 0xC0), UInt8.ofNat (cp &&& 0x3F ||| 0x80)], 4)
      else if cp < 0xD800 ∨ cp > 0xDFFF then
        some ([UInt8.ofNat ((cp >>> 12) &&& 0x0F ||| 0xE0),
          UInt8.ofNat ((cp >>> 6) &&& 0x3F ||| 0x80), UInt8.ofNat (cp &&& 0x3F ||| 0x80)], 4)
      else if cp ≥ 0xD800 ∧ cp ≤ 0xDBFF then
        let lead := cp
        match unprocessed.drop 5 with
        | first :: second :: digits =>
            if first ≠ backslash ∨ second ≠ letterU then none
            else
              match parseUtf16Hex digits with
              | none => none
              | some trail =>
                  if trail < 0xDC00 ∨ trail > 0xDFFF then none
                  else
                    let cp := ((((lead - 0xD800) &&& 0x3FF) <<< 10) |||
                      ((trail - 0xDC00) &&& 0x3FF)) + 0x010000
                    some ([UInt8.ofNat ((cp >>> 18) &&& 0x07 ||| 0xF0),
                      UInt8.ofNat ((cp >>> 12) &&& 0x3F ||| 0x80),
                      UInt8.ofNat ((cp >>> 6) &&& 0x3F ||| 0x80),
                      UInt8.ofNat (cp &&& 0x3F ||| 0x80)], 10)
        | _ => none
      else none

/-- The loop of `process_string`, with `left` bytes of the string left. -/
def processLoop (input : List UInt8) (left : Nat) : Option (List UInt8) :=
  match input with
  | [] => some []
  | byte :: rest =>
      if left = 0 then some []
      else if byte = backslash then
        match rest with
        | [] => none
        | letter :: behind =>
            if letter = letterU then
              match parseUtf16 (letter :: behind) with
              | none => none
              | some (processed, advance) =>
                  (processLoop ((letter :: behind).drop (advance + 1))
                    (left - (advance + 2))).map (processed ++ ·)
            else
              match escapeValue letter with
              | none => none
              | some output => (processLoop behind (left - 2)).map (output :: ·)
      else if byte < 0x20 then none
      else (processLoop rest (left - 1)).map (byte :: ·)
termination_by left

/-- `process_string`. -/
def processString (input : List UInt8) (inputLen : Nat) : Option (List UInt8) :=
  processLoop input inputLen

/-- The loop of `skip_quotes`: the position behind the closing quote. -/
def skipQuotesLoop : List UInt8 → Option (List UInt8)
  | [] => none
  | byte :: rest =>
      if byte = quote then some rest
      else if byte = backslash then
        match rest with
        | [] => none
        | _ :: behind => skipQuotesLoop behind
      else skipQuotesLoop rest

/-- `skip_quotes`. -/
def skipQuotes : List UInt8 → Option (List UInt8)
  | [] => none
  | byte :: rest => if byte ≠ quote then none else skipQuotesLoop rest

/-- `get_quoted_string`: the string, and the position behind the closing quote. -/
def getQuotedString (string : List UInt8) : Option (List UInt8 × List UInt8) :=
  match skipQuotes string with
  | none => none
  | some rest =>
      let inputStringLen := string.length - rest.length - 2
      (processString (string.drop 1) inputStringLen).map fun output => (output, rest)

example : getQuotedString (ascii "\"a\\u00e9\\n\" :") = some ([97, 0xC3, 0xA9, 10], ascii " :") := by
  decide +kernel

/-! ## Escapes of code units -/

/-- A hexadecimal digit gives its value. -/
theorem hexCharToInt_of_some {c : UInt8} {n : Nat} (digit : hexValue c = some n) :
    hexCharToInt c = n := by
  unfold hexValue at digit
  simp only [hexCharToInt, ge_iff_le, UInt8.le_iff_toNat_le, UInt8.reduceToNat]
  dsimp only at digit
  split_ifs at digit ⊢
  all_goals
    obtain rfl := Option.some.inj digit
    omega

/-- What is no hexadecimal digit gives -1. -/
theorem hexCharToInt_of_none {c : UInt8} (other : hexValue c = none) : hexCharToInt c = -1 := by
  unfold hexValue at other
  simp only [hexCharToInt, ge_iff_le, UInt8.le_iff_toNat_le, UInt8.reduceToNat]
  dsimp only at other
  split_ifs at other ⊢
  rfl

/-- Bits that do not overlap are added. -/
theorem shiftLeft_or {n k width : Nat} (m : Nat) (isWidth : 2 ^ k = width) (small : n < width) :
    m <<< k ||| n = m * width + n := by
  subst isWidth
  rw [← Nat.shiftLeft_add_eq_or_of_lt small, Nat.shiftLeft_eq]

/-- The four digits are put together as a number. -/
theorem hexDigits_or {x1 x2 x3 x4 : Nat} (small2 : x2 < 16) (small3 : x3 < 16) (small4 : x4 < 16) :
    x1 <<< 12 ||| x2 <<< 8 ||| x3 <<< 4 ||| x4 = ((x1 * 16 + x2) * 16 + x3) * 16 + x4 := by
  have width : 2 ^ 4 = 16 := rfl
  have first : x1 <<< 12 ||| x2 <<< 8 = (x1 * 16 + x2) <<< 8 := by
    rw [show x1 <<< 12 = (x1 <<< 4) <<< 8 from Nat.shiftLeft_add x1 4 8, ← Nat.shiftLeft_or_distrib,
      shiftLeft_or x1 width small2]
  have second : (x1 * 16 + x2) <<< 8 ||| x3 <<< 4 = ((x1 * 16 + x2) * 16 + x3) <<< 4 := by
    rw [show (x1 * 16 + x2) <<< 8 = ((x1 * 16 + x2) <<< 4) <<< 4 from Nat.shiftLeft_add _ 4 4,
      ← Nat.shiftLeft_or_distrib, shiftLeft_or _ width small3]
  rw [first, second, shiftLeft_or _ width small4]

/-- The low bits of a number under a mark. -/
theorem and_or_mark (n k m : Nat) : n &&& (2 ^ k - 1) ||| m <<< k = n % 2 ^ k + m * 2 ^ k := by
  have small : n % 2 ^ k < 2 ^ k := Nat.mod_lt _ (Nat.two_pow_pos k)
  rw [Nat.and_two_pow_sub_one_eq_mod, Nat.or_comm, shiftLeft_or m rfl small, Nat.add_comm]

/-- The bytes written for a code point are its encoding. -/
theorem written_bytes (cp : Nat) :
    (cp >>> 6) &&& 0x1F ||| 0xC0 = cp / 64 % 32 + 0xC0 ∧
      (cp >>> 12) &&& 0x0F ||| 0xE0 = cp / 4096 % 16 + 0xE0 ∧
      (cp >>> 18) &&& 0x07 ||| 0xF0 = cp / 262144 % 8 + 0xF0 ∧
      (cp >>> 12) &&& 0x3F ||| 0x80 = cp / 4096 % 64 + 0x80 ∧
      (cp >>> 6) &&& 0x3F ||| 0x80 = cp / 64 % 64 + 0x80 ∧ cp &&& 0x3F ||| 0x80 = cp % 64 + 0x80 := by
  simp only [Nat.shiftRight_eq_div_pow]
  exact ⟨and_or_mark _ 5 6, and_or_mark _ 4 14, and_or_mark _ 3 30, and_or_mark _ 6 2,
    and_or_mark _ 6 2, and_or_mark _ 6 2⟩

/-- The four digits at the start of a text are read as their number. -/
theorem parseUtf16Hex_eq_some_iff {text : List UInt8} {n : Nat} :
    parseUtf16Hex text = some n ↔ ∃ digits rest, text = digits ++ rest ∧ HexDigits digits n := by
  constructor
  · intro parsed
    unfold parseUtf16Hex at parsed
    split at parsed
    case h_1 s0 s1 s2 s3 rest =>
      dsimp only at parsed
      split at parsed
      case isTrue => cases parsed
      case isFalse digits =>
        have known (c : UInt8) (digit : hexCharToInt c ≠ -1) : ∃ n, hexValue c = some n :=
          Option.ne_none_iff_exists'.mp fun other => digit (hexCharToInt_of_none other)
        simp only [not_or] at digits
        obtain ⟨n1, first⟩ := known s0 digits.1
        obtain ⟨n2, second⟩ := known s1 digits.2.1
        obtain ⟨n3, third⟩ := known s2 digits.2.2.1
        obtain ⟨n4, fourth⟩ := known s3 digits.2.2.2
        rw [hexCharToInt_of_some first, hexCharToInt_of_some second, hexCharToInt_of_some third,
          hexCharToInt_of_some fourth, Int.toNat_natCast, Int.toNat_natCast, Int.toNat_natCast,
          Int.toNat_natCast, hexDigits_or (hexValue_ascii second).2 (hexValue_ascii third).2
            (hexValue_ascii fourth).2] at parsed
        obtain rfl := Option.some.inj parsed
        exact ⟨[s0, s1, s2, s3], rest, rfl, .four first second third fourth⟩
    case h_2 => cases parsed
  · rintro ⟨digits, rest, rfl, ⟨first, second, third, fourth⟩⟩
    have nonnegative (n : Nat) : (n : Int) ≠ -1 := by omega
    simp only [parseUtf16Hex, List.cons_append, hexCharToInt_of_some first,
      hexCharToInt_of_some second, hexCharToInt_of_some third, hexCharToInt_of_some fourth,
      nonnegative, or_self, if_false, Int.toNat_natCast]
    rw [hexDigits_or (hexValue_ascii second).2 (hexValue_ascii third).2 (hexValue_ascii fourth).2]

/-- The combination of two surrogates. -/
theorem surrogates_or {lead trail : Nat} (isLead : 0xD800 ≤ lead ∧ lead ≤ 0xDBFF)
    (isTrail : 0xDC00 ≤ trail ∧ trail ≤ 0xDFFF) :
    (((lead - 0xD800) &&& 0x3FF) <<< 10 ||| ((trail - 0xDC00) &&& 0x3FF)) + 0x010000 =
      (lead - 0xD800) * 0x400 + (trail - 0xDC00) + 0x10000 := by
  have low (n : Nat) (small : n < 0x400) : n &&& 0x3FF = n := by
    rw [show (0x3FF : Nat) = 2 ^ 10 - 1 from rfl, Nat.and_two_pow_sub_one_eq_mod,
      Nat.mod_eq_of_lt small]
  have width : 2 ^ 10 = 0x400 := rfl
  rw [low _ (by omega), low _ (by omega), shiftLeft_or _ width (by omega)]

section

variable {digits digits' rest : List UInt8} {n lead trail : Nat}

/-- Four hexadecimal digits are read as their number. -/
theorem parseUtf16Hex_of_digits (written : HexDigits digits n) :
    parseUtf16Hex (digits ++ rest) = some n :=
  parseUtf16Hex_eq_some_iff.mpr ⟨digits, rest, rfl, written⟩

/-- An escape for a scalar value gives its bytes in UTF-8. -/
theorem parseUtf16_scalar (written : HexDigits digits n) (scalar : n.isValidChar) :
    parseUtf16 (letterU :: (digits ++ rest)) = some (String.utf8EncodeChar (Char.ofNat n), 4) := by
  have small := written.lt
  obtain ⟨two1, three1, _, _, mid6, last⟩ := written_bytes n
  rw [Utf8.utf8EncodeChar_ofNat scalar, parseUtf16, List.drop_succ_cons, List.drop_zero,
    parseUtf16Hex_of_digits written]
  dsimp only
  split_ifs with one two three surrogate
  · rfl
  · rw [two1, last]
  · rw [three1, mid6, last]
  · exact absurd scalar (by unfold Nat.isValidChar; omega)
  · exact absurd scalar (by unfold Nat.isValidChar; omega)

/-- Two escapes for a pair of surrogates give the bytes of one character. -/
theorem parseUtf16_surrogates (written : HexDigits digits lead)
    (isLead : 0xD800 ≤ lead ∧ lead ≤ 0xDBFF) (written' : HexDigits digits' trail)
    (isTrail : 0xDC00 ≤ trail ∧ trail ≤ 0xDFFF) :
    parseUtf16 (letterU :: (digits ++ backslash :: letterU :: (digits' ++ rest))) =
      some (String.utf8EncodeChar
        (Char.ofNat ((lead - 0xD800) * 0x400 + (trail - 0xDC00) + 0x10000)), 10) := by
  have scalar : ((lead - 0xD800) * 0x400 + (trail - 0xDC00) + 0x10000).isValidChar := by
    unfold Nat.isValidChar
    omega
  obtain ⟨_, _, four1, mid12, mid6, last⟩ :=
    written_bytes ((lead - 0xD800) * 0x400 + (trail - 0xDC00) + 0x10000)
  have behind : (letterU :: (digits ++ backslash :: letterU :: (digits' ++ rest))).drop 5 =
      backslash :: letterU :: (digits' ++ rest) := by
    rw [List.drop_succ_cons, List.drop_left' written.length_eq]
  rw [Utf8.utf8EncodeChar_ofNat scalar, if_neg (by omega), if_neg (by omega), if_neg (by omega),
    parseUtf16, List.drop_succ_cons, List.drop_zero, parseUtf16Hex_of_digits written]
  dsimp only
  rw [if_neg (by omega), if_neg (by omega), if_neg (by omega), if_pos isLead, behind]
  dsimp only
  rw [if_neg (by simp), parseUtf16Hex_of_digits written']
  dsimp only
  rw [if_neg (by omega), surrogates_or isLead isTrail, four1, mid12, mid6, last]

end

/-- What `parse_utf16` writes is the encoding of a character. -/
theorem parseUtf16_eq_some_iff {text processed : List UInt8} {advance : Nat} :
    parseUtf16 (letterU :: text) = some (processed, advance) ↔
      ∃ units rest c, text = units ++ rest ∧ CodeUnits units c ∧
        processed = String.utf8EncodeChar c ∧ advance = units.length := by
  constructor
  · intro parsed
    cases found : parseUtf16Hex text with
    | none => simp [parseUtf16, found] at parsed
    | some cp =>
        obtain ⟨digits, rest, rfl, written⟩ := parseUtf16Hex_eq_some_iff.mp found
        by_cases scalar : cp.isValidChar
        · rw [parseUtf16_scalar written scalar] at parsed
          obtain ⟨rfl, rfl⟩ := Prod.mk.inj (Option.some.inj parsed)
          exact ⟨digits, rest, _, rfl, .scalar written scalar, rfl, written.length_eq.symm⟩
        · have small := written.lt
          have range : 0xD800 ≤ cp ∧ cp ≤ 0xDFFF := by
            unfold Nat.isValidChar at scalar
            omega
          have behind : (letterU :: (digits ++ rest)).drop 5 = rest := by
            rw [List.drop_succ_cons, List.drop_left' written.length_eq]
          have result := parsed
          simp only [parseUtf16, List.drop_succ_cons, List.drop_zero, found, behind] at parsed
          rw [if_neg (by omega), if_neg (by omega), if_neg (by omega)] at parsed
          split at parsed
          case isFalse => cases parsed
          case isTrue isLead =>
            split at parsed
            case h_2 => cases parsed
            case h_1 first second digits' =>
              split_ifs at parsed with other
              obtain ⟨rfl, rfl⟩ : first = backslash ∧ second = letterU := by simpa using other
              split at parsed
              case h_1 => cases parsed
              case h_2 trail foundTrail =>
                obtain ⟨digits', rest, rfl, written'⟩ := parseUtf16Hex_eq_some_iff.mp foundTrail
                split at parsed
                case isTrue => cases parsed
                case isFalse isTrail =>
                  rw [parseUtf16_surrogates written isLead written' (by omega)] at result
                  obtain ⟨rfl, rfl⟩ := Prod.mk.inj (Option.some.inj result)
                  refine ⟨digits ++ backslash :: letterU :: digits', rest, _, by simp,
                    .surrogates written isLead written' (by omega), rfl, ?_⟩
                  simp [written.length_eq, written'.length_eq]
  · rintro ⟨units, rest, c, rfl, written, rfl, rfl⟩
    cases written with
    | scalar written scalar => rw [parseUtf16_scalar written scalar, written.length_eq]
    | surrogates written isLead written' isTrail =>
        rw [List.append_assoc, List.cons_append, List.cons_append,
          parseUtf16_surrogates written isLead written' isTrail]
        simp [written.length_eq, written'.length_eq]

/-! ## The part between the quotes -/

/-- Bytes without a quote that is not escaped, and with every escape complete. -/
inductive Closed : List UInt8 → Prop where
  | nil : Closed []
  | plain {byte : UInt8} {raw : List UInt8} (notQuote : byte ≠ quote)
      (notBackslash : byte ≠ backslash) (rest : Closed raw) : Closed (byte :: raw)
  | escaped {byte : UInt8} {raw : List UInt8} (rest : Closed raw) :
      Closed (backslash :: byte :: raw)

variable {raw text rest behind bytes : List UInt8}

@[simp] theorem skipQuotesLoop_quote : skipQuotesLoop (quote :: rest) = some rest := by
  rw [skipQuotesLoop.eq_def]
  simp only [if_true]

@[simp] theorem skipQuotesLoop_backslash {byte : UInt8} :
    skipQuotesLoop (backslash :: byte :: rest) = skipQuotesLoop rest := by
  rw [skipQuotesLoop.eq_def]
  rfl

@[simp] theorem skipQuotesLoop_plain {byte : UInt8} (notQuote : byte ≠ quote)
    (notBackslash : byte ≠ backslash) : skipQuotesLoop (byte :: rest) = skipQuotesLoop rest := by
  rw [skipQuotesLoop.eq_def]
  simp only [notQuote, notBackslash, if_false]

/-- The loop stops at the quote behind a closed text. -/
theorem skipQuotesLoop_of_closed (closed : Closed raw) :
    skipQuotesLoop (raw ++ quote :: rest) = some rest := by
  induction closed with
  | nil => exact skipQuotesLoop_quote
  | plain notQuote notBackslash _ ih =>
      rw [List.cons_append, skipQuotesLoop_plain notQuote notBackslash]
      exact ih
  | escaped _ ih =>
      rw [List.cons_append, List.cons_append, skipQuotesLoop_backslash]
      exact ih

/-- The closing quote is the first one that is not escaped. -/
theorem skipQuotesLoop_eq_some_iff :
    skipQuotesLoop text = some rest ↔ ∃ raw, text = raw ++ quote :: rest ∧ Closed raw := by
  constructor
  · intro found
    induction text using skipQuotesLoop.induct with
    | case1 => cases found
    | case2 =>
        rw [skipQuotesLoop_quote] at found
        obtain rfl := Option.some.inj found
        exact ⟨[], rfl, .nil⟩
    | case3 => cases found
    | case4 byte behind _ ih =>
        rw [skipQuotesLoop_backslash] at found
        obtain ⟨raw, rfl, closed⟩ := ih found
        exact ⟨backslash :: byte :: raw, rfl, closed.escaped⟩
    | case5 byte behind notQuote notBackslash ih =>
        rw [skipQuotesLoop_plain notQuote notBackslash] at found
        obtain ⟨raw, rfl, closed⟩ := ih found
        exact ⟨byte :: raw, rfl, closed.plain notQuote notBackslash⟩
  · rintro ⟨raw, rfl, closed⟩
    exact skipQuotesLoop_of_closed closed

/-- Bytes that are neither quotes nor backslashes lie in front of the closing quote. -/
theorem Closed.strip {digits : List UInt8} (closed : Closed raw)
    (plain : ∀ byte ∈ digits, byte ≠ quote ∧ byte ≠ backslash)
    (same : raw ++ quote :: rest = digits ++ behind) :
    ∃ later, raw = digits ++ later ∧ Closed later ∧ behind = later ++ quote :: rest := by
  induction digits generalizing raw with
  | nil => exact ⟨raw, rfl, closed, same.symm⟩
  | cons digit digits ih =>
      obtain ⟨⟨notQuote, notBackslash⟩, others⟩ := List.forall_mem_cons.mp plain
      cases closed with
      | nil => exact absurd (List.cons.inj same).1.symm notQuote
      | escaped => exact absurd (List.cons.inj same).1.symm notBackslash
      | plain _ _ closed =>
          rw [List.cons_append, List.cons_append] at same
          obtain ⟨rfl, tails⟩ := List.cons.inj same
          obtain ⟨later, rfl, closedLater, rfl⟩ := ih closed others tails
          exact ⟨later, rfl, closedLater, rfl⟩

/-- A closed text that starts with an escape has all of it. -/
theorem Closed.strip_escape {letter : UInt8} (closed : Closed raw)
    (same : raw ++ quote :: rest = backslash :: letter :: behind) :
    ∃ later, raw = backslash :: letter :: later ∧ Closed later ∧ behind = later ++ quote :: rest := by
  cases closed with
  | nil => exact absurd (List.cons.inj same).1 (by decide)
  | plain _ notBackslash => exact absurd (List.cons.inj same).1 notBackslash
  | escaped closed =>
      rw [List.cons_append, List.cons_append] at same
      obtain ⟨_, letters⟩ := List.cons.inj same
      obtain ⟨rfl, tails⟩ := List.cons.inj letters
      exact ⟨_, rfl, closed, tails.symm⟩

/-- The digits of a character lie in front of the closing quote. -/
theorem Closed.strip_units {units : List UInt8} {c : Char} (closed : Closed raw)
    (written : CodeUnits units c) (same : raw ++ quote :: rest = units ++ behind) :
    ∃ later, raw = units ++ later ∧ Closed later ∧ behind = later ++ quote :: rest := by
  cases written with
  | scalar written => exact closed.strip written.plain same
  | surrogates written _ written' _ =>
      rw [List.append_assoc, List.cons_append, List.cons_append] at same
      obtain ⟨first, rfl, closedFirst, between⟩ := closed.strip written.plain same
      obtain ⟨second, rfl, closedSecond, trail⟩ := closedFirst.strip_escape between.symm
      obtain ⟨later, rfl, closedLater, rfl⟩ := closedSecond.strip written'.plain trail.symm
      exact ⟨later, by simp, closedLater, rfl⟩

/-- Plain bytes in front keep a text closed. -/
theorem Closed.append_plain {digits : List UInt8} (closed : Closed raw)
    (plain : ∀ byte ∈ digits, byte ≠ quote ∧ byte ≠ backslash) : Closed (digits ++ raw) := by
  induction digits with
  | nil => exact closed
  | cons digit digits ih =>
      obtain ⟨⟨notQuote, notBackslash⟩, others⟩ := List.forall_mem_cons.mp plain
      exact (ih others).plain notQuote notBackslash

/-- The text of characters is closed. -/
theorem closed_of_chars (chars : Chars raw bytes) : Closed raw := by
  induction chars with
  | nil => exact .nil
  | plain _ notQuote notBackslash _ ih => exact ih.plain notQuote notBackslash
  | escaped _ _ ih => exact ih.escaped
  | unicode written _ ih =>
      refine Closed.escaped ?_
      cases written with
      | scalar written => exact ih.append_plain written.plain
      | surrogates written _ written' _ =>
          rw [List.append_assoc, List.cons_append, List.cons_append]
          exact (ih.append_plain written'.plain).escaped.append_plain written.plain

section

variable {byte letter : UInt8} {left : Nat}

@[simp] theorem processLoop_zero (input : List UInt8) : processLoop input 0 = some [] := by
  cases input with
  | nil => rw [processLoop.eq_def]
  | cons byte rest =>
      rw [processLoop.eq_def]
      rfl

/-- A byte that is no backslash stands for itself, unless it is a control character. -/
theorem processLoop_plain (notBackslash : byte ≠ backslash) :
    processLoop (byte :: rest) (left + 1) =
      if byte < 0x20 then none else (processLoop rest left).map (byte :: ·) := by
  rw [processLoop.eq_def]
  simp only [Nat.add_one_ne_zero, if_neg notBackslash, if_false, Nat.add_sub_cancel]

/-- A letter behind a backslash stands for what it escapes. -/
theorem processLoop_escaped (notU : letter ≠ letterU) :
    processLoop (backslash :: letter :: behind) (left + 2) =
      (escapeValue letter).bind fun output =>
        (processLoop behind left).map (output :: ·) := by
  rw [processLoop.eq_def]
  simp only [if_neg notU, if_true, if_neg (Nat.succ_ne_zero _), Nat.add_sub_cancel]
  cases escapeValue letter <;> rfl

/-- Behind a backslash and `u` there is the escape of a character. -/
theorem processLoop_unicode :
    processLoop (backslash :: letterU :: behind) (left + 1) =
      (parseUtf16 (letterU :: behind)).bind fun written =>
        (processLoop (behind.drop written.2) (left - (written.2 + 1))).map (written.1 ++ ·) := by
  rw [processLoop.eq_def]
  simp only [if_true, if_neg (Nat.succ_ne_zero _), List.drop_succ_cons,
    show ∀ advance, left + 1 - (advance + 2) = left - (advance + 1) by omega]
  cases parseUtf16 (letterU :: behind) <;> rfl

end

/-- A string is copied with its escapes resolved, whatever is behind it. -/
theorem processLoop_of_chars (chars : Chars raw bytes) :
    processLoop (raw ++ behind) raw.length = some bytes := by
  induction chars with
  | nil => exact processLoop_zero _
  | plain printable _ notBackslash _ ih =>
      have notControl := Nat.not_lt.mpr printable
      rw [List.cons_append, List.length_cons, processLoop_plain notBackslash,
        if_neg (by rwa [UInt8.lt_iff_toNat_lt]), ih, Option.map_some]
  | @escaped letter byte _ _ stands _ ih =>
      have notU : letter ≠ letterU := by
        rintro rfl
        cases stands
      rw [List.cons_append, List.cons_append, List.length_cons, List.length_cons,
        processLoop_escaped notU, stands, Option.bind_some, ih, Option.map_some]
  | @unicode units raw _ c written _ ih =>
      have parsed : parseUtf16 (letterU :: (units ++ (raw ++ behind))) =
          some (String.utf8EncodeChar c, units.length) :=
        parseUtf16_eq_some_iff.mpr ⟨units, raw ++ behind, c, rfl, written, rfl, rfl⟩
      have left : (units ++ raw).length + 1 - (units.length + 1) = raw.length := by
        rw [List.length_append]
        omega
      rw [List.cons_append, List.cons_append, List.append_assoc, List.length_cons,
        List.length_cons, processLoop_unicode, parsed, Option.bind_some, List.drop_left, left, ih,
        Option.map_some]

/-- What is copied is what the string stands for. -/
theorem chars_of_processLoop (closed : Closed raw)
    (processed : processLoop (raw ++ quote :: rest) raw.length = some bytes) : Chars raw bytes := by
  induction length : raw.length using Nat.strongRecOn generalizing raw bytes with
  | _ n ih =>
      subst length
      cases closed with
      | nil =>
          obtain rfl : [] = bytes := Option.some.inj ((processLoop_zero _).symm.trans processed)
          exact .nil
      | @plain byte raw notQuote notBackslash closed =>
          rw [List.cons_append, List.length_cons, processLoop_plain notBackslash] at processed
          split_ifs at processed with control
          obtain ⟨later, copied, rfl⟩ := Option.map_eq_some_iff.mp processed
          rw [UInt8.lt_iff_toNat_lt, Nat.not_lt] at control
          exact .plain control notQuote notBackslash (ih _ (by simp) closed copied rfl)
      | @escaped letter raw closed =>
          rw [List.cons_append, List.cons_append, List.length_cons, List.length_cons] at processed
          by_cases isU : letter = letterU
          · subst isU
            rw [processLoop_unicode] at processed
            obtain ⟨⟨_, _⟩, parsed, copied⟩ := Option.bind_eq_some_iff.mp processed
            obtain ⟨units, behind, c, same, written, rfl, rfl⟩ := parseUtf16_eq_some_iff.mp parsed
            obtain ⟨later, rfl, closedLater, rfl⟩ := closed.strip_units written same
            obtain ⟨others, inner, rfl⟩ := Option.map_eq_some_iff.mp copied
            have left : (units ++ later).length + 1 - (units.length + 1) = later.length := by
              rw [List.length_append]
              omega
            rw [same, List.drop_left, left] at inner
            exact .unicode written (ih _ (by simp; omega) closedLater inner rfl)
          · rw [processLoop_escaped isU] at processed
            obtain ⟨output, stands, copied⟩ := Option.bind_eq_some_iff.mp processed
            obtain ⟨others, inner, rfl⟩ := Option.map_eq_some_iff.mp copied
            have shorter : raw.length < (backslash :: letter :: raw).length := by
              simp only [List.length_cons]
              omega
            exact .escaped stands (ih _ shorter closed inner rfl)

/-- `get_quoted_string` reads exactly the strings between quotes. -/
theorem getQuotedString_eq_some_iff :
    getQuotedString text = some (bytes, rest) ↔
      ∃ raw, text = quote :: (raw ++ quote :: rest) ∧ Chars raw bytes := by
  have lengths (raw : List UInt8) :
      (quote :: (raw ++ quote :: rest)).length - rest.length - 2 = raw.length := by
    simp only [List.length_cons, List.length_append]
    omega
  constructor
  · intro read
    unfold getQuotedString at read
    split at read
    case h_1 => cases read
    case h_2 behind skipped =>
      obtain ⟨output, copied, same⟩ := Option.map_eq_some_iff.mp read
      obtain ⟨rfl, rfl⟩ := Prod.mk.inj same
      cases text with
      | nil => cases skipped
      | cons byte text =>
          rw [skipQuotes] at skipped
          split_ifs at skipped with isQuote
          obtain ⟨raw, rfl, closed⟩ := skipQuotesLoop_eq_some_iff.mp skipped
          obtain rfl : byte = quote := of_not_not isQuote
          rw [lengths, List.drop_succ_cons, List.drop_zero, processString] at copied
          exact ⟨raw, rfl, chars_of_processLoop closed copied⟩
  · rintro ⟨raw, rfl, chars⟩
    have skipped : skipQuotes (quote :: (raw ++ quote :: rest)) = some rest := by
      rw [skipQuotes, if_neg (by simp), skipQuotesLoop_of_closed (closed_of_chars chars)]
    rw [getQuotedString, skipped]
    dsimp only
    rw [lengths, List.drop_succ_cons, List.drop_zero, processString, processLoop_of_chars chars]
    rfl

end CommunicationProtocols.Parson
