import CommunicationProtocols.Parson.Doubles

/-!
# The check of UTF-8

`is_valid_utf8` goes over a string sequence by sequence. It looks at up to three bytes
behind the first one of a sequence without asking how many are left; the NUL of the
string is no continuation byte, so that it never gets further. The check accepts
exactly the texts in UTF-8, and every string of a parsed text in UTF-8 passes it.
-/

namespace CommunicationProtocols.Parson

open Library Library.Json

/-- `IS_CONT`. -/
def isCont (b : UInt8) : Bool := b &&& 0xC0 = 0x80

/-- `num_bytes_in_utf8_sequence`. -/
def numBytesInUtf8Sequence (c : UInt8) : Nat :=
  if c = 0xC0 ∨ c = 0xC1 ∨ c > 0xF4 ∨ isCont c then 0
  else if c &&& 0x80 = 0 then 1
  else if c &&& 0xE0 = 0xC0 then 2
  else if c &&& 0xF0 = 0xE0 then 3
  else if c &&& 0xF8 = 0xF0 then 4
  else 0

/-- `verify_utf8_sequence` on the bytes from a position on: the length of the sequence. -/
def verifyUtf8Sequence (string : List UInt8) : Option Nat :=
  let byte (i : Nat) : UInt8 := string.getD i 0
  let len := numBytesInUtf8Sequence (byte 0)
  let cp : Option Nat :=
    if len = 1 then some (byte 0).toNat
    else if len = 2 ∧ isCont (byte 1) then
      some (((byte 0).toNat &&& 0x1F) <<< 6 ||| ((byte 1).toNat &&& 0x3F))
    else if len = 3 ∧ isCont (byte 1) ∧ isCont (byte 2) then
      some ((((byte 0).toNat &&& 0xF) <<< 6 ||| ((byte 1).toNat &&& 0x3F)) <<< 6 |||
        ((byte 2).toNat &&& 0x3F))
    else if len = 4 ∧ isCont (byte 1) ∧ isCont (byte 2) ∧ isCont (byte 3) then
      some (((((byte 0).toNat &&& 0x7) <<< 6 ||| ((byte 1).toNat &&& 0x3F)) <<< 6 |||
        ((byte 2).toNat &&& 0x3F)) <<< 6 ||| ((byte 3).toNat &&& 0x3F))
    else none
  cp.bind fun cp =>
    if (cp < 0x80 ∧ len > 1) ∨ (cp < 0x800 ∧ len > 2) ∨ (cp < 0x10000 ∧ len > 3) then none
    else if cp > 0x10FFFF then none
    else if cp ≥ 0xD800 ∧ cp ≤ 0xDFFF then none
    else some len

/-- `is_valid_utf8` on the bytes from a position on, of which `stringLen` are left. It makes
at most `stringLen` rounds. -/
def isValidUtf8 (string : List UInt8) (stringLen : Nat) : Bool :=
  loop stringLen string stringLen
where
  /-- The loop, which makes at most `rounds` rounds. -/
  loop : Nat → List UInt8 → Nat → Bool
  | 0, _, left => left = 0
  | rounds + 1, string, left =>
      if left = 0 then true
      else
        match verifyUtf8Sequence string with
        | none => false
        | some len => loop rounds (string.drop len) (left - len)

/-! ## One sequence -/

variable {b b1 b2 b3 : UInt8} {rest : List UInt8}

/-- The bytes of a sequence by their values. -/
theorem isCont_iff : isCont b = true ↔ 0x80 ≤ b.toNat ∧ b.toNat < 0xC0 := by
  have all : ∀ n : Nat, n < 256 → (isCont (UInt8.ofNat n) = true ↔ 0x80 ≤ n ∧ n < 0xC0) := by
    decide +kernel
  simpa using all b.toNat b.toNat_lt

/-- The length of a sequence by the range of its first byte. -/
theorem numBytesInUtf8Sequence_iff (b : UInt8) :
    (numBytesInUtf8Sequence b = 1 ↔ b.toNat < 0x80) ∧
      (numBytesInUtf8Sequence b = 2 ↔ 0xC2 ≤ b.toNat ∧ b.toNat < 0xE0) ∧
      (numBytesInUtf8Sequence b = 3 ↔ 0xE0 ≤ b.toNat ∧ b.toNat < 0xF0) ∧
      (numBytesInUtf8Sequence b = 4 ↔ 0xF0 ≤ b.toNat ∧ b.toNat < 0xF5) := by
  have all : ∀ n : Nat, n < 256 →
      (numBytesInUtf8Sequence (UInt8.ofNat n) = 1 ↔ n < 0x80) ∧
        (numBytesInUtf8Sequence (UInt8.ofNat n) = 2 ↔ 0xC2 ≤ n ∧ n < 0xE0) ∧
        (numBytesInUtf8Sequence (UInt8.ofNat n) = 3 ↔ 0xE0 ≤ n ∧ n < 0xF0) ∧
        (numBytesInUtf8Sequence (UInt8.ofNat n) = 4 ↔ 0xF0 ≤ n ∧ n < 0xF5) := by
    decide +kernel
  simpa using all b.toNat b.toNat_lt

/-- The bits of a sequence put together. -/
theorem six_bits (m n : Nat) : m <<< 6 ||| (n &&& 0x3F) = m * 64 + n % 64 := by
  have width : 2 ^ 6 = 64 := rfl
  rw [Nat.and_two_pow_sub_one_eq_mod n 6, width, shiftLeft_or m width (Nat.mod_lt _ (by decide))]

/-- A continuation byte belongs to the string, and is not the end of it. -/
theorem cons_of_isCont {string : List UInt8} (cont : isCont (string.getD 0 0) = true) :
    ∃ b rest, string = b :: rest := by
  cases string with
  | nil => cases cont
  | cons b rest => exact ⟨b, rest, rfl⟩

/-- What is accepted as a sequence is the encoding of a character. -/
theorem exists_char_of_verify {string : List UInt8} {n : Nat} (nonempty : string ≠ [])
    (verified : verifyUtf8Sequence string = some n) :
    ∃ c rest, string = String.utf8EncodeChar c ++ rest ∧ n = (String.utf8EncodeChar c).length := by
  obtain ⟨b, rest, rfl⟩ := List.exists_cons_of_ne_nil nonempty
  obtain ⟨cp, found, accepted⟩ := Option.bind_eq_some_iff.mp verified
  split_ifs at accepted with overlong large surrogate
  obtain rfl := Option.some.inj accepted
  simp only [List.getD_cons_zero, List.getD_cons_succ] at found overlong
  have scalar : cp.isValidChar := by
    unfold Nat.isValidChar
    omega
  have encoded := Utf8.utf8EncodeChar_ofNat scalar
  obtain ⟨lead1, lead2, lead3, lead4⟩ := numBytesInUtf8Sequence_iff b
  split_ifs at found with one two three four
  · obtain rfl := Option.some.inj found
    rw [if_pos (lead1.mp one), UInt8.ofNat_toNat] at encoded
    refine ⟨_, rest, by rw [encoded]; rfl, ?_⟩
    rw [encoded]
    exact one
  · obtain ⟨len, cont1⟩ := two
    obtain ⟨b1, rest, rfl⟩ := cons_of_isCont cont1
    simp only [List.getD_cons_zero] at found cont1
    have range := lead2.mp len
    have range1 := isCont_iff.mp cont1
    rw [six_bits, Nat.and_two_pow_sub_one_eq_mod b.toNat 5, Option.some_inj] at found
    have first : cp / 64 % 32 + 0xC0 = b.toNat := by omega
    have second : cp % 64 + 0x80 = b1.toNat := by omega
    rw [if_neg (by omega), if_pos (by omega), first, second, UInt8.ofNat_toNat, UInt8.ofNat_toNat]
      at encoded
    refine ⟨_, rest, by rw [encoded]; rfl, ?_⟩
    rw [encoded]
    exact len
  · obtain ⟨len, cont1, cont2⟩ := three
    obtain ⟨b1, rest, rfl⟩ := cons_of_isCont cont1
    obtain ⟨b2, rest, rfl⟩ := cons_of_isCont cont2
    simp only [List.getD_cons_zero, List.getD_cons_succ] at found cont1 cont2
    have range := lead3.mp len
    have range1 := isCont_iff.mp cont1
    have range2 := isCont_iff.mp cont2
    rw [six_bits, six_bits, Nat.and_two_pow_sub_one_eq_mod b.toNat 4, Option.some_inj] at found
    have first : cp / 4096 % 16 + 0xE0 = b.toNat := by omega
    have second : cp / 64 % 64 + 0x80 = b1.toNat := by omega
    have third : cp % 64 + 0x80 = b2.toNat := by omega
    rw [if_neg (by omega), if_neg (by omega), if_pos (by omega), first, second, third,
      UInt8.ofNat_toNat, UInt8.ofNat_toNat, UInt8.ofNat_toNat] at encoded
    refine ⟨_, rest, by rw [encoded]; rfl, ?_⟩
    rw [encoded]
    exact len
  · obtain ⟨len, cont1, cont2, cont3⟩ := four
    obtain ⟨b1, rest, rfl⟩ := cons_of_isCont cont1
    obtain ⟨b2, rest, rfl⟩ := cons_of_isCont cont2
    obtain ⟨b3, rest, rfl⟩ := cons_of_isCont cont3
    simp only [List.getD_cons_zero, List.getD_cons_succ] at found cont1 cont2 cont3
    have range := lead4.mp len
    have range1 := isCont_iff.mp cont1
    have range2 := isCont_iff.mp cont2
    have range3 := isCont_iff.mp cont3
    rw [six_bits, six_bits, six_bits, Nat.and_two_pow_sub_one_eq_mod b.toNat 3, Option.some_inj]
      at found
    have first : cp / 262144 % 8 + 0xF0 = b.toNat := by omega
    have second : cp / 4096 % 64 + 0x80 = b1.toNat := by omega
    have third : cp / 64 % 64 + 0x80 = b2.toNat := by omega
    have fourth : cp % 64 + 0x80 = b3.toNat := by omega
    rw [if_neg (by omega), if_neg (by omega), if_neg (by omega), first, second, third, fourth,
      UInt8.ofNat_toNat, UInt8.ofNat_toNat, UInt8.ofNat_toNat, UInt8.ofNat_toNat] at encoded
    refine ⟨_, rest, by rw [encoded]; rfl, ?_⟩
    rw [encoded]
    exact len

/-- The encoding of a character is accepted as a sequence. -/
theorem verify_char (c : Char) (rest : List UInt8) :
    verifyUtf8Sequence (String.utf8EncodeChar c ++ rest) = some (String.utf8EncodeChar c).length := by
  have valid : c.toNat.isValidChar := c.valid
  have same : Char.ofNat c.toNat = c := Char.ofNat_toNat c
  have encoded := Utf8.utf8EncodeChar_ofNat valid
  rw [same] at encoded
  generalize c.toNat = n at valid encoded
  have scalar : n < 0xD800 ∨ 0xDFFF < n ∧ n < 0x110000 := valid
  have low (m : Nat) (small : m < 256) : (UInt8.ofNat m).toNat = m := by
    rw [UInt8.toNat_ofNat', Nat.mod_eq_of_lt small]
  have cont (m : Nat) : isCont (UInt8.ofNat (m % 64 + 0x80)) = true := by
    rw [isCont_iff, low _ (by omega)]
    omega
  have bits (m : Nat) : (UInt8.ofNat (m % 64 + 0x80)).toNat % 64 = m % 64 := by
    rw [low _ (by omega)]
    omega
  -- It is enough that the bits of the sequence put together are the character.
  have accepted (len : Nat) (short : n < 0x80 → len = 1) (two : n < 0x800 → len ≤ 2)
      (three : n < 0x10000 → len ≤ 3) :
      (if (n < 0x80 ∧ len > 1) ∨ (n < 0x800 ∧ len > 2) ∨ (n < 0x10000 ∧ len > 3) then none
        else if n > 0x10FFFF then none
        else if n ≥ 0xD800 ∧ n ≤ 0xDFFF then none
        else some len) = some len := by
    rw [if_neg (by omega), if_neg (by omega), if_neg (by omega)]
  rw [encoded]
  split_ifs with one two three
  · obtain ⟨lead, -⟩ := numBytesInUtf8Sequence_iff (UInt8.ofNat n)
    have len := lead.mpr (by rw [low _ (by omega)]; exact one)
    simp only [verifyUtf8Sequence, List.cons_append, List.getD_cons_zero, len, if_true,
      low _ (show n < 256 by omega), Option.bind_some]
    exact accepted 1 (by omega) (by omega) (by omega)
  · obtain ⟨-, lead, -⟩ := numBytesInUtf8Sequence_iff (UInt8.ofNat (n / 64 % 32 + 0xC0))
    have len := lead.mpr (by rw [low _ (by omega)]; omega)
    have together : (n / 64 % 32 + 0xC0) % 32 * 64 + n % 64 = n := by omega
    simp only [verifyUtf8Sequence, List.cons_append, List.getD_cons_zero, List.getD_cons_succ, len,
      cont, six_bits, bits, low _ (show n / 64 % 32 + 0xC0 < 256 by omega),
      Nat.and_two_pow_sub_one_eq_mod _ 5, together]
    exact accepted 2 (by omega) (by omega) (by omega)
  · obtain ⟨-, -, lead, -⟩ := numBytesInUtf8Sequence_iff (UInt8.ofNat (n / 4096 % 16 + 0xE0))
    have len := lead.mpr (by rw [low _ (by omega)]; omega)
    have together : ((n / 4096 % 16 + 0xE0) % 16 * 64 + n / 64 % 64) * 64 + n % 64 = n := by omega
    simp only [verifyUtf8Sequence, List.cons_append, List.getD_cons_zero, List.getD_cons_succ, len,
      cont, six_bits, bits, low _ (show n / 4096 % 16 + 0xE0 < 256 by omega),
      Nat.and_two_pow_sub_one_eq_mod _ 4, together]
    exact accepted 3 (by omega) (by omega) (by omega)
  · obtain ⟨-, -, -, lead⟩ := numBytesInUtf8Sequence_iff (UInt8.ofNat (n / 262144 % 8 + 0xF0))
    have len := lead.mpr (by rw [low _ (by omega)]; omega)
    have together : (((n / 262144 % 8 + 0xF0) % 8 * 64 + n / 4096 % 64) * 64 + n / 64 % 64) * 64 +
        n % 64 = n := by omega
    simp only [verifyUtf8Sequence, List.cons_append, List.getD_cons_zero, List.getD_cons_succ, len,
      cont, six_bits, bits, low _ (show n / 262144 % 8 + 0xF0 < 256 by omega),
      Nat.and_two_pow_sub_one_eq_mod _ 3, together]
    exact accepted 4 (by omega) (by omega) (by omega)

/-! ## Texts -/

/-- The loop takes one character in one round. -/
theorem loop_char (rounds : Nat) (c : Char) (rest : List UInt8) (left : Nat) :
    isValidUtf8.loop (rounds + 1) (String.utf8EncodeChar c ++ rest)
        ((String.utf8EncodeChar c).length + left) = isValidUtf8.loop rounds rest left := by
  have positive := String.utf8EncodeChar_ne_nil (c := c)
  have counted : (String.utf8EncodeChar c).length ≠ 0 := fun none =>
    positive (List.length_eq_zero_iff.mp none)
  rw [isValidUtf8.loop, if_neg (by omega), verify_char]
  simp only [List.drop_left, Nat.add_sub_cancel_left]

/-- The loop goes over the characters of a text. -/
theorem loop_encode (chars : List Char) (behind : List UInt8) (rounds : Nat)
    (enough : (Utf8.encode chars).length ≤ rounds) :
    isValidUtf8.loop rounds (Utf8.encode chars ++ behind) (Utf8.encode chars).length = true := by
  induction chars generalizing rounds with
  | nil => cases rounds <;> simp [isValidUtf8.loop]
  | cons c chars ih =>
      have counted : (String.utf8EncodeChar c).length ≠ 0 := fun none =>
        String.utf8EncodeChar_ne_nil (List.length_eq_zero_iff.mp none)
      rw [Utf8.encode_cons, List.length_append] at *
      obtain ⟨rounds, rfl⟩ := Nat.exists_eq_add_one_of_ne_zero (n := rounds) (by omega)
      rw [List.append_assoc, loop_char]
      exact ih rounds (by omega)

/-- A character at the front of a string and its NUL belongs to the string. -/
theorem char_of_terminated {string rest behind : List UInt8} {c : Char} (nonempty : string ≠ [])
    (whole : string ++ 0 :: behind = String.utf8EncodeChar c ++ rest) :
    ∃ more, string = String.utf8EncodeChar c ++ more ∧ rest = more ++ 0 :: behind := by
  rcases List.append_eq_append_iff.mp whole with ⟨more, encoded, tail⟩ | ⟨more, same, tail⟩
  · cases more with
    | nil => exact ⟨[], by simpa using encoded.symm, tail.symm⟩
    | cons byte more =>
        obtain ⟨rfl, rfl⟩ := List.cons.inj tail
        -- The NUL would be in the encoding of the character.
        have member : (0 : UInt8) ∈ String.utf8EncodeChar c := by
          rw [encoded]
          exact List.mem_append_right _ List.mem_cons_self
        have lengths := congrArg List.length (encoded.symm.trans (Utf8.eq_singleton_of_mem member
          (by decide)))
        simp only [List.length_append, List.length_cons, List.length_nil] at lengths
        exact absurd (List.length_eq_zero_iff.mp (by omega)) nonempty
  · exact ⟨more, same, tail⟩

/-- What the loop accepts is a text: the NUL behind the string is reached by no sequence. -/
theorem loop_sound (string behind : List UInt8) (rounds : Nat)
    (accepted : isValidUtf8.loop rounds (string ++ 0 :: behind) string.length = true) :
    Utf8.Valid string := by
  induction rounds generalizing string with
  | zero =>
      obtain rfl := List.length_eq_zero_iff.mp (of_decide_eq_true accepted)
      exact Utf8.valid_nil
  | succ rounds ih =>
      rw [isValidUtf8.loop] at accepted
      split_ifs at accepted with empty
      · obtain rfl := List.length_eq_zero_iff.mp empty
        exact Utf8.valid_nil
      · cases verified : verifyUtf8Sequence (string ++ 0 :: behind) with
        | none => simp [verified] at accepted
        | some len =>
            rw [verified] at accepted
            obtain ⟨c, rest, whole, rfl⟩ := exists_char_of_verify (by simp) verified
            have nonempty : string ≠ [] := fun none => empty (List.length_eq_zero_iff.mpr none)
            obtain ⟨more, rfl, rfl⟩ := char_of_terminated nonempty whole
            rw [whole, List.length_append] at accepted
            simp only [List.drop_left, Nat.add_sub_cancel_left] at accepted
            exact (Utf8.valid_char c).append (ih more accepted)

/-- A string that passes the check is valid. -/
theorem valid_of_checked {string behind : List UInt8}
    (checked : isValidUtf8 (string ++ 0 :: behind) string.length = true) : Utf8.Valid string :=
  loop_sound string behind string.length checked

/-- A valid string passes the check, whatever is behind its end. -/
theorem checked_of_valid {string : List UInt8} (valid : Utf8.Valid string)
    (behind : List UInt8) : isValidUtf8 (string ++ 0 :: behind) string.length = true := by
  obtain ⟨chars, rfl⟩ := valid
  exact loop_encode chars (0 :: behind) _ le_rfl

/-- `is_valid_utf8` accepts exactly the texts in UTF-8, whatever is behind their NUL. -/
theorem isValidUtf8_iff (string behind : List UInt8) :
    isValidUtf8 (string ++ 0 :: behind) string.length = true ↔ Utf8.Valid string := by
  constructor
  · exact valid_of_checked
  · exact fun valid => checked_of_valid valid behind

end CommunicationProtocols.Parson
