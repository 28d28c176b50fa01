import Mathlib.Data.List.Basic

/-!
# UTF-8 as lists of bytes

The bytes of a text are the encodings of its characters one after the other. An
encoding is no prefix of another, so a text is determined by its bytes, and an
ASCII byte is never a part of the encoding of another character: whoever cuts a
text in front of ASCII bytes only cuts it between characters.
-/

namespace CommunicationProtocols.Library.Utf8

/-- The bytes of a text. -/
def encode (chars : List Char) : List UInt8 := chars.flatMap String.utf8EncodeChar

/-- Bytes of some text. -/
def Valid (bytes : List UInt8) : Prop := ∃ chars, encode chars = bytes

variable {c d : Char} {chars : List Char} {front back rest rest' bytes : List UInt8} {byte : UInt8}

@[simp] theorem encode_nil : encode [] = [] := rfl

@[simp] theorem encode_cons (c : Char) (chars : List Char) :
    encode (c :: chars) = String.utf8EncodeChar c ++ encode chars := rfl

@[simp] theorem encode_append (chars chars' : List Char) :
    encode (chars ++ chars') = encode chars ++ encode chars' := List.flatMap_append

/-- The empty string is valid. -/
theorem valid_nil : Valid [] := ⟨[], rfl⟩

/-- A character is valid. -/
theorem valid_char (c : Char) : Valid (String.utf8EncodeChar c) := ⟨[c], List.append_nil _⟩

/-- Two valid strings make a valid one. -/
theorem Valid.append (valid : Valid front) (valid' : Valid back) : Valid (front ++ back) := by
  obtain ⟨chars, rfl⟩ := valid
  obtain ⟨chars', rfl⟩ := valid'
  exact ⟨chars ++ chars', encode_append chars chars'⟩

/-- The first character can be read off the bytes, whatever is behind it. -/
theorem utf8EncodeChar_append_inj
    (same : String.utf8EncodeChar c ++ rest = String.utf8EncodeChar d ++ rest') :
    c = d ∧ rest = rest' := by
  have decoded : some c = some d := by
    calc some c
        = ((String.utf8EncodeChar c).toByteArray ++ rest.toByteArray).utf8DecodeChar? 0 :=
          ByteArray.utf8DecodeChar?_utf8EncodeChar_append.symm
      _ = ((String.utf8EncodeChar d).toByteArray ++ rest'.toByteArray).utf8DecodeChar? 0 := by
          rw [← List.toByteArray_append, same, List.toByteArray_append]
      _ = some d := ByteArray.utf8DecodeChar?_utf8EncodeChar_append
  obtain rfl := Option.some.inj decoded
  exact ⟨rfl, List.append_cancel_left same⟩

/-! ## ASCII bytes -/

/-- A byte of an encoding of more than one byte is not ASCII. -/
theorem eq_singleton_of_mem (member : byte ∈ String.utf8EncodeChar c) (ascii : byte.toNat < 128) :
    String.utf8EncodeChar c = [byte] := by
  unfold String.utf8EncodeChar at member ⊢
  dsimp only at member ⊢
  split
  case isTrue one =>
    rw [if_pos one, List.mem_singleton] at member
    rw [member]
  case isFalse one =>
    exfalso
    rw [if_neg one] at member
    split at member
    case isTrue =>
      simp only [List.mem_cons, List.not_mem_nil, or_false] at member
      rcases member with rfl | rfl <;> rw [UInt8.toNat_ofNat'] at ascii <;> omega
    case isFalse =>
      split at member
      case isTrue =>
        simp only [List.mem_cons, List.not_mem_nil, or_false] at member
        rcases member with rfl | rfl | rfl <;> rw [UInt8.toNat_ofNat'] at ascii <;> omega
      case isFalse =>
        simp only [List.mem_cons, List.not_mem_nil, or_false] at member
        rcases member with rfl | rfl | rfl | rfl <;> rw [UInt8.toNat_ofNat'] at ascii <;> omega

/-- A scalar value is the number of its character. -/
theorem toNat_ofNat {n : Nat} (scalar : n.isValidChar) : (Char.ofNat n).val.toNat = n := by
  rw [Char.ofNat, dif_pos scalar]
  rfl

/-- The encoding of a scalar value. -/
theorem utf8EncodeChar_ofNat {n : Nat} (scalar : n.isValidChar) :
    String.utf8EncodeChar (Char.ofNat n) =
      if n < 0x80 then [UInt8.ofNat n]
      else if n < 0x800 then [UInt8.ofNat (n / 64 % 32 + 0xC0), UInt8.ofNat (n % 64 + 0x80)]
      else if n < 0x10000 then
        [UInt8.ofNat (n / 4096 % 16 + 0xE0), UInt8.ofNat (n / 64 % 64 + 0x80),
          UInt8.ofNat (n % 64 + 0x80)]
      else
        [UInt8.ofNat (n / 262144 % 8 + 0xF0), UInt8.ofNat (n / 4096 % 64 + 0x80),
          UInt8.ofNat (n / 64 % 64 + 0x80), UInt8.ofNat (n % 64 + 0x80)] := by
  unfold String.utf8EncodeChar
  simp only [toNat_ofNat scalar, ← Nat.lt_succ_iff]

/-- An ASCII byte is a character of its own. -/
theorem utf8EncodeChar_ascii (ascii : byte.toNat < 128) :
    ∃ c, String.utf8EncodeChar c = [byte] := by
  refine ⟨Char.ofNat byte.toNat, ?_⟩
  unfold String.utf8EncodeChar
  rw [toNat_ofNat (.inl (by omega)), if_pos (by omega), UInt8.ofNat_toNat]

/-- A byte of ASCII is a character of its own. -/
theorem valid_ascii (ascii : byte.toNat < 128) : Valid [byte] := by
  obtain ⟨c, encoded⟩ := utf8EncodeChar_ascii ascii
  exact encoded ▸ valid_char c

/-- A text can be cut at an ASCII byte. -/
theorem valid_cons_iff (ascii : byte.toNat < 128) :
    Valid (front ++ byte :: back) ↔ Valid front ∧ Valid back := by
  constructor
  · rintro ⟨chars, encoded⟩
    induction chars generalizing front with
    | nil => simp at encoded
    | cons c chars ih =>
        rw [encode_cons] at encoded
        rcases List.append_eq_append_iff.mp encoded with
          ⟨more, rfl, tail⟩ | ⟨more, whole, tail⟩
        · -- The first character ends in the front part.
          obtain ⟨validMore, validBack⟩ := ih tail
          exact ⟨(valid_char c).append validMore, validBack⟩
        · cases more with
          | nil =>
              obtain ⟨_, validBack⟩ := @ih [] tail.symm
              rw [List.append_nil] at whole
              exact ⟨whole ▸ valid_char c, validBack⟩
          | cons first more =>
              obtain ⟨rfl, rfl⟩ := List.cons.inj tail
              have member : byte ∈ String.utf8EncodeChar c := by
                rw [whole]
                exact List.mem_append_right _ List.mem_cons_self
              have lengths := congrArg List.length (whole.symm.trans (eq_singleton_of_mem member ascii))
              simp only [List.length_append, List.length_cons, List.length_nil] at lengths
              obtain rfl : front = [] := List.length_eq_zero_iff.mp (by omega)
              obtain rfl : more = [] := List.length_eq_zero_iff.mp (by omega)
              exact ⟨valid_nil, chars, rfl⟩
  · rintro ⟨validFront, validBack⟩
    exact validFront.append ((valid_ascii ascii).append validBack)

/-- A text behind an ASCII byte is one without it. -/
theorem valid_ascii_cons_iff (ascii : byte.toNat < 128) : Valid (byte :: back) ↔ Valid back :=
  (@valid_cons_iff [] back byte ascii).trans (and_iff_right valid_nil)

/-- Behind ASCII the rest decides. -/
theorem valid_ascii_append_iff (ascii : ∀ byte ∈ front, byte.toNat < 128) :
    Valid (front ++ back) ↔ Valid back := by
  induction front with
  | nil => rfl
  | cons byte front ih =>
      obtain ⟨here, later⟩ := List.forall_mem_cons.mp ascii
      rw [List.cons_append, valid_ascii_cons_iff here, ih later]

/-- A text behind a character is one without it. -/
theorem valid_char_append_iff : Valid (String.utf8EncodeChar c ++ rest) ↔ Valid rest := by
  constructor
  · rintro ⟨chars, encoded⟩
    cases chars with
    | nil =>
        have empty := (List.append_eq_nil_iff.mp encoded.symm).1
        exact absurd empty String.utf8EncodeChar_ne_nil
    | cons d chars =>
        obtain ⟨_, behind⟩ := utf8EncodeChar_append_inj encoded
        exact ⟨chars, behind⟩
  · exact (valid_char c).append

end CommunicationProtocols.Library.Utf8
