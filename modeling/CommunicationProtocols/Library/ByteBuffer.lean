import Mathlib.Logic.Basic

/-!
# Byte buffers with fixed-width fields

A buffer is addressed by offsets and total; how much of it is meaningful is a
length kept elsewhere. Fields are read and written as vectors of bytes, so that
the width of a field is part of its type. Words are stored the way a
little-endian host stores them.
-/

namespace CommunicationProtocols.Library

/-- The bytes of a string literal. -/
def ascii (literal : String) : List UInt8 := literal.toList.map fun c => UInt8.ofNat c.toNat

/-- The bytes of a block of memory, by offset from its start. -/
abbrev ByteBuffer := Nat → UInt8

namespace ByteBuffer

variable {n k : Nat}

/-- The field of `n` bytes at an offset. -/
def read (buffer : ByteBuffer) (offset n : Nat) : Vector UInt8 n :=
  Vector.ofFn fun i => buffer (offset + i)

/-- Overwrite the field at an offset. -/
def write (buffer : ByteBuffer) (offset : Nat) (bytes : Vector UInt8 n) : ByteBuffer := fun i =>
  if inside : offset ≤ i ∧ i < offset + n then
    have bound : i - offset < n := by omega
    bytes[i - offset]
  else
    buffer i

/-- Overwrite the start of a buffer with the bytes a read returned. -/
def receive (buffer : ByteBuffer) (bytes : List UInt8) : ByteBuffer := fun i =>
  if inside : i < bytes.length then bytes[i] else buffer i

/-- The first `len` bytes. -/
def contents (buffer : ByteBuffer) (len : Nat) : List UInt8 := (List.range len).map buffer

/-- The `len` bytes at an offset. -/
def slice (buffer : ByteBuffer) (offset len : Nat) : List UInt8 :=
  (List.range len).map fun i => buffer (offset + i)

/-- Clear the first `len` bytes. -/
def clear (buffer : ByteBuffer) (len : Nat) : ByteBuffer := fun i =>
  if i < len then 0 else buffer i

/-- The string at an offset of a block of `len` bytes; a string without
terminator ends with the block. -/
def string (buffer : ByteBuffer) (offset len : Nat) : List UInt8 :=
  ((buffer.contents len).drop offset).takeWhile fun byte => byte ≠ 0

@[simp] theorem getElem_read (buffer : ByteBuffer) (offset n i : Nat) (bound : i < n) :
    (buffer.read offset n)[i] = buffer (offset + i) := by
  simp [read]

/-- A write leaves the bytes around it. -/
theorem write_apply_outside (buffer : ByteBuffer) (offset : Nat) (bytes : Vector UInt8 n)
    {i : Nat} (outside : ¬ (offset ≤ i ∧ i < offset + n)) : buffer.write offset bytes i = buffer i := by
  simp only [write, outside, dif_neg, not_false_iff]

/-- A write puts the bytes one after the other behind its offset. -/
theorem write_apply_inside (buffer : ByteBuffer) (offset : Nat) (bytes : Vector UInt8 n)
    (i : Nat) (bound : i < n) : buffer.write offset bytes (offset + i) = bytes[i] := by
  have inside : offset ≤ offset + i ∧ offset + i < offset + n := by omega
  simp only [write, inside, and_self, dif_pos, Nat.add_sub_cancel_left]

/-- What has been written is read back. -/
@[simp] theorem read_write_same (buffer : ByteBuffer) (offset : Nat) (bytes : Vector UInt8 n) :
    (buffer.write offset bytes).read offset n = bytes := by
  apply Vector.ext
  intro i bound
  rw [getElem_read, write_apply_inside]

/-- A write leaves fields it does not overlap alone. -/
theorem read_write_disjoint (buffer : ByteBuffer) {offset offset' : Nat} (bytes : Vector UInt8 n)
    (disjoint : offset' + k ≤ offset ∨ offset + n ≤ offset') :
    (buffer.write offset bytes).read offset' k = buffer.read offset' k := by
  apply Vector.ext
  intro i bound
  rw [getElem_read, getElem_read, write_apply_outside]
  omega

/-- A received message stands at the front of the buffer. -/
theorem receive_apply_inside (buffer : ByteBuffer) (bytes : List UInt8) {i : Nat}
    (bound : i < bytes.length) : buffer.receive bytes i = bytes[i] := by
  simp [receive, bound]

/-- Behind a received message the buffer is as it was. -/
theorem receive_apply_outside (buffer : ByteBuffer) (bytes : List UInt8) {i : Nat}
    (bound : bytes.length ≤ i) : buffer.receive bytes i = buffer i := by
  simp [receive, Nat.not_lt.mpr bound]

@[simp] theorem length_contents (buffer : ByteBuffer) (len : Nat) :
    (buffer.contents len).length = len := by
  simp [contents]

@[simp] theorem getElem_contents (buffer : ByteBuffer) (len i : Nat)
    (bound : i < (buffer.contents len).length) : (buffer.contents len)[i] = buffer i := by
  simp [contents]

@[simp] theorem length_slice (buffer : ByteBuffer) (offset len : Nat) :
    (buffer.slice offset len).length = len := by
  simp [slice]

@[simp] theorem getElem_slice (buffer : ByteBuffer) (offset len i : Nat)
    (bound : i < (buffer.slice offset len).length) :
    (buffer.slice offset len)[i] = buffer (offset + i) := by
  simp [slice]

/-- Cut a slice in two. -/
theorem slice_add (buffer : ByteBuffer) (offset front back : Nat) :
    buffer.slice offset (front + back) =
      buffer.slice offset front ++ buffer.slice (offset + front) back := by
  simp [slice, List.range_add, Nat.add_assoc]

/-- A slice depends on its own bytes only. -/
theorem slice_congr {buffer buffer' : ByteBuffer} {offset len : Nat}
    (same : ∀ i, offset ≤ i → i < offset + len → buffer i = buffer' i) :
    buffer.slice offset len = buffer'.slice offset len := by
  apply List.ext_getElem
  · simp
  · intro i bound bound'
    rw [length_slice] at bound
    rw [getElem_slice, getElem_slice]
    exact same _ (by omega) (by omega)

/-- A slice is a field as a list. -/
theorem slice_eq_read (buffer : ByteBuffer) (offset n : Nat) :
    buffer.slice offset n = (buffer.read offset n).toList := by
  apply List.ext_getElem
  · simp
  · intro i bound bound'
    rw [getElem_slice, Vector.getElem_toList, getElem_read]

/-- A write leaves slices it does not overlap alone. -/
theorem slice_write_disjoint (buffer : ByteBuffer) {offset offset' len : Nat}
    (bytes : Vector UInt8 n) (disjoint : offset' + len ≤ offset ∨ offset + n ≤ offset') :
    (buffer.write offset bytes).slice offset' len = buffer.slice offset' len :=
  slice_congr fun i low high => write_apply_outside _ _ _ (by omega)

/-- What has been written is the slice at its place. -/
theorem slice_write_same (buffer : ByteBuffer) (offset : Nat) (bytes : Vector UInt8 n) :
    (buffer.write offset bytes).slice offset n = bytes.toList := by
  rw [slice_eq_read, read_write_same]

/-- The part of the contents at an offset. -/
theorem take_drop_contents (buffer : ByteBuffer) {offset len total : Nat}
    (fits : offset + len ≤ total) :
    ((buffer.contents total).drop offset).take len = buffer.slice offset len := by
  apply List.ext_getElem
  · simp
    omega
  · intro i bound bound'
    rw [List.getElem_take, List.getElem_drop, getElem_contents, getElem_slice]

/-- Two buffers have the same contents exactly when they agree below the length. -/
theorem contents_eq_iff {buffer buffer' : ByteBuffer} {len : Nat} :
    buffer.contents len = buffer'.contents len ↔ ∀ i, i < len → buffer i = buffer' i := by
  simp [contents]

/-- What a read wrote over the start of a block, and what was behind it. -/
theorem contents_receive (buffer : ByteBuffer) {bytes : List UInt8} {len : Nat}
    (fits : bytes.length ≤ len) :
    (buffer.receive bytes).contents len = bytes ++ (buffer.contents len).drop bytes.length := by
  apply List.ext_getElem
  · simp [fits]
  · intro i bound bound'
    rw [getElem_contents, List.getElem_append]
    split
    case isTrue inside => exact receive_apply_inside buffer bytes inside
    case isFalse outside =>
      rw [receive_apply_outside buffer bytes (by omega), List.getElem_drop, getElem_contents]
      congr 1
      omega

/-- A terminated string that was read is the string at the start of the block. -/
theorem string_receive_terminated (buffer : ByteBuffer) {word : List UInt8} {len : Nat}
    (fits : word.length < len) (whole : 0 ∉ word) :
    (buffer.receive (word ++ [0])).string 0 len = word := by
  unfold string
  have terminated : (word ++ [0]).length ≤ len := by
    rw [List.length_append, List.length_singleton]
    exact fits
  rw [contents_receive buffer terminated, List.drop_zero, List.append_assoc,
    List.takeWhile_append_of_pos]
  · simp
  · intro byte member
    simpa using fun zero : byte = 0 => whole (zero ▸ member)

/-- Bytes read into a cleared block end where the bytes end, or with the block. -/
theorem string_receive_clear (buffer : ByteBuffer) {word : List UInt8} {len : Nat}
    (fits : word.length ≤ len) (whole : 0 ∉ word) :
    ((buffer.clear len).receive word).string 0 len = word := by
  have cleared : (buffer.clear len).contents len = List.replicate len 0 := by
    apply List.ext_getElem
    · simp
    · intro i bound bound'
      rw [length_contents] at bound
      simp [clear, bound]
  have behind : (List.replicate (len - word.length) (0 : UInt8)).takeWhile (fun byte => byte ≠ 0) =
      [] := by
    cases len - word.length with
    | zero => rfl
    | succ rest => simp [List.replicate_succ]
  unfold string
  rw [contents_receive _ fits, cleared, List.drop_zero, List.drop_replicate,
    List.takeWhile_append_of_pos, behind, List.append_nil]
  intro byte member
  simpa using fun zero : byte = 0 => whole (zero ▸ member)

end ByteBuffer

/-! ## Words on a little-endian host -/

/-- The 16-bit word a little-endian host reads from two bytes. -/
def word16 (bytes : Vector UInt8 2) : BitVec 16 := bytes[1].toBitVec ++ bytes[0].toBitVec

/-- The bytes a little-endian host stores a 16-bit word in. -/
def bytes16 (word : BitVec 16) : Vector UInt8 2 :=
  #v[⟨word.extractLsb' 0 8⟩, ⟨word.extractLsb' 8 8⟩]

/-- The 32-bit word a little-endian host reads from four bytes. -/
def word32 (bytes : Vector UInt8 4) : BitVec 32 :=
  bytes[3].toBitVec ++ bytes[2].toBitVec ++ bytes[1].toBitVec ++ bytes[0].toBitVec

/-- The bytes a little-endian host stores a 32-bit word in. -/
def bytes32 (word : BitVec 32) : Vector UInt8 4 :=
  #v[⟨word.extractLsb' 0 8⟩, ⟨word.extractLsb' 8 8⟩, ⟨word.extractLsb' 16 8⟩,
    ⟨word.extractLsb' 24 8⟩]

@[simp] theorem word16_bytes16 (word : BitVec 16) : word16 (bytes16 word) = word := by
  apply BitVec.eq_of_getLsbD_eq
  intro i bound
  simp only [word16, bytes16, Vector.getElem_mk, List.getElem_toArray, List.getElem_cons_zero,
    List.getElem_cons_succ, BitVec.getLsbD_append, BitVec.getLsbD_extractLsb']
  by_cases low : i < 8
  · simp [low]
  · simp [low, show i - 8 < 8 by omega, show 8 + (i - 8) = i by omega]

/-- Reading two bytes as a word and storing it again changes nothing. -/
@[simp] theorem bytes16_word16 (bytes : Vector UInt8 2) : bytes16 (word16 bytes) = bytes := by
  apply Vector.ext
  intro k bound
  apply UInt8.toBitVec_inj.mp
  apply BitVec.eq_of_getLsbD_eq
  intro i small
  obtain rfl | rfl : k = 0 ∨ k = 1 := by omega
  all_goals
    simp only [word16, bytes16, Vector.getElem_mk, List.getElem_toArray, List.getElem_cons_zero,
      List.getElem_cons_succ, BitVec.getLsbD_append, BitVec.getLsbD_extractLsb']
  · simp [small]
  · simp [small, show ¬ 8 + i < 8 by omega]

@[simp] theorem word32_bytes32 (word : BitVec 32) : word32 (bytes32 word) = word := by
  apply BitVec.eq_of_getLsbD_eq
  intro i bound
  simp only [word32, bytes32, Vector.getElem_mk, List.getElem_toArray, List.getElem_cons_zero,
    List.getElem_cons_succ, BitVec.getLsbD_append, BitVec.getLsbD_extractLsb']
  by_cases b0 : i < 8
  · simp [b0]
  · by_cases b1 : i - 8 < 8
    · simp [b0, b1, show 8 + (i - 8) = i by omega]
    · by_cases b2 : i - 8 - 8 < 8
      · simp [b0, b1, b2, show 16 + (i - 8 - 8) = i by omega]
      · simp [b0, b1, b2, show i - 8 - 8 - 8 < 8 by omega,
          show 24 + (i - 8 - 8 - 8) = i by omega]

/-- Reading four bytes as a word and storing it again changes nothing. -/
@[simp] theorem bytes32_word32 (bytes : Vector UInt8 4) : bytes32 (word32 bytes) = bytes := by
  apply Vector.ext
  intro k bound
  apply UInt8.toBitVec_inj.mp
  apply BitVec.eq_of_getLsbD_eq
  intro i small
  obtain rfl | rfl | rfl | rfl : k = 0 ∨ k = 1 ∨ k = 2 ∨ k = 3 := by omega
  all_goals
    simp only [word32, bytes32, Vector.getElem_mk, List.getElem_toArray, List.getElem_cons_zero,
      List.getElem_cons_succ, BitVec.getLsbD_append, BitVec.getLsbD_extractLsb']
  · simp [small]
  · simp [small, show ¬ 8 + i < 8 by omega]
  · simp [small, show ¬ 16 + i < 8 by omega, show ¬ 16 + i - 8 < 8 by omega,
      show 16 + i - 8 - 8 = i by omega]
  · simp [small, show ¬ 24 + i < 8 by omega, show ¬ 24 + i - 8 < 8 by omega,
      show ¬ 24 + i - 8 - 8 < 8 by omega, show 24 + i - 8 - 8 - 8 = i by omega]

end CommunicationProtocols.Library
