import CommunicationProtocols.Library.ByteBuffer
import CommunicationProtocols.Library.Search
import Mathlib.Algebra.Group.Nat.Defs
import Mathlib.Algebra.Order.Group.Int

/-!
# The growing buffer of the REST client

A response is collected in a block that grows with every read. The two searches
compare byte by byte with the loops of the source; a read outside the block has
no result, so that a result says that there was none.
-/

namespace CommunicationProtocols.Client

open Library

/-- The structure `buffer`: the block behind `data`, which has `size` bytes. -/
structure Buffer where
  data : List UInt8
deriving DecidableEq

namespace Buffer

def size (buffer : Buffer) : Nat := buffer.data.length

end Buffer

def bufferInit : Buffer := ⟨[]⟩

/-- `buffer_add`: the block grows by the bytes that are copied behind it. -/
def bufferAdd (buffer : Buffer) (data : List UInt8) : Buffer := ⟨buffer.data ++ data⟩

/-- The conversion to `int`. -/
def toInt (z : Int) : Int := z.bmod (2 ^ 32)

/-- The conversion to `size_t`. -/
def toSize (z : Int) : Nat := (z % 2 ^ 64).toNat

/-- `tolower` in the C locale. -/
def toLower (byte : UInt8) : UInt8 :=
  if 65 ≤ byte.toNat ∧ byte.toNat ≤ 90 then byte + 32 else byte

section

variable (fold : UInt8 → UInt8)

/-- The inner loop of both searches: the `j` at which it stops. -/
def compareAt (data : List UInt8) (i : Nat) : Nat → List UInt8 → Option Nat
  | j, [] => some j
  | j, byte :: pattern =>
      match data[i + j]? with
      | none => none
      | some read => if fold read = fold byte then compareAt data i (j + 1) pattern else some j

/-- The outer loop, with `n` positions left. -/
def searchFrom (data pattern : List UInt8) : Nat → Nat → Option Int
  | 0, _ => some (-1)
  | n + 1, i =>
      match compareAt fold data i 0 pattern with
      | none => none
      | some j => if j = pattern.length then some (toInt i) else searchFrom data pattern n (i + 1)

/-- What `buffer_find` and `buffer_find_insensitive` have in common. -/
def find (buffer : Buffer) (data : List UInt8) : Option Int :=
  if data.length > buffer.size then some (-1)
  else searchFrom fold buffer.data data (buffer.size - data.length + 1) 0

end

def bufferFind (buffer : Buffer) (data : List UInt8) : Option Int := find id buffer data

def bufferFindInsensitive (buffer : Buffer) (data : List UInt8) : Option Int :=
  find toLower buffer data

/-! ## The loops find the first occurrence -/

variable {fold : UInt8 → UInt8} {data pattern : List UInt8}

/-- The inner loop gets to the end of the pattern exactly where it occurs. -/
theorem compareAt_spec {i j : Nat} (inside : i + j + pattern.length ≤ data.length) :
    ∃ stop, compareAt fold data i j pattern = some stop ∧
      (stop = j + pattern.length ↔ pattern.map fold <+: (data.map fold).drop (i + j)) := by
  induction pattern generalizing j with
  | nil => exact ⟨j, rfl, iff_of_true rfl (List.nil_prefix)⟩
  | cons byte pattern ih =>
      rw [List.length_cons] at inside
      have bound : i + j < data.length := by omega
      have front : (data.map fold).drop (i + j) =
          fold data[i + j] :: (data.map fold).drop (i + (j + 1)) := by
        rw [List.drop_eq_getElem_cons (by rw [List.length_map]; exact bound), List.getElem_map]
        rfl
      simp only [compareAt, List.getElem?_eq_getElem bound]
      rw [front, List.map_cons, List.cons_prefix_cons]
      split
      case isTrue same =>
        obtain ⟨stop, stopped, iff⟩ := @ih (j + 1) (by omega)
        refine ⟨stop, stopped, ?_⟩
        rw [List.length_cons, and_iff_right same.symm, ← iff]
        omega
      case isFalse differs =>
        refine ⟨j, rfl, iff_of_false ?_ fun ⟨same, _⟩ => differs same.symm⟩
        rw [List.length_cons]
        omega

/-- The position the search reports. -/
def position : Option Nat → Int
  | none => -1
  | some i => toInt i

/-- The loop finds the first index at which the pattern starts, if it does not start before. -/
theorem searchFrom_spec {n i : Nat} (rest : i + n + pattern.length = data.length + 1)
    (before : ∀ k, k < i → ¬ pattern.map fold <+: (data.map fold).drop k) :
    searchFrom fold data pattern n i =
      some (position (Search.first (pattern.map fold) (data.map fold))) := by
  induction n generalizing i with
  | zero =>
      have absent : Search.first (pattern.map fold) (data.map fold) = none := by
        refine Search.first_eq_none_iff.mpr fun k bound here => ?_
        have complete := Search.add_length_le_of_prefix_drop bound here
        rw [List.length_map, List.length_map] at complete
        exact before k (by omega) here
      rw [absent]
      rfl
  | succ n ih =>
      obtain ⟨stop, stopped, iff⟩ := @compareAt_spec fold data pattern i 0 (by omega)
      rw [Nat.zero_add, Nat.add_zero] at iff
      simp only [searchFrom, stopped]
      split
      case isTrue whole =>
        have found : Search.first (pattern.map fold) (data.map fold) = some i :=
          Search.first_eq_some_iff.mpr
            ⟨by rw [List.length_map]; omega, iff.mp whole, before⟩
        rw [found]
        rfl
      case isFalse partway =>
        refine ih (by omega) fun k bound => ?_
        rcases Nat.lt_succ_iff_lt_or_eq.mp bound with earlier | rfl
        · exact before k earlier
        · exact fun here => partway (iff.mpr here)

/-- Both searches find the first occurrence and read inside the block. -/
theorem find_eq (buffer : Buffer) (data : List UInt8) :
    find fold buffer data =
      some (position (Search.first (data.map fold) (buffer.data.map fold))) := by
  rw [find]
  split
  case isTrue long =>
    have absent : Search.first (data.map fold) (buffer.data.map fold) = none := by
      refine Search.first_eq_none_iff.mpr fun k bound here => ?_
      have complete := Search.add_length_le_of_prefix_drop bound here
      rw [List.length_map, List.length_map] at complete
      rw [Buffer.size] at long
      omega
    rw [absent]
    rfl
  case isFalse fits =>
    rw [Buffer.size] at fits ⊢
    exact searchFrom_spec (by omega) fun k bound => absurd bound (Nat.not_lt_zero k)

/-- A size below `2 ^ 31` is kept as an `int`. -/
theorem toInt_of_small {n : Nat} (small : n < 2 ^ 31) : toInt n = n := by
  rw [toInt, Int.bmod_def]
  omega

/-- Folding before the search is folding during the search. -/
theorem find_eq_bufferFind (buffer : Buffer) (data : List UInt8) :
    find fold buffer data = bufferFind ⟨buffer.data.map fold⟩ (data.map fold) := by
  rw [bufferFind, find_eq, find_eq, List.map_id, List.map_id]

/-- `buffer_find` returns the first position. -/
theorem bufferFind_eq (buffer : Buffer) (data : List UInt8) :
    bufferFind buffer data = some (position (Search.first data buffer.data)) := by
  rw [bufferFind, find_eq, List.map_id, List.map_id]

/-- A position is returned exactly where it is found. -/
theorem position_eq_natCast_iff {found : Option Nat} {i : Nat}
    (small : ∀ k, found = some k → k < 2 ^ 31) : position found = i ↔ found = some i := by
  rcases found with - | k
  · simp only [position, reduceCtorEq]
  · rw [position, toInt_of_small (small k rfl), Int.natCast_inj, Option.some_inj]

/-- -1 is returned exactly where nothing is found. -/
theorem position_eq_neg_one_iff {found : Option Nat}
    (small : ∀ k, found = some k → k < 2 ^ 31) : position found = -1 ↔ found = none := by
  rcases found with - | k
  · exact iff_of_true rfl rfl
  · rw [position, toInt_of_small (small k rfl)]
    simp only [reduceCtorEq]

/-- The search of the source reads inside the block, whatever it holds. As long
as the first occurrence has a position that fits an `int`, its result is the
least position of all occurrences, and -1 exactly when there is none. Without
case it finds what it finds in the lower-cased strings. -/
theorem buffer_search_exact (buffer : Buffer) (data : List UInt8) :
    (∃ found, bufferFind buffer data = some found) ∧
    ((∀ i, IsLeast {j | data <+: buffer.data.drop j} i → i < 2 ^ 31) →
      (∀ i : Nat, bufferFind buffer data = some (i : Int) ↔
        IsLeast {j | data <+: buffer.data.drop j} i) ∧
      (bufferFind buffer data = some (-1) ↔ ∀ j, ¬ data <+: buffer.data.drop j)) ∧
    bufferFindInsensitive buffer data =
      bufferFind ⟨buffer.data.map toLower⟩ (data.map toLower) := by
  refine ⟨⟨_, bufferFind_eq buffer data⟩, fun small => ?_, find_eq_bufferFind buffer data⟩
  have small' : ∀ k, Search.first data buffer.data = some k → k < 2 ^ 31 := fun k found =>
    small k (Search.first_eq_some_iff_isLeast.mp found)
  rw [bufferFind_eq]
  refine ⟨fun i => ?_, ?_⟩
  · rw [Option.some_inj, position_eq_natCast_iff small', Search.first_eq_some_iff_isLeast]
  · rw [Option.some_inj, position_eq_neg_one_iff small', Search.first_eq_none_iff_nowhere]

/-- A natural number below `2 ^ 64` is kept as a size. -/
theorem toSize_natCast {n : Nat} (small : n < 2 ^ 64) : toSize n = n := by
  rw [toSize]
  omega

end CommunicationProtocols.Client
