import Mathlib.Logic.Equiv.Basic
import Mathlib.Data.Int.Order.Basic
import Mathlib.Data.List.Nodup
import Mathlib.Tactic.ByContra

/-!
# In-place quicksort with the partition of Lomuto

Cells are addressed by integers, so that the index before the first cell can be
named. The order is a Boolean relation `before`, read as "goes to the left of
the pivot"; ties stay on the right of the pivot.
-/

namespace CommunicationProtocols.Library

universe u

variable {α : Type u}

/-- Memory cells addressed by an integer index. -/
abbrev Cells (α : Type u) := Int → α

namespace Cells

/-- Exchange two cells by two writes and a temporary. -/
def swap (cells : Cells α) (x y : Int) : Cells α :=
  Function.update (Function.update cells x (cells y)) y (cells x)

/-- A swap of two cells is a transposition of their indices. -/
theorem swap_eq_comp (cells : Cells α) (x y : Int) :
    cells.swap x y = cells ∘ Equiv.swap x y := by
  funext k
  by_cases atY : k = y
  · subst atY
    simp [swap]
  · by_cases atX : k = x
    · subst atX
      simp [swap, atY]
    · simp [swap, atY, atX, Equiv.swap_apply_of_ne_of_ne atX atY]

/-- A swap leaves all other cells. -/
theorem swap_apply_of_ne (cells : Cells α) {x y k : Int} (neX : k ≠ x) (neY : k ≠ y) :
    cells.swap x y k = cells k := by
  simp [swap, neX, neY]

@[simp] theorem swap_apply_left (cells : Cells α) (x y : Int) :
    cells.swap x y x = cells y := by
  rw [swap_eq_comp]
  simp

@[simp] theorem swap_apply_right (cells : Cells α) (x y : Int) :
    cells.swap x y y = cells x := by
  rw [swap_eq_comp]
  simp

/-- The new cells hold the old contents, moved about inside `[first, last]` only. -/
def Rearranges (first last : Int) (old new : Cells α) : Prop :=
  ∃ move : Equiv.Perm Int,
    (∀ k, ¬ (first ≤ k ∧ k ≤ last) → move k = k) ∧ new = old ∘ move

namespace Rearranges

variable {first last : Int} {old middle new : Cells α}

/-- Cells as they are are a rearrangement. -/
theorem refl (first last : Int) (cells : Cells α) : Rearranges first last cells cells :=
  ⟨Equiv.refl Int, fun _ _ => rfl, rfl⟩

/-- Two rearrangements, one after the other, are one. -/
theorem trans (left : Rearranges first last old middle)
    (right : Rearranges first last middle new) : Rearranges first last old new := by
  obtain ⟨move, fixed, rfl⟩ := left
  obtain ⟨move', fixed', rfl⟩ := right
  refine ⟨move'.trans move, fun k outside => ?_, rfl⟩
  rw [Equiv.trans_apply, fixed' k outside, fixed k outside]

/-- A rearrangement can be undone by one. -/
theorem symm (rearranged : Rearranges first last old new) :
    Rearranges first last new old := by
  obtain ⟨move, fixed, rfl⟩ := rearranged
  refine ⟨move.symm, fun k outside => ?_, ?_⟩
  · rw [Equiv.symm_apply_eq, fixed k outside]
  · funext k
    simp

/-- A rearrangement of a segment is one of every segment around it. -/
theorem widen {first' last' : Int} (rearranged : Rearranges first last old new)
    (lower : first' ≤ first) (upper : last ≤ last') : Rearranges first' last' old new := by
  obtain ⟨move, fixed, same⟩ := rearranged
  exact ⟨move, fun k outside => fixed k (by omega), same⟩

/-- A swap inside the segment is a rearrangement. -/
theorem swap (cells : Cells α) {x y : Int} (lowX : first ≤ x) (highX : x ≤ last)
    (lowY : first ≤ y) (highY : y ≤ last) : Rearranges first last cells (cells.swap x y) := by
  refine ⟨Equiv.swap x y, fun k outside => ?_, swap_eq_comp cells x y⟩
  exact Equiv.swap_apply_of_ne_of_ne (by omega) (by omega)

/-- A rearrangement leaves the cells outside its segment. -/
theorem apply_outside (rearranged : Rearranges first last old new) {k : Int}
    (outside : ¬ (first ≤ k ∧ k ≤ last)) : new k = old k := by
  obtain ⟨move, fixed, rfl⟩ := rearranged
  simp [fixed k outside]

/-- Every cell of the segment holds what some cell of the segment held. -/
theorem exists_source (rearranged : Rearranges first last old new) {k : Int}
    (lower : first ≤ k) (upper : k ≤ last) :
    ∃ k', first ≤ k' ∧ k' ≤ last ∧ new k = old k' := by
  obtain ⟨move, fixed, rfl⟩ := rearranged
  by_cases inside : first ≤ move k ∧ move k ≤ last
  · exact ⟨move k, inside.1, inside.2, rfl⟩
  · have stays : move k = k := move.injective (fixed (move k) inside)
    exact ⟨k, lower, upper, congrArg old stays⟩

/-- What holds of every cell of the segment before holds of every one after. -/
theorem forall_segment {P : α → Prop} (rearranged : Rearranges first last old new)
    (holds : ∀ k, first ≤ k → k ≤ last → P (old k)) :
    ∀ k, first ≤ k → k ≤ last → P (new k) := by
  intro k lower upper
  obtain ⟨k', lower', upper', same⟩ := rearranged.exists_source lower upper
  rw [same]
  exact holds k' lower' upper'

/-- A key that tells the cells of the segment apart still does afterwards. -/
theorem injective_segment {κ : Type*} (key : α → κ) (rearranged : Rearranges first last old new)
    (injective : ∀ i j, first ≤ i → i ≤ last → first ≤ j → j ≤ last →
      key (old i) = key (old j) → i = j) :
    ∀ i j, first ≤ i → i ≤ last → first ≤ j → j ≤ last → key (new i) = key (new j) → i = j := by
  obtain ⟨move, fixed, rfl⟩ := rearranged
  have inside : ∀ k, first ≤ k → k ≤ last → first ≤ move k ∧ move k ≤ last := by
    intro k lower upper
    by_contra outside
    have stays : move k = k := move.injective (fixed (move k) outside)
    exact outside (stays.symm ▸ ⟨lower, upper⟩)
  intro i j lowI highI lowJ highJ same
  have inI := inside i lowI highI
  have inJ := inside j lowJ highJ
  exact move.injective (injective _ _ inI.1 inI.2 inJ.1 inJ.2 same)

end Rearranges

/-! ## A segment as a list -/

/-- The first `n` cells in order. -/
def segment (cells : Cells α) (n : Nat) : List α := (List.range n).map fun i : Nat => cells i

/-- Segments are equal exactly if their cells are. -/
theorem segment_eq_iff {cells cells' : Cells α} {n : Nat} :
    segment cells n = segment cells' n ↔ ∀ i : Nat, i < n → cells i = cells' i := by
  simp [segment]

/-- A rearrangement permutes the entries of the segment. -/
theorem Rearranges.perm {old new : Cells α} {n : Nat}
    (rearranged : Rearranges 0 ((n : Int) - 1) old new) :
    (segment new n).Perm (segment old n) := by
  obtain ⟨move, fixed, rfl⟩ := rearranged
  have indices : ((List.range n).map fun i : Nat => move i).Perm
      ((List.range n).map fun i : Nat => (i : Int)) := by
    have distinct : ((List.range n).map fun i : Nat => (i : Int)).Nodup :=
      List.nodup_range.map fun i j same => Int.ofNat_inj.mp same
    have moved : ((List.range n).map fun i : Nat => move i).Nodup :=
      List.nodup_range.map fun i j same => Int.ofNat_inj.mp (move.injective same)
    refine (List.perm_ext_iff_of_nodup moved distinct).mpr fun k => ?_
    have inside : (∃ i : Nat, i < n ∧ (i : Int) = k) ↔ 0 ≤ k ∧ k ≤ (n : Int) - 1 :=
      ⟨by rintro ⟨i, bound, rfl⟩; omega, fun bounds => ⟨k.toNat, by omega, by omega⟩⟩
    simp only [List.mem_map, List.mem_range]
    rw [inside]
    constructor
    · rintro ⟨i, bound, rfl⟩
      by_contra outside
      have stays : move i = i := move.injective (fixed (move i) outside)
      omega
    · intro bounds
      by_cases source : 0 ≤ move.symm k ∧ move.symm k ≤ (n : Int) - 1
      · exact ⟨(move.symm k).toNat, by omega, by rw [Int.toNat_of_nonneg source.1]; simp⟩
      · have stays : k = move.symm k := by simpa using fixed (move.symm k) source
        exact absurd (stays ▸ bounds) source
  simpa [segment, List.map_map, Function.comp_def] using indices.map old

end Cells

namespace Lomuto

open Cells

variable (before : α → α → Bool)

/-- `n` rounds of the partition loop from index `i`; the pivot is read through
its cell at `last` in every round. -/
def scan (last : Int) : Nat → Int → Int → Cells α → Cells α × Int
  | 0, _, pIndex, cells => (cells, pIndex)
  | n + 1, i, pIndex, cells =>
      if before (cells i) (cells last) then
        scan last n (i + 1) (pIndex + 1) (cells.swap i pIndex)
      else
        scan last n (i + 1) pIndex cells

/-- Partition `[first, last]` around its last cell and return the pivot's index. -/
def partition (cells : Cells α) (first last : Int) : Cells α × Int :=
  let scanned := scan before last (last - first).toNat first first cells
  (scanned.1.swap last scanned.2, scanned.2)

/-- Cells below `pIndex` go left of the pivot, the others up to `stop` do not. -/
structure Split (pivot : α) (first pIndex stop : Int) (cells : Cells α) : Prop where
  left : ∀ k, first ≤ k → k < pIndex → before (cells k) pivot = true
  right : ∀ k, pIndex ≤ k → k < stop → before (cells k) pivot = false

/-- What the partition loop leaves behind. -/
structure Scanned (first last : Int) (cells : Cells α) (result : Cells α × Int) : Prop where
  rearranged : Rearranges first (last - 1) cells result.1
  lower : first ≤ result.2
  upper : result.2 ≤ last
  split : Split before (cells last) first result.2 last result.1

variable {before}

/-- The loop invariant: the scanned part is split around the pivot. -/
theorem scan_spec {first last : Int} (n : Nat) {i pIndex : Int} {cells : Cells α}
    (lower : first ≤ pIndex) (upper : pIndex ≤ i) (remaining : i + n = last)
    (split : Split before (cells last) first pIndex i cells) :
    Scanned before first last cells (scan before last n i pIndex cells) := by
  induction n generalizing i pIndex cells with
  | zero =>
      have done : i = last := by omega
      subst done
      exact ⟨.refl _ _ _, lower, upper, split⟩
  | succ n ih =>
      unfold scan
      split
      case isTrue goesLeft =>
        have pivotStays : cells.swap i pIndex last = cells last :=
          swap_apply_of_ne cells (by omega) (by omega)
        have rearranged : Rearranges first (last - 1) cells (cells.swap i pIndex) :=
          .swap cells (by omega) (by omega) (by omega) (by omega)
        have splitNext : Split before (cells.swap i pIndex last) first (pIndex + 1) (i + 1)
            (cells.swap i pIndex) := by
          rw [pivotStays]
          constructor
          · intro k low high
            by_cases atIndex : k = pIndex
            · subst atIndex
              simpa using goesLeft
            · rw [swap_apply_of_ne cells (by omega) atIndex]
              exact split.left k low (by omega)
          · intro k low high
            by_cases atI : k = i
            · subst atI
              rw [swap_apply_left]
              exact split.right pIndex (by omega) (by omega)
            · rw [swap_apply_of_ne cells atI (by omega)]
              exact split.right k (by omega) (by omega)
        have rest := ih (by omega) (by omega) (by omega) splitNext
        exact ⟨rearranged.trans rest.rearranged, rest.lower, rest.upper,
          pivotStays ▸ rest.split⟩
      case isFalse goesRight =>
        have splitNext : Split before (cells last) first pIndex (i + 1) cells := by
          refine ⟨split.left, fun k low high => ?_⟩
          by_cases atI : k = i
          · subst atI
            simpa using goesRight
          · exact split.right k low (by omega)
        exact ih lower (by omega) (by omega) splitNext

/-- What a partition step leaves behind: the pivot sits at the returned index
and splits the segment. -/
structure Partitioned (before : α → α → Bool) (first last : Int) (cells : Cells α)
    (result : Cells α × Int) : Prop where
  rearranged : Rearranges first last cells result.1
  lower : first ≤ result.2
  upper : result.2 ≤ last
  left : ∀ k, first ≤ k → k < result.2 → before (result.1 k) (result.1 result.2) = true
  right : ∀ k, result.2 < k → k ≤ last → before (result.1 k) (result.1 result.2) = false

/-- A partition puts the pivot between what is before it and what is not. -/
theorem partition_spec (before : α → α → Bool) (cells : Cells α) {first last : Int}
    (ordered : first ≤ last) :
    Partitioned before first last cells (partition before cells first last) := by
  have scanned : Scanned before first last cells
      (scan before last (last - first).toNat first first cells) :=
    scan_spec _ (le_refl first) (le_refl first) (by omega)
      ⟨fun k _ _ => by omega, fun k _ _ => by omega⟩
  unfold partition
  generalize scan before last (last - first).toNat first first cells = result at scanned ⊢
  obtain ⟨scannedCells, pIndex⟩ := result
  obtain ⟨rearranged, lower, upper, split⟩ := scanned
  have pivotStays : scannedCells last = cells last :=
    rearranged.apply_outside (by omega)
  refine ⟨(rearranged.widen (le_refl first) (by omega)).trans
    (.swap _ ordered (le_refl last) lower upper), lower, upper, ?_, ?_⟩
  · intro k low high
    simp only [swap_apply_right, pivotStays] at high ⊢
    rw [swap_apply_of_ne _ (by omega) (by omega)]
    exact split.left k low high
  · intro k low high
    simp only [swap_apply_right, pivotStays] at low ⊢
    by_cases atLast : k = last
    · subst atLast
      rw [swap_apply_left]
      exact split.right pIndex (le_refl pIndex) low
    · rw [swap_apply_of_ne _ atLast (by omega)]
      exact split.right k (by omega) (by omega)

variable (before)

/-- Sort `[first, last]` in place. -/
def quicksort (cells : Cells α) (first last : Int) : Cells α :=
  if _ordered : first < last then
    let parted := partition before cells first last
    quicksort (quicksort parted.1 first (parted.2 - 1)) (parted.2 + 1) last
  else
    cells
termination_by (last - first + 1).toNat
decreasing_by
  all_goals
    have spec := partition_spec before cells (Int.le_of_lt _ordered)
    have lower := spec.lower
    have upper := spec.upper
    omega

variable {before}

/-- No cell of the segment belongs before an earlier one. -/
def Ordered (before : α → α → Bool) (first last : Int) (cells : Cells α) : Prop :=
  ∀ i j, first ≤ i → i < j → j ≤ last → before (cells j) (cells i) = false

/-- Sorting rearranges the segment. -/
theorem quicksort_rearranges (before : α → α → Bool) (cells : Cells α) (first last : Int) :
    Rearranges first last cells (quicksort before cells first last) := by
  induction cells, first, last using quicksort.induct before with
  | case1 cells first last ordered parted ihLeft _ ihRight =>
      have spec : Partitioned before first last cells parted :=
        partition_spec before cells (Int.le_of_lt ordered)
      have lower := spec.lower
      have upper := spec.upper
      rw [quicksort, dif_pos ordered]
      exact spec.rearranged.trans
        ((ihLeft.widen (le_refl first) (by omega)).trans (ihRight.widen (by omega) (le_refl last)))
  | case2 cells first last unordered =>
      rw [quicksort, dif_neg unordered]
      exact .refl first last cells

/-- Quicksort orders the segment, for every strict order `before`. -/
theorem quicksort_ordered
    (irrefl : ∀ x, before x x = false)
    (trans : ∀ x y z, before x y = true → before y z = true → before x z = true)
    (cells : Cells α) (first last : Int) :
    Ordered before first last (quicksort before cells first last) := by
  induction cells, first, last using quicksort.induct before with
  | case1 cells first last ordered parted ihLeft _ ihRight =>
      have spec : Partitioned before first last cells parted :=
        partition_spec before cells (Int.le_of_lt ordered)
      have lower := spec.lower
      have upper := spec.upper
      rw [quicksort, dif_pos ordered]
      change Ordered before first last
        (quicksort before (quicksort before parted.1 first (parted.2 - 1)) (parted.2 + 1) last)
      have leftMoves := quicksort_rearranges before parted.1 first (parted.2 - 1)
      generalize quicksort before parted.1 first (parted.2 - 1) = leftSorted at *
      have rightMoves := quicksort_rearranges before leftSorted (parted.2 + 1) last
      generalize quicksort before leftSorted (parted.2 + 1) last = final at *
      have pivotEq : final parted.2 = parted.1 parted.2 := by
        rw [rightMoves.apply_outside (by omega), leftMoves.apply_outside (by omega)]
      have left : ∀ k, first ≤ k → k ≤ parted.2 - 1 →
          before (final k) (final parted.2) = true := by
        intro k low high
        rw [rightMoves.apply_outside (by omega), pivotEq]
        exact leftMoves.forall_segment (P := fun x => before x (parted.1 parted.2) = true)
          (fun k low high => spec.left k low (by omega)) k low high
      have right : ∀ k, parted.2 + 1 ≤ k → k ≤ last →
          before (final k) (final parted.2) = false := by
        intro k low high
        rw [pivotEq]
        refine rightMoves.forall_segment
          (P := fun x => before x (parted.1 parted.2) = false) (fun k low high => ?_) k low high
        rw [leftMoves.apply_outside (by omega)]
        exact spec.right k (by omega) high
      intro i j low less high
      rcases lt_trichotomy j parted.2 with below | atPivot | above
      · rw [rightMoves.apply_outside (by omega), rightMoves.apply_outside (by omega)]
        exact ihLeft i j low less (by omega)
      · subst atPivot
        have goesLeft := left i low (by omega)
        by_contra wrong
        have cycle := trans _ _ _ (Bool.of_not_eq_false wrong) goesLeft
        rw [irrefl] at cycle
        cases cycle
      · have goesRight := right j (by omega) high
        rcases lt_trichotomy i parted.2 with below | atPivot | above'
        · have goesLeft := left i low (by omega)
          by_contra wrong
          have contradiction := trans _ _ _ (Bool.of_not_eq_false wrong) goesLeft
          rw [goesRight] at contradiction
          cases contradiction
        · rw [atPivot]
          exact goesRight
        · exact ihRight i j (by omega) less high
  | case2 cells first last unordered =>
      intro i j low less high
      omega

/-- In sorted cells none is before one that it stands behind. -/
theorem Ordered.pairwise {cells : Cells α} {n : Nat}
    (ordered : Ordered before 0 ((n : Int) - 1) cells) :
    (segment cells n).Pairwise fun x y => before y x = false := by
  refine List.pairwise_map.mpr (List.pairwise_lt_range.imp_of_mem ?_)
  intro i j _ memberJ less
  have bound := List.mem_range.mp memberJ
  exact ordered i j (by omega) (by omega) (by omega)

/-- The sorted segment depends on the entries only, if the order tells them apart. -/
theorem quicksort_segment_eq
    (irrefl : ∀ x, before x x = false)
    (trans : ∀ x y z, before x y = true → before y z = true → before x z = true)
    {cells cells' : Cells α} {n : Nat} (permuted : (segment cells n).Perm (segment cells' n))
    (separates : ∀ x ∈ segment cells n, ∀ y ∈ segment cells n,
      before x y = false → before y x = false → x = y) :
    segment (quicksort before cells 0 (n - 1)) n = segment (quicksort before cells' 0 (n - 1)) n := by
  have sorted := (quicksort_rearranges before cells 0 (n - 1)).perm
  have sorted' := (quicksort_rearranges before cells' 0 (n - 1)).perm
  refine List.Perm.eq_of_pairwise (fun x y memberX memberY notAfter notBefore => ?_)
    (quicksort_ordered irrefl trans cells 0 (n - 1)).pairwise
    (quicksort_ordered irrefl trans cells' 0 (n - 1)).pairwise
    (sorted.trans (permuted.trans sorted'.symm))
  exact separates x (sorted.subset memberX) y (permuted.symm.subset (sorted'.subset memberY))
    notBefore notAfter

end Lomuto

end CommunicationProtocols.Library
