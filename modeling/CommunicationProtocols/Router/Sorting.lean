import CommunicationProtocols.Router.LongestPrefix

/-!
# The sort of the routing table

`quicksort` sorts the table in place. Next to what it computes stands the list
of the indices it touches, in the order of the source; the pivot is touched in
every round of the partition, because it is read through a pointer.
-/

namespace CommunicationProtocols.Router

open Library Library.Cells

/-! ## The entries that are touched -/

/-- The indices touched by the loop of `partition`: two comparisons, and a swap
where the entry goes to the left. -/
def partitionLoopAccesses (last : Int) : Nat → Int → Int → Rtable → List Int
  | 0, _, _, _ => []
  | n + 1, i, pIndex, rtable =>
      if (rtable i).netPrefix < (rtable last).netPrefix then
        [i, last, i, pIndex] ++
          partitionLoopAccesses last n (i + 1) (pIndex + 1) (swap rtable i pIndex)
      else if (rtable i).netPrefix = (rtable last).netPrefix then
        if (rtable i).mask > (rtable last).mask then
          [i, last, i, pIndex] ++
            partitionLoopAccesses last n (i + 1) (pIndex + 1) (swap rtable i pIndex)
        else
          [i, last] ++ partitionLoopAccesses last n (i + 1) pIndex rtable
      else
        [i, last] ++ partitionLoopAccesses last n (i + 1) pIndex rtable

/-- The indices touched by `partition`, the last swap included. -/
def partitionAccesses (rtable : Rtable) (start last : Int) : List Int :=
  partitionLoopAccesses last (last - start).toNat start start rtable ++
    [last, (partition rtable start last).2]

/-- The indices touched by `quicksort`. -/
def quicksortAccesses (rtable : Rtable) (start last : Int) : List Int :=
  if _ordered : start < last then
    let parted := partition rtable start last
    partitionAccesses rtable start last ++
      quicksortAccesses parted.1 start (parted.2 - 1) ++
      quicksortAccesses (quicksort parted.1 start (parted.2 - 1)) (parted.2 + 1) last
  else
    []
termination_by (last - start + 1).toNat
decreasing_by
  all_goals
    have spec := Lomuto.partition_spec sortsBefore rtable (Int.le_of_lt _ordered)
    rw [← partition_eq_lomuto] at spec
    have lower := spec.lower
    have upper := spec.upper
    omega

/-! ## The sort depends on the entries it touches -/

section

variable {rtable rtable' : Rtable} {start last : Int}

/-- A swap depends on the cells it swaps. -/
theorem swap_congr {x y k : Int} (sameX : rtable' x = rtable x) (sameY : rtable' y = rtable y)
    (same : rtable' k = rtable k) : swap rtable' x y k = swap rtable x y k := by
  simp only [swap, Cells.swap, Function.update_apply, sameX, sameY, same]

/-- The loop goes the same way where two tables agree on what it touches, and keeps
every other agreement. -/
theorem partitionLoop_congr {n : Nat} {i pIndex : Int}
    (same : ∀ k ∈ partitionLoopAccesses last n i pIndex rtable, rtable' k = rtable k) :
    (partitionLoop last n i pIndex rtable').2 = (partitionLoop last n i pIndex rtable).2 ∧
      ∀ k, rtable' k = rtable k → (partitionLoop last n i pIndex rtable').1 k =
        (partitionLoop last n i pIndex rtable).1 k := by
  induction n generalizing i pIndex rtable rtable' with
  | zero => exact ⟨rfl, fun _ same => same⟩
  | succ n ih =>
      rw [partitionLoopAccesses] at same
      have here : rtable' i = rtable i := same i (by split_ifs <;> simp)
      have pivot : rtable' last = rtable last := same last (by split_ifs <;> simp)
      have swapped (touched : ∀ k ∈ [i, last, i, pIndex] ++
          partitionLoopAccesses last n (i + 1) (pIndex + 1) (swap rtable i pIndex),
            rtable' k = rtable k) :
          (partitionLoop last n (i + 1) (pIndex + 1) (swap rtable' i pIndex)).2 =
              (partitionLoop last n (i + 1) (pIndex + 1) (swap rtable i pIndex)).2 ∧
            ∀ k, rtable' k = rtable k →
              (partitionLoop last n (i + 1) (pIndex + 1) (swap rtable' i pIndex)).1 k =
                (partitionLoop last n (i + 1) (pIndex + 1) (swap rtable i pIndex)).1 k := by
        have target : rtable' pIndex = rtable pIndex := touched pIndex (by simp)
        have later := @ih (swap rtable i pIndex) (swap rtable' i pIndex) (i + 1) (pIndex + 1)
          fun k member => swap_congr here target (touched k (List.mem_append_right _ member))
        exact ⟨later.1, fun k agree => later.2 k (swap_congr here target agree)⟩
      have kept (touched : ∀ k ∈ [i, last] ++
          partitionLoopAccesses last n (i + 1) pIndex rtable, rtable' k = rtable k) :=
        @ih rtable rtable' (i + 1) pIndex fun k member =>
          touched k (List.mem_append_right _ member)
      rw [partitionLoop, partitionLoop, here, pivot]
      split
      case isTrue less =>
        rw [if_pos less] at same
        exact swapped same
      case isFalse notLess =>
        rw [if_neg notLess] at same
        split
        case isTrue equal =>
          rw [if_pos equal] at same
          split
          case isTrue narrower =>
            rw [if_pos narrower] at same
            exact swapped same
          case isFalse wider =>
            rw [if_neg wider] at same
            exact kept same
        case isFalse greater =>
          rw [if_neg greater] at same
          exact kept same

/-- A partition depends on the entries it accesses, and leaves the others. -/
theorem partition_congr
    (same : ∀ k ∈ partitionAccesses rtable start last, rtable' k = rtable k) :
    (partition rtable' start last).2 = (partition rtable start last).2 ∧
      ∀ k, rtable' k = rtable k →
        (partition rtable' start last).1 k = (partition rtable start last).1 k := by
  obtain ⟨index, cells⟩ := partitionLoop_congr fun k member =>
    same k (List.mem_append_left _ member)
  have pivot := cells last (same last (by simp [partitionAccesses]))
  have target := cells _ (same (partition rtable start last).2 (by simp [partitionAccesses]))
  refine ⟨index, fun k agree => ?_⟩
  simp only [partition, index]
  exact swap_congr pivot target (cells k agree)

/-- `quicksort` depends on the entries it touches only. -/
theorem quicksort_congr
    (same : ∀ k ∈ quicksortAccesses rtable start last, rtable' k = rtable k) {k : Int}
    (agree : rtable' k = rtable k) :
    quicksort rtable' start last k = quicksort rtable start last k := by
  induction rtable, start, last using quicksort.induct generalizing rtable' k with
  | case1 rtable start last ordered parted ihLeft _ =>
      rename_i ihRight
      have unfolded (cells : Rtable) : quicksort cells start last =
          quicksort (quicksort (partition cells start last).1 start
            ((partition cells start last).2 - 1)) ((partition cells start last).2 + 1) last := by
        rw [quicksort, dif_pos ordered]
      rw [quicksortAccesses, dif_pos ordered] at same
      obtain ⟨index, cells⟩ := partition_congr fun k member =>
        same k (List.mem_append_left _ (List.mem_append_left _ member))
      have left {k : Int} (agree : rtable' k = rtable k) :=
        @ihLeft (partition rtable' start last).1
          (fun k member => cells k
            (same k (List.mem_append_left _ (List.mem_append_right _ member)))) k (cells k agree)
      rw [unfolded, unfolded, index]
      exact ihRight (fun k member => left (same k (List.mem_append_right _ member))) (left agree)
  | case2 rtable start last unordered =>
      have unfolded (cells : Rtable) : quicksort cells start last = cells := by
        rw [quicksort, dif_neg unordered]
      rw [unfolded, unfolded]
      exact agree

end

/-! ## The sort stays in its segment -/

/-- The loop touches the scanned part, the entry it has come to and the pivot. -/
theorem mem_partitionLoopAccesses {start last : Int} {n : Nat} {i pIndex : Int} {rtable : Rtable}
    (lower : start ≤ pIndex) (upper : pIndex ≤ i) (remaining : i + n = last) {k : Int}
    (touched : k ∈ partitionLoopAccesses last n i pIndex rtable) : start ≤ k ∧ k ≤ last := by
  induction n generalizing i pIndex rtable with
  | zero => cases touched
  | succ n ih =>
      have swapped : k ∈ [i, last, i, pIndex] ++
          partitionLoopAccesses last n (i + 1) (pIndex + 1) (swap rtable i pIndex) →
          start ≤ k ∧ k ≤ last := by
        intro member
        rcases List.mem_append.mp member with here | later
        · simp only [List.mem_cons, List.not_mem_nil, or_false] at here
          omega
        · exact ih (by omega) (by omega) (by omega) later
      have kept : k ∈ [i, last] ++ partitionLoopAccesses last n (i + 1) pIndex rtable →
          start ≤ k ∧ k ≤ last := by
        intro member
        rcases List.mem_append.mp member with here | later
        · simp only [List.mem_cons, List.not_mem_nil, or_false] at here
          omega
        · exact ih lower (by omega) (by omega) later
      rw [partitionLoopAccesses] at touched
      split at touched
      case isTrue => exact swapped touched
      case isFalse =>
        split at touched
        case isTrue =>
          split at touched
          case isTrue => exact swapped touched
          case isFalse => exact kept touched
        case isFalse => exact kept touched

/-- A partition accesses entries of its segment only. -/
theorem mem_partitionAccesses {rtable : Rtable} {start last : Int} (ordered : start ≤ last)
    {k : Int} (touched : k ∈ partitionAccesses rtable start last) : start ≤ k ∧ k ≤ last := by
  have spec := Lomuto.partition_spec sortsBefore rtable ordered
  rw [← partition_eq_lomuto] at spec
  have lower := spec.lower
  have upper := spec.upper
  rcases List.mem_append.mp touched with looped | swapped
  · exact mem_partitionLoopAccesses (le_refl start) (le_refl start) (by omega) looped
  · simp only [List.mem_cons, List.not_mem_nil, or_false] at swapped
    omega

/-- Sorting a segment touches that segment only. -/
theorem mem_quicksortAccesses {rtable : Rtable} {start last k : Int}
    (touched : k ∈ quicksortAccesses rtable start last) : start ≤ k ∧ k ≤ last := by
  induction rtable, start, last using quicksort.induct with
  | case1 rtable start last ordered parted ihLeft _ ihRight =>
      have spec := Lomuto.partition_spec sortsBefore rtable (Int.le_of_lt ordered)
      rw [← partition_eq_lomuto] at spec
      have lower : start ≤ parted.2 := spec.lower
      have upper : parted.2 ≤ last := spec.upper
      rw [quicksortAccesses, dif_pos ordered] at touched
      rcases List.mem_append.mp touched with earlier | right
      · rcases List.mem_append.mp earlier with here | left
        · exact mem_partitionAccesses (Int.le_of_lt ordered) here
        · have inside := ihLeft left
          omega
      · have inside := ihRight right
        omega
  | case2 rtable start last unordered =>
      rw [quicksortAccesses, dif_neg unordered] at touched
      cases touched

/-! ## The sorted table -/

/-- Prefixes ascend, and masks descend among entries of one prefix. -/
def InOrder (x y : RouteTableEntry) : Prop :=
  x.netPrefix < y.netPrefix ∨ (x.netPrefix = y.netPrefix ∧ y.mask ≤ x.mask)

/-- Entries are in order exactly if the second is not sorted before the first. -/
theorem inOrder_iff {x y : RouteTableEntry} : InOrder x y ↔ sortsBefore y x = false := by
  simp only [InOrder, sortsBefore, Bool.or_eq_false_iff, Bool.and_eq_false_iff,
    decide_eq_false_iff_not]
  constructor
  · intro inOrder
    constructor <;> bv_omega
  · intro unordered
    bv_omega

/-- The sort rearranges its segment. -/
theorem quicksort_rearranges (rtable : Rtable) (start last : Int) :
    Rearranges start last rtable (quicksort rtable start last) := by
  rw [quicksort_eq_lomuto]
  exact Lomuto.quicksort_rearranges sortsBefore rtable start last

/-- What `quicksort(0, n - 1)` does to a table of `n` entries. -/
structure SortsInPlace (rtable sorted : Rtable) (rtableSize : Nat) : Prop where
  permuted : (segment sorted rtableSize).Perm (segment rtable rtableSize)
  inOrder : ∀ i : Nat, i + 1 < rtableSize → InOrder (sorted i) (sorted (i + 1 : Nat))
  outside : ∀ k : Int, ¬ (0 ≤ k ∧ k < (rtableSize : Int)) → sorted k = rtable k

/-- `quicksort` touches entries of the table only and leaves them sorted,
whatever they are. -/
theorem quicksort_correct (rtable : Rtable) (rtableSize : Nat) :
    (∀ k ∈ quicksortAccesses rtable 0 (rtableSize - 1), 0 ≤ k ∧ k < (rtableSize : Int)) ∧
      SortsInPlace rtable (quicksort rtable 0 (rtableSize - 1)) rtableSize := by
  have moved := quicksort_rearranges rtable 0 (rtableSize - 1)
  have sorted := quicksort_sorted rtable rtableSize
  refine ⟨fun k touched => ?_, moved.perm, fun i bound => ?_, fun k outside => ?_⟩
  · have inside := mem_quicksortAccesses touched
    omega
  · exact inOrder_iff.mpr (sorted i (i + 1 : Nat) (by omega) (by omega) (by omega))
  · exact moved.apply_outside (by omega)

end CommunicationProtocols.Router
