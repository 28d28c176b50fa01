import CommunicationProtocols.Router.RouteTable
import Mathlib.Data.Finset.Max
import Mathlib.Data.Int.Interval
import Mathlib.Tactic.Ring

/-!
# Longest-prefix match

`get_best_route` bisects a table sorted by prefix and compares the destination
under the mask of each probed entry. Nested or differently masked entries can
turn the search away from the longest match. The main theorem states exactly
when they do not.
-/

namespace CommunicationProtocols.Router

open Library

/-! ## Network masks on a little-endian host -/

/-- `htonl` on a little-endian host. -/
def htonl (x : BitVec 32) : BitVec 32 :=
  x.extractLsb' 0 8 ++ x.extractLsb' 8 8 ++ x.extractLsb' 16 8 ++ x.extractLsb' 24 8

/-- The `inet_addr` value of the network mask with `k` one bits. -/
def networkMask (k : Nat) : BitVec 32 := htonl (BitVec.allOnes 32 <<< (32 - k))

def ContiguousMask (mask : BitVec 32) : Prop := ∃ k : Fin 33, mask = networkMask k

/-- The number of one bits of a mask. -/
def maskLength (mask : BitVec 32) : Nat := ((List.range 32).filter mask.getLsbD).length

/-- The mask of a length has that length. -/
theorem maskLength_networkMask : ∀ k : Fin 33, maskLength (networkMask k) = k := by
  decide +kernel

/-- A shorter network mask is part of every longer one. -/
theorem networkMask_nested :
    ∀ k k' : Fin 33, k ≤ k' → networkMask k &&& networkMask k' = networkMask k := by
  decide +kernel

/-- Longer network masks are greater numbers, bytes swapped or not. -/
theorem networkMask_strictMono : ∀ k k' : Fin 33, k < k' → networkMask k < networkMask k' := by
  decide +kernel

namespace ContiguousMask

variable {mask mask' : BitVec 32}

/-- Contiguous masks are ordered by their lengths. -/
theorem le_iff_maskLength_le (contiguous : ContiguousMask mask)
    (contiguous' : ContiguousMask mask') :
    mask ≤ mask' ↔ maskLength mask ≤ maskLength mask' := by
  obtain ⟨k, rfl⟩ := contiguous
  obtain ⟨k', rfl⟩ := contiguous'
  rw [maskLength_networkMask, maskLength_networkMask]
  constructor
  · intro le
    by_contra longer
    have greater := networkMask_strictMono k' k (by omega)
    bv_omega
  · intro le
    rcases Nat.lt_or_eq_of_le le with less | same
    · exact BitVec.le_of_lt (networkMask_strictMono k k' less)
    · rw [Fin.ext same]
      exact BitVec.le_refl _

/-- A shorter contiguous mask is part of a longer one. -/
theorem nested (contiguous : ContiguousMask mask) (contiguous' : ContiguousMask mask')
    (le : mask ≤ mask') : mask &&& mask' = mask := by
  have lengths := (contiguous.le_iff_maskLength_le contiguous').mp le
  obtain ⟨k, rfl⟩ := contiguous
  obtain ⟨k', rfl⟩ := contiguous'
  rw [maskLength_networkMask, maskLength_networkMask] at lengths
  exact networkMask_nested k k' lengths

end ContiguousMask

/-! ## Matches -/

/-- The entry matches the destination. -/
def Covers (entry : RouteTableEntry) (destIp : BitVec 32) : Prop :=
  destIp &&& entry.mask = entry.netPrefix

instance (entry : RouteTableEntry) (destIp : BitVec 32) : Decidable (Covers entry destIp) :=
  inferInstanceAs (Decidable (_ = _))

/-- A routing table as a configuration file describes it. -/
structure WellFormedTable (rtable : Rtable) (rtableSize : Nat) : Prop where
  contiguous : ∀ i, 0 ≤ i → i ≤ (rtableSize : Int) - 1 → ContiguousMask (rtable i).mask
  canonical : ∀ i, 0 ≤ i → i ≤ (rtableSize : Int) - 1 →
    (rtable i).netPrefix = (rtable i).netPrefix &&& (rtable i).mask
  distinct : ∀ i j, 0 ≤ i → i ≤ (rtableSize : Int) - 1 → 0 ≤ j → j ≤ (rtableSize : Int) - 1 →
    ((rtable i).netPrefix, (rtable i).mask) = ((rtable j).netPrefix, (rtable j).mask) → i = j

/-- Entry `i` matches and no matching entry has a longer mask. -/
structure IsLongestMatch (rtable : Rtable) (rtableSize : Nat) (destIp : BitVec 32)
    (i : Int) : Prop where
  lower : 0 ≤ i
  upper : i ≤ (rtableSize : Int) - 1
  covers : Covers (rtable i) destIp
  longest : ∀ j, 0 ≤ j → j ≤ (rtableSize : Int) - 1 → Covers (rtable j) destIp →
    maskLength (rtable j).mask ≤ maskLength (rtable i).mask

/-- `get_best_route` does longest-prefix match for this destination. -/
structure FindsLongestMatch (rtable : Rtable) (rtableSize : Nat) (destIp : BitVec 32) : Prop where
  missing : getBestRoute rtable rtableSize destIp = -1 ↔
    ∀ i, 0 ≤ i → i ≤ (rtableSize : Int) - 1 → ¬ Covers (rtable i) destIp
  longest : getBestRoute rtable rtableSize destIp ≠ -1 →
    IsLongestMatch rtable rtableSize destIp (getBestRoute rtable rtableSize destIp)

/-! ## The search as a bisection -/

/-- Where `binarySearch` goes from an entry it probes. -/
def verdict (rtable : Rtable) (destIp : BitVec 32) (mid : Int) : Ordering :=
  if destIp &&& (rtable mid).mask = (rtable mid).netPrefix then .eq
  else if destIp &&& (rtable mid).mask < (rtable mid).netPrefix then .lt
  else .gt

/-- A probe stops at an entry that covers the destination. -/
theorem verdict_eq_iff {rtable : Rtable} {destIp : BitVec 32} {mid : Int} :
    verdict rtable destIp mid = .eq ↔ Covers (rtable mid) destIp := by
  unfold verdict Covers
  split
  case isTrue same => simp [same]
  case isFalse differs => split <;> simp [differs]

/-- A probe that misses and finds less goes to the left. -/
theorem verdict_of_less {rtable : Rtable} {destIp : BitVec 32} {mid : Int}
    (misses : destIp &&& (rtable mid).mask ≠ (rtable mid).netPrefix)
    (less : destIp &&& (rtable mid).mask < (rtable mid).netPrefix) :
    verdict rtable destIp mid = .lt := by
  rw [verdict, if_neg misses, if_pos less]

/-- A probe that misses and does not find less goes to the right. -/
theorem verdict_of_not_less {rtable : Rtable} {destIp : BitVec 32} {mid : Int}
    (misses : destIp &&& (rtable mid).mask ≠ (rtable mid).netPrefix)
    (notLess : ¬ destIp &&& (rtable mid).mask < (rtable mid).netPrefix) :
    verdict rtable destIp mid = .gt := by
  rw [verdict, if_neg misses, if_neg notLess]

/-- The search of the source is a bisection by its verdicts. -/
theorem binarySearch_eq_bisect (rtable : Rtable) (l r : Int) (destIp : BitVec 32) :
    binarySearch rtable l r destIp = (bisect (verdict rtable destIp) l r).getD (-1) := by
  induction l, r using binarySearch.induct rtable destIp with
  | case1 l r inRange mid here =>
      have stop : verdict rtable destIp (Library.midpoint l r) = .eq := verdict_eq_iff.mpr here
      rw [binarySearch, dif_pos inRange, bisect_of_eq inRange stop]
      simp only [mid] at here
      simp [here, Library.midpoint]
  | case2 l r inRange mid misses less ih =>
      have left : verdict rtable destIp mid = .lt := verdict_of_less misses less
      rw [binarySearch, dif_pos inRange, bisect_of_lt inRange left]
      simp only [mid] at misses less ih
      simp only [misses, less, if_true, if_false]
      exact ih
  | case3 l r inRange mid misses notLess ih =>
      have right : verdict rtable destIp mid = .gt := verdict_of_not_less misses notLess
      rw [binarySearch, dif_pos inRange, bisect_of_gt inRange right]
      simp only [mid] at misses notLess ih
      simp only [misses, notLess, if_false]
      exact ih
  | case4 l r outOfRange =>
      rw [binarySearch, dif_neg outOfRange, bisect_of_empty outOfRange]
      rfl

/-! ## The walk back -/

/-- A better neighbour covers the destination with the same prefix and a greater mask. -/
theorem betterNeighbour_iff {rtable : Rtable} {destIp : BitVec 32} {index : Int} :
    betterNeighbour rtable destIp index = true ↔
      Covers (rtable (index - 1)) destIp ∧ (rtable index).mask < (rtable (index - 1)).mask ∧
        (rtable (index - 1)).netPrefix = (rtable index).netPrefix := by
  unfold betterNeighbour Covers
  simp only [Bool.and_eq_true, beq_iff_eq, decide_eq_true_eq, gt_iff_lt]
  constructor
  · rintro ⟨⟨covers, longer⟩, same⟩
    exact ⟨covers.symm, longer, same⟩
  · rintro ⟨covers, longer, same⟩
    exact ⟨⟨covers.symm, longer⟩, same⟩

/-- The walk back from a matching entry stays among matching entries of the same
prefix, never loses mask, and stops only where its loop test fails. -/
structure WalkedBack (rtable : Rtable) (destIp : BitVec 32) (start stop : Nat) : Prop where
  backwards : stop ≤ start
  covers : Covers (rtable stop) destIp
  samePrefix : (rtable stop).netPrefix = (rtable start).netPrefix
  mask : (rtable start).mask ≤ (rtable stop).mask
  stops : stop = 0 ∨ betterNeighbour rtable destIp stop = false

/-- The walk stops at an entry that covers, without a better neighbour in the table. -/
theorem walkBack_spec {rtable : Rtable} {destIp : BitVec 32} (index : Nat)
    (covers : Covers (rtable index) destIp) :
    WalkedBack rtable destIp index (walkBack rtable destIp index) := by
  induction index with
  | zero => exact ⟨le_refl 0, covers, rfl, BitVec.le_refl _, .inl rfl⟩
  | succ index ih =>
      unfold walkBack
      split
      case isTrue better =>
        obtain ⟨coversNext, longer, same⟩ := betterNeighbour_iff.mp better
        simp only [Nat.cast_add, Nat.cast_one, add_sub_cancel_right] at coversNext longer same
        have rest := ih coversNext
        refine ⟨Nat.le_succ_of_le rest.backwards, rest.covers, ?_, ?_, rest.stops⟩
        · rw [rest.samePrefix, same, Nat.cast_add, Nat.cast_one]
        · exact BitVec.le_trans (BitVec.le_of_lt longer) rest.mask
      case isFalse stays =>
        exact ⟨le_refl _, covers, rfl, BitVec.le_refl _, .inr (by simpa using stays)⟩

/-- If the search misses there is no route. -/
theorem getBestRoute_of_none {rtable : Rtable} {rtableSize : Nat} {destIp : BitVec 32}
    (missed : bisect (verdict rtable destIp) 0 (rtableSize - 1) = none) :
    getBestRoute rtable rtableSize destIp = -1 := by
  simp [getBestRoute, binarySearch_eq_bisect, missed]

/-- If the search stops the route is where the walk from there stops. -/
theorem getBestRoute_of_some {rtable : Rtable} {rtableSize : Nat} {destIp : BitVec 32} {m : Int}
    (found : bisect (verdict rtable destIp) 0 (rtableSize - 1) = some m) :
    getBestRoute rtable rtableSize destIp = walkBack rtable destIp m.toNat ∧
      WalkedBack rtable destIp m.toNat (walkBack rtable destIp m.toNat) := by
  have bounds := bisect_some found
  have index : ((m.toNat : Nat) : Int) = m := by omega
  have covers : Covers (rtable m.toNat) destIp := by
    rw [index]
    exact verdict_eq_iff.mp bounds.2.2
  refine ⟨?_, walkBack_spec m.toNat covers⟩
  have notMissing : m ≠ -1 := by omega
  simp [getBestRoute, binarySearch_eq_bisect, found, notMissing]

/-! ## Sorted tables -/

/-- The table is in the order of `quicksort`. -/
abbrev SortedTable (rtable : Rtable) (rtableSize : Nat) : Prop :=
  Lomuto.Ordered sortsBefore 0 ((rtableSize : Int) - 1) rtable

/-- No entry is sorted before itself. -/
theorem sortsBefore_irrefl (x : RouteTableEntry) : sortsBefore x x = false := by
  simp [sortsBefore]

/-- The order of the sort is transitive. -/
theorem sortsBefore_trans (x y z : RouteTableEntry) (first : sortsBefore x y = true)
    (second : sortsBefore y z = true) : sortsBefore x z = true := by
  simp only [sortsBefore, Bool.or_eq_true, Bool.and_eq_true, decide_eq_true_eq] at *
  bv_omega

/-- The source sorts its table. -/
theorem quicksort_sorted (rtable : Rtable) (rtableSize : Nat) :
    SortedTable (quicksort rtable 0 (rtableSize - 1)) rtableSize := by
  rw [quicksort_eq_lomuto]
  exact Lomuto.quicksort_ordered sortsBefore_irrefl sortsBefore_trans rtable 0 _

/-- Sorting keeps a well-formed table well formed. -/
theorem WellFormedTable.quicksort {rtable : Rtable} {rtableSize : Nat}
    (wellFormed : WellFormedTable rtable rtableSize) :
    WellFormedTable (quicksort rtable 0 (rtableSize - 1)) rtableSize := by
  have moved : Cells.Rearranges 0 ((rtableSize : Int) - 1) rtable
      (Router.quicksort rtable 0 (rtableSize - 1)) := by
    rw [quicksort_eq_lomuto]
    exact Lomuto.quicksort_rearranges sortsBefore rtable 0 _
  refine ⟨?_, ?_, ?_⟩
  · exact moved.forall_segment (P := fun entry => ContiguousMask entry.mask)
      wellFormed.contiguous
  · exact moved.forall_segment (P := fun entry => entry.netPrefix = entry.netPrefix &&& entry.mask)
      wellFormed.canonical
  · intro i j lowI highI lowJ highJ
    exact moved.injective_segment (fun entry => (entry.netPrefix, entry.mask))
      wellFormed.distinct i j lowI highI lowJ highJ

section Sorted

variable {rtable : Rtable} {rtableSize : Nat} {destIp : BitVec 32} {i j : Int}

/-- In a sorted table prefixes go up. -/
theorem SortedTable.prefix_le (sorted : SortedTable rtable rtableSize) (lower : 0 ≤ i)
    (le : i ≤ j) (upper : j ≤ (rtableSize : Int) - 1) :
    (rtable i).netPrefix ≤ (rtable j).netPrefix := by
  rcases eq_or_lt_of_le le with rfl | less
  · exact BitVec.le_refl _
  · have unordered := sorted i j lower less upper
    simp only [sortsBefore, Bool.or_eq_false_iff, decide_eq_false_iff_not] at unordered
    exact BitVec.not_lt.mp unordered.1

/-- In a sorted table masks go down among equal prefixes. -/
theorem SortedTable.mask_le (sorted : SortedTable rtable rtableSize) (lower : 0 ≤ i)
    (le : i ≤ j) (upper : j ≤ (rtableSize : Int) - 1)
    (same : (rtable i).netPrefix = (rtable j).netPrefix) :
    (rtable j).mask ≤ (rtable i).mask := by
  rcases eq_or_lt_of_le le with rfl | less
  · exact BitVec.le_refl _
  · have unordered := sorted i j lower less upper
    simp only [sortsBefore, same, Bool.or_eq_false_iff, Bool.and_eq_false_iff,
      decide_eq_false_iff_not, not_true_eq_false, false_or] at unordered
    exact BitVec.not_lt.mp unordered.2

/-- Entries between two entries of one prefix have that prefix. -/
theorem SortedTable.prefix_eq_of_between {k : Int} (sorted : SortedTable rtable rtableSize)
    (lower : 0 ≤ i) (low : i ≤ k) (high : k ≤ j) (upper : j ≤ (rtableSize : Int) - 1)
    (same : (rtable i).netPrefix = (rtable j).netPrefix) :
    (rtable k).netPrefix = (rtable i).netPrefix := by
  have above := sorted.prefix_le lower low (by omega)
  have below := sorted.prefix_le (by omega) high upper
  rw [← same] at below
  exact BitVec.le_antisymm below above

/-- A shorter mask of the same prefix covers whatever a longer one covers. -/
theorem WellFormedTable.covers_of_mask_le (wellFormed : WellFormedTable rtable rtableSize)
    (lowI : 0 ≤ i) (highI : i ≤ (rtableSize : Int) - 1) (lowJ : 0 ≤ j)
    (highJ : j ≤ (rtableSize : Int) - 1) (same : (rtable j).netPrefix = (rtable i).netPrefix)
    (shorter : (rtable j).mask ≤ (rtable i).mask) (covers : Covers (rtable i) destIp) :
    Covers (rtable j) destIp := by
  have nested := (wellFormed.contiguous j lowJ highJ).nested
    (wellFormed.contiguous i lowI highI) shorter
  unfold Covers at *
  calc destIp &&& (rtable j).mask
      = destIp &&& ((rtable j).mask &&& (rtable i).mask) := by rw [nested]
    _ = (destIp &&& (rtable i).mask) &&& (rtable j).mask := by
        rw [BitVec.and_comm (rtable j).mask, BitVec.and_assoc]
    _ = (rtable j).netPrefix &&& (rtable j).mask := by rw [covers, same]
    _ = (rtable j).netPrefix := (wellFormed.canonical j lowJ highJ).symm

end Sorted

/-! ## When the search reaches the longest match -/

/-- The matching entries that have the prefix of entry `best`. -/
def InBlock (rtable : Rtable) (rtableSize : Nat) (destIp : BitVec 32) (best m : Int) : Prop :=
  0 ≤ m ∧ m ≤ (rtableSize : Int) - 1 ∧ Covers (rtable m) destIp ∧
    (rtable m).netPrefix = (rtable best).netPrefix

instance (rtable : Rtable) (rtableSize : Nat) (destIp : BitVec 32) (best : Int) :
    DecidablePred (InBlock rtable rtableSize destIp best) :=
  fun _ => inferInstanceAs (Decidable (_ ∧ _ ∧ _ ∧ _))

/-- On the way from the middle of the table to the longest match no probe
misleads the search: before the block of the longest match the masked
destination exceeds the probed prefix, behind the block it is less, and no
entry outside the block matches. -/
def SteeredToLongest (rtable : Rtable) (rtableSize : Nat) (destIp : BitVec 32) : Prop :=
  ∀ best, IsLongestMatch rtable rtableSize destIp best →
    ∀ m ∈ trail (toward (InBlock rtable rtableSize destIp best) best) 0 (rtableSize - 1),
      verdict rtable destIp m = toward (InBlock rtable rtableSize destIp best) best m

section Search

variable {rtable : Rtable} {rtableSize : Nat} {destIp : BitVec 32} {best : Int}

/-- Where an entry covers there is a longest match. -/
theorem exists_longest {i : Int} (lower : 0 ≤ i) (upper : i ≤ (rtableSize : Int) - 1)
    (covers : Covers (rtable i) destIp) :
    ∃ best, IsLongestMatch rtable rtableSize destIp best := by
  let matching := (Finset.Icc 0 ((rtableSize : Int) - 1)).filter fun k => Covers (rtable k) destIp
  have nonempty : matching.Nonempty := ⟨i, by simp [matching, lower, upper, covers]⟩
  obtain ⟨best, member, greatest⟩ :=
    matching.exists_max_image (fun k => maskLength (rtable k).mask) nonempty
  simp only [matching, Finset.mem_filter, Finset.mem_Icc] at member greatest
  exact ⟨best, member.1.1, member.1.2, member.2,
    fun k low high coversK => greatest k ⟨⟨low, high⟩, coversK⟩⟩

/-- The longest match lies in its own block. -/
theorem IsLongestMatch.inBlock (longest : IsLongestMatch rtable rtableSize destIp best) :
    InBlock rtable rtableSize destIp best best :=
  ⟨longest.lower, longest.upper, longest.covers, rfl⟩

/-- No entry that covers has a greater mask than the longest match. -/
theorem IsLongestMatch.mask_le (wellFormed : WellFormedTable rtable rtableSize)
    (longest : IsLongestMatch rtable rtableSize destIp best) {m : Int} (lower : 0 ≤ m)
    (upper : m ≤ (rtableSize : Int) - 1) (covers : Covers (rtable m) destIp) :
    (rtable m).mask ≤ (rtable best).mask :=
  ((wellFormed.contiguous m lower upper).le_iff_maskLength_le
    (wellFormed.contiguous best longest.lower longest.upper)).mpr
      (longest.longest m lower upper covers)

/-- The longest match is the first entry of its block. -/
theorem IsLongestMatch.least (wellFormed : WellFormedTable rtable rtableSize)
    (sorted : SortedTable rtable rtableSize)
    (longest : IsLongestMatch rtable rtableSize destIp best) {m : Int}
    (member : InBlock rtable rtableSize destIp best m) : best ≤ m := by
  obtain ⟨lower, upper, covers, same⟩ := member
  by_contra earlier
  have descending := sorted.mask_le lower (by omega) longest.upper same
  have ascending := longest.mask_le wellFormed lower upper covers
  have masks := BitVec.le_antisymm ascending descending
  have index := wellFormed.distinct m best lower upper longest.lower longest.upper
    (by rw [same, masks])
  omega

/-- The block of the longest match has no gaps. -/
theorem IsLongestMatch.convex (wellFormed : WellFormedTable rtable rtableSize)
    (sorted : SortedTable rtable rtableSize)
    (longest : IsLongestMatch rtable rtableSize destIp best) {m m' : Int} (low : best ≤ m)
    (high : m ≤ m') (member : InBlock rtable rtableSize destIp best m') :
    InBlock rtable rtableSize destIp best m := by
  obtain ⟨_, upper', _, same'⟩ := member
  have lowerBest := longest.lower
  have same := sorted.prefix_eq_of_between lowerBest low high upper' same'.symm
  have shorter := sorted.mask_le lowerBest low (by omega) same.symm
  exact ⟨by omega, by omega, wellFormed.covers_of_mask_le lowerBest longest.upper (by omega)
    (by omega) same shorter longest.covers, same⟩

/-- From anywhere in the block the walk back ends at a longest match. -/
theorem WalkedBack.isLongestMatch (wellFormed : WellFormedTable rtable rtableSize)
    (sorted : SortedTable rtable rtableSize)
    (longest : IsLongestMatch rtable rtableSize destIp best) {start stop : Nat}
    (walked : WalkedBack rtable destIp start stop)
    (member : InBlock rtable rtableSize destIp best start) :
    IsLongestMatch rtable rtableSize destIp stop := by
  obtain ⟨_, upper, _, samePrefix⟩ := member
  have backwards := walked.backwards
  have upperStop : (stop : Int) ≤ (rtableSize : Int) - 1 := by omega
  have lowerBest := longest.lower
  have same : (rtable stop).netPrefix = (rtable best).netPrefix :=
    walked.samePrefix.trans samePrefix
  have reachesBest : (rtable best).mask ≤ (rtable stop).mask := by
    rcases le_or_gt (stop : Int) best with before | after
    · exact sorted.mask_le (by omega) before longest.upper same
    · -- The entry before `stop` would be better, so the walk could not stop there.
      exfalso
      have samePrevious : (rtable (stop - 1)).netPrefix = (rtable best).netPrefix :=
        sorted.prefix_eq_of_between lowerBest (by omega) (by omega) upperStop same.symm
      have shorter := sorted.mask_le lowerBest (by omega : best ≤ (stop : Int) - 1) (by omega)
        samePrevious.symm
      have covers := wellFormed.covers_of_mask_le lowerBest longest.upper
        (by omega : 0 ≤ (stop : Int) - 1) (by omega) samePrevious shorter longest.covers
      have descending := sorted.mask_le (by omega : 0 ≤ (stop : Int) - 1) (by omega) upperStop
        (samePrevious.trans same.symm)
      have longer : (rtable stop).mask < (rtable (stop - 1)).mask := by
        refine BitVec.lt_of_le_ne descending fun equal => ?_
        have index := wellFormed.distinct ((stop : Int) - 1) stop (by omega) (by omega)
          (by omega) upperStop (by rw [samePrevious, same, equal])
        omega
      have better := betterNeighbour_iff.mpr ⟨covers, longer, samePrevious.trans same.symm⟩
      rcases walked.stops with atStart | stays
      · omega
      · rw [better] at stays
        cases stays
  refine ⟨by omega, upperStop, walked.covers, fun j lower upper covers => ?_⟩
  exact (longest.longest j lower upper covers).trans
    (((wellFormed.contiguous best lowerBest longest.upper).le_iff_maskLength_le
      (wellFormed.contiguous stop (by omega) upperStop)).mp reachesBest)

/-- Two longest matches are the same entry. -/
theorem IsLongestMatch.unique (wellFormed : WellFormedTable rtable rtableSize) {other : Int}
    (longest : IsLongestMatch rtable rtableSize destIp best)
    (longest' : IsLongestMatch rtable rtableSize destIp other) : best = other := by
  have masks := BitVec.le_antisymm
    (longest'.mask_le wellFormed longest.lower longest.upper longest.covers)
    (longest.mask_le wellFormed longest'.lower longest'.upper longest'.covers)
  have prefixes : (rtable best).netPrefix = (rtable other).netPrefix := by
    rw [← longest.covers, ← longest'.covers, masks]
  exact wellFormed.distinct best other longest.lower longest.upper longest'.lower longest'.upper
    (by rw [prefixes, masks])

/-- Where some entry matches, longest-prefix match succeeds exactly when the
bisection ends in the block of the longest match. -/
theorem findsLongestMatch_iff_block (wellFormed : WellFormedTable rtable rtableSize)
    (sorted : SortedTable rtable rtableSize)
    (longest : IsLongestMatch rtable rtableSize destIp best) :
    FindsLongestMatch rtable rtableSize destIp ↔
      ∃ m, bisect (verdict rtable destIp) 0 (rtableSize - 1) = some m ∧
        InBlock rtable rtableSize destIp best m := by
  constructor
  · intro finds
    cases search : bisect (verdict rtable destIp) 0 (rtableSize - 1) with
    | none =>
        have missing := finds.missing.mp (getBestRoute_of_none search)
        exact absurd longest.covers (missing best longest.lower longest.upper)
    | some m =>
        obtain ⟨route, walked⟩ := getBestRoute_of_some search
        have bounds := bisect_some search
        have index : ((m.toNat : Nat) : Int) = m := by omega
        have reached := finds.longest (by omega)
        rw [route] at reached
        have same := reached.unique wellFormed longest
        refine ⟨m, rfl, bounds.1, bounds.2.1, verdict_eq_iff.mp bounds.2.2, ?_⟩
        rw [← same, walked.samePrefix, index]
  · rintro ⟨m, search, member⟩
    obtain ⟨route, walked⟩ := getBestRoute_of_some search
    have bounds := bisect_some search
    have index : ((m.toNat : Nat) : Int) = m := by omega
    have final := walked.isLongestMatch wellFormed sorted longest (by rwa [index])
    constructor
    · constructor
      · intro missing
        omega
      · intro none
        exact absurd longest.covers (none best longest.lower longest.upper)
    · intro _
      rwa [route]

end Search

/-- `get_best_route` over the sorted table does longest-prefix match for a
destination exactly when no probe misleads its binary search. -/
theorem getBestRoute_longest_iff {rtable : Rtable} {rtableSize : Nat}
    (wellFormed : WellFormedTable rtable rtableSize) (destIp : BitVec 32) :
    FindsLongestMatch (quicksort rtable 0 (rtableSize - 1)) rtableSize destIp ↔
      SteeredToLongest (quicksort rtable 0 (rtableSize - 1)) rtableSize destIp := by
  have sortedWellFormed := wellFormed.quicksort
  have sorted := quicksort_sorted rtable rtableSize
  generalize quicksort rtable 0 (rtableSize - 1) = table at sortedWellFormed sorted ⊢
  by_cases matched : ∃ i, 0 ≤ i ∧ i ≤ (rtableSize : Int) - 1 ∧ Covers (table i) destIp
  · obtain ⟨i, lower, upper, covers⟩ := matched
    obtain ⟨best, longest⟩ := exists_longest lower upper covers
    rw [findsLongestMatch_iff_block sortedWellFormed sorted longest,
      exists_bisect_block_iff longest.lower longest.upper longest.inBlock
        (fun m member => longest.least sortedWellFormed sorted member)
        (fun m m' low high member => longest.convex sortedWellFormed sorted low high member)
        (fun m member => verdict_eq_iff.mpr member.2.2.1)]
    constructor
    · intro steered other longestOther
      rw [← longest.unique sortedWellFormed longestOther]
      exact steered
    · intro steered
      exact steered best longest
  · -- Nothing matches: the search can only end at a matching entry, so it ends empty.
    have uncovered : ∀ i, 0 ≤ i → i ≤ (rtableSize : Int) - 1 → ¬ Covers (table i) destIp :=
      fun i lower upper covers => matched ⟨i, lower, upper, covers⟩
    have missed : bisect (verdict table destIp) 0 (rtableSize - 1) = none := by
      cases search : bisect (verdict table destIp) 0 (rtableSize - 1) with
      | none => rfl
      | some m =>
          have bounds := bisect_some search
          exact absurd (verdict_eq_iff.mp bounds.2.2) (uncovered m bounds.1 bounds.2.1)
    have route := getBestRoute_of_none missed
    constructor
    · intro _ best longest
      exact absurd longest.covers (uncovered best longest.lower longest.upper)
    · intro _
      exact ⟨⟨fun _ => uncovered, fun _ => route⟩, fun found => absurd route found⟩

/-- The table 10.0.0.0/8, 11.0.0.0/8, 10.1.0.0/16. -/
def nestedTable : Rtable := fun i =>
  if i = 0 then ⟨0x0a, 0x0100a8c0, 0xff, 0⟩
  else if i = 1 then ⟨0x0b, 0x0101a8c0, 0xff, 1⟩
  else ⟨0x010a, 0x0102a8c0, 0xffff, 2⟩

theorem nestedTable_wellFormed : WellFormedTable nestedTable 3 := by
  have cases_index : ∀ i : Int, 0 ≤ i → i ≤ (3 : Nat) - 1 → i = 0 ∨ i = 1 ∨ i = 2 := by omega
  refine ⟨fun i lower upper => ?_, fun i lower upper => ?_, fun i j lowI highI lowJ highJ same => ?_⟩
  · rcases cases_index i lower upper with rfl | rfl | rfl
    · exact ⟨8, by decide⟩
    · exact ⟨8, by decide⟩
    · exact ⟨16, by decide⟩
  · rcases cases_index i lower upper with rfl | rfl | rfl <;> decide
  · rcases cases_index i lowI highI with rfl | rfl | rfl <;>
      rcases cases_index j lowJ highJ with rfl | rfl | rfl <;>
      first | rfl | exact absurd same (by decide)

/-- The destination 10.1.0.5 under `nestedTable`. -/
theorem getBestRoute_longest_iff_nested :
    FindsLongestMatch (quicksort nestedTable 0 ((3 : Nat) - 1)) 3 0x0500010a ↔
      SteeredToLongest (quicksort nestedTable 0 ((3 : Nat) - 1)) 3 0x0500010a :=
  getBestRoute_longest_iff nestedTable_wellFormed 0x0500010a

/-- The search for 10.1.0.5 turns left at 11.0.0.0/8 and settles for
10.0.0.0/8, although 10.1.0.0/16 is in the table. -/
theorem nestedTable_shadows_longest :
    WellFormedTable nestedTable 3 ∧
      ¬ FindsLongestMatch (quicksort nestedTable 0 ((3 : Nat) - 1)) 3 0x0500010a := by
  refine ⟨nestedTable_wellFormed, fun finds => ?_⟩
  have route : getBestRoute (quicksort nestedTable 0 ((3 : Nat) - 1)) 3 0x0500010a = 0 := by
    decide +kernel
  have longest := finds.longest (by rw [route]; decide)
  rw [route] at longest
  have shorter := longest.longest 2 (by decide) (by decide) (by decide +kernel)
  revert shorter
  decide +kernel

end CommunicationProtocols.Router
