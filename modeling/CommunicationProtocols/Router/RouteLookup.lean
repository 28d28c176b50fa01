import CommunicationProtocols.Router.LongestPrefix

/-!
# What a route lookup reads and returns

The facts here hold for every table, sorted or not. A lookup returns only
entries that cover the destination. It stays inside the table unless the walk
back gets as far as entry 0, where the loop test of `get_best_route` reads the
entry before it.
-/

namespace CommunicationProtocols.Router

open Library

/-! ## The reads of a lookup -/

/-- The indices at which `binarySearch` reads the table. -/
def binarySearchReads (rtable : Rtable) (l r : Int) (destIp : BitVec 32) : List Int :=
  if _inRange : r ≥ l then
    let mid := l + (r - l) / 2
    if destIp &&& (rtable mid).mask = (rtable mid).netPrefix then
      [mid]
    else if destIp &&& (rtable mid).mask < (rtable mid).netPrefix then
      mid :: binarySearchReads rtable l (mid - 1) destIp
    else
      mid :: binarySearchReads rtable (mid + 1) r destIp
  else
    []
termination_by (r - l + 1).toNat
decreasing_by all_goals omega

/-- The indices at which the loop of `get_best_route` reads the table, up to the
read before entry 0. The second comparison of the loop test, the first to read
the entry at `index`, is made only where the first one holds. -/
def walkBackReads (rtable : Rtable) (destIp : BitVec 32) : Nat → List Int
  | 0 => [-1]
  | index + 1 =>
      (if (rtable index).netPrefix = destIp &&& (rtable index).mask then
        [(index : Int), (index : Int) + 1]
      else
        [(index : Int)]) ++
      if betterNeighbour rtable destIp (index + 1 : Nat) then
        walkBackReads rtable destIp index
      else
        []

/-- The indices at which `get_best_route` reads the table. -/
def getBestRouteReads (rtable : Rtable) (rtableSize : Nat) (destIp : BitVec 32) : List Int :=
  let index := binarySearch rtable 0 (rtableSize - 1) destIp
  binarySearchReads rtable 0 (rtableSize - 1) destIp ++
    if index = -1 then [] else walkBackReads rtable destIp index.toNat

section

variable {rtable : Rtable} {rtableSize : Nat} {destIp : BitVec 32}

/-- The entries that the search reads are the trail of the bisection. -/
theorem binarySearchReads_eq_trail (rtable : Rtable) (l r : Int) (destIp : BitVec 32) :
    binarySearchReads rtable l r destIp = trail (verdict rtable destIp) l r := by
  induction l, r using binarySearchReads.induct rtable destIp with
  | case1 l r inRange mid here =>
      have stop : verdict rtable destIp (Library.midpoint l r) = .eq := verdict_eq_iff.mpr here
      rw [binarySearchReads, dif_pos inRange, trail_of_eq inRange stop]
      simp only [mid] at here
      simp [here, Library.midpoint]
  | case2 l r inRange mid misses less ih =>
      have left : verdict rtable destIp mid = .lt := verdict_of_less misses less
      rw [binarySearchReads, dif_pos inRange, trail_of_lt inRange left]
      simp only [mid] at misses less ih
      simp only [misses, less, if_true, if_false, ih]
      rfl
  | case3 l r inRange mid misses notLess ih =>
      have right : verdict rtable destIp mid = .gt := verdict_of_not_less misses notLess
      rw [binarySearchReads, dif_pos inRange, trail_of_gt inRange right]
      simp only [mid] at misses notLess ih
      simp only [misses, notLess, if_false, ih]
      rfl
  | case4 l r outOfRange =>
      rw [binarySearchReads, dif_neg outOfRange, trail, dif_neg outOfRange]

/-- The binary search depends on the entries it reads only. -/
theorem binarySearch_eq_of_reads {rtable' : Rtable} {l r : Int}
    (same : ∀ k ∈ binarySearchReads rtable l r destIp, rtable' k = rtable k) :
    binarySearch rtable' l r destIp = binarySearch rtable l r destIp := by
  induction l, r using binarySearchReads.induct rtable destIp with
  | case1 l r inRange mid here =>
      have reads : binarySearchReads rtable l r destIp = [mid] := by
        rw [binarySearchReads, dif_pos inRange]
        exact if_pos here
      rw [reads] at same
      have probed := same mid List.mem_cons_self
      rw [binarySearch, binarySearch, dif_pos inRange, dif_pos inRange]
      exact (if_pos (by rw [probed]; exact here)).trans (if_pos here).symm
  | case2 l r inRange mid misses less ih =>
      have reads : binarySearchReads rtable l r destIp =
          mid :: binarySearchReads rtable l (mid - 1) destIp := by
        rw [binarySearchReads, dif_pos inRange]
        exact (if_neg misses).trans (if_pos less)
      rw [reads] at same
      have probed := same mid List.mem_cons_self
      have later := ih fun k member => same k (List.mem_cons_of_mem _ member)
      rw [binarySearch, binarySearch, dif_pos inRange, dif_pos inRange]
      refine (if_neg (by rw [probed]; exact misses)).trans ((if_pos (by
        rw [probed]; exact less)).trans (later.trans ?_))
      exact ((if_neg misses).trans (if_pos less)).symm
  | case3 l r inRange mid misses notLess ih =>
      have reads : binarySearchReads rtable l r destIp =
          mid :: binarySearchReads rtable (mid + 1) r destIp := by
        rw [binarySearchReads, dif_pos inRange]
        exact (if_neg misses).trans (if_neg notLess)
      rw [reads] at same
      have probed := same mid List.mem_cons_self
      have later := ih fun k member => same k (List.mem_cons_of_mem _ member)
      rw [binarySearch, binarySearch, dif_pos inRange, dif_pos inRange]
      refine (if_neg (by rw [probed]; exact misses)).trans ((if_neg (by
        rw [probed]; exact notLess)).trans (later.trans ?_))
      exact ((if_neg misses).trans (if_neg notLess)).symm
  | case4 l r outOfRange =>
      rw [binarySearch, binarySearch, dif_neg outOfRange, dif_neg outOfRange]

/-- The walk back depends on the entries it reads only. -/
theorem walkBack_eq_of_reads {rtable' : Rtable} {index : Nat}
    (same : ∀ k ∈ walkBackReads rtable destIp index, rtable' k = rtable k) :
    walkBack rtable' destIp index = walkBack rtable destIp index := by
  induction index with
  | zero => rfl
  | succ index ih =>
      have before : ((index + 1 : Nat) : Int) - 1 = index := by omega
      have first : rtable' index = rtable index := by
        refine same index (List.mem_append_left _ ?_)
        split <;> exact List.mem_cons_self
      have tested : betterNeighbour rtable' destIp (index + 1 : Nat) =
          betterNeighbour rtable destIp (index + 1 : Nat) := by
        unfold betterNeighbour
        rw [before, first]
        by_cases covers : (rtable index).netPrefix = destIp &&& (rtable index).mask
        · have second : rtable' (index + 1 : Nat) = rtable (index + 1 : Nat) := by
            refine same _ (List.mem_append_left _ ?_)
            rw [if_pos covers]
            simp
          rw [second]
        · have fails : ((rtable index).netPrefix == destIp &&& (rtable index).mask) = false :=
            beq_eq_false_iff_ne.mpr covers
          simp only [fails, Bool.false_and]
      simp only [walkBack]
      rw [tested]
      split
      case isTrue better =>
        refine ih fun k member => same k (List.mem_append_right _ ?_)
        rw [if_pos better]
        exact member
      case isFalse => rfl

/-- A lookup depends on the entries it reads only. -/
theorem getBestRoute_eq_of_reads {rtable' : Rtable}
    (same : ∀ k ∈ getBestRouteReads rtable rtableSize destIp, rtable' k = rtable k) :
    getBestRoute rtable' rtableSize destIp = getBestRoute rtable rtableSize destIp := by
  have searched : binarySearch rtable' 0 (rtableSize - 1) destIp =
      binarySearch rtable 0 (rtableSize - 1) destIp :=
    binarySearch_eq_of_reads fun k member => same k (List.mem_append_left _ member)
  simp only [getBestRoute, searched]
  split
  case isTrue => rfl
  case isFalse found =>
    refine congrArg Int.ofNat (walkBack_eq_of_reads fun k member => same k (List.mem_append_right _ ?_))
    rw [if_neg found]
    exact member

/-- The binary search itself never leaves the range it is given. -/
theorem mem_binarySearchReads {l r k : Int} (read : k ∈ binarySearchReads rtable l r destIp) :
    l ≤ k ∧ k ≤ r := by
  rw [binarySearchReads_eq_trail] at read
  exact mem_trail read

/-- Every entry from 1 to `index` has a better neighbour before it. -/
def LeadsToFirst (rtable : Rtable) (destIp : BitVec 32) (index : Int) : Prop :=
  ∀ k, 1 ≤ k → k ≤ index → betterNeighbour rtable destIp k = true

/-- The walk reads entries up to its start, and entry -1 where it leads to the first. -/
theorem mem_walkBackReads {index : Nat} {k : Int} (read : k ∈ walkBackReads rtable destIp index) :
    k = -1 ∧ LeadsToFirst rtable destIp index ∨ 0 ≤ k ∧ k ≤ index := by
  induction index with
  | zero =>
      obtain rfl := List.mem_singleton.mp read
      exact .inl ⟨rfl, fun k low high => by omega⟩
  | succ index ih =>
      rcases List.mem_append.mp read with here | further
      · right
        split at here <;> simp only [List.mem_cons, List.not_mem_nil, or_false] at here <;> omega
      · split at further
        case isTrue better =>
          rcases ih further with ⟨before, leads⟩ | inside
          · refine .inl ⟨before, fun k' low high => ?_⟩
            rcases Int.lt_or_eq_of_le high with less | same
            · exact leads k' low (by omega)
            · rw [same]
              exact better
          · right
            omega
        case isFalse => cases further

/-- The walk back from `index` reads before entry 0 exactly where every entry on
the way has a better neighbour. -/
theorem before_mem_walkBackReads_iff {index : Nat} :
    (-1 : Int) ∈ walkBackReads rtable destIp index ↔ LeadsToFirst rtable destIp index := by
  constructor
  · intro read
    rcases mem_walkBackReads read with ⟨_, leads⟩ | inside
    · exact leads
    · omega
  · intro leads
    induction index with
    | zero => exact List.mem_singleton.mpr rfl
    | succ index ih =>
        have better := leads (index + 1 : Nat) (by omega) (le_refl _)
        rw [walkBackReads, if_pos better]
        exact List.mem_append_right _ (ih fun k low high => leads k low (by omega))

/-- The walk reads two entries in a round at most. -/
theorem walkBackReads_length_le (rtable : Rtable) (destIp : BitVec 32) (index : Nat) :
    (walkBackReads rtable destIp index).length ≤ 2 * index + 1 := by
  induction index with
  | zero => exact le_refl 1
  | succ index ih =>
      rw [walkBackReads, List.length_append]
      have here : (if (rtable index).netPrefix = destIp &&& (rtable index).mask then
          [(index : Int), (index : Int) + 1] else [(index : Int)]).length ≤ 2 := by
        split <;> simp
      by_cases better : betterNeighbour rtable destIp (index + 1 : Nat) = true
      · rw [if_pos better]
        omega
      · rw [if_neg better, List.length_nil]
        omega

/-- What `binarySearch` finds lies in the table and covers the destination. -/
theorem binarySearch_found (found : binarySearch rtable 0 (rtableSize - 1) destIp ≠ -1) :
    ∃ m : Nat, m < rtableSize ∧ binarySearch rtable 0 (rtableSize - 1) destIp = m ∧
      bisect (verdict rtable destIp) 0 (rtableSize - 1) = some (m : Int) := by
  rw [binarySearch_eq_bisect] at found ⊢
  cases search : bisect (verdict rtable destIp) 0 (rtableSize - 1) with
  | none => exact absurd (by simp [search]) found
  | some m =>
      have bounds := bisect_some search
      obtain ⟨m, rfl⟩ := Int.eq_ofNat_of_zero_le bounds.1
      exact ⟨m, by omega, rfl, rfl⟩

/-- A lookup makes at most three reads for each entry of the table. -/
theorem getBestRouteReads_length_le (rtable : Rtable) (rtableSize : Nat) (destIp : BitVec 32) :
    (getBestRouteReads rtable rtableSize destIp).length ≤ 3 * rtableSize := by
  have searched := trail_length_le (verdict rtable destIp) 0 (rtableSize - 1)
  rw [getBestRouteReads, List.length_append, binarySearchReads_eq_trail]
  split
  case isTrue =>
    simp only [List.length_nil]
    omega
  case isFalse found =>
    obtain ⟨m, upper, result, _⟩ := binarySearch_found found
    have walked := walkBackReads_length_le rtable destIp m
    rw [result, Int.toNat_natCast]
    omega

end

/-! ## The loop of `get_best_route` -/

/-- `fuel` rounds of the `while (1)` loop of `get_best_route`, and `none` if it
still runs then. At index 0 the loop test is taken to fail. -/
def walkBackLoop (rtable : Rtable) (destIp : BitVec 32) : Nat → Int → Option Int
  | 0, _ => none
  | fuel + 1, index =>
      if 0 < index ∧ betterNeighbour rtable destIp index then
        walkBackLoop rtable destIp fuel (index - 1)
      else
        some index

/-- `get_best_route` with `fuel` rounds for its loop. -/
def getBestRouteLoop (rtable : Rtable) (rtableSize : Nat) (destIp : BitVec 32) (fuel : Nat) :
    Option Int :=
  let index := binarySearch rtable 0 (rtableSize - 1) destIp
  if index = -1 then some (-1) else walkBackLoop rtable destIp fuel index

/-- The index decreases, so the loop stops within `index + 1` rounds. -/
theorem walkBackLoop_eq (rtable : Rtable) (destIp : BitVec 32) {index fuel : Nat}
    (enough : index < fuel) :
    walkBackLoop rtable destIp fuel index = some (walkBack rtable destIp index : Int) := by
  induction index generalizing fuel with
  | zero =>
      obtain ⟨fuel, rfl⟩ := Nat.exists_eq_add_of_lt enough
      simp [walkBackLoop, walkBack]
  | succ index ih =>
      obtain ⟨fuel, rfl⟩ := Nat.exists_eq_add_of_lt enough
      rw [walkBackLoop, walkBack]
      by_cases better : betterNeighbour rtable destIp (index + 1 : Nat) = true
      · have positive : (0 : Int) < (index + 1 : Nat) := by omega
        have previous : ((index + 1 : Nat) : Int) - 1 = index := by omega
        rw [if_pos ⟨positive, better⟩, if_pos better, previous]
        exact ih (by omega)
      · rw [if_neg fun test => better test.2, if_neg better]

/-- A route that a lookup may return: an entry of the table that covers the
destination, has the prefix the binary search found and no smaller mask. -/
structure SoundRoute (rtable : Rtable) (rtableSize : Nat) (destIp : BitVec 32)
    (route : Int) : Prop where
  lower : 0 ≤ route
  upper : route < rtableSize
  covers : Covers (rtable route) destIp
  samePrefix : (rtable route).netPrefix =
    (rtable (binarySearch rtable 0 (rtableSize - 1) destIp)).netPrefix
  mask : (rtable (binarySearch rtable 0 (rtableSize - 1) destIp)).mask ≤ (rtable route).mask

/-- With enough rounds the loop returns what the lookup does. -/
theorem getBestRouteLoop_eq (rtable : Rtable) (rtableSize : Nat) (destIp : BitVec 32)
    {fuel : Nat} (enough : rtableSize ≤ fuel) :
    getBestRouteLoop rtable rtableSize destIp fuel =
      some (getBestRoute rtable rtableSize destIp) := by
  rw [getBestRouteLoop, getBestRoute]
  by_cases missed : binarySearch rtable 0 (rtableSize - 1) destIp = -1
  · rw [if_pos missed, if_pos missed]
  · rw [if_neg missed, if_neg missed]
    obtain ⟨m, upper, result, _⟩ := binarySearch_found missed
    rw [result, Int.toNat_natCast]
    exact walkBackLoop_eq rtable destIp (by omega)

/-- A route that is returned is an entry that covers the destination. -/
theorem soundRoute_of_routed {rtable : Rtable} {rtableSize : Nat} {destIp : BitVec 32}
    (routed : getBestRoute rtable rtableSize destIp ≠ -1) :
    SoundRoute rtable rtableSize destIp (getBestRoute rtable rtableSize destIp) := by
  have found : binarySearch rtable 0 (rtableSize - 1) destIp ≠ -1 := by
    intro missed
    exact routed (by rw [getBestRoute, if_pos missed])
  obtain ⟨m, upper, result, search⟩ := binarySearch_found found
  obtain ⟨route, walked⟩ := getBestRoute_of_some search
  rw [Int.toNat_natCast] at route walked
  have backwards := walked.backwards
  rw [route]
  refine ⟨by omega, by omega, walked.covers, ?_, ?_⟩
  · rw [result]
    exact walked.samePrefix
  · rw [result]
    exact walked.mask

/-- For every table `get_best_route` terminates, and no packet is routed by a
route that does not cover it. -/
theorem getBestRoute_sound (rtable : Rtable) (rtableSize : Nat) (destIp : BitVec 32) :
    (∀ fuel, rtableSize ≤ fuel → getBestRouteLoop rtable rtableSize destIp fuel =
        some (getBestRoute rtable rtableSize destIp)) ∧
      (getBestRouteReads rtable rtableSize destIp).length ≤ 3 * rtableSize ∧
      (getBestRoute rtable rtableSize destIp ≠ -1 →
        SoundRoute rtable rtableSize destIp (getBestRoute rtable rtableSize destIp)) :=
  ⟨fun _ enough => getBestRouteLoop_eq rtable rtableSize destIp enough,
    getBestRouteReads_length_le rtable rtableSize destIp, soundRoute_of_routed⟩

/-! ## When a lookup stays inside the table -/

/-- Every probe on the way from the middle of the table to `entry` heads for it,
the last one being its match with the destination. -/
def SteeredTo (rtable : Rtable) (rtableSize : Nat) (destIp : BitVec 32) (entry : Int) : Prop :=
  (0 ≤ entry ∧ entry ≤ (rtableSize : Int) - 1) ∧
    ∀ m ∈ trail (toward (· = entry) entry) 0 (rtableSize - 1),
      verdict rtable destIp m = toward (· = entry) entry m

/-- No entry that the search is steered to has better neighbours all the way to
entry 0. -/
def WalkStaysInside (rtable : Rtable) (rtableSize : Nat) (destIp : BitVec 32) : Prop :=
  ∀ entry, SteeredTo rtable rtableSize destIp entry → ¬ LeadsToFirst rtable destIp entry

section

variable {rtable : Rtable} {rtableSize : Nat} {destIp : BitVec 32}

/-- The search is steered to the entry at which it stops. -/
theorem steeredTo_iff {entry : Int} :
    SteeredTo rtable rtableSize destIp entry ↔
      bisect (verdict rtable destIp) 0 (rtableSize - 1) = some entry :=
  bisect_eq_some_iff.symm

/-- A destination has a route exactly if the search is steered to some entry. -/
theorem routed_iff_steered :
    getBestRoute rtable rtableSize destIp ≠ -1 ↔
      ∃ entry, SteeredTo rtable rtableSize destIp entry := by
  constructor
  · intro routed
    cases search : bisect (verdict rtable destIp) 0 (rtableSize - 1) with
    | none => exact absurd (getBestRoute_of_none search) routed
    | some entry => exact ⟨entry, steeredTo_iff.mpr search⟩
  · rintro ⟨entry, steered⟩
    have route := (getBestRoute_of_some (steeredTo_iff.mp steered)).1
    omega

/-- A lookup reads inside the table exactly if its walk back stops behind entry 0. -/
theorem getBestRouteReads_inside_iff :
    (∀ k ∈ getBestRouteReads rtable rtableSize destIp, 0 ≤ k ∧ k < (rtableSize : Int)) ↔
      WalkStaysInside rtable rtableSize destIp := by
  constructor
  · intro inside entry steered leads
    have search := steeredTo_iff.mp steered
    obtain ⟨entry, rfl⟩ := Int.eq_ofNat_of_zero_le steered.1.1
    have result : binarySearch rtable 0 (rtableSize - 1) destIp = entry := by
      rw [binarySearch_eq_bisect, search]
      rfl
    have read : (-1 : Int) ∈ getBestRouteReads rtable rtableSize destIp := by
      rw [getBestRouteReads, result]
      apply List.mem_append_right
      rw [if_neg (by omega), Int.toNat_natCast]
      exact before_mem_walkBackReads_iff.mpr leads
    have bounds := inside (-1) read
    omega
  · intro stays k read
    rcases List.mem_append.mp read with searched | walked
    · have bounds := mem_binarySearchReads searched
      omega
    · split at walked
      case isTrue => cases walked
      case isFalse found =>
        obtain ⟨m, upper, result, search⟩ := binarySearch_found found
        rw [result, Int.toNat_natCast] at walked
        rcases mem_walkBackReads walked with ⟨_, leads⟩ | bounds
        · exact absurd leads (stays m (steeredTo_iff.mpr search))
        · omega

/-! ## The loop without a guard at index 0 -/

/-- The loop of `get_best_route` as it stands: what memory holds before entry 0 is tested
like an entry. -/
def walkBackUnguarded (rtable : Rtable) (destIp : BitVec 32) : Nat → Int → Option Int
  | 0, _ => none
  | fuel + 1, index =>
      if betterNeighbour rtable destIp index then
        walkBackUnguarded rtable destIp fuel (index - 1)
      else
        some index

/-- `get_best_route` with `fuel` rounds for this loop. -/
def getBestRouteUnguarded (rtable : Rtable) (rtableSize : Nat) (destIp : BitVec 32)
    (fuel : Nat) : Option Int :=
  let index := binarySearch rtable 0 (rtableSize - 1) destIp
  if index = -1 then some (-1) else walkBackUnguarded rtable destIp fuel index

/-- A lookup stops at entry 0 at the latest: it does not read before it, or what it reads
there fails the loop test. -/
def StopsInside (rtable : Rtable) (rtableSize : Nat) (destIp : BitVec 32) : Prop :=
  WalkStaysInside rtable rtableSize destIp ∨ betterNeighbour rtable destIp 0 = false

/-- The walk does not go up. -/
theorem walkBackUnguarded_le {fuel : Nat} {index stop : Int}
    (stopped : walkBackUnguarded rtable destIp fuel index = some stop) : stop ≤ index := by
  induction fuel generalizing index with
  | zero => cases stopped
  | succ fuel ih =>
      rw [walkBackUnguarded] at stopped
      split at stopped
      case isTrue =>
        have further := ih stopped
        omega
      case isFalse =>
        obtain rfl := Option.some.inj stopped
        exact Int.le_refl _

/-- A better neighbour leads to the first entry exactly if the way from there does. -/
theorem leadsToFirst_succ {index : Nat}
    (better : betterNeighbour rtable destIp (index + 1 : Nat) = true) :
    LeadsToFirst rtable destIp (index + 1 : Nat) ↔ LeadsToFirst rtable destIp index := by
  constructor
  · intro leads k low high
    exact leads k low (by omega)
  · intro leads k low high
    rcases Int.lt_or_eq_of_le high with less | rfl
    · exact leads k low (by omega)
    · exact better

/-- The two loops differ exactly where the walk arrives at entry 0 and goes on. -/
theorem walkBackUnguarded_eq_iff {index fuel : Nat} (enough : index < fuel) :
    walkBackUnguarded rtable destIp fuel index = some (walkBack rtable destIp index : Int) ↔
      ¬ LeadsToFirst rtable destIp index ∨ betterNeighbour rtable destIp 0 = false := by
  induction index generalizing fuel with
  | zero =>
      obtain ⟨fuel, rfl⟩ := Nat.exists_eq_add_of_lt enough
      have leads : LeadsToFirst rtable destIp (0 : Nat) := fun k low high => by omega
      simp only [Nat.zero_add, walkBackUnguarded, walkBack, leads, not_true_eq_false, false_or]
      cases tested : betterNeighbour rtable destIp (0 : Nat) with
      | true =>
          refine iff_of_false (fun stopped => ?_) (by simp)
          have before := walkBackUnguarded_le stopped
          omega
      | false => exact iff_of_true rfl rfl
  | succ index ih =>
      obtain ⟨fuel, rfl⟩ := Nat.exists_eq_add_of_lt enough
      rw [walkBackUnguarded, walkBack]
      cases better : betterNeighbour rtable destIp (index + 1 : Nat) with
      | true =>
          have previous : ((index + 1 : Nat) : Int) - 1 = index := by omega
          rw [if_pos rfl, if_pos rfl, previous, leadsToFirst_succ better]
          exact ih (by omega)
      | false =>
          refine iff_of_true rfl (.inl fun leads => ?_)
          have wanted := leads (index + 1 : Nat) (by omega) (Int.le_refl _)
          rw [better] at wanted
          cases wanted

/-- The lookup of the source is `getBestRoute` exactly if it stops inside the table. -/
theorem getBestRouteUnguarded_eq_iff {fuel : Nat} (enough : rtableSize ≤ fuel) :
    getBestRouteUnguarded rtable rtableSize destIp fuel =
        some (getBestRoute rtable rtableSize destIp) ↔
      StopsInside rtable rtableSize destIp := by
  rw [getBestRouteUnguarded, getBestRoute]
  by_cases missed : binarySearch rtable 0 (rtableSize - 1) destIp = -1
  · rw [if_pos missed, if_pos missed]
    refine iff_of_true rfl (.inl fun entry steered => absurd missed ?_)
    rw [binarySearch_eq_bisect, steeredTo_iff.mp steered]
    have lower := steered.1.1
    dsimp only [Option.getD_some]
    omega
  · obtain ⟨m, upper, result, search⟩ := binarySearch_found missed
    rw [if_neg missed, if_neg missed, result, Int.toNat_natCast,
      walkBackUnguarded_eq_iff (by omega)]
    have stays : WalkStaysInside rtable rtableSize destIp ↔ ¬ LeadsToFirst rtable destIp m := by
      constructor
      · exact fun inside => inside m (steeredTo_iff.mpr search)
      · intro stops entry steered
        have same := (steeredTo_iff.mp steered).symm.trans search
        obtain rfl := Option.some.inj same
        exact stops
    rw [StopsInside, stays]

end

end CommunicationProtocols.Router
