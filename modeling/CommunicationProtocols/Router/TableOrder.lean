import CommunicationProtocols.Router.LongestPrefix

/-!
# The order of the configuration does not matter

`quicksort` compares by prefix and mask, so a table without two entries of the
same prefix and mask has one sorted arrangement. The search reads nothing but
the sorted entries, and finds the same route whatever order they came in.
-/

namespace CommunicationProtocols.Router

open Library

/-- What the order of `quicksort` looks at. -/
def RouteTableEntry.key (entry : RouteTableEntry) : BitVec 32 × BitVec 32 :=
  (entry.netPrefix, entry.mask)

/-- Two entries neither of which is sorted before the other have the same key. -/
theorem key_eq_of_unordered {x y : RouteTableEntry} (notBefore : sortsBefore x y = false)
    (notAfter : sortsBefore y x = false) : x.key = y.key := by
  simp only [sortsBefore, Bool.or_eq_false_iff, Bool.and_eq_false_iff, decide_eq_false_iff_not]
    at notBefore notAfter
  have prefixes : x.netPrefix = y.netPrefix := by bv_omega
  have masks : x.mask = y.mask := by bv_omega
  exact Prod.ext prefixes masks

section

variable {rtable rtable' : Rtable} {rtableSize : Nat} {destIp : BitVec 32}

/-- The sorted table is determined by its entries. -/
theorem quicksort_segment_eq
    (permuted : (Cells.segment rtable rtableSize).Perm (Cells.segment rtable' rtableSize))
    (distinct : ((Cells.segment rtable rtableSize).map RouteTableEntry.key).Nodup) :
    Cells.segment (quicksort rtable 0 (rtableSize - 1)) rtableSize =
      Cells.segment (quicksort rtable' 0 (rtableSize - 1)) rtableSize := by
  rw [quicksort_eq_lomuto, quicksort_eq_lomuto]
  refine Lomuto.quicksort_segment_eq sortsBefore_irrefl sortsBefore_trans permuted ?_
  intro x memberX y memberY notBefore notAfter
  exact List.inj_on_of_nodup_map distinct memberX memberY
    (key_eq_of_unordered notBefore notAfter)

/-- The walk back reads the entries up to where it starts. -/
theorem walkBack_congr {index : Nat} (same : ∀ i : Nat, i ≤ index → rtable i = rtable' i) :
    walkBack rtable destIp index = walkBack rtable' destIp index := by
  induction index with
  | zero => rfl
  | succ index ih =>
      have here : rtable (index + 1 : Nat) = rtable' (index + 1 : Nat) := same _ (Nat.le_refl _)
      have previous :
          rtable ((index + 1 : Nat) - 1 : Int) = rtable' ((index + 1 : Nat) - 1 : Int) := by
        have cast : ((index + 1 : Nat) - 1 : Int) = (index : Nat) := by omega
        rw [cast]
        exact same index (Nat.le_succ _)
      have rest := ih fun i bound => same i (Nat.le_succ_of_le bound)
      rw [walkBack, walkBack, betterNeighbour, betterNeighbour, here, previous, rest]

/-- The lookup reads the entries of the table only. -/
theorem getBestRoute_congr
    (same : Cells.segment rtable rtableSize = Cells.segment rtable' rtableSize) :
    getBestRoute rtable rtableSize destIp = getBestRoute rtable' rtableSize destIp := by
  have entries := Cells.segment_eq_iff.mp same
  have probes : bisect (verdict rtable destIp) 0 (rtableSize - 1) =
      bisect (verdict rtable' destIp) 0 (rtableSize - 1) := by
    refine bisect_congr fun m member => ?_
    obtain ⟨lower, upper⟩ := mem_trail member
    obtain ⟨index, rfl⟩ := Int.eq_ofNat_of_zero_le lower
    simp only [verdict, entries index (by omega)]
  cases found : bisect (verdict rtable destIp) 0 (rtableSize - 1) with
  | none => rw [getBestRoute_of_none found, getBestRoute_of_none (probes ▸ found)]
  | some m =>
      obtain ⟨lower, upper, _⟩ := bisect_some found
      rw [(getBestRoute_of_some found).1, (getBestRoute_of_some (probes ▸ found)).1,
        walkBack_congr fun i bound => entries i (by omega)]

/-- A route that is found is an entry of the table. -/
theorem getBestRoute_bounds (found : getBestRoute rtable rtableSize destIp ≠ -1) :
    0 ≤ getBestRoute rtable rtableSize destIp ∧
      getBestRoute rtable rtableSize destIp < rtableSize := by
  cases search : bisect (verdict rtable destIp) 0 (rtableSize - 1) with
  | none => exact absurd (getBestRoute_of_none search) found
  | some m =>
      obtain ⟨lower, upper, _⟩ := bisect_some search
      obtain ⟨route, walked⟩ := getBestRoute_of_some search
      have backwards := walked.backwards
      omega

/-- Tables with the same entries are sorted into the same array and route every
destination alike. -/
theorem lookup_order_independent
    (permuted : (Cells.segment rtable rtableSize).Perm (Cells.segment rtable' rtableSize))
    (distinct : ((Cells.segment rtable rtableSize).map RouteTableEntry.key).Nodup) :
    (∀ i : Int, 0 ≤ i → i < rtableSize →
      quicksort rtable 0 (rtableSize - 1) i = quicksort rtable' 0 (rtableSize - 1) i) ∧
    ∀ destIp,
      (getBestRoute (quicksort rtable 0 (rtableSize - 1)) rtableSize destIp = -1 ∧
        getBestRoute (quicksort rtable' 0 (rtableSize - 1)) rtableSize destIp = -1) ∨
      ∃ i i' : Int, 0 ≤ i ∧ i < rtableSize ∧ 0 ≤ i' ∧ i' < rtableSize ∧
        getBestRoute (quicksort rtable 0 (rtableSize - 1)) rtableSize destIp = i ∧
        getBestRoute (quicksort rtable' 0 (rtableSize - 1)) rtableSize destIp = i' ∧
        quicksort rtable 0 (rtableSize - 1) i = quicksort rtable' 0 (rtableSize - 1) i' := by
  have same := quicksort_segment_eq permuted distinct
  have entries := Cells.segment_eq_iff.mp same
  have arrays : ∀ i : Int, 0 ≤ i → i < rtableSize →
      quicksort rtable 0 (rtableSize - 1) i = quicksort rtable' 0 (rtableSize - 1) i := by
    intro i lower upper
    obtain ⟨index, rfl⟩ := Int.eq_ofNat_of_zero_le lower
    exact entries index (by omega)
  refine ⟨arrays, fun destIp => ?_⟩
  have routes : getBestRoute (quicksort rtable 0 (rtableSize - 1)) rtableSize destIp =
      getBestRoute (quicksort rtable' 0 (rtableSize - 1)) rtableSize destIp := getBestRoute_congr same
  by_cases missed : getBestRoute (quicksort rtable 0 (rtableSize - 1)) rtableSize destIp = -1
  · exact .inl ⟨missed, routes ▸ missed⟩
  · obtain ⟨lower, upper⟩ := getBestRoute_bounds missed
    exact .inr ⟨_, _, lower, upper, lower, upper, rfl, routes.symm, arrays _ lower upper⟩

end

/-- The entries of `nestedTable` in reverse. -/
def reversedTable : Rtable := fun i => nestedTable (2 - i)

theorem lookup_order_independent_nested :
    (∀ i : Int, 0 ≤ i → i < (3 : Nat) →
      quicksort nestedTable 0 ((3 : Nat) - 1) i = quicksort reversedTable 0 ((3 : Nat) - 1) i) ∧
    ∀ destIp,
      (getBestRoute (quicksort nestedTable 0 ((3 : Nat) - 1)) 3 destIp = -1 ∧
        getBestRoute (quicksort reversedTable 0 ((3 : Nat) - 1)) 3 destIp = -1) ∨
      ∃ i i' : Int, 0 ≤ i ∧ i < (3 : Nat) ∧ 0 ≤ i' ∧ i' < (3 : Nat) ∧
        getBestRoute (quicksort nestedTable 0 ((3 : Nat) - 1)) 3 destIp = i ∧
        getBestRoute (quicksort reversedTable 0 ((3 : Nat) - 1)) 3 destIp = i' ∧
        quicksort nestedTable 0 ((3 : Nat) - 1) i = quicksort reversedTable 0 ((3 : Nat) - 1) i' :=
  lookup_order_independent (by decide) (by decide)

end CommunicationProtocols.Router
