import Mathlib.Data.Int.Order.Basic

/-!
# Bisection guided by a probe

A probe tells the search where to go from a midpoint: stay, go left or go
right. Nothing is assumed about it, so a probe may mislead the search. The
result is an exact account of when a search reaches a block of cells it should
reach: the probe has to agree with the direction of the block at every midpoint
visited on the way there.
-/

namespace CommunicationProtocols.Library

/-- The midpoint of `[l, r]`, rounded down. -/
def midpoint (l r : Int) : Int := l + (r - l) / 2

/-- The midpoint lies in its interval. -/
theorem midpoint_bounds {l r : Int} (ordered : l ≤ r) :
    l ≤ midpoint l r ∧ midpoint l r ≤ r := by
  unfold midpoint
  omega

/-- Bisect `[l, r]`: `.lt` continues left of the midpoint, `.gt` right of it. -/
def bisect (probe : Int → Ordering) (l r : Int) : Option Int :=
  if _ordered : l ≤ r then
    match probe (midpoint l r) with
    | .eq => some (midpoint l r)
    | .lt => bisect probe l (midpoint l r - 1)
    | .gt => bisect probe (midpoint l r + 1) r
  else
    none
termination_by (r - l + 1).toNat
decreasing_by
  all_goals
    have bounds := midpoint_bounds _ordered
    omega

/-- The midpoints at which `bisect` consults its probe. -/
def trail (probe : Int → Ordering) (l r : Int) : List Int :=
  if _ordered : l ≤ r then
    midpoint l r ::
      match probe (midpoint l r) with
      | .eq => []
      | .lt => trail probe l (midpoint l r - 1)
      | .gt => trail probe (midpoint l r + 1) r
  else
    []
termination_by (r - l + 1).toNat
decreasing_by
  all_goals
    have bounds := midpoint_bounds _ordered
    omega

variable {probe : Int → Ordering} {l r : Int}

/-- The search stops at a midpoint that is found. -/
theorem bisect_of_eq (ordered : l ≤ r) (stop : probe (midpoint l r) = .eq) :
    bisect probe l r = some (midpoint l r) := by
  rw [bisect, dif_pos ordered, stop]

/-- To the left of the midpoint the search goes on as one of its own. -/
theorem bisect_of_lt (ordered : l ≤ r) (left : probe (midpoint l r) = .lt) :
    bisect probe l r = bisect probe l (midpoint l r - 1) := by
  rw [bisect, dif_pos ordered, left]

/-- To the right of the midpoint the search goes on as one of its own. -/
theorem bisect_of_gt (ordered : l ≤ r) (right : probe (midpoint l r) = .gt) :
    bisect probe l r = bisect probe (midpoint l r + 1) r := by
  rw [bisect, dif_pos ordered, right]

/-- In an empty interval nothing is found. -/
theorem bisect_of_empty (unordered : ¬ l ≤ r) : bisect probe l r = none := by
  rw [bisect, dif_neg unordered]

/-- A search that stops at its midpoint probes nothing else. -/
theorem trail_of_eq (ordered : l ≤ r) (stop : probe (midpoint l r) = .eq) :
    trail probe l r = [midpoint l r] := by
  rw [trail, dif_pos ordered, stop]

/-- A search to the left probes the midpoint first. -/
theorem trail_of_lt (ordered : l ≤ r) (left : probe (midpoint l r) = .lt) :
    trail probe l r = midpoint l r :: trail probe l (midpoint l r - 1) := by
  rw [trail, dif_pos ordered, left]

/-- A search to the right probes the midpoint first. -/
theorem trail_of_gt (ordered : l ≤ r) (right : probe (midpoint l r) = .gt) :
    trail probe l r = midpoint l r :: trail probe (midpoint l r + 1) r := by
  rw [trail, dif_pos ordered, right]

/-- A search ends at a midpoint of its interval where the probe says so. -/
theorem bisect_some {m : Int} (found : bisect probe l r = some m) :
    l ≤ m ∧ m ≤ r ∧ probe m = .eq := by
  induction l, r using bisect.induct probe with
  | case1 l r ordered stop =>
      have bounds := midpoint_bounds ordered
      rw [bisect_of_eq ordered stop] at found
      cases found
      exact ⟨bounds.1, bounds.2, stop⟩
  | case2 l r ordered left ih =>
      have bounds := midpoint_bounds ordered
      rw [bisect_of_lt ordered left] at found
      have inner := ih found
      exact ⟨inner.1, by omega, inner.2.2⟩
  | case3 l r ordered right ih =>
      have bounds := midpoint_bounds ordered
      rw [bisect_of_gt ordered right] at found
      have inner := ih found
      exact ⟨by omega, inner.2⟩
  | case4 l r unordered =>
      rw [bisect_of_empty unordered] at found
      cases found

/-- A search probes only inside its range. -/
theorem mem_trail {m : Int} (member : m ∈ trail probe l r) : l ≤ m ∧ m ≤ r := by
  induction l, r using bisect.induct probe with
  | case1 l r ordered stop =>
      rw [trail_of_eq ordered stop] at member
      obtain rfl := List.mem_singleton.mp member
      exact midpoint_bounds ordered
  | case2 l r ordered left ih =>
      have bounds := midpoint_bounds ordered
      rw [trail_of_lt ordered left] at member
      rcases List.mem_cons.mp member with rfl | later
      · exact bounds
      · have inside := ih later
        omega
  | case3 l r ordered right ih =>
      have bounds := midpoint_bounds ordered
      rw [trail_of_gt ordered right] at member
      rcases List.mem_cons.mp member with rfl | later
      · exact bounds
      · have inside := ih later
        omega
  | case4 l r unordered =>
      rw [trail, dif_neg unordered] at member
      cases member

/-- A search probes no more often than its range has cells. -/
theorem trail_length_le (probe : Int → Ordering) (l r : Int) :
    (trail probe l r).length ≤ (r - l + 1).toNat := by
  induction l, r using bisect.induct probe with
  | case1 l r ordered stop =>
      rw [trail_of_eq ordered stop, List.length_singleton]
      omega
  | case2 l r ordered left ih =>
      have bounds := midpoint_bounds ordered
      rw [trail_of_lt ordered left, List.length_cons]
      omega
  | case3 l r ordered right ih =>
      have bounds := midpoint_bounds ordered
      rw [trail_of_gt ordered right, List.length_cons]
      omega
  | case4 l r unordered =>
      rw [trail, dif_neg unordered]
      exact Nat.zero_le _

/-- Two probes that agree along the trail of one of them search alike. -/
theorem bisect_congr {guide : Int → Ordering}
    (agree : ∀ m ∈ trail guide l r, probe m = guide m) :
    bisect probe l r = bisect guide l r := by
  induction l, r using bisect.induct guide with
  | case1 l r ordered stop =>
      rw [trail_of_eq ordered stop] at agree
      have here := agree (midpoint l r) List.mem_cons_self
      rw [bisect_of_eq ordered (here.trans stop), bisect_of_eq ordered stop]
  | case2 l r ordered left ih =>
      rw [trail_of_lt ordered left] at agree
      have here := agree (midpoint l r) List.mem_cons_self
      rw [bisect_of_lt ordered (here.trans left), bisect_of_lt ordered left]
      exact ih fun m deeper => agree m (List.mem_cons_of_mem _ deeper)
  | case3 l r ordered right ih =>
      rw [trail_of_gt ordered right] at agree
      have here := agree (midpoint l r) List.mem_cons_self
      rw [bisect_of_gt ordered (here.trans right), bisect_of_gt ordered right]
      exact ih fun m deeper => agree m (List.mem_cons_of_mem _ deeper)
  | case4 l r unordered =>
      rw [bisect_of_empty unordered, bisect_of_empty unordered]

section Block

variable (inBlock : Int → Prop) [DecidablePred inBlock] (first : Int)

/-- The direction of a block of cells that begins at `first`. -/
def toward (m : Int) : Ordering :=
  if inBlock m then .eq else if m < first then .gt else .lt

variable {inBlock first}

/-- Such a probe stops exactly in the block. -/
theorem toward_eq_iff {m : Int} : toward inBlock first m = .eq ↔ inBlock m := by
  by_cases inside : inBlock m
  · simp [toward, inside]
  · by_cases below : m < first <;> simp [toward, inside, below]

/-- Such a probe sends to the left exactly behind the block. -/
theorem toward_lt_iff {m : Int} :
    toward inBlock first m = .lt ↔ ¬ inBlock m ∧ first ≤ m := by
  by_cases inside : inBlock m
  · simp [toward, inside]
  · by_cases below : m < first <;> simp [toward, inside, below]
    omega

/-- Such a probe sends to the right exactly before the block. -/
theorem toward_gt_iff {m : Int} :
    toward inBlock first m = .gt ↔ ¬ inBlock m ∧ m < first := by
  by_cases inside : inBlock m
  · simp [toward, inside]
  · by_cases below : m < first <;> simp [toward, inside, below]

/-- A search that always heads for the block reaches it. -/
theorem bisect_toward (lower : l ≤ first) (upper : first ≤ r) (starts : inBlock first) :
    ∃ m, bisect (toward inBlock first) l r = some m ∧ inBlock m := by
  induction l, r using bisect.induct (toward inBlock first) with
  | case1 l r ordered stop =>
      rw [bisect_of_eq ordered stop]
      exact ⟨midpoint l r, rfl, toward_eq_iff.mp stop⟩
  | case2 l r ordered left ih =>
      obtain ⟨outside, beyond⟩ := toward_lt_iff.mp left
      have notStart : midpoint l r ≠ first := fun same => outside (same ▸ starts)
      rw [bisect_of_lt ordered left]
      exact ih lower (by omega)
  | case3 l r ordered right ih =>
      obtain ⟨outside, below⟩ := toward_gt_iff.mp right
      rw [bisect_of_gt ordered right]
      exact ih (by omega) upper
  | case4 l r unordered => omega

omit [DecidablePred inBlock] in
/-- A search that reaches a block without gaps from a midpoint behind it goes left. -/
theorem probe_of_beyond {goal : Int} (ordered : l ≤ r) (found : bisect probe l r = some goal)
    (reached : inBlock goal) (outside : ¬ inBlock (midpoint l r)) (beyond : first ≤ midpoint l r)
    (convex : ∀ m m', first ≤ m → m ≤ m' → inBlock m' → inBlock m) :
    probe (midpoint l r) = .lt := by
  cases turn : probe (midpoint l r) with
  | lt => rfl
  | eq =>
      rw [bisect_of_eq ordered turn] at found
      cases found
      exact absurd reached outside
  | gt =>
      rw [bisect_of_gt ordered turn] at found
      have bounds := bisect_some found
      exact absurd (convex _ goal beyond (by omega) reached) outside

omit [DecidablePred inBlock] in
/-- A search that reaches a block from a midpoint in front of it goes right. -/
theorem probe_of_below {goal : Int} (ordered : l ≤ r) (found : bisect probe l r = some goal)
    (reached : inBlock goal) (outside : ¬ inBlock (midpoint l r)) (below : midpoint l r < first)
    (least : ∀ m, inBlock m → first ≤ m) : probe (midpoint l r) = .gt := by
  cases turn : probe (midpoint l r) with
  | gt => rfl
  | eq =>
      rw [bisect_of_eq ordered turn] at found
      cases found
      exact absurd reached outside
  | lt =>
      rw [bisect_of_lt ordered turn] at found
      have bounds := bisect_some found
      have behind := least goal reached
      omega

/-- A search reaches the block exactly when its probe agrees with the direction
of the block at every midpoint on the way there. The block begins at `first`,
has no gaps, and stops the probe. -/
theorem exists_bisect_block_iff (lower : l ≤ first) (upper : first ≤ r)
    (starts : inBlock first) (least : ∀ m, inBlock m → first ≤ m)
    (convex : ∀ m m', first ≤ m → m ≤ m' → inBlock m' → inBlock m)
    (stops : ∀ m, inBlock m → probe m = .eq) :
    (∃ m, bisect probe l r = some m ∧ inBlock m) ↔
      ∀ m ∈ trail (toward inBlock first) l r, probe m = toward inBlock first m := by
  constructor
  · -- By induction on the interval: a wrong turn leaves the block behind.
    rintro ⟨goal, found, reached⟩
    induction l, r using bisect.induct (toward inBlock first) with
    | case1 l r ordered stop =>
        rw [trail_of_eq ordered stop, List.forall_mem_singleton, stop]
        exact stops _ (toward_eq_iff.mp stop)
    | case2 l r ordered left ih =>
        obtain ⟨outside, beyond⟩ := toward_lt_iff.mp left
        have steered := probe_of_beyond ordered found reached outside beyond convex
        have notStart : midpoint l r ≠ first := fun same => outside (same ▸ starts)
        rw [bisect_of_lt ordered steered] at found
        rw [trail_of_lt ordered left, List.forall_mem_cons]
        exact ⟨steered.trans left.symm, ih lower (by omega) found⟩
    | case3 l r ordered right ih =>
        obtain ⟨outside, below⟩ := toward_gt_iff.mp right
        have steered := probe_of_below ordered found reached outside below least
        rw [bisect_of_gt ordered steered] at found
        rw [trail_of_gt ordered right, List.forall_mem_cons]
        exact ⟨steered.trans right.symm, ih (by omega) upper found⟩
    | case4 l r unordered => omega
  · intro agree
    rw [bisect_congr agree]
    exact bisect_toward lower upper starts

end Block

/-- A search ends at a cell exactly when every probe on the way from the middle
of the range to that cell heads for it. -/
theorem bisect_eq_some_iff {cell : Int} :
    bisect probe l r = some cell ↔
      (l ≤ cell ∧ cell ≤ r) ∧
        ∀ m ∈ trail (toward (· = cell) cell) l r, probe m = toward (· = cell) cell m := by
  constructor
  · intro found
    have bounds := bisect_some found
    have steered : (∃ m, bisect probe l r = some m ∧ m = cell) ↔
        ∀ m ∈ trail (toward (· = cell) cell) l r, probe m = toward (· = cell) cell m := by
      apply exists_bisect_block_iff
      case lower => exact bounds.1
      case upper => exact bounds.2.1
      case starts => rfl
      case least => exact fun m same => by omega
      case convex => exact fun m m' low high same => by omega
      case stops => exact fun m same => by rw [same, bounds.2.2]
    exact ⟨⟨bounds.1, bounds.2.1⟩, steered.mp ⟨cell, found, rfl⟩⟩
  · rintro ⟨bounds, agree⟩
    have reached : ∃ m, bisect (toward (· = cell) cell) l r = some m ∧ m = cell := by
      apply bisect_toward
      case lower => exact bounds.1
      case upper => exact bounds.2
      case starts => rfl
    obtain ⟨m, found, same⟩ := reached
    rw [bisect_congr agree, found, same]

/-- A probe that never turns away from some cell of the range ends the search at a cell. -/
theorem bisect_of_never_away {goal : Int} (lower : l ≤ goal) (upper : goal ≤ r)
    (left : ∀ m, l ≤ m → m ≤ r → probe m = .lt → goal < m)
    (right : ∀ m, l ≤ m → m ≤ r → probe m = .gt → m < goal) :
    ∃ m, bisect probe l r = some m := by
  induction l, r using bisect.induct probe with
  | case1 l r ordered stop => exact ⟨midpoint l r, bisect_of_eq ordered stop⟩
  | case2 l r ordered turn ih =>
      have bounds := midpoint_bounds ordered
      have before := left _ bounds.1 bounds.2 turn
      rw [bisect_of_lt ordered turn]
      exact ih lower (by omega) (fun m low high => left m low (by omega))
        (fun m low high => right m low (by omega))
  | case3 l r ordered turn ih =>
      have bounds := midpoint_bounds ordered
      have behind := right _ bounds.1 bounds.2 turn
      rw [bisect_of_gt ordered turn]
      exact ih (by omega) upper (fun m low high => left m (by omega) high)
        (fun m low high => right m (by omega) high)
  | case4 l r unordered => omega

end CommunicationProtocols.Library
