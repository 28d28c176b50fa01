import CommunicationProtocols.Library.Lomuto
import CommunicationProtocols.Library.Bisection

/-!
# The routing table

The table of the router is a block of entries and a separate size, so it is
modelled as integer-addressed cells and a size. Addresses are the `uint32_t`
values of `inet_addr`: network byte order read on a little-endian host.
-/

namespace CommunicationProtocols.Router

open Library Library.Cells

/-- `struct route_table_entry`. -/
structure RouteTableEntry where
  netPrefix : BitVec 32
  nextHop : BitVec 32
  mask : BitVec 32
  interface : Int
deriving DecidableEq, Repr, Inhabited

/-- The memory behind the global pointer `rtable`. -/
abbrev Rtable := Cells RouteTableEntry

/-- `swap` copies the four fields of an entry through a temporary, which is a
copy of the whole entry. -/
def swap (rtable : Rtable) (x y : Int) : Rtable := Cells.swap rtable x y

/-- The loop of `partition`, with `n` rounds left and the loop variables `i` and
`pIndex`. The pivot is a pointer to the last entry, read in every round. -/
def partitionLoop (last : Int) : Nat → Int → Int → Rtable → Rtable × Int
  | 0, _, pIndex, rtable => (rtable, pIndex)
  | n + 1, i, pIndex, rtable =>
      if (rtable i).netPrefix < (rtable last).netPrefix then
        partitionLoop last n (i + 1) (pIndex + 1) (swap rtable i pIndex)
      else if (rtable i).netPrefix = (rtable last).netPrefix then
        if (rtable i).mask > (rtable last).mask then
          partitionLoop last n (i + 1) (pIndex + 1) (swap rtable i pIndex)
        else
          partitionLoop last n (i + 1) pIndex rtable
      else
        partitionLoop last n (i + 1) pIndex rtable

def partition (rtable : Rtable) (start last : Int) : Rtable × Int :=
  let looped := partitionLoop last (last - start).toNat start start rtable
  (swap looped.1 last looped.2, looped.2)

/-- The order `partition` sorts by: prefixes ascending, then masks descending. -/
def sortsBefore (x y : RouteTableEntry) : Bool :=
  decide (x.netPrefix < y.netPrefix) ||
    (decide (x.netPrefix = y.netPrefix) && decide (x.mask > y.mask))

/-- The loop of the partition is the general scan. -/
theorem partitionLoop_eq_scan (last : Int) (n : Nat) (i pIndex : Int) (rtable : Rtable) :
    partitionLoop last n i pIndex rtable = Lomuto.scan sortsBefore last n i pIndex rtable := by
  induction n generalizing i pIndex rtable with
  | zero => rfl
  | succ n ih =>
      simp only [partitionLoop, Lomuto.scan, ih, swap, sortsBefore]
      by_cases less : (rtable i).netPrefix < (rtable last).netPrefix
      · simp [less]
      · by_cases same : (rtable i).netPrefix = (rtable last).netPrefix
        · simp [same]
        · simp [less, same]

/-- The partition of the source is that of Lomuto. -/
theorem partition_eq_lomuto (rtable : Rtable) (start last : Int) :
    partition rtable start last = Lomuto.partition sortsBefore rtable start last := by
  simp only [partition, Lomuto.partition, partitionLoop_eq_scan, swap]

/-- `quicksort` leaves the sorted table in the cells it is given. -/
def quicksort (rtable : Rtable) (start last : Int) : Rtable :=
  if _ordered : start < last then
    let parted := partition rtable start last
    quicksort (quicksort parted.1 start (parted.2 - 1)) (parted.2 + 1) last
  else
    rtable
termination_by (last - start + 1).toNat
decreasing_by
  all_goals
    have spec := Lomuto.partition_spec sortsBefore rtable (Int.le_of_lt _ordered)
    rw [← partition_eq_lomuto] at spec
    have lower := spec.lower
    have upper := spec.upper
    omega

/-- The sort of the source is quicksort by Lomuto's partition. -/
theorem quicksort_eq_lomuto (rtable : Rtable) (start last : Int) :
    quicksort rtable start last = Lomuto.quicksort sortsBefore rtable start last := by
  induction rtable, start, last using quicksort.induct with
  | case1 rtable start last ordered parted ihLeft _ ihRight =>
      rw [quicksort, Lomuto.quicksort, dif_pos ordered, dif_pos ordered]
      simp only [← partition_eq_lomuto]
      rw [ihRight, ihLeft]
  | case2 rtable start last unordered =>
      rw [quicksort, Lomuto.quicksort, dif_neg unordered, dif_neg unordered]

/-- `binarySearch` compares with the mask of the entry it probes. -/
def binarySearch (rtable : Rtable) (l r : Int) (destIp : BitVec 32) : Int :=
  if _inRange : r ≥ l then
    let mid := l + (r - l) / 2
    if destIp &&& (rtable mid).mask = (rtable mid).netPrefix then
      mid
    else if destIp &&& (rtable mid).mask < (rtable mid).netPrefix then
      binarySearch rtable l (mid - 1) destIp
    else
      binarySearch rtable (mid + 1) r destIp
  else
    -1
termination_by (r - l + 1).toNat
decreasing_by all_goals omega

/-- The condition of the loop in `get_best_route` at `index`. -/
def betterNeighbour (rtable : Rtable) (destIp : BitVec 32) (index : Int) : Bool :=
  (rtable (index - 1)).netPrefix == (destIp &&& (rtable (index - 1)).mask) &&
    decide ((rtable (index - 1)).mask > (rtable index).mask) &&
    (rtable (index - 1)).netPrefix == (rtable index).netPrefix

/-- The loop of `get_best_route`. The read of the entry before index 0 is taken
as one that fails the loop test; `StopsInside` says where the loop of the source
is this one. -/
def walkBack (rtable : Rtable) (destIp : BitVec 32) : Nat → Nat
  | 0 => 0
  | index + 1 =>
      if betterNeighbour rtable destIp (index + 1 : Nat) then
        walkBack rtable destIp index
      else
        index + 1

def getBestRoute (rtable : Rtable) (rtableSize : Nat) (destIp : BitVec 32) : Int :=
  let index := binarySearch rtable 0 (rtableSize - 1) destIp
  if index = -1 then -1 else walkBack rtable destIp index.toNat

end CommunicationProtocols.Router
