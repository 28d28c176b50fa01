import CommunicationProtocols.Router.ArpTable

/-!
# The capacity of the ARP table

`main` allocates the table once, and the learning step writes behind the last
entry without looking at the capacity. Only the search in front of the write
could bound the index: a host that is in the table already must not get another
entry. With its inverted comparison the search keeps out every host but the first
one to reply, and each further reply of that host takes up another entry.
-/

namespace CommunicationProtocols.Router

open Library

/-- The number of entries `main` allocates for `arp_table`. -/
def arpTableCapacity : Nat := 100000

/-! ## The writes -/

/-- The index at which the iteration on the packet in the receive buffer writes
an entry into the table, if it writes one. -/
def learnedAt (router : RouterState) : Option Nat :=
  if IsArpReply router ∧
      differs router.arpTable (arpSender router).ip router.arpTableLen 0 = false then
    some router.arpTableLen
  else
    none

/-- The table and its length after the write of an entry. -/
def tableAfter (router : RouterState) : Option Nat → Cells ArpEntry × Nat
  | none => (router.arpTable, router.arpTableLen)
  | some i => (Function.update router.arpTable i (arpSender router), i + 1)

/-- Flushing leaves the ARP table. -/
theorem table_drain (router : RouterState) (qAux ptrs : List PacketPtr) :
    (drain router qAux ptrs).1.arpTable = router.arpTable ∧
      (drain router qAux ptrs).1.arpTableLen = router.arpTableLen := by
  induction ptrs generalizing router qAux with
  | nil => exact ⟨rfl, rfl⟩
  | cons ptr rest ih => exact ih (flushPacket router ptr).1 (qAux ++ [ptr])

/-- An IPv4 packet leaves the ARP table. -/
theorem table_handleIpv4 (host : Host) (router : RouterState) :
    (handleIpv4 host router).1.arpTable = router.arpTable ∧
      (handleIpv4 host router).1.arpTableLen = router.arpTableLen := by
  rcases ipv4Outcome host router with ⟨_, handled⟩ | ⟨_, _, handled⟩ | ⟨_, _, _, handled⟩ |
    ⟨_, _, _, _, handled⟩ | ⟨_, _, _, _, _, handled⟩ | ⟨_, _, _, _, _, _, _, _, handled⟩
  all_goals
    rw [handled]
    exact ⟨rfl, rfl⟩

/-- Learning puts the sender behind the entries there are, or leaves the table. -/
theorem table_learn {router : RouterState} (reply : IsArpReply router) :
    ((learn router).arpTable, (learn router).arpTableLen) =
      tableAfter router (learnedAt router) := by
  rw [learn_eq, learnedAt]
  split
  case isTrue unknown => rw [if_pos ⟨reply, unknown⟩]; rfl
  case isFalse known => rw [if_neg fun both => known both.2]; rfl

/-- One iteration writes the table where `learnedAt` says, and nowhere else. -/
theorem table_handle (host : Host) (router : RouterState) :
    ((handle host router).1.arpTable, (handle host router).1.arpTableLen) =
      tableAfter router (learnedAt router) := by
  have untouched (notReply : ¬ IsArpReply router) : learnedAt router = none :=
    if_neg fun both => notReply both.1
  rcases handleOutcome host router with ⟨_, notReply, handled⟩ | ⟨_, notReply, handled⟩ |
    ⟨_, reply, handled⟩ | ⟨_, notReply, handled⟩
  · obtain ⟨table, len⟩ := table_handleIpv4 host router
    rw [handled, untouched notReply, table, len]
    rfl
  · rw [handled, untouched notReply]
    rfl
  · obtain ⟨table, len⟩ := table_drain (learn router) [] (learn router).q
    rw [handled, ← table_learn reply, ← table, ← len]
    rfl
  · rw [handled, untouched notReply]
    rfl

/-! ## The writes of a run -/

/-- The indices at which a run writes an entry, in order. -/
def learnedIndices (trace : List (Transition RouterState Frame Emission)) : List Nat :=
  trace.filterMap fun transition => learnedAt (transition.before.receive transition.event)

/-- The next entry is written behind the last one. -/
theorem range_tableAfter (router : RouterState) :
    List.range (tableAfter router (learnedAt router)).2 =
      List.range router.arpTableLen ++ (learnedAt router).toList := by
  rw [learnedAt]
  split
  case isTrue => exact List.range_succ
  case isFalse => exact (List.append_nil _).symm

/-- A run writes the entries of the table it ends with, one after the other. -/
theorem learnedIndices_of_run {host : Host} {start final : RouterState}
    {trace : List (Transition RouterState Frame Emission)} (initial : Initial start)
    (run : (machine host).Run start trace final) :
    learnedIndices trace = List.range final.arpTableLen := by
  induction run with
  | refl => rw [initial.arpEmpty]; rfl
  | @step trace router frame outputs next _ _ stepped ih =>
      obtain rfl : (handle host (router.receive frame)).1 = next :=
        congrArg Prod.fst (Option.some.inj stepped)
      have len : (handle host (router.receive frame)).1.arpTableLen =
          (tableAfter (router.receive frame) (learnedAt (router.receive frame))).2 :=
        congrArg Prod.snd (table_handle host (router.receive frame))
      rw [len, range_tableAfter, RouterState.receive_arpTableLen, ← ih, learnedIndices,
        List.filterMap_append]
      rfl

/-- The number of replies that came from the host whose reply was the first. -/
def repliesOfFirstHost : List ArpEntry → Nat
  | [] => 0
  | first :: later => (first :: later).countP fun reply => reply.ip = first.ip

/-- The entries learned are as many as the replies of the first host. -/
theorem length_learnedFrom (replies : List ArpEntry) :
    (learnedFrom replies).length = repliesOfFirstHost replies := by
  cases replies with
  | nil => rfl
  | cons first later =>
      rw [learnedFrom, repliesOfFirstHost, List.countP_cons_of_pos (by simp), List.length_cons,
        List.countP_eq_length_filter]

/-- The table grows with the replies of one host. -/
theorem arpTableLen_of_run {host : Host} {start final : RouterState}
    {trace : List (Transition RouterState Frame Emission)} (initial : Initial start)
    (run : (machine host).Run start trace final) :
    final.arpTableLen = repliesOfFirstHost (repliesOf trace) := by
  rw [← length_learnedFrom, ← arpEntries_of_run initial run, arpEntries, List.length_map,
    List.length_range]

/-- Every entry is written inside the allocated table if and only if the host
that replied first has not replied more often than the table has entries. -/
theorem arpTable_in_capacity_iff {host : Host} {start final : RouterState}
    {trace : List (Transition RouterState Frame Emission)} (initial : Initial start)
    (run : (machine host).Run start trace final) :
    (∀ index ∈ learnedIndices trace, index < arpTableCapacity) ↔
      repliesOfFirstHost (repliesOf trace) ≤ arpTableCapacity := by
  rw [learnedIndices_of_run initial run, arpTableLen_of_run initial run]
  constructor
  · intro inside
    by_contra more
    exact Nat.lt_irrefl _ (inside arpTableCapacity (List.mem_range.mpr (Nat.lt_of_not_le more)))
  · intro few index written
    exact Nat.lt_of_lt_of_le (List.mem_range.mp written) few

/-- One reply fits. -/
theorem arpTable_in_capacity_iff_sample :
    (∀ index ∈ learnedIndices (framesTrace sampleHost sampleRouter [sampleReply 2]),
        index < arpTableCapacity) ↔
      repliesOfFirstHost (repliesOf (framesTrace sampleHost sampleRouter [sampleReply 2])) ≤
        arpTableCapacity :=
  arpTable_in_capacity_iff sampleRouter_initial (frames_run sampleRouter (by decide))

/-! ## One host repeats its reply -/

/-- The reply of 192.168.1.2 is one whatever the buffer held before it. -/
theorem isArpReply_receive_sampleReply (router : RouterState) :
    IsArpReply (router.receive (sampleReply 2)) := by
  constructor <;> rfl

theorem arpSender_receive_sampleReply (router : RouterState) :
    arpSender (router.receive (sampleReply 2)) =
      ⟨#v[192, 168, 1, 2], #v[0x02, 0, 0, 0, 1, 2]⟩ := rfl

theorem repliesOf_replicate (host : Host) (router : RouterState) (n : Nat) :
    repliesOf (framesTrace host router (List.replicate n (sampleReply 2))) =
      List.replicate n ⟨#v[192, 168, 1, 2], #v[0x02, 0, 0, 0, 1, 2]⟩ := by
  induction n generalizing router with
  | zero => rfl
  | succ n ih =>
      rw [List.replicate_succ, List.replicate_succ,
        ← ih (handle host (router.receive (sampleReply 2))).1,
        ← arpSender_receive_sampleReply router]
      exact List.filterMap_cons_some (if_pos (isArpReply_receive_sampleReply router))

theorem repliesOfFirstHost_replicate (reply : ArpEntry) (n : Nat) :
    repliesOfFirstHost (List.replicate n reply) = n := by
  cases n with
  | zero => rfl
  | succ n =>
      have all :=
        @List.countP_replicate _ (fun later : ArpEntry => later.ip = reply.ip) reply (n + 1)
      rw [if_pos (by simp)] at all
      exact all

/-- The host's hundred thousand and first reply is written behind the table. -/
theorem repeated_reply_overflows :
    Initial sampleRouter ∧
      (machine sampleHost).Run sampleRouter
        (framesTrace sampleHost sampleRouter
          (List.replicate (arpTableCapacity + 1) (sampleReply 2)))
        (framesFinal sampleHost sampleRouter
          (List.replicate (arpTableCapacity + 1) (sampleReply 2))) ∧
      ¬ ∀ index ∈ learnedIndices (framesTrace sampleHost sampleRouter
          (List.replicate (arpTableCapacity + 1) (sampleReply 2))), index < arpTableCapacity := by
  have bounded : ∀ frame ∈ List.replicate (arpTableCapacity + 1) (sampleReply 2),
      frame.bytes.length ≤ maxLen := fun frame member => by
    rw [List.eq_of_mem_replicate member]
    decide
  have run := @frames_run sampleHost _ sampleRouter bounded
  refine ⟨sampleRouter_initial, run, fun inside => ?_⟩
  have length := arpTableLen_of_run sampleRouter_initial run
  rw [repliesOf_replicate, repliesOfFirstHost_replicate] at length
  rw [learnedIndices_of_run sampleRouter_initial run, length] at inside
  exact Nat.lt_irrefl _ (inside arpTableCapacity (List.mem_range.mpr (Nat.lt_succ_self _)))

end CommunicationProtocols.Router
