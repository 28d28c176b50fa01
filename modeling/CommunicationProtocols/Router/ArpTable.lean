import CommunicationProtocols.Router.Ipv4

/-!
# The ARP table

The learning step should add an entry for a host it does not know. Its search
for the host uses the result of `memcmp` the wrong way round: it succeeds on the
first entry of any other host. The table therefore consists of the first reply
and the later replies from that same address.
-/

namespace CommunicationProtocols.Router

open Library

/-- The entries of the ARP table in order. -/
def arpEntries (router : RouterState) : List ArpEntry :=
  (List.range router.arpTableLen).map fun i : Nat => router.arpTable (i : Int)

/-- The entries in use stand at their indices. -/
theorem arpTable_eq_of_getElem? {router : RouterState} {i : Nat} {entry : ArpEntry}
    (here : (arpEntries router)[i]? = some entry) : router.arpTable i = entry := by
  rw [arpEntries, List.getElem?_map] at here
  obtain ⟨j, inRange, rfl⟩ := Option.map_eq_some_iff.mp here
  rw [(List.getElem?_eq_some_iff.mp inRange).2.symm, List.getElem_range]

/-- The packet in the receive buffer is an ARP reply. -/
def IsArpReply (router : RouterState) : Prop :=
  get16 router.m.payload etherType = htons 0x0806 ∧ get16 router.m.payload arpOp = htons 2

instance (router : RouterState) : Decidable (IsArpReply router) :=
  inferInstanceAs (Decidable (_ ∧ _))

/-- The sender of the ARP packet in the receive buffer. -/
def arpSender (router : RouterState) : ArpEntry :=
  ⟨arpSpa.get router.m.payload, arpSha.get router.m.payload⟩

/-- The senders of the ARP replies a run has processed, in order. -/
def repliesOf (trace : List (Transition RouterState Frame Emission)) : List ArpEntry :=
  trace.filterMap fun transition =>
    let received := transition.before.receive transition.event
    if IsArpReply received then some (arpSender received) else none

/-! ## What the handlers do to the table -/

/-- The types of IPv4 and ARP differ. -/
theorem htons_ipv4_ne_arp : htons 0x0800 ≠ htons 0x0806 := by decide

/-- The operations of a request and a reply differ. -/
theorem htons_request_ne_reply : htons 1 ≠ htons 2 := by decide

/-- The ways through one iteration. -/
inductive HandleOutcome (host : Host) (router : RouterState) : Prop where
  | ipv4 (ipv4 : get16 router.m.payload etherType = htons 0x0800)
      (notReply : ¬ IsArpReply router)
      (handled : handle host router = handleIpv4 host router)
  | answered (notIpv4 : get16 router.m.payload etherType ≠ htons 0x0800)
      (notReply : ¬ IsArpReply router)
      (handled : handle host router =
        sendBuffer router router.m.interface (arpReply host router.m))
  | replied (notIpv4 : get16 router.m.payload etherType ≠ htons 0x0800)
      (reply : IsArpReply router)
      (handled : handle host router = flush (learn router))
  | ignored (notIpv4 : get16 router.m.payload etherType ≠ htons 0x0800)
      (notReply : ¬ IsArpReply router)
      (handled : handle host router = (router, []))

/-- Every frame takes one of the ways. -/
theorem handleOutcome (host : Host) (router : RouterState) : HandleOutcome host router := by
  by_cases ipv4 : get16 router.m.payload etherType = htons 0x0800
  · have notReply : ¬ IsArpReply router := fun reply =>
      htons_ipv4_ne_arp (ipv4.symm.trans reply.1)
    exact .ipv4 ipv4 notReply (if_pos ipv4)
  by_cases arp : get16 router.m.payload etherType = htons 0x0806
  · have branch : handle host router = handleArp host router := by
      rw [handle, if_neg ipv4, if_pos arp]
    simp only [handleArp] at branch
    by_cases request : get16 router.m.payload arpOp = htons 1
    · have notReply : ¬ IsArpReply router := fun reply =>
        htons_request_ne_reply (request.symm.trans reply.2)
      rw [if_pos request] at branch
      split at branch
      case isTrue => exact .answered ipv4 notReply branch
      case isFalse => exact .ignored ipv4 notReply branch
    · rw [if_neg request] at branch
      split at branch
      case isTrue reply => exact .replied ipv4 ⟨arp, reply⟩ branch
      case isFalse notReply => exact .ignored ipv4 (fun reply => notReply reply.2) branch
  · have branch : handle host router = (router, []) := by
      rw [handle, if_neg ipv4, if_neg arp]
    exact .ignored ipv4 (fun reply => arp reply.1) branch

/-- Storing a packet leaves the entries. -/
theorem arpEntries_store (router : RouterState) (ptr : PacketPtr) (packet : Packet) :
    arpEntries (router.store ptr packet) = arpEntries router := rfl

/-- Receiving a frame leaves the entries. -/
theorem arpEntries_receive (router : RouterState) (frame : Frame) :
    arpEntries (router.receive frame) = arpEntries router := rfl

/-- An IPv4 packet leaves the entries. -/
theorem arpEntries_handleIpv4 (host : Host) (router : RouterState) :
    arpEntries (handleIpv4 host router).1 = arpEntries router := by
  rcases ipv4Outcome host router with ⟨_, handled⟩ | ⟨_, _, handled⟩ | ⟨_, _, _, handled⟩ |
    ⟨_, _, _, _, handled⟩ | ⟨_, _, _, _, _, handled⟩ | ⟨_, _, _, _, _, _, _, _, handled⟩
  all_goals
    rw [handled]
    rfl

/-- Draining the queue leaves the entries. -/
theorem arpEntries_drain (router : RouterState) (qAux ptrs : List PacketPtr) :
    arpEntries (drain router qAux ptrs).1 = arpEntries router := by
  induction ptrs generalizing router qAux with
  | nil => rfl
  | cons ptr rest ih =>
      simp only [drain, ih]
      rfl

/-- Flushing the queue leaves the entries. -/
theorem arpEntries_flush (router : RouterState) :
    arpEntries (flush router).1 = arpEntries router :=
  arpEntries_drain router [] router.q

/-- The search of the learning step finds an entry of another host. -/
theorem differs_iff (arpTable : Cells ArpEntry) (spa : Vector UInt8 4) (n : Nat) (i : Int) :
    differs arpTable spa n i = true ↔ ∃ k, k < n ∧ (arpTable (i + (k : Nat))).ip ≠ spa := by
  induction n generalizing i with
  | zero => simp [differs]
  | succ n ih =>
      unfold differs
      split
      case isTrue here => simpa using ⟨0, by omega, by simpa using here⟩
      case isFalse same =>
        rw [ih]
        constructor
        · rintro ⟨k, bound, here⟩
          refine ⟨k + 1, by omega, ?_⟩
          rwa [show i + (k + 1 : Nat) = i + 1 + k by omega]
        · rintro ⟨k, bound, here⟩
          cases k with
          | zero => exact absurd (by simpa using here) same
          | succ k =>
              refine ⟨k, by omega, ?_⟩
              rwa [show i + 1 + (k : Int) = i + (k + 1 : Nat) by omega]

/-- The sender is learned unless an entry has another address. -/
theorem learn_eq (router : RouterState) :
    learn router =
      if differs router.arpTable (arpSender router).ip router.arpTableLen 0 = false then
        { router with
          arpTable := Function.update router.arpTable router.arpTableLen (arpSender router)
          arpTableLen := router.arpTableLen + 1 }
      else
        router := rfl

/-- A reply is recorded exactly when every entry already has its address. -/
theorem arpEntries_learn (router : RouterState) :
    arpEntries (learn router) =
      if ∀ entry ∈ arpEntries router, entry.ip = (arpSender router).ip then
        arpEntries router ++ [arpSender router]
      else
        arpEntries router := by
  have search : differs router.arpTable (arpSender router).ip router.arpTableLen 0 = false ↔
      ∀ entry ∈ arpEntries router, entry.ip = (arpSender router).ip := by
    rw [← Bool.not_eq_true, differs_iff]
    simp [arpEntries]
  rw [learn_eq]
  by_cases all : ∀ entry ∈ arpEntries router, entry.ip = (arpSender router).ip
  · rw [if_pos all, if_pos (search.mpr all)]
    simp only [arpEntries, List.range_succ, List.map_append, List.map_singleton,
      Function.update_self]
    congr 1
    apply List.map_congr_left
    intro i member
    have bound := List.mem_range.mp member
    exact Function.update_of_ne (by omega) _ _
  · rw [if_neg all, if_neg (fun missed => all (search.mp missed))]

/-- Only ARP replies change the table. -/
theorem arpEntries_handle (host : Host) (router : RouterState) :
    arpEntries (handle host router).1 =
      if IsArpReply router then arpEntries (learn router) else arpEntries router := by
  rcases handleOutcome host router with ⟨_, notReply, handled⟩ | ⟨_, notReply, handled⟩ |
    ⟨_, reply, handled⟩ | ⟨_, notReply, handled⟩
  · rw [if_neg notReply, handled, arpEntries_handleIpv4]
  · rw [if_neg notReply, handled, sendBuffer, arpEntries_store]
  · rw [if_pos reply, handled, arpEntries_flush]
  · rw [if_neg notReply, handled]

/-! ## What the table holds after a run -/

/-- The entries the learning step makes of a sequence of replies: the first one,
and those after it that come from the same address. -/
def learnedFrom : List ArpEntry → List ArpEntry
  | [] => []
  | first :: later => first :: later.filter fun reply => reply.ip = first.ip

/-- A reply more is learned unless another host was learned before. -/
theorem learnedFrom_concat (replies : List ArpEntry) (reply : ArpEntry) :
    learnedFrom (replies ++ [reply]) =
      if ∀ entry ∈ learnedFrom replies, entry.ip = reply.ip then
        learnedFrom replies ++ [reply]
      else
        learnedFrom replies := by
  cases replies with
  | nil => simp [learnedFrom]
  | cons first later =>
      by_cases same : reply.ip = first.ip
      · rw [if_pos (by simp [learnedFrom, same])]
        simp [learnedFrom, List.filter_append, same]
      · rw [if_neg fun all => same (all first (by simp [learnedFrom])).symm]
        simp [learnedFrom, List.filter_append, same]

/-- After any run the table holds what the learning step makes of the replies. -/
theorem arpEntries_of_run {host : Host} {start final : RouterState}
    {trace : List (Transition RouterState Frame Emission)} (initial : Initial start)
    (run : (machine host).Run start trace final) :
    arpEntries final = learnedFrom (repliesOf trace) := by
  induction run with
  | refl => simp [arpEntries, initial.arpEmpty, repliesOf, learnedFrom]
  | @step trace router frame outputs next _ _ stepped ih =>
      obtain rfl : (handle host (router.receive frame)).1 = next :=
        congrArg Prod.fst (Option.some.inj stepped)
      rw [arpEntries_handle]
      simp only [repliesOf, List.filterMap_append, List.filterMap_cons, List.filterMap_nil]
      by_cases reply : IsArpReply (router.receive frame)
      · simp only [reply, if_true]
        rw [arpEntries_learn, arpEntries_receive, ih]
        exact (learnedFrom_concat (repliesOf trace) (arpSender (router.receive frame))).symm
      · simp only [reply, if_false, List.append_nil, arpEntries_receive]
        exact ih

/-- The table is a map of exactly the hosts that replied. -/
structure ArpTableIsMap (replies : List ArpEntry) (router : RouterState) : Prop where
  distinct : ∀ i j : Nat, i < router.arpTableLen → j < router.arpTableLen →
    (router.arpTable i).ip = (router.arpTable j).ip → i = j
  complete : ∀ ip, (∃ i : Nat, i < router.arpTableLen ∧ (router.arpTable i).ip = ip) ↔
    ∃ reply ∈ replies, reply.ip = ip
  macs : ∀ i : Nat, i < router.arpTableLen → ∃ reply ∈ replies,
    reply.ip = (router.arpTable i).ip ∧ reply.mac = (router.arpTable i).mac

/-- Searching the indices in use is searching the entries. -/
theorem exists_entry_iff {router : RouterState} {P : ArpEntry → Prop} :
    (∃ i : Nat, i < router.arpTableLen ∧ P (router.arpTable i)) ↔
      ∃ entry ∈ arpEntries router, P entry := by
  simp [arpEntries]

/-- One reply is recorded as it is. -/
theorem arpTableIsMap_of_singleton {router : RouterState} {replies : List ArpEntry}
    (entries : arpEntries router = replies) (single : replies.length ≤ 1) :
    ArpTableIsMap replies router := by
  have len : router.arpTableLen = replies.length := by
    rw [← entries]
    simp [arpEntries]
  refine ⟨fun i j boundI boundJ _ => by omega, fun ip => ?_, fun i bound => ?_⟩
  · rw [← entries]
    exact exists_entry_iff (P := fun entry => entry.ip = ip)
  · rw [← entries]
    exact (exists_entry_iff (P := fun entry => entry.ip = (router.arpTable i).ip ∧
      entry.mac = (router.arpTable i).mac)).mp ⟨i, bound, rfl, rfl⟩

/-- A second reply is lost, or recorded in a second entry of the same address. -/
theorem not_arpTableIsMap {router : RouterState} {first second : ArpEntry}
    {later : List ArpEntry}
    (entries : arpEntries router = learnedFrom (first :: second :: later)) :
    ¬ ArpTableIsMap (first :: second :: later) router := by
  intro isMap
  by_cases same : second.ip = first.ip
  · have shape : arpEntries router =
        first :: second :: later.filter (fun reply => reply.ip = first.ip) := by
      simp [entries, learnedFrom, same]
    have len := congrArg List.length shape
    simp only [arpEntries, List.length_map, List.length_range, List.length_cons] at len
    have at0 : router.arpTable (0 : Nat) = first := arpTable_eq_of_getElem? (by rw [shape]; rfl)
    have at1 : router.arpTable (1 : Nat) = second := arpTable_eq_of_getElem? (by rw [shape]; rfl)
    have collapsed : 0 = 1 :=
      isMap.distinct 0 1 (by omega) (by omega) (by rw [at0, at1, same])
    exact absurd collapsed (by decide)
  · have recorded := (isMap.complete second.ip).mpr ⟨second, by simp, rfl⟩
    obtain ⟨entry, member, ip⟩ :=
      (exists_entry_iff (P := fun entry => entry.ip = second.ip)).mp recorded
    rw [entries] at member
    rcases List.mem_cons.mp member with rfl | filtered
    · exact same ip.symm
    · have matching := (List.mem_filter.mp filtered).2
      simp only [decide_eq_true_eq] at matching
      exact same (ip.symm.trans matching)

/-- The ARP table is a map of exactly the hosts that replied if and only if at
most one reply has been processed. -/
theorem arpTableIsMap_iff {host : Host} {start final : RouterState}
    {trace : List (Transition RouterState Frame Emission)} (initial : Initial start)
    (run : (machine host).Run start trace final) :
    ArpTableIsMap (repliesOf trace) final ↔ (repliesOf trace).length ≤ 1 := by
  have entries := arpEntries_of_run initial run
  generalize repliesOf trace = replies at entries ⊢
  constructor
  · intro isMap
    match replies, entries, isMap with
    | [], _, _ => simp
    | [_], _, _ => simp
    | _ :: _ :: _, entries, isMap => exact absurd isMap (not_arpTableIsMap entries)
  · intro single
    match replies, entries, single with
    | [], entries, single => exact arpTableIsMap_of_singleton entries single
    | [_], entries, single => exact arpTableIsMap_of_singleton entries single

/-! ## Two hosts reply -/

/-- An ARP reply of 192.168.1.`host`, with the hardware address 02:00:00:00:01:`host`. -/
def sampleReply (host : UInt8) : Frame where
  interface := 1
  bytes :=
    [0x02, 0, 0, 0, 0, 1, 0x02, 0, 0, 0, 1, host, 0x08, 0x06,
      0, 1, 0x08, 0x00, 6, 4, 0, 2, 0x02, 0, 0, 0, 1, host, 192, 168, 1, host,
      0x02, 0, 0, 0, 0, 1, 192, 168, 1, 1]

/-- A single reply is recorded. -/
theorem arpTableIsMap_iff_sample :
    ArpTableIsMap (repliesOf (framesTrace sampleHost sampleRouter [sampleReply 2]))
        (framesFinal sampleHost sampleRouter [sampleReply 2]) ↔
      (repliesOf (framesTrace sampleHost sampleRouter [sampleReply 2])).length ≤ 1 :=
  arpTableIsMap_iff sampleRouter_initial (frames_run sampleRouter (by decide))

/-- The reply of a second host is lost. -/
theorem second_host_not_learned :
    Initial sampleRouter ∧
      (machine sampleHost).Run sampleRouter
        (framesTrace sampleHost sampleRouter [sampleReply 2, sampleReply 3])
        (framesFinal sampleHost sampleRouter [sampleReply 2, sampleReply 3]) ∧
      ¬ ArpTableIsMap
        (repliesOf (framesTrace sampleHost sampleRouter [sampleReply 2, sampleReply 3]))
        (framesFinal sampleHost sampleRouter [sampleReply 2, sampleReply 3]) := by
  refine ⟨sampleRouter_initial, frames_run sampleRouter (by decide), fun isMap => ?_⟩
  have replied : (arpSender ((framesFinal sampleHost sampleRouter [sampleReply 2]).receive
      (sampleReply 3))) ∈
        repliesOf (framesTrace sampleHost sampleRouter [sampleReply 2, sampleReply 3]) := by
    decide +kernel
  obtain ⟨i, bound, here⟩ := (isMap.complete #v[192, 168, 1, 3]).mpr
    ⟨_, replied, by decide +kernel⟩
  have single : (framesFinal sampleHost sampleRouter
      [sampleReply 2, sampleReply 3]).arpTableLen = 1 := by
    decide +kernel
  obtain rfl : i = 0 := by omega
  exact absurd here (by decide +kernel)

end CommunicationProtocols.Router
