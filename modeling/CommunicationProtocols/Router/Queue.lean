import CommunicationProtocols.Library.Execution
import CommunicationProtocols.Library.LinkedList

/-!
# The queue

A queue is a pair of pointers into a list of cells that are allocated one by one and
freed when they are dequeued. After the last dequeue `tail` still points to the cell
that was freed, and `malloc` may hand out its address again. Only the test of
`head` keeps `queue_enq` from following it. The machine of this module has any
number of queues in one heap, because the router drains one into another.
-/

namespace CommunicationProtocols.Router

open Library LinkedList

universe u

variable {α : Type u}

/-! ## The functions of the source -/

/-- `cons`, with the address `malloc` returns. -/
def cons (heap : Heap α) (fresh : Address) (element : α) (l : Pointer) : Heap α × Pointer :=
  (allocate heap fresh ⟨element, l⟩, some fresh)

/-- `cdr_and_free`. -/
def cdrAndFree (heap : Heap α) (l : Pointer) : Option (Heap α × Pointer) :=
  (load heap l).bind fun cell => (release heap l).map fun heap => (heap, cell.next)

/-- `struct queue`. -/
structure Queue where
  head : Pointer
  tail : Pointer
deriving DecidableEq

def queueCreate : Queue := ⟨none, none⟩

def queueEmpty (q : Queue) : Bool := q.head = none

/-- `queue_enq`: the new cell is linked to the cell behind `tail`, unless the queue
is empty. -/
def queueEnq (heap : Heap α) (q : Queue) (fresh : Address) (element : α) :
    Option (Heap α × Queue) :=
  let made := cons heap fresh element none
  if queueEmpty q then some (made.1, ⟨made.2, made.2⟩)
  else
    (load made.1 q.tail).bind fun last =>
      (store made.1 q.tail { last with next := made.2 }).bind fun heap =>
        (load heap q.tail).map fun last => (heap, { q with tail := last.next })

/-- `queue_deq` of a queue that is not empty. -/
def queueDeq (heap : Heap α) (q : Queue) : Option (Heap α × Queue × α) :=
  (load heap q.head).bind fun cell =>
    (cdrAndFree heap q.head).map fun rest => (rest.1, { q with head := rest.2 }, cell.element)

/-! ## What a queue holds -/

/-- The queue holds the cells of a list: `head` leads to them, and `tail` points to the
last one. Nothing is known of the `tail` of an empty queue. -/
structure Holds (heap : Heap α) (q : Queue) (cells : List (Address × α)) : Prop where
  chain : Chain heap q.head cells
  tail : q.head ≠ none → q.tail = cells.getLast?.map Prod.fst

variable {heap heap' : Heap α} {q : Queue} {cells : List (Address × α)}

/-- A queue is empty exactly if it has no first cell. -/
theorem queueEmpty_iff : queueEmpty q = true ↔ q.head = none := decide_eq_true_iff

/-- A new queue holds nothing. -/
theorem holds_create (heap : Heap α) : Holds heap queueCreate [] :=
  ⟨rfl, fun nonempty => absurd rfl nonempty⟩

/-- What a queue holds depends on its own cells only. -/
theorem Holds.congr (holds : Holds heap q cells)
    (same : ∀ address ∈ addresses cells, heap' address = heap address) : Holds heap' q cells :=
  ⟨holds.chain.congr same, holds.tail⟩

/-- An element is added behind the cells of the queue, and no other cell is written. -/
theorem queueEnq_spec (holds : Holds heap q cells) {fresh : Address} (free : heap fresh = none)
    (element : α) : ∃ heap' q', queueEnq heap q fresh element = some (heap', q') ∧
      Holds heap' q' (cells ++ [(fresh, element)]) ∧
      ∀ address, address ∉ addresses cells → address ≠ fresh → heap' address = heap address := by
  obtain ⟨chain, tail⟩ := holds
  rw [queueEnq]
  split
  case isTrue empty =>
    rw [queueEmpty_iff.mp empty] at chain
    obtain rfl := chain.eq_nil
    refine ⟨_, _, rfl, ⟨chain_allocate heap fresh element, fun _ => rfl⟩, fun address _ other => ?_⟩
    exact Function.update_of_ne other _ _
  case isFalse nonempty =>
    have present : q.head ≠ none := fun none => nonempty (queueEmpty_iff.mpr none)
    rcases List.eq_nil_or_concat' cells with rfl | ⟨front, ⟨last, lastElement⟩, rfl⟩
    · exact absurd chain present
    -- The tail points to the last cell, which `malloc` has not handed out again.
    have lastTail : q.tail = some last := by
      rw [tail present, List.getLast?_concat]
      rfl
    have lastCell := chain.last
    have differs : last ≠ fresh := fun same => by
      rw [same, free] at lastCell
      cases lastCell
    have unchanged : allocate heap fresh ⟨element, none⟩ last = some ⟨lastElement, none⟩ := by
      rw [allocate, Function.update_of_ne differs, lastCell]
    refine ⟨Function.update (allocate heap fresh ⟨element, none⟩) last
      (some ⟨lastElement, some fresh⟩), { q with tail := some fresh }, ?_,
      ⟨chain.append free, fun _ => ?_⟩, fun address outside other => ?_⟩
    · simp [lastTail, cons, load, store, unchanged]
    · rw [List.getLast?_concat]
      rfl
    · have notLast : address ≠ last := fun same =>
        outside (List.mem_map.mpr ⟨_, List.mem_append_right _ List.mem_cons_self, same.symm⟩)
      rw [Function.update_of_ne notLast, allocate, Function.update_of_ne other]

/-- The first element is returned and its cell freed, and no other cell is written. -/
theorem queueDeq_spec (holds : Holds heap q cells) (nonempty : queueEmpty q = false) :
    ∃ heap' q' address element rest, cells = (address, element) :: rest ∧
      queueDeq heap q = some (heap', q', element) ∧ Holds heap' q' rest ∧
      ∀ other, other ≠ address → heap' other = heap other := by
  obtain ⟨chain, tail⟩ := holds
  obtain ⟨address, head⟩ : ∃ address, q.head = some address := by
    refine Option.ne_none_iff_exists'.mp fun none => ?_
    rw [queueEmpty_iff.mpr none] at nonempty
    cases nonempty
  have present : q.head ≠ none := by
    rw [head]
    exact Option.some_ne_none _
  obtain ⟨element, next, rest, rfl, allocated, _⟩ := (head ▸ chain).eq_cons
  obtain ⟨next', allocated', later⟩ := chain.tail
  obtain rfl : next = next' := congrArg Cell.next (Option.some.inj (allocated.symm.trans allocated'))
  refine ⟨Function.update heap address none, { q with head := next }, address, element, rest, rfl,
    ?_, ⟨later, fun more => ?_⟩, fun other differs => Function.update_of_ne differs _ _⟩
  · simp [queueDeq, cdrAndFree, load, release, head, allocated]
  · -- The last cell stays the last one while there is another.
    rw [tail present]
    cases rest with
    | nil => exact absurd later more
    | cons cell rest => rw [List.getLast?_cons_cons]

/-! ## Any number of queues in one heap -/

/-- The cells of all queues, and the queues that have been created, by number. -/
structure QueuesState (α : Type u) where
  heap : Heap α
  queues : Nat → Option Queue

namespace QueuesState

/-- The state after a call on one queue. -/
def put (state : QueuesState α) (heap : Heap α) (name : Nat) (q : Queue) : QueuesState α :=
  ⟨heap, Function.update state.queues name (some q)⟩

variable (state : QueuesState α) (heap : Heap α) (name : Nat) (q : Queue)

@[simp] theorem put_queues_same : (state.put heap name q).queues name = some q :=
  Function.update_self _ _ _

/-- Storing a queue leaves the others. -/
theorem put_queues_other {other : Nat} (differs : other ≠ name) :
    (state.put heap name q).queues other = state.queues other :=
  Function.update_of_ne differs _ _

end QueuesState

/-- One call; `malloc` returns an address for the cell of `queue_enq`. -/
inductive QueueEvent (α : Type u) where
  | create (name : Nat)
  | enq (name : Nat) (fresh : Address) (element : α)
  | deq (name : Nat)
deriving DecidableEq

/-- Nothing is allocated and no queue is created. -/
def noQueues : QueuesState α := ⟨fun _ => none, fun _ => none⟩

/-- A call is made on a queue that is there. `malloc` returns an address that is not
allocated, and `queue_deq` asserts that the queue is not empty. -/
def queueAdmits (state : QueuesState α) : QueueEvent α → Prop
  | .create name => state.queues name = none
  | .enq name fresh _ => state.queues name ≠ none ∧ state.heap fresh = none
  | .deq name => ∃ q ∈ state.queues name, queueEmpty q = false

instance (state : QueuesState α) (event : QueueEvent α) : Decidable (queueAdmits state event) :=
  match event with
  | .create name => inferInstanceAs (Decidable (state.queues name = none))
  | .enq name fresh _ =>
      inferInstanceAs (Decidable (state.queues name ≠ none ∧ state.heap fresh = none))
  | .deq name => inferInstanceAs (Decidable (∃ q ∈ state.queues name, queueEmpty q = false))

/-- One call; it has no result if it reads or writes a cell that is not allocated. -/
def queueStep (state : QueuesState α) : QueueEvent α → Option (QueuesState α × List α)
  | .create name => some (state.put state.heap name queueCreate, [])
  | .enq name fresh element =>
      (state.queues name).bind fun q =>
        (queueEnq state.heap q fresh element).map fun done =>
          (state.put done.1 name done.2, [])
  | .deq name =>
      (state.queues name).bind fun q =>
        (queueDeq state.heap q).map fun done =>
          (state.put done.1 name done.2.1, [done.2.2])

/-- The queues as a machine that returns what is dequeued. -/
def queueMachine (α : Type u) : Machine (QueuesState α) (QueueEvent α) α where
  Admits := queueAdmits
  step := queueStep

instance (state : QueuesState α) (event : QueueEvent α) :
    Decidable ((queueMachine α).Admits state event) :=
  inferInstanceAs (Decidable (queueAdmits state event))

/-- The elements one call adds to a queue. -/
def enqueuedBy (name : Nat) (transition : Transition (QueuesState α) (QueueEvent α) α) : List α :=
  match transition.event with
  | .enq called _ element => if called = name then [element] else []
  | _ => []

/-- The elements one call takes from a queue. -/
def dequeuedBy (name : Nat) (transition : Transition (QueuesState α) (QueueEvent α) α) : List α :=
  match transition.event with
  | .deq called => if called = name then transition.outputs else []
  | _ => []

/-- The elements a run has added to a queue, in order. -/
def enqueued (name : Nat) (trace : List (Transition (QueuesState α) (QueueEvent α) α)) : List α :=
  trace.flatMap (enqueuedBy name)

/-- The elements a run has taken from a queue, in order. -/
def dequeued (name : Nat) (trace : List (Transition (QueuesState α) (QueueEvent α) α)) : List α :=
  trace.flatMap (dequeuedBy name)

/-! ## The queues are lists -/

/-- Each queue holds its list of cells, and no two of them share a cell. -/
structure Represents (state : QueuesState α) (cells : Nat → List (Address × α)) : Prop where
  holds : ∀ name q, state.queues name = some q → Holds state.heap q (cells name)
  absent : ∀ name, state.queues name = none → cells name = []
  disjoint : ∀ name other, name ≠ other →
    ∀ address ∈ addresses (cells name), address ∉ addresses (cells other)

/-- What a step does to the lists of the queues. -/
structure Steps (state : QueuesState α) (event : QueueEvent α)
    (cells : Nat → List (Address × α)) (next : QueuesState α) (outputs : List α)
    (cells' : Nat → List (Address × α)) : Prop where
  stepped : queueStep state event = some (next, outputs)
  represents : Represents next cells'
  fifo : ∀ name, elements (cells name) ++ enqueuedBy name ⟨state, event, outputs, next⟩ =
    dequeuedBy name ⟨state, event, outputs, next⟩ ++ elements (cells' name)

variable {state : QueuesState α} {content : Nat → List (Address × α)}

/-- Without queues there is no content. -/
theorem represents_noQueues : Represents (noQueues : QueuesState α) fun _ => [] where
  holds := fun _ _ created => nomatch created
  absent := fun _ _ => rfl
  disjoint := fun _ _ _ _ member => absurd member List.not_mem_nil

/-- One queue and the cells it uses change; the others keep their lists. -/
theorem Represents.put (represents : Represents state content) {name : Nat} {heap' : Heap α}
    {q' : Queue} {cells' : List (Address × α)} (holds : Holds heap' q' cells')
    (apart : ∀ other, other ≠ name → ∀ address ∈ addresses (content other),
      heap' address = state.heap address ∧ address ∉ addresses cells') :
    Represents (state.put heap' name q') (Function.update content name cells') where
  holds other q created := by
    rcases eq_or_ne other name with rfl | differs
    · rw [QueuesState.put_queues_same] at created
      rw [Function.update_self, ← Option.some.inj created]
      exact holds
    · rw [QueuesState.put_queues_other _ _ _ _ differs] at created
      rw [Function.update_of_ne differs]
      exact (represents.holds other q created).congr fun address member =>
        (apart other differs address member).1
  absent other missing := by
    rcases eq_or_ne other name with rfl | differs
    · rw [QueuesState.put_queues_same] at missing
      cases missing
    · rw [QueuesState.put_queues_other _ _ _ _ differs] at missing
      rw [Function.update_of_ne differs]
      exact represents.absent other missing
  disjoint first second distinct address member := by
    rcases eq_or_ne first name with rfl | firstDiffers
    · rw [Function.update_self] at member
      rw [Function.update_of_ne distinct.symm]
      exact fun shared => (apart second distinct.symm address shared).2 member
    · rw [Function.update_of_ne firstDiffers] at member
      rcases eq_or_ne second name with rfl | secondDiffers
      · rw [Function.update_self]
        exact (apart first firstDiffers address member).2
      · rw [Function.update_of_ne secondDiffers]
        exact represents.disjoint first second distinct address member

/-- The cells of a queue are allocated. -/
theorem Represents.allocated (represents : Represents state content) {name : Nat} :
    ∀ address ∈ addresses (content name), state.heap address ≠ none := by
  cases created : state.queues name with
  | none =>
      rw [represents.absent name created]
      exact fun _ member => absurd member List.not_mem_nil
  | some q => exact (represents.holds name q created).chain.allocated

/-- A queue is created empty. -/
theorem steps_create (represents : Represents state content) {name : Nat}
    (missing : state.queues name = none) :
    ∃ next outputs content', Steps state (.create name) content next outputs content' := by
  refine ⟨_, _, Function.update content name [], rfl, ?_, fun other => ?_⟩
  · exact represents.put (holds_create state.heap) fun other _ address _ =>
      ⟨rfl, List.not_mem_nil⟩
  · rcases eq_or_ne other name with rfl | differs
    · rw [represents.absent other missing, Function.update_self]
      rfl
    · rw [Function.update_of_ne differs]
      exact List.append_nil _

/-- An element is put behind the others. -/
theorem steps_enq (represents : Represents state content) {name : Nat} {fresh : Address}
    (created : state.queues name ≠ none) (free : state.heap fresh = none) (element : α) :
    ∃ next outputs content',
      Steps state (.enq name fresh element) content next outputs content' := by
  obtain ⟨q, found⟩ := Option.ne_none_iff_exists'.mp created
  obtain ⟨heap', q', called, holds, frame⟩ :=
    queueEnq_spec (represents.holds name q found) free element
  refine ⟨state.put heap' name q', [],
    Function.update content name (content name ++ [(fresh, element)]), ?_, ?_, fun other => ?_⟩
  · rw [queueStep, found, Option.bind_some, called, Option.map_some]
  · refine represents.put holds fun other differs address member => ?_
    have notOwn := represents.disjoint other name differs address member
    have notFresh : address ≠ fresh := fun same =>
      represents.allocated address member (same ▸ free)
    exact ⟨frame address notOwn notFresh, fun own =>
      (mem_addresses_concat.mp own).elim notOwn notFresh⟩
  · rcases eq_or_ne other name with rfl | differs
    · simp [enqueuedBy, dequeuedBy]
    · simp [enqueuedBy, dequeuedBy, differs, differs.symm]

/-- The first element is taken out. -/
theorem steps_deq (represents : Represents state content) {name : Nat}
    (admitted : ∃ q ∈ state.queues name, queueEmpty q = false) :
    ∃ next outputs content', Steps state (.deq name) content next outputs content' := by
  obtain ⟨q, found, nonempty⟩ := admitted
  obtain ⟨heap', q', address, element, rest, split, called, holds, frame⟩ :=
    queueDeq_spec (represents.holds name q found) nonempty
  refine ⟨state.put heap' name q', [element], Function.update content name rest, ?_, ?_,
    fun other => ?_⟩
  · rw [queueStep, Option.mem_def.mp found, Option.bind_some, called, Option.map_some]
  · refine represents.put holds fun other differs address' member => ?_
    have notOwn := represents.disjoint other name differs address' member
    rw [split] at notOwn
    exact ⟨frame address' fun same => notOwn (same ▸ List.mem_cons_self),
      fun own => notOwn (List.mem_cons_of_mem _ own)⟩
  · rcases eq_or_ne other name with rfl | differs
    · simp [enqueuedBy, dequeuedBy, split]
    · simp [enqueuedBy, dequeuedBy, differs, differs.symm]

/-- Every call that is admitted has a result, and is what it should be on lists. -/
theorem steps_of_admits (represents : Represents state content) {event : QueueEvent α}
    (admitted : queueAdmits state event) :
    ∃ next outputs content', Steps state event content next outputs content' := by
  cases event with
  | create name => exact steps_create represents admitted
  | enq name fresh element => exact steps_enq represents admitted.1 admitted.2 element
  | deq name => exact steps_deq represents admitted

/-- After any run each queue holds a list: what was added to it and not yet taken. -/
theorem represents_of_run {final : QueuesState α}
    {trace : List (Transition (QueuesState α) (QueueEvent α) α)}
    (run : (queueMachine α).Run noQueues trace final) :
    ∃ content, Represents final content ∧
      ∀ name, enqueued name trace = dequeued name trace ++ elements (content name) := by
  induction run with
  | refl => exact ⟨_, represents_noQueues, fun _ => rfl⟩
  | @step trace state event outputs next _ admitted stepped ih =>
      obtain ⟨content, represents, balance⟩ := ih
      obtain ⟨_, _, content', steps⟩ := steps_of_admits represents admitted
      obtain ⟨rfl, rfl⟩ := Prod.mk.inj (Option.some.inj (steps.stepped.symm.trans stepped))
      refine ⟨content', steps.represents, fun name => ?_⟩
      rw [enqueued, dequeued, List.flatMap_append, List.flatMap_append, List.flatMap_singleton,
        List.flatMap_singleton, List.append_assoc, ← steps.fifo name, ← List.append_assoc,
        ← dequeued, ← balance name, enqueued]

/-- In every run of any number of queues in one heap: no call that is admitted reads or
writes a cell that is not allocated; what is taken from a queue and then the elements
of the cells behind `head`, in order, are what was added to it; and `tail` points to the
last of these cells as long as `head` is not NULL. -/
theorem queue_is_fifo {final : QueuesState α}
    {trace : List (Transition (QueuesState α) (QueueEvent α) α)}
    (run : (queueMachine α).Run noQueues trace final) :
    (∀ event, (queueMachine α).Admits final event →
      ((queueMachine α).step final event).isSome) ∧
    ∀ name q, final.queues name = some q →
      ∃ cells, Chain final.heap q.head cells ∧
        (∀ address, address ∈ addresses cells ↔ Reaches final.heap q.head address) ∧
        enqueued name trace = dequeued name trace ++ elements cells ∧
        (q.head ≠ none → q.tail = cells.getLast?.map Prod.fst) := by
  obtain ⟨content, represents, balance⟩ := represents_of_run run
  refine ⟨fun event admitted => ?_, fun name q created => ?_⟩
  · obtain ⟨next, outputs, _, steps⟩ := steps_of_admits represents admitted
    exact Option.isSome_of_eq_some steps.stepped
  · obtain ⟨chain, tail⟩ := represents.holds name q created
    exact ⟨content name, chain, fun _ => chain.mem_addresses_iff, balance name, tail⟩

/-! ## Draining one queue into another -/

/-- The loop that dequeues from one queue and enqueues into another until the first one
is empty. -/
inductive Moves (source target : Nat) : QueuesState α → QueuesState α → Prop where
  | done {state : QueuesState α} {q : Queue} (created : state.queues source = some q)
      (empty : queueEmpty q = true) : Moves source target state state
  | round {state between next final : QueuesState α} {element : α} {fresh : Address}
      (admitted : queueAdmits state (.deq source))
      (taken : queueStep state (.deq source) = some (between, [element]))
      (ready : queueAdmits between (.enq target fresh element))
      (added : queueStep between (.enq target fresh element) = some (next, []))
      (later : Moves source target next final) : Moves source target state final

/-- The elements end up behind those of the target, in order. -/
theorem Moves.elements_target {source target : Nat} (distinct : source ≠ target)
    {final : QueuesState α} (moves : Moves source target state final)
    (represents : Represents state content) :
    ∃ content', Represents final content' ∧
      elements (content' target) = elements (content target) ++ elements (content source) ∧
      elements (content' source) = [] := by
  induction moves generalizing content with
  | @done state q created empty =>
      have chain := (represents.holds source q created).chain
      rw [queueEmpty_iff.mp empty] at chain
      rw [chain.eq_nil]
      exact ⟨content, represents, (List.append_nil _).symm, by rw [chain.eq_nil]; rfl⟩
  | @round state between next final element fresh admitted taken ready added _ ih =>
      obtain ⟨_, _, afterDeq, deq⟩ := steps_of_admits represents admitted
      obtain ⟨rfl, rfl⟩ := Prod.mk.inj (Option.some.inj (deq.stepped.symm.trans taken))
      obtain ⟨_, _, afterEnq, enq⟩ := steps_of_admits deq.represents ready
      obtain ⟨rfl, rfl⟩ := Prod.mk.inj (Option.some.inj (enq.stepped.symm.trans added))
      obtain ⟨content', represents', target', source'⟩ := ih enq.represents
      refine ⟨content', represents', ?_, source'⟩
      have sourceDeq := deq.fifo source
      have targetDeq := deq.fifo target
      have sourceEnq := enq.fifo source
      have targetEnq := enq.fifo target
      simp only [enqueuedBy, dequeuedBy, distinct, distinct.symm, if_true, if_false,
        List.append_nil, List.nil_append] at sourceDeq targetDeq sourceEnq targetEnq
      rw [target', ← targetEnq, ← sourceEnq, ← targetDeq, sourceDeq, List.append_assoc]

/-- After the drain into a second, empty queue and the refill the queue holds what it held. -/
theorem drain_and_refill {q qAux : Nat} (distinct : q ≠ qAux) {drained final : QueuesState α}
    (represents : Represents state content) (empty : elements (content qAux) = [])
    (drain : Moves q qAux state drained) (refill : Moves qAux q drained final) :
    ∃ content', Represents final content' ∧
      elements (content' q) = elements (content q) ∧ elements (content' qAux) = [] := by
  obtain ⟨between, represents', moved, left⟩ := drain.elements_target distinct represents
  obtain ⟨content', represents'', back, left'⟩ :=
    refill.elements_target distinct.symm represents'
  refine ⟨content', represents'', ?_, left'⟩
  rw [back, left, moved, empty, List.nil_append, List.nil_append]

/-- Calls on two queues. The cell of the only element is freed, its address handed out
again, and the element moved to the other queue and back. -/
def sampleCalls : List (QueueEvent Nat) :=
  [.create 0, .enq 0 1 7, .deq 0, .enq 0 1 8, .create 1, .deq 0, .enq 1 1 8, .enq 0 2 9, .deq 1]

theorem sampleCalls_through : ((queueMachine Nat).exec noQueues sampleCalls).isSome := by
  decide +kernel

theorem queue_is_fifo_sample : ∃ trace final, (queueMachine Nat).Run noQueues trace final ∧
    trace.map Transition.event = sampleCalls ∧
    (∀ event, (queueMachine Nat).Admits final event →
      ((queueMachine Nat).step final event).isSome) ∧
    ∀ name q, final.queues name = some q →
      ∃ cells, Chain final.heap q.head cells ∧
        (∀ address, address ∈ addresses cells ↔ Reaches final.heap q.head address) ∧
        enqueued name trace = dequeued name trace ++ elements cells ∧
        (q.head ≠ none → q.tail = cells.getLast?.map Prod.fst) :=
  ⟨_, _, Machine.run_exec sampleCalls_through, by decide +kernel,
    queue_is_fifo (Machine.run_exec sampleCalls_through)⟩

end CommunicationProtocols.Router
