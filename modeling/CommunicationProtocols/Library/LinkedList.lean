import Mathlib.Data.List.Nodup
import Mathlib.Logic.Function.Basic

/-!
# Singly linked lists in a heap

A heap maps the address of every allocated cell to its contents. An address that
was never allocated, or was freed, has no cell, and an access to it has no result.
A chain is what a pointer leads to, cell by cell, down to NULL. It is determined by
the pointer and visits no cell twice, so that writing a cell of one chain leaves
the chains without this cell alone.
-/

namespace CommunicationProtocols.Library.LinkedList

universe u

abbrev Address := Nat

/-- A pointer to a cell, `none` if it is NULL. -/
abbrev Pointer := Option Address

structure Cell (α : Type u) where
  element : α
  next : Pointer
deriving DecidableEq

abbrev Heap (α : Type u) := Address → Option (Cell α)

variable {α : Type u}

/-! ## Access -/

/-- The cell behind a pointer, if it is allocated. -/
def load (heap : Heap α) (pointer : Pointer) : Option (Cell α) := pointer.bind heap

/-- Overwrite the cell behind a pointer, if it is allocated. -/
def store (heap : Heap α) (pointer : Pointer) (cell : Cell α) : Option (Heap α) :=
  pointer.bind fun address =>
    (heap address).map fun _ => Function.update heap address (some cell)

/-- Put a new cell at an address. -/
def allocate (heap : Heap α) (fresh : Address) (cell : Cell α) : Heap α :=
  Function.update heap fresh (some cell)

/-- Free the cell behind a pointer, if it is allocated. -/
def release (heap : Heap α) (pointer : Pointer) : Option (Heap α) :=
  pointer.bind fun address => (heap address).map fun _ => Function.update heap address none

/-! ## Chains -/

/-- The cells a pointer leads to, with their addresses, down to NULL. -/
def Chain (heap : Heap α) : Pointer → List (Address × α) → Prop
  | pointer, [] => pointer = none
  | pointer, (address, element) :: rest =>
      pointer = some address ∧ ∃ next, heap address = some ⟨element, next⟩ ∧ Chain heap next rest

/-- The addresses of a chain. -/
abbrev addresses (cells : List (Address × α)) : List Address := cells.map Prod.fst

/-- The elements of a chain. -/
abbrev elements (cells : List (Address × α)) : List α := cells.map Prod.snd

/-- A cell at the end adds its own address. -/
theorem mem_addresses_concat {cells : List (Address × α)} {fresh address : Address} {element : α} :
    address ∈ addresses (cells ++ [(fresh, element)]) ↔
      address ∈ addresses cells ∨ address = fresh := by
  simp only [addresses, List.map_append, List.mem_append, List.map_singleton,
    List.mem_singleton]

/-- Following a pointer leads to an address. -/
inductive Reaches (heap : Heap α) : Pointer → Address → Prop where
  | here {address} : Reaches heap (some address) address
  | next {address cell target} (allocated : heap address = some cell)
      (later : Reaches heap cell.next target) : Reaches heap (some address) target

variable {heap heap' : Heap α} {pointer : Pointer} {cells : List (Address × α)}
  {address : Address} {element : α}

/-- A chain depends on its own cells only. -/
theorem Chain.congr (chain : Chain heap pointer cells)
    (same : ∀ address ∈ addresses cells, heap' address = heap address) :
    Chain heap' pointer cells := by
  induction cells generalizing pointer with
  | nil => exact chain
  | cons cell rest ih =>
      obtain ⟨here, next, allocated, later⟩ := chain
      refine ⟨here, next, ?_, ih later fun address member => ?_⟩
      · rw [same cell.1 List.mem_cons_self, allocated]
      · exact same address (List.mem_cons_of_mem _ member)

/-- A chain visits allocated cells. -/
theorem Chain.allocated (chain : Chain heap pointer cells) :
    ∀ address ∈ addresses cells, heap address ≠ none := by
  induction cells generalizing pointer with
  | nil => exact fun _ member => absurd member List.not_mem_nil
  | cons cell rest ih =>
      obtain ⟨_, next, allocated, later⟩ := chain
      refine List.forall_mem_cons.mpr ⟨?_, ih later⟩
      rw [allocated]
      exact Option.some_ne_none _

/-- A pointer has one chain. -/
theorem Chain.unique {cells' : List (Address × α)} (chain : Chain heap pointer cells)
    (chain' : Chain heap pointer cells') : cells = cells' := by
  induction cells generalizing pointer cells' with
  | nil =>
      cases cells' with
      | nil => rfl
      | cons cell' rest' => exact absurd (chain'.1.symm.trans chain) (Option.some_ne_none _)
  | cons cell rest ih =>
      obtain ⟨here, next, allocated, later⟩ := chain
      cases cells' with
      | nil => exact absurd (here.symm.trans chain') (Option.some_ne_none _)
      | cons cell' rest' =>
          obtain ⟨here', next', allocated', later'⟩ := chain'
          have sameAddress : cell.1 = cell'.1 := Option.some.inj (here.symm.trans here')
          rw [sameAddress] at allocated
          have sameCell := Option.some.inj (allocated.symm.trans allocated')
          have sameElement : cell.2 = cell'.2 := congrArg Cell.element sameCell
          have sameNext : next = next' := congrArg Cell.next sameCell
          rw [sameNext] at later
          rw [Prod.ext sameAddress sameElement, ih later later']

/-- The end of a chain is a chain. -/
theorem Chain.suffix {front back : List (Address × α)}
    (chain : Chain heap pointer (front ++ back)) : ∃ middle, Chain heap middle back := by
  induction front generalizing pointer with
  | nil => exact ⟨pointer, chain⟩
  | cons cell rest ih =>
      obtain ⟨_, next, _, later⟩ := chain
      exact ih later

/-- A chain visits no cell twice: it would lead in a circle. -/
theorem Chain.nodup (chain : Chain heap pointer cells) : (addresses cells).Nodup := by
  induction cells generalizing pointer with
  | nil => exact List.nodup_nil
  | cons cell rest ih =>
      have whole := chain
      obtain ⟨here, next, _, later⟩ := chain
      refine List.nodup_cons.mpr ⟨fun again => ?_, ih later⟩
      obtain ⟨visited, member, sameAddress⟩ := List.mem_map.mp again
      obtain ⟨front, back, rfl⟩ := List.append_of_mem member
      obtain ⟨middle, circle⟩ := later.suffix
      have start : pointer = middle := by rw [here, circle.1, sameAddress]
      rw [start] at whole
      have lengths := congrArg List.length (whole.unique circle)
      simp only [List.length_cons, List.length_append] at lengths
      omega

/-- A chain without a first cell is empty. -/
theorem Chain.eq_nil (chain : Chain heap none cells) : cells = [] := chain.unique rfl

/-- A pointer that is not NULL leads to a first cell. -/
theorem Chain.eq_cons (chain : Chain heap (some address) cells) :
    ∃ element next rest, cells = (address, element) :: rest ∧
      heap address = some ⟨element, next⟩ ∧ Chain heap next rest := by
  cases cells with
  | nil => exact absurd chain (Option.some_ne_none _)
  | cons cell rest =>
      obtain ⟨here, next, allocated, later⟩ := chain
      have same : address = cell.1 := Option.some.inj here
      exact ⟨cell.2, next, rest, by rw [same], by rw [same, allocated], later⟩

/-- The last cell of a chain points to nothing. -/
theorem Chain.last (chain : Chain heap pointer (cells ++ [(address, element)])) :
    heap address = some ⟨element, none⟩ := by
  obtain ⟨middle, _, next, allocated, later⟩ := chain.suffix
  rw [allocated, later]

/-- The cells of a chain are those its pointer leads to. -/
theorem Chain.mem_addresses_iff (chain : Chain heap pointer cells) :
    address ∈ addresses cells ↔ Reaches heap pointer address := by
  constructor
  · intro member
    induction cells generalizing pointer with
    | nil => exact absurd member List.not_mem_nil
    | cons cell rest ih =>
        obtain ⟨rfl, next, allocated, later⟩ := chain
        rcases List.mem_cons.mp member with rfl | behind
        · exact .here
        · exact .next allocated (ih later behind)
  · intro reaches
    induction reaches generalizing cells with
    | here =>
        obtain ⟨element, next, rest, rfl, _, _⟩ := chain.eq_cons
        exact List.mem_cons_self
    | next allocated _ ih =>
        obtain ⟨element, next, rest, rfl, allocated', later⟩ := chain.eq_cons
        rw [allocated] at allocated'
        obtain rfl := Option.some.inj allocated'
        exact List.mem_cons_of_mem _ (ih later)

/-! ## Updates -/

/-- A new cell of its own is a chain. -/
theorem chain_allocate (heap : Heap α) (fresh : Address) (element : α) :
    Chain (allocate heap fresh ⟨element, none⟩) (some fresh) [(fresh, element)] :=
  ⟨rfl, none, Function.update_self _ _ _, rfl⟩

/-- Linking a new cell to the last one makes the chain longer. -/
theorem Chain.append {fresh : Address} {new : α}
    (chain : Chain heap pointer (cells ++ [(address, element)])) (free : heap fresh = none) :
    Chain (Function.update (allocate heap fresh ⟨new, none⟩) address
        (some ⟨element, some fresh⟩)) pointer
      (cells ++ [(address, element)] ++ [(fresh, new)]) := by
  have distinct := chain.nodup
  have allocated := chain.allocated
  induction cells generalizing pointer with
  | nil =>
      obtain ⟨here, _⟩ := chain
      have differs : fresh ≠ address := fun same =>
        allocated address List.mem_cons_self (same ▸ free)
      refine ⟨here, some fresh, Function.update_self _ _ _, rfl, none, ?_, rfl⟩
      rw [Function.update_of_ne differs, allocate, Function.update_self]
  | cons cell rest ih =>
      obtain ⟨here, next, found, later⟩ := chain
      have last : address ∈ addresses (rest ++ [(address, element)]) :=
        List.mem_map.mpr ⟨_, List.mem_append_right _ List.mem_cons_self, rfl⟩
      have other : cell.1 ≠ address := fun same =>
        (List.nodup_cons.mp distinct).1 (by rwa [← same] at last ⊢)
      have notFresh : cell.1 ≠ fresh := fun same =>
        allocated cell.1 List.mem_cons_self (same ▸ free)
      refine ⟨here, next, ?_, ih later (List.nodup_cons.mp distinct).2
        fun address member => allocated address (List.mem_cons_of_mem _ member)⟩
      rw [Function.update_of_ne other, allocate, Function.update_of_ne notFresh, found]

/-- Without its first cell a chain is still one when this cell is freed. -/
theorem Chain.tail {rest : List (Address × α)}
    (chain : Chain heap pointer ((address, element) :: rest)) :
    ∃ next, heap address = some ⟨element, next⟩ ∧
      Chain (Function.update heap address none) next rest := by
  have distinct := (List.nodup_cons.mp chain.nodup).1
  obtain ⟨_, next, allocated, later⟩ := chain
  refine ⟨next, allocated, later.congr fun other member => Function.update_of_ne ?_ _ _⟩
  rintro rfl
  exact distinct member

end CommunicationProtocols.Library.LinkedList
