import Mathlib.Data.List.Nodup
import Mathlib.Logic.Function.Basic

/-!
# Blocks and arrays of pointers to them

Every allocation gets an address of its own, so that the use of a block that was freed
has no result, and neither has freeing it again. An array of pointers has as many slots
as were allocated; a slot that was not written holds nothing, and an access to such a
slot or behind the last one has no result.
-/

namespace CommunicationProtocols.Library

universe u v

/-- The blocks of one kind that are allocated; no address from `fresh` on was used. -/
structure Blocks (α : Type u) where
  contents : Nat → Option α
  fresh : Nat
  unused : ∀ address, fresh ≤ address → contents address = none

namespace Blocks

variable {α : Type u} {β : Type v}

abbrev Address := Nat

def empty : Blocks α := ⟨fun _ => none, 0, fun _ _ => rfl⟩

/-- A new block. -/
def allocate (blocks : Blocks α) (content : α) : Blocks α × Address :=
  (⟨Function.update blocks.contents blocks.fresh (some content), blocks.fresh + 1,
    fun address unused => by
      rw [Function.update_of_ne (by omega)]
      exact blocks.unused address (by omega)⟩, blocks.fresh)

/-- Free a block, if it is allocated. -/
def release (blocks : Blocks α) (address : Address) : Option (Blocks α) :=
  if (blocks.contents address).isSome then
    some ⟨Function.update blocks.contents address none, blocks.fresh, fun other unused => by
      rcases eq_or_ne other address with rfl | differs
      · exact Function.update_self other _ _
      · rw [Function.update_of_ne differs]
        exact blocks.unused other unused⟩
  else none

/-- The allocated blocks are those of a list. -/
structure Owns (blocks : Blocks α) (owned : List (Address × α)) : Prop where
  once : (owned.map Prod.fst).Nodup
  exactly : ∀ address content, blocks.contents address = some content ↔ (address, content) ∈ owned

variable {blocks blocks' : Blocks α} {owned owned' front back : List (Address × α)} {address : Address}
  {content : α}

/-- Nothing is owned where nothing was allocated. -/
theorem owns_empty : Owns (empty : Blocks α) [] := ⟨List.nodup_nil, by simp [empty]⟩

/-- What is owned has no order. -/
theorem Owns.perm (owns : Owns blocks owned) (same : owned.Perm owned') : Owns blocks owned' :=
  ⟨(same.map Prod.fst).nodup_iff.mp owns.once, fun address content => by
    rw [owns.exactly, same.mem_iff]⟩

/-- A block that is owned has the content it is owned with. -/
theorem Owns.contents_eq (owns : Owns blocks owned) (member : (address, content) ∈ owned) :
    blocks.contents address = some content := (owns.exactly address content).mpr member

/-- A new block is owned along with the others. -/
theorem Owns.allocate (owns : Owns blocks owned) (content : α) :
    Owns (blocks.allocate content).1 (((blocks.allocate content).2, content) :: owned) := by
  have unowned : blocks.fresh ∉ owned.map Prod.fst := by
    intro member
    obtain ⟨⟨_, other⟩, inside, rfl⟩ := List.mem_map.mp member
    have allocated := owns.contents_eq inside
    rw [blocks.unused _ (Nat.le_refl _)] at allocated
    cases allocated
  refine ⟨List.nodup_cons.mpr ⟨unowned, owns.once⟩, fun address other => ?_⟩
  rcases eq_or_ne address blocks.fresh with rfl | differs
  · have absent : (blocks.fresh, other) ∉ owned := fun inside =>
      unowned (List.mem_map.mpr ⟨_, inside, rfl⟩)
    simp [Blocks.allocate, absent, eq_comm]
  · simp [Blocks.allocate, differs, Function.update_of_ne, owns.exactly]

/-- An owned block can be freed, and the others stay. -/
theorem Owns.release (owns : Owns blocks ((address, content) :: owned)) :
    ∃ blocks', blocks.release address = some blocks' ∧ Owns blocks' owned := by
  obtain ⟨absent, once⟩ := List.nodup_cons.mp owns.once
  have allocated := owns.contents_eq List.mem_cons_self
  rw [Blocks.release, if_pos (by rw [allocated]; rfl)]
  refine ⟨_, rfl, once, fun other content' => ?_⟩
  rcases eq_or_ne other address with rfl | differs
  · have unowned : (other, content') ∉ owned := fun inside =>
      absent (List.mem_map.mpr ⟨_, inside, rfl⟩)
    simp [unowned]
  · simp [owns.exactly, differs]

end Blocks

/-! ## Slots -/

/-- An array of pointers. -/
abbrev Slots (α : Type u) := List (Option α)

namespace Slots

variable {α : Type u} {slots slots' : Slots α} {items front back : List α} {item : α} {i n : Nat}

/-- The pointer in a slot that was written. -/
def read (slots : Slots α) (i : Nat) : Option α := slots[i]?.join

/-- Write a slot of the array. -/
def write (slots : Slots α) (i : Nat) (item : α) : Option (Slots α) :=
  if i < slots.length then some (slots.set i (some item)) else none

/-- A new array of `capacity` slots with the first `count` ones of another. -/
def copy (slots : Slots α) (count capacity : Nat) : Option (Slots α) :=
  if count ≤ slots.length ∧ count ≤ capacity then
    some (slots.take count ++ List.replicate (capacity - count) none)
  else none

/-- The first slots of the array hold the items of a list. -/
def Holds (slots : Slots α) (items : List α) : Prop := items.map some <+: slots

/-- The items in use fit the slots. -/
theorem Holds.length_le (holds : Holds slots items) : items.length ≤ slots.length := by
  have shorter := List.IsPrefix.length_le holds
  rwa [List.length_map] at shorter

/-- The slot at the index of an item holds it. -/
theorem Holds.read (holds : Holds slots (front ++ item :: back)) :
    slots.read front.length = some item := by
  obtain ⟨spare, rfl⟩ := holds
  simp [Slots.read]

/-- A write to the slot of an item replaces it and no other. -/
theorem Holds.write (holds : Holds slots (front ++ item :: back)) (item' : α) :
    ∃ slots', slots.write front.length item' = some slots' ∧
      Holds slots' (front ++ item' :: back) ∧ slots'.length = slots.length := by
  have inside := holds.length_le
  rw [List.length_append, List.length_cons] at inside
  rw [Slots.write, if_pos (by omega)]
  refine ⟨_, rfl, ?_, List.length_set⟩
  obtain ⟨spare, rfl⟩ := holds
  exact ⟨spare, by simp⟩

/-- The slot behind the items takes another one. -/
theorem Holds.push (holds : Holds slots items) (room : items.length < slots.length) (item : α) :
    ∃ slots', slots.write items.length item = some slots' ∧
      Holds slots' (items ++ [item]) ∧ slots'.length = slots.length := by
  rw [Slots.write, if_pos room]
  refine ⟨_, rfl, ?_, List.length_set⟩
  obtain ⟨spare, rfl⟩ := holds
  cases spare with
  | nil => simp at room
  | cons slot spare => exact ⟨spare, by simp⟩

/-- Fewer items are held by the same slots. -/
theorem Holds.shrink (holds : Holds slots (front ++ back)) : Holds slots front := by
  rw [Holds, List.map_append] at holds
  exact (List.prefix_append _ _).trans holds

/-- A copy to enough new slots holds the same items. -/
theorem Holds.copy (holds : Holds slots items) (room : items.length ≤ n) :
    ∃ slots', slots.copy items.length n = some slots' ∧ Holds slots' items ∧ slots'.length = n := by
  have inside := holds.length_le
  rw [Slots.copy, if_pos ⟨inside, room⟩]
  obtain ⟨spare, rfl⟩ := holds
  have whole : (items.map some ++ spare).take items.length = items.map some := by
    rw [List.take_left' (List.length_map some)]
  rw [whole]
  refine ⟨_, rfl, List.prefix_append _ _, ?_⟩
  rw [List.length_append, List.length_map, List.length_replicate]
  omega

/-- Slots that are not in use yet hold no items. -/
theorem holds_nil (slots : Slots α) : Holds slots [] := List.nil_prefix

end Slots

end CommunicationProtocols.Library
