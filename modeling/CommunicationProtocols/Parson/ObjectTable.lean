import CommunicationProtocols.Library.Blocks
import CommunicationProtocols.Parson.Objects

/-!
# The memory of an object

An object keeps its names and values in two arrays of pointers that grow together.
Behind the `count` used slots there may be unused ones; a removed member leaves its
slot to the last one, and `json_object_clear` keeps the arrays. The object, its arrays, the
names and the values are blocks of their own, and every allocation is taken to succeed. A
step has no result where it would read a slot that was not written, write behind the end of
an array, or use or free a block that is not allocated. None of this happens in any run,
every block belongs to the object or to a member that is still there, and the results are
those of a finite map.
-/

namespace CommunicationProtocols.Parson

open Library Library.Json
open Library.Blocks (Address)

universe u

/-- The blocks of the object itself and of its two arrays, which are NULL in a new object.
What the arrays hold is with the members. -/
structure Frame where
  blocks : Blocks Unit
  object : Address
  names : Option Address
  values : Option Address

/-- `json_object_t`, with the strings and the values that are allocated. -/
structure ObjectTable (ν : Type u) where
  strings : Blocks (List UInt8)
  heap : Blocks (Value ν)
  names : Slots Address
  values : Slots Address
  count : Nat
  capacity : Nat
  frame : Frame

namespace Frame

/-- The block of a new object. -/
def init : Frame :=
  ⟨((Blocks.empty : Blocks Unit).allocate ()).1, ((Blocks.empty : Blocks Unit).allocate ()).2,
    none, none⟩

/-- `parson_free`, which does nothing with NULL. -/
def parsonFree (blocks : Blocks Unit) : Option Address → Option (Blocks Unit)
  | none => some blocks
  | some address => blocks.release address

/-- What `json_object_resize` does with blocks: two new arrays, and the old ones are freed. -/
def resize (frame : Frame) : Option Frame :=
  let tempNames := frame.blocks.allocate ()
  let tempValues := tempNames.1.allocate ()
  (parsonFree tempValues.1 frame.names).bind fun blocks =>
    (parsonFree blocks frame.values).map fun blocks =>
      ⟨blocks, frame.object, some tempNames.2, some tempValues.2⟩

/-- The end of `json_object_free`. -/
def free (frame : Frame) : Option (Blocks Unit) :=
  (parsonFree frame.blocks frame.names).bind fun blocks =>
    (parsonFree blocks frame.values).bind fun blocks => blocks.release frame.object

/-- The arrays are NULL together, and the blocks are those of the object and of its arrays. -/
structure Sound (frame : Frame) : Prop where
  together : frame.names.isSome = frame.values.isSome
  owns : frame.blocks.Owns
    ((frame.object :: (frame.names.toList ++ frame.values.toList)).map fun address => (address, ()))

variable {frame : Frame}

/-- In a new object its own block is the only one. -/
theorem init_sound : init.Sound := ⟨rfl, Blocks.owns_empty.allocate ()⟩

/-- Whether an array is freed or was NULL, it is gone. -/
theorem parsonFree_spec {blocks : Blocks Unit} {pointer : Option Address}
    {rest : List (Address × Unit)}
    (owns : blocks.Owns (pointer.toList.map (fun address => (address, ())) ++ rest)) :
    ∃ blocks', parsonFree blocks pointer = some blocks' ∧ blocks'.Owns rest := by
  cases pointer with
  | none => exact ⟨blocks, rfl, owns⟩
  | some address => exact Blocks.Owns.release owns

/-- The arrays are freed first. -/
theorem arrays_first (rest names values : List (Address × Unit)) :
    (rest ++ (names ++ values)).Perm (names ++ (values ++ rest)) := by
  rw [← List.append_assoc names values]
  exact List.perm_append_comm

/-- A resize frees the arrays there are, and owns two new ones. -/
theorem Sound.resize (sound : frame.Sound) :
    ∃ frame', frame.resize = some frame' ∧ frame'.Sound := by
  have made := (sound.owns.allocate ()).allocate ()
  generalize named : frame.blocks.allocate () = tempNames at made
  generalize valued : tempNames.1.allocate () = tempValues at made
  rw [List.map_cons, List.map_append] at made
  have reordered := made.perm (arrays_first [_, _, _] _ _)
  obtain ⟨_, freedNames, reordered⟩ := parsonFree_spec reordered
  obtain ⟨blocks, freedValues, owns⟩ := parsonFree_spec reordered
  rw [Frame.resize, named, valued, freedNames, Option.bind_some, freedValues, Option.map_some]
  exact ⟨_, rfl, rfl, owns.perm (List.reverse_perm _).symm⟩

/-- Freeing leaves no block of the object. -/
theorem Sound.free (sound : frame.Sound) :
    ∃ blocks, frame.free = some blocks ∧ blocks.Owns [] := by
  have owns := sound.owns
  rw [List.map_cons, List.map_append] at owns
  have reordered := owns.perm (arrays_first [_] _ _)
  obtain ⟨_, freedNames, reordered⟩ := parsonFree_spec reordered
  obtain ⟨_, freedValues, owns⟩ := parsonFree_spec reordered
  obtain ⟨blocks, freed, none⟩ := owns.release
  rw [Frame.free, freedNames, Option.bind_some, freedValues, Option.bind_some]
  exact ⟨blocks, freed, none⟩

end Frame

namespace ObjectTable

variable {ν : Type u}

/-! ## The functions of the source -/

/-- `STARTING_CAPACITY`. -/
abbrev startingCapacity : Nat := 16

/-- `json_object_init`. -/
def jsonObjectInit : ObjectTable ν := ⟨.empty, .empty, [], [], 0, 0, .init⟩

/-- The loops over the names: the index of the first one that is equal, of the `left` slots
from an index on. -/
def indexLoop (table : ObjectTable ν) (name : List UInt8) (i : Nat) : Nat → Option (Option Nat)
  | 0 => some none
  | left + 1 =>
      (table.names.read i).bind fun address =>
        (table.strings.contents address).bind fun here =>
          if here = name then some (some i) else indexLoop table name (i + 1) left

/-- The index of a name. -/
def indexOf (table : ObjectTable ν) (name : List UInt8) : Option (Option Nat) :=
  table.indexLoop name 0 table.count

/-- `json_object_getn_value`. -/
def jsonObjectGetnValue (table : ObjectTable ν) (name : List UInt8) : Option (Option Address) :=
  (table.indexOf name).bind fun index =>
    match index with
    | some i => (table.values.read i).map some
    | none => some none

/-- `json_object_resize`. -/
def jsonObjectResize (table : ObjectTable ν) (newCapacity : Nat) :
    Option (Bool × ObjectTable ν) :=
  if table.frame.names.isSome ≠ table.frame.values.isSome ∨ newCapacity = 0 then
    some (false, table)
  else
    (table.names.copy table.count newCapacity).bind fun tempNames =>
      (table.values.copy table.count newCapacity).bind fun tempValues =>
        table.frame.resize.map fun frame =>
          (true, { table with
            names := tempNames
            values := tempValues
            capacity := newCapacity
            frame })

/-- `json_object_addn` behind the search for the name. -/
def append (table : ObjectTable ν) (name : List UInt8) (value : Address) :
    Option (Bool × ObjectTable ν) :=
  let room :=
    if table.count ≥ table.capacity then
      table.jsonObjectResize (max (table.capacity * 2) startingCapacity)
    else some (true, table)
  room.bind fun (resized, table) =>
    if resized = false then some (false, table)
    else
      let (strings, copy) := table.strings.allocate name
      (table.names.write table.count copy).bind fun names =>
        (table.values.write table.count value).map fun values =>
          (true, { table with strings, names, values, count := table.count + 1 })

/-- `json_object_addn`. -/
def jsonObjectAddn (table : ObjectTable ν) (name : List UInt8) (value : Address) :
    Option (Bool × ObjectTable ν) :=
  (table.jsonObjectGetnValue name).bind fun found =>
    if found.isSome then some (false, table) else table.append name value

/-- `json_object_set_value`, for a value that has no parent. -/
def jsonObjectSetValue (table : ObjectTable ν) (name : List UInt8) (value : Address) :
    Option (Bool × ObjectTable ν) :=
  (table.jsonObjectGetnValue name).bind fun found =>
    match found with
    | none => table.jsonObjectAddn name value
    | some oldValue =>
        (table.heap.release oldValue).bind fun heap =>
          let table := { table with heap }
          (table.indexOf name).bind fun index =>
            match index with
            | none => table.jsonObjectAddn name value
            | some i =>
                (table.values.write i value).map fun values => (true, { table with values })

/-- The slot of a member that is removed takes the last one, if it is another. -/
def replaceByLast (slots : Slots Address) (i lastItemIndex : Nat) : Option (Slots Address) :=
  if i ≠ lastItemIndex then
    (slots.read lastItemIndex).bind fun last => slots.write i last
  else some slots

/-- `json_object_remove_internal`. -/
def jsonObjectRemoveInternal (table : ObjectTable ν) (name : List UInt8) (freeValue : Bool) :
    Option (Bool × ObjectTable ν) :=
  (table.jsonObjectGetnValue name).bind fun found =>
    if found = none then some (false, table)
    else
      let lastItemIndex := table.count - 1
      (table.indexOf name).bind fun index =>
        match index with
        | none => some (false, table)
        | some i =>
            (table.names.read i).bind fun ownName =>
              (table.strings.release ownName).bind fun strings =>
                (table.values.read i).bind fun ownValue =>
                  (if freeValue then table.heap.release ownValue else some table.heap).bind
                    fun heap =>
                      (replaceByLast table.names i lastItemIndex).bind fun names =>
                        (replaceByLast table.values i lastItemIndex).map fun values =>
                          (true, { table with strings, heap, names, values, count := table.count - 1 })

/-- The loop of `json_object_clear` and `json_object_free` over the `left` members from an
index on. -/
def freeLoop (table : ObjectTable ν) (i : Nat) : Nat → Option (ObjectTable ν)
  | 0 => some table
  | left + 1 =>
      (table.names.read i).bind fun ownName =>
        (table.strings.release ownName).bind fun strings =>
          (table.values.read i).bind fun ownValue =>
            (table.heap.release ownValue).bind fun heap =>
              freeLoop { table with strings, heap } (i + 1) left

/-- `json_object_clear`. -/
def jsonObjectClear (table : ObjectTable ν) : Option (ObjectTable ν) :=
  (table.freeLoop 0 table.count).map fun table => { table with count := 0 }

/-- `json_object_free`: the strings, the values and the other blocks behind it. -/
def jsonObjectFree (table : ObjectTable ν) :
    Option (Blocks (List UInt8) × Blocks (Value ν) × Blocks Unit) :=
  (table.freeLoop 0 table.count).bind fun table =>
    table.frame.free.map fun blocks => (table.strings, table.heap, blocks)

/-! ## Calls -/

/-- What the library is asked to do with an object. -/
inductive Call (ν : Type u) where
  | get (name : List UInt8)
  | count
  | add (name : List UInt8) (value : Value ν)
  | set (name : List UInt8) (value : Value ν)
  | remove (name : List UInt8)
  | clear

/-- What it answers. -/
inductive Answer (ν : Type u) where
  | value (found : Option (Value ν))
  | count (n : Nat)
  | status (success : Bool)

/-- A value is made for the object, and freed again if the object does not take it. -/
def give (table : ObjectTable ν) (value : Value ν)
    (take : ObjectTable ν → Address → Option (Bool × ObjectTable ν)) :
    Option (Answer ν × ObjectTable ν) :=
  let (heap, address) := table.heap.allocate value
  (take { table with heap } address).bind fun (success, table) =>
    if success then some (.status true, table)
    else (table.heap.release address).map fun heap => (.status false, { table with heap })

/-- One call, as `json_object_get_value`, `json_object_get_count`, the parser, the setters,
`json_object_remove` and `json_object_clear` make it. -/
def call (table : ObjectTable ν) : Call ν → Option (Answer ν × ObjectTable ν)
  | .get name =>
      (table.jsonObjectGetnValue name).bind fun found =>
        match found with
        | none => some (.value none, table)
        | some address => (table.heap.contents address).map fun value => (.value (some value), table)
  | .count => some (.count table.count, table)
  | .add name value => table.give value fun table address => table.jsonObjectAddn name address
  | .set name value => table.give value fun table address => table.jsonObjectSetValue name address
  | .remove name =>
      (table.jsonObjectRemoveInternal name true).map fun (success, table) => (.status success, table)
  | .clear => table.jsonObjectClear.map fun table => (.status true, table)

/-- Calls one after the other. -/
def calls (table : ObjectTable ν) : List (Call ν) → Option (List (Answer ν) × ObjectTable ν)
  | [] => some ([], table)
  | first :: later =>
      (table.call first).bind fun (answer, table) =>
        (table.calls later).map fun (answers, table) => (answer :: answers, table)

/-! ## What the memory holds -/

/-- A member with the addresses of its name and its value. -/
structure Entry (ν : Type u) where
  nameAt : Address
  name : List UInt8
  valueAt : Address
  value : Value ν

def Entry.ownName (entry : Entry ν) : Address × List UInt8 := (entry.nameAt, entry.name)

def Entry.ownValue (entry : Entry ν) : Address × Value ν := (entry.valueAt, entry.value)

def Entry.member (entry : Entry ν) : Member ν := (entry.name, entry.value)

/-- The table holds entries, and the blocks that are allocated are theirs, up to some
values that belong to somebody else. -/
structure Holds (table : ObjectTable ν) (entries : List (Entry ν))
    (others : List (Address × Value ν)) : Prop where
  names : table.names.Holds (entries.map Entry.nameAt)
  values : table.values.Holds (entries.map Entry.valueAt)
  count : table.count = entries.length
  namesSize : table.names.length = table.capacity
  valuesSize : table.values.length = table.capacity
  strings : table.strings.Owns (entries.map Entry.ownName)
  heap : table.heap.Owns (others ++ entries.map Entry.ownValue)
  frame : table.frame.Sound

variable {table : ObjectTable ν} {entries front back : List (Entry ν)} {entry : Entry ν}
  {others : List (Address × Value ν)} {name : List UInt8} {value : Address × Value ν} {left : Nat}

/-- A new object has no members. -/
theorem holds_init : Holds (jsonObjectInit : ObjectTable ν) [] [] :=
  ⟨Slots.holds_nil _, Slots.holds_nil _, rfl, rfl, rfl, Blocks.owns_empty, Blocks.owns_empty,
    Frame.init_sound⟩

/-! ## The loops over the names -/

/-- The name at an index. -/
theorem Holds.index_step (holds : Holds table (front ++ entry :: back) others) :
    table.indexLoop name front.length (left + 1) =
      if entry.name = name then some (some front.length)
      else table.indexLoop name (front.length + 1) left := by
  have address : table.names.read front.length = some entry.nameAt := by
    have here := holds.names
    rw [List.map_append, List.map_cons] at here
    have read := here.read
    rwa [List.length_map] at read
  have string : table.strings.contents entry.nameAt = some entry.name :=
    holds.strings.contents_eq (List.mem_map.mpr ⟨entry, by simp, rfl⟩)
  rw [indexLoop, address, Option.bind_some, string, Option.bind_some]

/-- The search for a name that is not there goes through all slots that are left. -/
theorem Holds.indexLoop_absent (holds : Holds table (front ++ back) others)
    (absent : ∀ entry ∈ back, entry.name ≠ name) :
    table.indexLoop name front.length back.length = some none := by
  induction back generalizing front with
  | nil => rfl
  | cons entry back ih =>
      obtain ⟨differs, absent⟩ := List.forall_mem_cons.mp absent
      rw [List.length_cons, holds.index_step, if_neg differs]
      have moved : Holds table ((front ++ [entry]) ++ back) others := by simpa using holds
      simpa using ih moved absent

/-- The search stops at the first member with the name. -/
theorem Holds.indexLoop_first {middle : List (Entry ν)}
    (holds : Holds table (front ++ (middle ++ entry :: back)) others)
    (before : ∀ other ∈ middle, other.name ≠ entry.name) :
    table.indexLoop entry.name front.length (middle ++ entry :: back).length =
      some (some (front ++ middle).length) := by
  induction middle generalizing front with
  | nil =>
      rw [List.nil_append] at holds ⊢
      rw [List.length_cons, holds.index_step, if_pos rfl, List.append_nil]
  | cons other middle ih =>
      obtain ⟨differs, before⟩ := List.forall_mem_cons.mp before
      rw [List.cons_append] at holds
      rw [List.cons_append, List.length_cons, holds.index_step, if_neg differs]
      have moved : Holds table ((front ++ [other]) ++ (middle ++ entry :: back)) others := by
        simpa using holds
      simpa using ih moved before

/-- The loops do not look at the values. -/
theorem indexLoop_heap (table : ObjectTable ν) (heap : Blocks (Value ν)) (name : List UInt8)
    (i left : Nat) :
    ({ table with heap } : ObjectTable ν).indexLoop name i left = table.indexLoop name i left := by
  induction left generalizing i with
  | zero => rfl
  | succ left ih =>
      rw [indexLoop, indexLoop]
      simp only [ih]

/-- A name that no member has has no index. -/
theorem Holds.indexOf_absent (holds : Holds table entries others)
    (absent : ∀ entry ∈ entries, entry.name ≠ name) : table.indexOf name = some none := by
  rw [indexOf, holds.count]
  have whole : Holds table ([] ++ entries) others := holds
  exact whole.indexLoop_absent absent

/-- The index of a name is that of the first member with it. -/
theorem Holds.indexOf_first (holds : Holds table (front ++ entry :: back) others)
    (before : ∀ other ∈ front, other.name ≠ entry.name) :
    table.indexOf entry.name = some (some front.length) := by
  rw [indexOf, holds.count]
  have whole : Holds table ([] ++ (front ++ entry :: back)) others := holds
  exact whole.indexLoop_first before

/-- For a name that no member has there is no value. -/
theorem Holds.getn_absent (holds : Holds table entries others)
    (absent : ∀ entry ∈ entries, entry.name ≠ name) :
    table.jsonObjectGetnValue name = some none := by
  rw [jsonObjectGetnValue, holds.indexOf_absent absent]
  rfl

/-- The value at an index. -/
theorem Holds.read_value (holds : Holds table (front ++ entry :: back) others) :
    table.values.read front.length = some entry.valueAt := by
  have here := holds.values
  rw [List.map_append, List.map_cons] at here
  have read := here.read
  rwa [List.length_map] at read

/-- The slot of a member holds the address of its name. -/
theorem Holds.read_name (holds : Holds table (front ++ entry :: back) others) :
    table.names.read front.length = some entry.nameAt := by
  have here := holds.names
  rw [List.map_append, List.map_cons] at here
  have read := here.read
  rwa [List.length_map] at read

/-- For a name there is the value of the first member with it. -/
theorem Holds.getn_first (holds : Holds table (front ++ entry :: back) others)
    (before : ∀ other ∈ front, other.name ≠ entry.name) :
    table.jsonObjectGetnValue entry.name = some (some entry.valueAt) := by
  rw [jsonObjectGetnValue, holds.indexOf_first before, Option.bind_some]
  dsimp only
  rw [holds.read_value, Option.map_some]

/-! ## Changes -/

/-- A slot behind the members is made if there is none. -/
theorem Holds.room (holds : Holds table entries others) :
    ∃ table', (if table.count ≥ table.capacity then
        table.jsonObjectResize (max (table.capacity * 2) startingCapacity)
      else some (true, table)) = some (true, table') ∧
      Holds table' entries others ∧ entries.length < table'.capacity := by
  have namesRoom := holds.names.length_le
  rw [List.length_map, holds.namesSize] at namesRoom
  split_ifs with full
  · rw [holds.count] at full
    have larger : entries.length < max (table.capacity * 2) startingCapacity := by
      rw [startingCapacity]
      omega
    obtain ⟨names, copiedNames, ownNames, namesSize⟩ :=
      holds.names.copy (n := max (table.capacity * 2) startingCapacity)
        (by rw [List.length_map]; omega)
    obtain ⟨values, copiedValues, ownValues, valuesSize⟩ :=
      holds.values.copy (n := max (table.capacity * 2) startingCapacity)
        (by rw [List.length_map]; omega)
    rw [List.length_map] at copiedNames copiedValues
    obtain ⟨frame, resized, sound⟩ := holds.frame.resize
    have accepted : ¬ (table.frame.names.isSome ≠ table.frame.values.isSome ∨
        max (table.capacity * 2) startingCapacity = 0) := by
      rw [not_or, not_not]
      exact ⟨holds.frame.together, by omega⟩
    rw [jsonObjectResize, if_neg accepted, holds.count, copiedNames, Option.bind_some,
      copiedValues, Option.bind_some, resized, Option.map_some]
    exact ⟨_, rfl, ⟨ownNames, ownValues, rfl, namesSize, valuesSize, holds.strings,
      holds.heap, sound⟩, larger⟩
  · rw [holds.count] at full
    exact ⟨table, rfl, holds, by omega⟩

/-- A value with a new name becomes the last member. -/
theorem Holds.append (holds : Holds table entries (value :: others)) (name : List UInt8) :
    ∃ table' nameAt, table.append name value.1 = some (true, table') ∧
      Holds table' (entries ++ [⟨nameAt, name, value.1, value.2⟩]) others := by
  obtain ⟨grown, made, holds, room⟩ := holds.room
  have namesRoom : (entries.map Entry.nameAt).length < grown.names.length := by
    rwa [List.length_map, holds.namesSize]
  have valuesRoom : (entries.map Entry.valueAt).length < grown.values.length := by
    rwa [List.length_map, holds.valuesSize]
  obtain ⟨names, wroteName, ownNames, namesSize⟩ :=
    holds.names.push namesRoom (grown.strings.allocate name).2
  obtain ⟨values, wroteValue, ownValues, valuesSize⟩ := holds.values.push valuesRoom value.1
  rw [List.length_map, ← holds.count] at wroteName wroteValue
  rw [ObjectTable.append]
  dsimp only
  rw [made, Option.bind_some]
  dsimp only
  rw [if_neg (by simp), wroteName, Option.bind_some, wroteValue, Option.map_some]
  refine ⟨_, (grown.strings.allocate name).2, rfl, ?_, ?_, ?_, ?_, ?_, ?_, ?_, holds.frame⟩
  · simpa using ownNames
  · simpa using ownValues
  · rw [List.length_append, List.length_singleton, ← holds.count]
  · exact namesSize.trans holds.namesSize
  · exact valuesSize.trans holds.valuesSize
  · refine (holds.strings.allocate name).perm ?_
    rw [List.map_append]
    exact (List.perm_append_singleton _ _).symm
  · refine holds.heap.perm ?_
    rw [List.map_append, ← List.append_assoc]
    exact (List.perm_append_singleton _ _).symm

/-- A known name keeps its place and its block; the old value is freed. -/
theorem Holds.set_first (holds : Holds table (front ++ entry :: back) (value :: others))
    (before : ∀ other ∈ front, other.name ≠ entry.name) :
    ∃ table', table.jsonObjectSetValue entry.name value.1 = some (true, table') ∧
      Holds table' (front ++ { entry with valueAt := value.1, value := value.2 } :: back) others := by
  have owned := holds.heap
  rw [List.map_append, List.map_cons] at owned
  have reordered : (value :: others ++ (front.map Entry.ownValue ++
      entry.ownValue :: back.map Entry.ownValue)).Perm
        (entry.ownValue :: (others ++ (front.map Entry.ownValue ++
          value :: back.map Entry.ownValue))) := by
    rw [List.cons_append, ← List.append_assoc, ← List.append_assoc]
    refine (List.perm_middle.cons value).trans ((List.Perm.swap _ _ _).trans (.cons _ ?_))
    exact List.perm_middle.symm
  obtain ⟨heap, freed, ownHeap⟩ := (owned.perm reordered).release
  have index := (indexLoop_heap table heap entry.name 0 table.count).trans
    (holds.indexOf_first before)
  have own := holds.values
  rw [List.map_append, List.map_cons] at own
  obtain ⟨values, wrote, ownValues, valuesSize⟩ := own.write value.1
  rw [List.length_map] at wrote
  rw [jsonObjectSetValue, holds.getn_first before, Option.bind_some]
  dsimp only
  rw [freed, Option.bind_some]
  rw [indexOf, index, Option.bind_some]
  dsimp only
  rw [wrote, Option.map_some]
  refine ⟨_, rfl, ?_, ?_, ?_, holds.namesSize, valuesSize.trans holds.valuesSize, ?_, ?_,
    holds.frame⟩
  · simpa using holds.names
  · simpa using ownValues
  · simpa using holds.count
  · simpa [Entry.ownName] using holds.strings
  · simpa [Entry.ownValue] using ownHeap

/-- A new name is set at the end. -/
theorem Holds.set_absent (holds : Holds table entries (value :: others))
    (absent : ∀ entry ∈ entries, entry.name ≠ name) :
    table.jsonObjectSetValue name value.1 = table.append name value.1 := by
  rw [jsonObjectSetValue, holds.getn_absent absent, Option.bind_some]
  dsimp only
  rw [jsonObjectAddn, holds.getn_absent absent, Option.bind_some]
  rfl

/-- The members that are left when one is removed: the last one takes its place. -/
def closeGap (front back : List (Entry ν)) : List (Entry ν) :=
  front ++ (back.getLast?.toList ++ back.dropLast)

/-- Closing the gap only changes the order. -/
theorem closeGap_perm (front back : List (Entry ν)) : (closeGap front back).Perm (front ++ back) := by
  refine List.Perm.append_left front ?_
  rcases List.eq_nil_or_concat' back with rfl | ⟨middle, last, rfl⟩
  · rfl
  · rw [List.getLast?_concat, List.dropLast_concat]
    exact (List.perm_append_singleton _ _).symm

/-- The slot of the member takes the last pointer. -/
theorem replaceByLast_spec {slots : Slots Address} (address : Entry ν → Address)
    (holds : slots.Holds ((front ++ entry :: back).map address)) :
    ∃ slots', replaceByLast slots front.length ((front ++ entry :: back).length - 1) = some slots' ∧
      slots'.Holds ((closeGap front back).map address) ∧ slots'.length = slots.length := by
  rcases List.eq_nil_or_concat' back with rfl | ⟨middle, last, rfl⟩
  · rw [replaceByLast, if_neg (by simp)]
    refine ⟨slots, rfl, ?_, rfl⟩
    rw [List.map_append] at holds
    simpa [closeGap] using holds.shrink
  · have reordered : (front ++ entry :: (middle ++ [last])).map address =
        (front ++ entry :: middle).map address ++ address last :: [] := by simp
    have position : ((front ++ entry :: middle).map address).length =
        (front ++ entry :: (middle ++ [last])).length - 1 := by simp
    have read := (reordered ▸ holds).read
    rw [position] at read
    rw [replaceByLast, if_pos (by simp), read, Option.bind_some]
    have split : (front ++ entry :: (middle ++ [last])).map address =
        front.map address ++ address entry :: (middle ++ [last]).map address := by simp
    obtain ⟨slots', wrote, own, size⟩ := (split ▸ holds).write (address last)
    rw [List.length_map] at wrote
    refine ⟨slots', wrote, ?_, size⟩
    have whole : front.map address ++ address last :: (middle ++ [last]).map address =
        (closeGap front (middle ++ [last])).map address ++ [address last] := by simp [closeGap]
    rw [whole] at own
    exact own.shrink

/-- A member is removed with its blocks. -/
theorem Holds.remove_first (holds : Holds table (front ++ entry :: back) others)
    (before : ∀ other ∈ front, other.name ≠ entry.name) :
    ∃ table', table.jsonObjectRemoveInternal entry.name true = some (true, table') ∧
      Holds table' (closeGap front back) others := by
  have whole : (front ++ entry :: back).Perm (entry :: closeGap front back) :=
    List.perm_middle.trans ((closeGap_perm front back).symm.cons entry)
  obtain ⟨strings, freedName, ownStrings⟩ := (holds.strings.perm (whole.map Entry.ownName)).release
  obtain ⟨heap, freedValue, ownHeap⟩ := (holds.heap.perm
    (((whole.map Entry.ownValue).append_left others).trans List.perm_middle)).release
  obtain ⟨names, movedNames, ownNames, namesSize⟩ := replaceByLast_spec Entry.nameAt holds.names
  obtain ⟨values, movedValues, ownValues, valuesSize⟩ :=
    replaceByLast_spec Entry.valueAt holds.values
  rw [jsonObjectRemoveInternal, holds.getn_first before, Option.bind_some, if_neg (by simp)]
  dsimp only
  rw [holds.indexOf_first before, Option.bind_some]
  dsimp only
  rw [holds.read_name, Option.bind_some, freedName, Option.bind_some, holds.read_value,
    Option.bind_some, if_pos rfl, freedValue, Option.bind_some, holds.count, movedNames,
    Option.bind_some, movedValues, Option.map_some]
  refine ⟨_, rfl, ownNames, ownValues, ?_, namesSize.trans holds.namesSize,
    valuesSize.trans holds.valuesSize, ownStrings, ownHeap, holds.frame⟩
  have fewer := whole.length_eq
  rw [List.length_cons] at fewer
  dsimp only
  omega

/-- Removing a name that no member has changes nothing. -/
theorem Holds.remove_absent (holds : Holds table entries others)
    (absent : ∀ entry ∈ entries, entry.name ≠ name) (freeValue : Bool) :
    table.jsonObjectRemoveInternal name freeValue = some (false, table) := by
  rw [jsonObjectRemoveInternal, holds.getn_absent absent, Option.bind_some, if_pos rfl]

/-- The members are freed one after the other; the slots stay as they are. -/
theorem freeLoop_spec {table : ObjectTable ν}
    (names : table.names.Holds ((front ++ back).map Entry.nameAt))
    (values : table.values.Holds ((front ++ back).map Entry.valueAt))
    (strings : table.strings.Owns (back.map Entry.ownName))
    (heap : table.heap.Owns (others ++ back.map Entry.ownValue)) :
    ∃ strings' heap', table.freeLoop front.length back.length =
        some { table with strings := strings', heap := heap' } ∧
      strings'.Owns [] ∧ heap'.Owns others := by
  induction back generalizing front table with
  | nil => exact ⟨table.strings, table.heap, rfl, strings, by simpa using heap⟩
  | cons entry back ih =>
      have readName := names
      rw [List.map_append, List.map_cons] at readName
      have readName := readName.read
      have readValue := values
      rw [List.map_append, List.map_cons] at readValue
      have readValue := readValue.read
      rw [List.length_map] at readName readValue
      obtain ⟨strings', freedName, ownStrings⟩ := strings.release
      obtain ⟨heap', freedValue, ownHeap⟩ := (heap.perm List.perm_middle).release
      have moved : front ++ entry :: back = (front ++ [entry]) ++ back := by simp
      rw [moved] at names values
      obtain ⟨strings'', heap'', freed, none, left⟩ :=
        @ih _ { table with strings := strings', heap := heap' } names values ownStrings ownHeap
      rw [List.length_append, List.length_singleton] at freed
      refine ⟨strings'', heap'', ?_, none, left⟩
      rw [List.length_cons, freeLoop, readName, Option.bind_some, freedName, Option.bind_some,
        readValue, Option.bind_some, freedValue, Option.bind_some, freed]

/-- Clearing frees the names and the values of all members. -/
theorem Holds.clear (holds : Holds table entries others) :
    ∃ table', table.jsonObjectClear = some table' ∧ Holds table' [] others := by
  obtain ⟨strings, heap, freed, none, left⟩ :=
    @freeLoop_spec _ [] entries _ _ holds.names holds.values holds.strings holds.heap
  rw [jsonObjectClear, holds.count]
  rw [List.length_nil] at freed
  rw [freed, Option.map_some]
  refine ⟨_, rfl, Slots.holds_nil _, Slots.holds_nil _, rfl, holds.namesSize, holds.valuesSize,
    none, by simpa using left, holds.frame⟩

/-- Nothing is left of an object that is freed. -/
theorem Holds.free (holds : Holds table entries others) :
    ∃ strings heap blocks, table.jsonObjectFree = some (strings, heap, blocks) ∧
      strings.Owns [] ∧ heap.Owns others ∧ blocks.Owns [] := by
  obtain ⟨strings, heap, freed, none, left⟩ :=
    @freeLoop_spec _ [] entries _ _ holds.names holds.values holds.strings holds.heap
  obtain ⟨blocks, freedFrame, noBlock⟩ := holds.frame.free
  rw [jsonObjectFree, holds.count]
  rw [List.length_nil] at freed
  rw [freed, Option.bind_some]
  dsimp only
  rw [freedFrame, Option.map_some]
  exact ⟨strings, heap, blocks, rfl, none, left, noBlock⟩

/-! ## The table and the list of its members -/

/-- A call on the members of an object. -/
def listCall (object : List (Member ν)) : Call ν → Answer ν × List (Member ν)
  | .get name => (.value (Parson.jsonObjectGetnValue object name), object)
  | .count => (.count object.length, object)
  | .add name value =>
      match Parson.jsonObjectAddn object name value with
      | some object => (.status true, object)
      | none => (.status false, object)
  | .set name value =>
      match Parson.jsonObjectSetValue object name value with
      | some object => (.status true, object)
      | none => (.status false, object)
  | .remove name =>
      match Parson.jsonObjectRemoveInternal object name with
      | some object => (.status true, object)
      | none => (.status false, object)
  | .clear => (.status true, [])

/-- The names of entries are those of their members. -/
theorem mem_names_iff : name ∈ (entries.map Entry.member).map Prod.fst ↔
    ∃ entry ∈ entries, entry.name = name := by
  simp [Entry.member]

/-- A name is not among the members exactly if no entry has it. -/
theorem absent_iff : name ∉ (entries.map Entry.member).map Prod.fst ↔
    ∀ entry ∈ entries, entry.name ≠ name := by
  rw [mem_names_iff]
  simp only [not_exists, not_and, ne_eq]

/-- A name is new, or it is found at its first entry. -/
theorem absent_or_first (entries : List (Entry ν)) (name : List UInt8) :
    (∀ entry ∈ entries, entry.name ≠ name) ∨ ∃ front entry back,
      entries = front ++ entry :: back ∧ entry.name = name ∧
        ∀ other ∈ front, other.name ≠ entry.name := by
  rcases Parson.absent_or_first (entries.map Entry.member) name with
    absent | ⟨front, value, back, split, before⟩
  · exact .inl (absent_iff.mp absent)
  · obtain ⟨front, rest, rfl, rfl, tail⟩ := List.map_eq_append_iff.mp split
    obtain ⟨entry, back, rfl, here, rfl⟩ := List.map_eq_cons_iff.mp tail
    obtain ⟨rfl, rfl⟩ := Prod.mk.inj here
    exact .inr ⟨front, entry, back, rfl, rfl, absent_iff.mp before⟩

/-- A value that was just made belongs to no member. -/
theorem Holds.make (holds : Holds table entries []) (content : Value ν) :
    Holds { table with heap := (table.heap.allocate content).1 } entries
      [((table.heap.allocate content).2, content)] :=
  ⟨holds.names, holds.values, holds.count, holds.namesSize, holds.valuesSize, holds.strings,
    holds.heap.allocate content, holds.frame⟩

/-- A value that the object does not take is freed. -/
theorem Holds.discard (holds : Holds table entries [value]) :
    ∃ heap, table.heap.release value.1 = some heap ∧ Holds { table with heap } entries [] := by
  obtain ⟨heap, freed, own⟩ := holds.heap.release
  exact ⟨heap, freed, holds.names, holds.values, holds.count, holds.namesSize, holds.valuesSize,
    holds.strings, own, holds.frame⟩

/-- A call does to the table what it does to the list of its members. -/
def Mirrors (table : ObjectTable ν) (entries : List (Entry ν)) (request : Call ν) : Prop :=
  ∃ table' entries', table.call request =
      some ((listCall (entries.map Entry.member) request).1, table') ∧
    Holds table' entries' [] ∧
    entries'.map Entry.member = (listCall (entries.map Entry.member) request).2

/-- The members around an entry. -/
theorem map_first (front back : List (Entry ν)) (entry : Entry ν) :
    (front ++ entry :: back).map Entry.member =
      front.map Entry.member ++ (entry.name, entry.value) :: back.map Entry.member := by
  rw [List.map_append, List.map_cons, Entry.member]

/-- A lookup answers as the list of members does. -/
theorem Holds.call_get (holds : Holds table entries []) (name : List UInt8) :
    table.Mirrors entries (.get name) := by
  refine ⟨table, entries, ?_, holds, rfl⟩
  rcases absent_or_first entries name with absent | ⟨front, entry, back, rfl, rfl, before⟩
  · rw [ObjectTable.call, holds.getn_absent absent, listCall,
      jsonObjectGetnValue_eq_none_iff.mpr (absent_iff.mpr absent)]
    rfl
  · have content : table.heap.contents entry.valueAt = some entry.value :=
      holds.heap.contents_eq (List.mem_map.mpr ⟨entry, by simp, rfl⟩)
    rw [ObjectTable.call, holds.getn_first before, listCall, map_first,
      jsonObjectGetnValue_first (absent_iff.mpr before), Option.bind_some]
    dsimp only
    rw [content, Option.map_some]

/-- An addition does to the table what it does to the list of members. -/
theorem Holds.call_add (holds : Holds table entries []) (name : List UInt8) (content : Value ν) :
    table.Mirrors entries (.add name content) := by
  have made := holds.make content
  rcases absent_or_first entries name with absent | ⟨front, entry, back, rfl, rfl, before⟩
  · obtain ⟨table', nameAt, appended, after⟩ := made.append name
    have added := jsonObjectAddn_eq_some_iff.mpr
      ⟨absent_iff.mpr absent, Eq.refl (entries.map Entry.member ++ [(name, content)])⟩
    rw [Mirrors, listCall, added, ObjectTable.call, give]
    dsimp only
    rw [jsonObjectAddn, made.getn_absent absent, Option.bind_some, if_neg (by simp), appended]
    exact ⟨table', _, rfl, after, by simp [Entry.member]⟩
  · obtain ⟨heap, freed, after⟩ := made.discard
    have known : Parson.jsonObjectAddn ((front ++ entry :: back).map Entry.member)
        entry.name content = none := by
      rw [map_first, Parson.jsonObjectAddn, jsonObjectGetnValue_first (absent_iff.mpr before)]
      rfl
    rw [Mirrors, listCall, known, ObjectTable.call, give]
    dsimp only
    rw [jsonObjectAddn, made.getn_first before, Option.bind_some, Option.isSome_some, if_pos rfl,
      Option.bind_some]
    dsimp only
    rw [if_neg (by simp), freed, Option.map_some]
    exact ⟨_, _, rfl, after, rfl⟩

/-- Setting a name does to the table what it does to the list of members. -/
theorem Holds.call_set (holds : Holds table entries []) (name : List UInt8) (content : Value ν) :
    table.Mirrors entries (.set name content) := by
  have made := holds.make content
  rcases absent_or_first entries name with absent | ⟨front, entry, back, rfl, rfl, before⟩
  · obtain ⟨table', nameAt, appended, after⟩ := made.append name
    rw [Mirrors, listCall, jsonObjectSetValue_absent (absent_iff.mpr absent), ObjectTable.call, give]
    dsimp only
    rw [made.set_absent absent, appended]
    exact ⟨table', _, rfl, after, by simp [Entry.member]⟩
  · obtain ⟨table', replaced, after⟩ := made.set_first before
    rw [Mirrors, listCall, map_first, jsonObjectSetValue_first (absent_iff.mpr before),
      ObjectTable.call, give]
    dsimp only
    rw [replaced]
    exact ⟨table', _, rfl, after, by simp [Entry.member]⟩

/-- Removing a name does to the table what it does to the list of members. -/
theorem Holds.call_remove (holds : Holds table entries []) (name : List UInt8) :
    table.Mirrors entries (.remove name) := by
  rcases absent_or_first entries name with absent | ⟨front, entry, back, rfl, rfl, before⟩
  · rw [Mirrors, listCall, jsonObjectRemoveInternal_absent (absent_iff.mpr absent),
      ObjectTable.call, holds.remove_absent absent]
    exact ⟨table, entries, rfl, holds, rfl⟩
  · obtain ⟨table', removed, after⟩ := holds.remove_first before
    rw [Mirrors, listCall, map_first, jsonObjectRemoveInternal_first (absent_iff.mpr before),
      ObjectTable.call, removed]
    refine ⟨table', _, rfl, after, ?_⟩
    rcases List.eq_nil_or_concat' back with rfl | ⟨middle, last, rfl⟩
    · simp [closeGap]
    · simp [closeGap, Entry.member]

/-- Every call does to the table what it does to the list of members. -/
theorem Holds.mirrors (holds : Holds table entries []) (request : Call ν) :
    table.Mirrors entries request := by
  cases request with
  | get name => exact holds.call_get name
  | count =>
      refine ⟨table, entries, ?_, holds, rfl⟩
      rw [ObjectTable.call, listCall, holds.count, List.length_map]
  | add name content => exact holds.call_add name content
  | set name content => exact holds.call_set name content
  | remove name => exact holds.call_remove name
  | clear =>
      obtain ⟨table', cleared, after⟩ := holds.clear
      rw [Mirrors, listCall, ObjectTable.call, cleared]
      exact ⟨table', [], rfl, after, rfl⟩

/-! ## The list and the map it stands for -/

/-- A call on a map. -/
noncomputable def mapCall (map : NameMap ν) : Call ν → Answer ν × NameMap ν
  | .get name => (.value (map name), map)
  | .count => (.count {name | map name ≠ none}.ncard, map)
  | .add name value =>
      if map name = none then (.status true, Function.update map name (some value))
      else (.status false, map)
  | .set name value => (.status true, Function.update map name (some value))
  | .remove name => (.status (map name).isSome, Function.update map name none)
  | .clear => (.status true, fun _ => none)

/-- Calls on a map one after the other. -/
noncomputable def mapCalls (map : NameMap ν) : List (Call ν) → List (Answer ν) × NameMap ν
  | [] => ([], map)
  | first :: later =>
      let done := mapCall map first
      let rest := mapCalls done.2 later
      (done.1 :: rest.1, rest.2)

/-- Every call does to the list of members what it does to their map. -/
theorem mapCall_of_isMap {object : List (Member ν)} {map : NameMap ν} (isMap : IsMap object map)
    (request : Call ν) : (listCall object request).1 = (mapCall map request).1 ∧
      IsMap (listCall object request).2 (mapCall map request).2 := by
  cases request with
  | get name => exact ⟨congrArg Answer.value (isMap.getn name), isMap⟩
  | count => exact ⟨congrArg Answer.count isMap.ncard.symm, isMap⟩
  | add name value =>
      rcases Parson.absent_or_first object name with absent | ⟨front, old, back, rfl, before⟩
      · have added := jsonObjectAddn_eq_some_iff.mpr
          ⟨absent, Eq.refl (object ++ [(name, value)])⟩
        rw [listCall, added, mapCall, if_pos (isMap.eq_none_iff.mpr absent)]
        exact ⟨rfl, isMap.push absent value⟩
      · have known : Parson.jsonObjectAddn (front ++ (name, old) :: back) name value = none := by
          rw [Parson.jsonObjectAddn, jsonObjectGetnValue_first before]
          rfl
        rw [listCall, known, mapCall, if_neg (by rw [isMap.eq_none_iff]; simp)]
        exact ⟨rfl, isMap⟩
  | set name value =>
      rcases Parson.absent_or_first object name with absent | ⟨front, old, back, rfl, before⟩
      · rw [listCall, jsonObjectSetValue_absent absent, mapCall]
        exact ⟨rfl, isMap.push absent value⟩
      · rw [listCall, jsonObjectSetValue_first before, mapCall]
        exact ⟨rfl, isMap.replace value⟩
  | remove name =>
      rcases Parson.absent_or_first object name with absent | ⟨front, old, back, rfl, before⟩
      · have missing := isMap.eq_none_iff.mpr absent
        rw [listCall, jsonObjectRemoveInternal_absent absent, mapCall, missing,
          Function.update_eq_self_iff.mpr missing.symm]
        exact ⟨rfl, isMap⟩
      · have present : map name = some old := (isMap.mem_iff name old).mp (by simp)
        rw [listCall, jsonObjectRemoveInternal_first before, mapCall, present]
        refine ⟨rfl, isMap.erase.perm (List.Perm.append_left front ?_)⟩
        rcases List.eq_nil_or_concat' back with rfl | ⟨middle, last, rfl⟩
        · rfl
        · rw [List.getLast?_concat, List.dropLast_concat]
          exact (List.perm_append_singleton _ _).symm
  | clear => exact ⟨rfl, isMap_nil⟩

/-- Calls on an object, one after the other. -/
theorem Holds.calls {map : NameMap ν} (holds : Holds table entries [])
    (isMap : IsMap (entries.map Entry.member) map) (requests : List (Call ν)) :
    ∃ table' entries', table.calls requests = some ((mapCalls map requests).1, table') ∧
      Holds table' entries' [] ∧ IsMap (entries'.map Entry.member) (mapCalls map requests).2 := by
  induction requests generalizing table entries map with
  | nil => exact ⟨table, entries, rfl, holds, isMap⟩
  | cons first later ih =>
      obtain ⟨table₁, entries₁, called, holds₁, members⟩ := holds.mirrors first
      obtain ⟨answer, isMap₁⟩ := mapCall_of_isMap isMap first
      rw [← members] at isMap₁
      obtain ⟨table₂, entries₂, rest, holds₂, isMap₂⟩ := ih holds₁ isMap₁
      refine ⟨table₂, entries₂, ?_, holds₂, isMap₂⟩
      rw [ObjectTable.calls, called, Option.bind_some]
      dsimp only
      rw [rest, Option.map_some, answer]
      rfl

/-- Where nothing is owned, no block is allocated. -/
theorem contents_of_owns_nil {α : Type*} {blocks : Blocks α} (owns : blocks.Owns [])
    (address : Address) : blocks.contents address = none :=
  Option.eq_none_iff_forall_ne_some.mpr fun content found =>
    List.not_mem_nil ((owns.exactly address content).mp found)

end ObjectTable

end CommunicationProtocols.Parson
