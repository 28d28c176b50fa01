import CommunicationProtocols.Parson.Documents

/-!
# Comparing documents

`json_value_equals` compares arrays item by item, and goes over the names of one object
only. As names are used once, equal counts make up for that: two documents compare as
equal exactly if they have the same items in the same order and the same values under
the same names in any order, whichever of the two is given first.
-/

namespace CommunicationProtocols.Parson

open Library Library.Json

variable {ν : Type}

/-! ## The functions of the source -/

/-- Whether the values under a name are equal; two that are missing are of the same type,
`JSONError`. -/
def namedEqual (tests : List (List UInt8 × (Value ν → Bool))) (object : List (Member ν))
    (key : List UInt8) : Bool :=
  match KeyedList.find Prod.fst key tests, jsonObjectGetnValue object key with
  | some test, some value => test.2 value
  | none, none => true
  | _, _ => false

mutual

/-- `json_value_equals`; `close` compares numbers. -/
def jsonValueEquals (close : ν → ν → Bool) : Value ν → Value ν → Bool
  | .array a, .array b => a.length = b.length && itemsEqual close a b
  | .object a, .object b =>
      a.length = b.length && (a.map Prod.fst).all (namedEqual (memberTests close a) b)
  | .string a, .string b => a = b
  | .boolean a, .boolean b => a = b
  | .number a, .number b => close a b
  | .null, .null => true
  | _, _ => false

/-- The loop over the items of two arrays. -/
def itemsEqual (close : ν → ν → Bool) : List (Value ν) → List (Value ν) → Bool
  | a :: items, b :: items' => jsonValueEquals close a b && itemsEqual close items items'
  | _, _ => true

/-- The comparisons with the values of an object, by their names. -/
def memberTests (close : ν → ν → Bool) :
    List (List UInt8 × Value ν) → List (List UInt8 × (Value ν → Bool))
  | [] => []
  | (name, value) :: members => (name, jsonValueEquals close value) :: memberTests close members

end

/-- The loop of `json_value_deep_copy` over the names of an object, with the copies of its
values. -/
def copyNames (copies : List (List UInt8 × Option (Value ν))) :
    List (List UInt8) → List (Member ν) → Option (List (Member ν))
  | [], objectCopy => some objectCopy
  | key :: keys, objectCopy =>
      ((KeyedList.find Prod.fst key copies).bind Prod.snd).bind fun valueCopy =>
        (jsonObjectAddn objectCopy key valueCopy).bind (copyNames copies keys)

mutual

/-- `json_value_deep_copy`. -/
def jsonValueDeepCopy (isNumberInvalid : ν → Bool) : Value ν → Option (Value ν)
  | .array items => (copyItems isNumberInvalid items).map .array
  | .object members =>
      (copyNames (memberCopies isNumberInvalid members) (members.map Prod.fst) []).map .object
  | .boolean value => some (.boolean value)
  | .number n => if isNumberInvalid n then none else some (.number n)
  | .string bytes => some (.string bytes)
  | .null => some .null

/-- The loop over the items of an array. -/
def copyItems (isNumberInvalid : ν → Bool) : List (Value ν) → Option (List (Value ν))
  | [] => some []
  | item :: items =>
      (jsonValueDeepCopy isNumberInvalid item).bind fun itemCopy =>
        (copyItems isNumberInvalid items).map fun rest => itemCopy :: rest

/-- The copies of the values of an object, by their names. -/
def memberCopies (isNumberInvalid : ν → Bool) :
    List (List UInt8 × Value ν) → List (List UInt8 × Option (Value ν))
  | [] => []
  | (name, value) :: members =>
      (name, jsonValueDeepCopy isNumberInvalid value) :: memberCopies isNumberInvalid members

end

/-- The difference that is too large for equal numbers. -/
def epsilon : Option Magnitude := Magnitude.nearest (1 / 1000000)

/-- The rational number of a finite double. -/
def rational (negative : Bool) (x : Magnitude) : ℚ := if negative then -x.value else x.value

/-- `fabs` of the difference is below the bound; a difference that is infinite or not a
number is not. -/
def closeDoubles : Binary64 → Binary64 → Bool
  | .finite negative x, .finite negative' y =>
      let difference := |rational negative x - rational negative' y|
      if difference = 0 then true
      else
        match Magnitude.nearest difference, epsilon with
        | some rounded, some bound => rounded.value < bound.value
        | _, _ => false
  | _, _ => false

/-! ## Equal documents -/

/-- The same document up to the order of members, and to numbers that are close. -/
inductive Same (close : ν → ν → Bool) : Value ν → Value ν → Prop where
  | null : Same close .null .null
  | boolean (value : Bool) : Same close (.boolean value) (.boolean value)
  | number {a b : ν} (near : close a b = true) : Same close (.number a) (.number b)
  | string (bytes : List UInt8) : Same close (.string bytes) (.string bytes)
  | array {a b : List (Value ν)} (count : a.length = b.length)
      (items : ∀ i (hi : i < a.length) (hi' : i < b.length), Same close a[i] b[i]) :
      Same close (.array a) (.array b)
  | object {a b : List (Member ν)}
      (names : ∀ name, name ∈ a.map Prod.fst ↔ name ∈ b.map Prod.fst)
      (members : ∀ name value value', (name, value) ∈ a → (name, value') ∈ b →
        Same close value value') :
      Same close (.object a) (.object b)

variable {close : ν → ν → Bool} {a b : Value ν}

/-- Sameness is symmetric if closeness of numbers is. -/
theorem Same.symm (closeComm : ∀ m n, close m n = close n m) (same : Same close a b) :
    Same close b a := by
  induction same with
  | null => exact .null
  | boolean value => exact .boolean value
  | number near => exact .number (closeComm _ _ ▸ near)
  | string bytes => exact .string bytes
  | array count _ ih => exact .array count.symm fun i hi hi' => ih i hi' hi
  | object names _ ih =>
      exact .object (fun name => (names name).symm) fun name value value' member member' =>
        ih name value' value member' member

/-! ## The loops -/

/-- Lists of one length are equal exactly if their items are, one by one. -/
theorem itemsEqual_iff {items items' : List (Value ν)} (count : items.length = items'.length) :
    itemsEqual close items items' = true ↔
      ∀ i (hi : i < items.length) (hi' : i < items'.length),
        jsonValueEquals close items[i] items'[i] = true := by
  induction items generalizing items' with
  | nil => cases items' <;> simp [itemsEqual]
  | cons first items ih =>
      cases items' with
      | nil => cases count
      | cons first' items' =>
          have later := Nat.succ.inj count
          rw [itemsEqual, Bool.and_eq_true, ih later]
          constructor
          · rintro ⟨here, rest⟩ (_ | i) hi hi'
            · exact here
            · exact rest i (Nat.lt_of_succ_lt_succ hi) (Nat.lt_of_succ_lt_succ hi')
          · intro all
            exact ⟨all 0 (Nat.succ_pos _) (Nat.succ_pos _), fun i hi hi' =>
              all (i + 1) (Nat.succ_lt_succ hi) (Nat.succ_lt_succ hi')⟩

/-- There is one test for each member. -/
theorem memberTests_eq_map (members : List (Member ν)) :
    memberTests close members =
      members.map fun member => (member.1, jsonValueEquals close member.2) := by
  induction members with
  | nil => rfl
  | cons member members ih => rw [memberTests, ih, List.map_cons]

/-- An object with distinct names is the map of its own lookups. -/
theorem isMap_getn {object : List (Member ν)} (distinct : (object.map Prod.fst).Nodup) :
    IsMap object (jsonObjectGetnValue object) := by
  refine ⟨distinct, fun name value => ?_⟩
  rcases absent_or_first object name with absent | ⟨front, first, back, rfl, before⟩
  · rw [jsonObjectGetnValue_eq_none_iff.mpr absent]
    refine iff_of_false (fun member => absent (List.mem_map.mpr ⟨_, member, rfl⟩)) (by simp)
  · have others : name ∉ (front ++ back).map Prod.fst := by
      rw [List.map_append, List.map_cons, List.nodup_middle, List.nodup_cons,
        ← List.map_append] at distinct
      exact distinct.1
    rw [jsonObjectGetnValue_first before, Option.some_inj]
    constructor
    · intro member
      rcases List.mem_cons.mp (List.perm_middle.mem_iff.mp member) with here | other
      · exact (Prod.mk.inj here).2.symm
      · exact absurd (List.mem_map.mpr ⟨_, other, rfl⟩) others
    · rintro rfl
      simp

/-- A name has one value. -/
theorem value_unique {object : List (Member ν)} {name : List UInt8} {value value' : Value ν}
    (distinct : (object.map Prod.fst).Nodup) (member : (name, value) ∈ object)
    (member' : (name, value') ∈ object) : value = value' := by
  have found := ((isMap_getn distinct).mem_iff name value).mp member
  have found' := ((isMap_getn distinct).mem_iff name value').mp member'
  exact Option.some.inj (found.symm.trans found')

/-- What was made of the value under a name is found under this name. -/
theorem find_map_value {β : Type} {made : Value ν → β} {members : List (Member ν)}
    {name : List UInt8} {value : Value ν} (distinct : (members.map Prod.fst).Nodup)
    (member : (name, value) ∈ members) :
    KeyedList.find Prod.fst name (members.map fun member => (member.1, made member.2)) =
      some (name, made value) := by
  have keyed :
      KeyedList.Distinct Prod.fst (members.map fun member => (member.1, made member.2)) := by
    rw [KeyedList.Distinct, List.map_map]
    exact distinct
  exact KeyedList.find_of_mem keyed (List.mem_map.mpr ⟨_, member, rfl⟩)

/-- The test of a name compares the value at it with the one at the same name. -/
theorem namedEqual_iff {members object : List (Member ν)} {name : List UInt8} {value : Value ν}
    (distinct : (members.map Prod.fst).Nodup) (distinct' : (object.map Prod.fst).Nodup)
    (member : (name, value) ∈ members) :
    namedEqual (memberTests close members) object name = true ↔
      ∃ value', (name, value') ∈ object ∧ jsonValueEquals close value value' = true := by
  rw [namedEqual, memberTests_eq_map, find_map_value distinct member]
  simp only [(isMap_getn distinct').mem_iff]
  cases jsonObjectGetnValue object name with
  | none => simp
  | some value' => simp

/-- If the names of one object are among those of another one with as many, they are the same. -/
theorem same_names {members object : List (Member ν)} (distinct : (members.map Prod.fst).Nodup)
    (count : members.length = object.length)
    (among : ∀ name ∈ members.map Prod.fst, name ∈ object.map Prod.fst) :
    ∀ name, name ∈ members.map Prod.fst ↔ name ∈ object.map Prod.fst := by
  have perm := (distinct.subperm among).perm_of_length_le (by simp [count])
  exact fun name => perm.mem_iff

/-- Comparing arrays, if comparing their items decides whether they are the same. -/
theorem arrayEquals_iff {items items' : List (Value ν)}
    (each : ∀ item ∈ items, ∀ item' ∈ items',
      (jsonValueEquals close item item' = true ↔ Same close item item')) :
    jsonValueEquals close (.array items) (.array items') = true ↔
      Same close (.array items) (.array items') := by
  rw [jsonValueEquals, Bool.and_eq_true, decide_eq_true_eq]
  constructor
  · rintro ⟨count, equal⟩
    refine .array count fun i hi hi' => ?_
    exact (each _ (List.getElem_mem hi) _ (List.getElem_mem hi')).mp
      ((itemsEqual_iff count).mp equal i hi hi')
  · intro same
    cases same with
    | array count same =>
        refine ⟨count, (itemsEqual_iff count).mpr fun i hi hi' => ?_⟩
        exact (each _ (List.getElem_mem hi) _ (List.getElem_mem hi')).mpr (same i hi hi')

/-- Comparing objects, if comparing their values decides whether they are the same. -/
theorem objectEquals_iff {members members' : List (Member ν)}
    (distinct : (members.map Prod.fst).Nodup) (distinct' : (members'.map Prod.fst).Nodup)
    (each : ∀ member ∈ members, ∀ member' ∈ members',
      (jsonValueEquals close member.2 member'.2 = true ↔ Same close member.2 member'.2)) :
    jsonValueEquals close (.object members) (.object members') = true ↔
      Same close (.object members) (.object members') := by
  rw [jsonValueEquals, Bool.and_eq_true, decide_eq_true_eq, List.all_eq_true]
  constructor
  · rintro ⟨count, equal⟩
    have found (name : List UInt8) (value : Value ν) (member : (name, value) ∈ members) :=
      (namedEqual_iff distinct distinct' member).mp
        (equal name (List.mem_map.mpr ⟨_, member, rfl⟩))
    refine .object (same_names distinct count fun name inside => ?_)
      fun name value value' member member' => ?_
    · obtain ⟨⟨_, value⟩, member, rfl⟩ := List.mem_map.mp inside
      obtain ⟨value', member', -⟩ := found _ value member
      exact List.mem_map.mpr ⟨_, member', rfl⟩
    · obtain ⟨other, inside, equalOther⟩ := found name value member
      rw [← value_unique distinct' inside member']
      exact (each _ member _ inside).mp equalOther
  · intro same
    cases same with
    | object names same =>
        have perm := (List.perm_ext_iff_of_nodup distinct distinct').mpr names
        refine ⟨by simpa using perm.length_eq, fun name inside => ?_⟩
        obtain ⟨⟨_, value'⟩, member', rfl⟩ := List.mem_map.mp ((names name).mp inside)
        obtain ⟨⟨_, value⟩, member, here⟩ := List.mem_map.mp inside
        dsimp only at here member'
        subst here
        exact (namedEqual_iff distinct distinct' member).mpr ⟨value', member',
          (each _ member _ member').mpr (same _ value value' member member')⟩

/-- `json_value_equals` decides whether two documents are the same. -/
theorem jsonValueEquals_iff (named : a.Everywhere (Value.Named (0 ∉ ·)))
    (named' : b.Everywhere (Value.Named (0 ∉ ·))) :
    jsonValueEquals close a b = true ↔ Same close a b := by
  induction a using Value.induction generalizing b with
  | null =>
      cases b with
      | null => exact iff_of_true rfl .null
      | _ => exact iff_of_false (by simp [jsonValueEquals]) nofun
  | boolean value =>
      cases b with
      | boolean value' =>
          rw [jsonValueEquals, decide_eq_true_eq]
          exact ⟨fun same => same ▸ .boolean value, fun same => by cases same; rfl⟩
      | _ => exact iff_of_false (by simp [jsonValueEquals]) nofun
  | number n =>
      cases b with
      | number n' =>
          rw [jsonValueEquals]
          exact ⟨.number, fun same => by cases same; assumption⟩
      | _ => exact iff_of_false (by simp [jsonValueEquals]) nofun
  | string bytes =>
      cases b with
      | string bytes' =>
          rw [jsonValueEquals, decide_eq_true_eq]
          exact ⟨fun same => same ▸ .string bytes, fun same => by cases same; rfl⟩
      | _ => exact iff_of_false (by simp [jsonValueEquals]) nofun
  | array items ih =>
      cases b with
      | array items' =>
          obtain ⟨-, named⟩ := Value.everywhere_array.mp named
          obtain ⟨-, named'⟩ := Value.everywhere_array.mp named'
          exact arrayEquals_iff fun item member item' member' =>
            ih item member (named item member) (named' item' member')
      | _ => exact iff_of_false (by simp [jsonValueEquals]) nofun
  | object members ih =>
      cases b with
      | object members' =>
          obtain ⟨⟨distinct, -⟩, named⟩ := Value.everywhere_object.mp named
          obtain ⟨⟨distinct', -⟩, named'⟩ := Value.everywhere_object.mp named'
          exact objectEquals_iff distinct distinct' fun member inside member' inside' =>
            ih member inside (named member inside) (named' member' inside')
      | _ => exact iff_of_false (by simp [jsonValueEquals]) nofun

/-! ## Copies -/

/-- There is one copy for each member. -/
theorem memberCopies_eq_map {isNumberInvalid : ν → Bool} (members : List (Member ν)) :
    memberCopies isNumberInvalid members =
      members.map fun member => (member.1, jsonValueDeepCopy isNumberInvalid member.2) := by
  induction members with
  | nil => rfl
  | cons member members ih => rw [memberCopies, ih, List.map_cons]

/-- If each member has its copy, the copies are added in the order of the names. -/
theorem copyNames_eq {copies : List (List UInt8 × Option (Value ν))}
    {members : List (Member ν)} (done : List (Member ν))
    (distinct : ((done ++ members).map Prod.fst).Nodup)
    (own : ∀ member ∈ members,
      (KeyedList.find Prod.fst member.1 copies).bind Prod.snd = some member.2) :
    copyNames copies (members.map Prod.fst) done = some (done ++ members) := by
  induction members generalizing done with
  | nil => rw [List.append_nil, List.map_nil, copyNames]
  | cons member members ih =>
      obtain ⟨here, later⟩ := List.forall_mem_cons.mp own
      have absent : member.1 ∉ done.map Prod.fst := by
        rw [List.map_append, List.map_cons, List.nodup_middle, List.nodup_cons, List.mem_append,
          not_or] at distinct
        exact distinct.1.1
      have added := jsonObjectAddn_eq_some_iff.mpr
        ⟨absent, Eq.refl (done ++ [(member.1, member.2)])⟩
      have moved : done ++ member :: members = (done ++ [member]) ++ members := by simp
      rw [List.map_cons, copyNames, here, Option.bind_some, added, Option.bind_some, moved]
      exact ih _ (moved ▸ distinct) later

/-- If each item is copied as it is, so is the list. -/
theorem copyItems_eq {isNumberInvalid : ν → Bool} {items : List (Value ν)}
    (each : ∀ item ∈ items, jsonValueDeepCopy isNumberInvalid item = some item) :
    copyItems isNumberInvalid items = some items := by
  induction items with
  | nil => rfl
  | cons item items ih =>
      obtain ⟨here, later⟩ := List.forall_mem_cons.mp each
      rw [copyItems, here, Option.bind_some, ih later, Option.map_some]

/-- The copy of a document whose numbers are valid is the document. -/
theorem jsonValueDeepCopy_eq {isNumberInvalid : ν → Bool}
    (named : a.Everywhere (Value.Named (0 ∉ ·)))
    (valid : a.Everywhere (Value.NumberIs fun n => isNumberInvalid n = false)) :
    jsonValueDeepCopy isNumberInvalid a = some a := by
  induction a using Value.induction with
  | null | boolean | string => rfl
  | number n =>
      have numberValid : isNumberInvalid n = false := valid.self
      rw [jsonValueDeepCopy, numberValid, if_neg Bool.false_ne_true]
  | array items ih =>
      obtain ⟨-, named⟩ := Value.everywhere_array.mp named
      obtain ⟨-, valid⟩ := Value.everywhere_array.mp valid
      have copied := copyItems_eq fun item member =>
        ih item member (named item member) (valid item member)
      rw [jsonValueDeepCopy, copied, Option.map_some]
  | object members ih =>
      obtain ⟨⟨distinct, -⟩, named⟩ := Value.everywhere_object.mp named
      obtain ⟨-, valid⟩ := Value.everywhere_object.mp valid
      have own (member : Member ν) (inside : member ∈ members) :
          (KeyedList.find Prod.fst member.1 (memberCopies isNumberInvalid members)).bind Prod.snd =
            some member.2 := by
        rw [memberCopies_eq_map, find_map_value distinct inside]
        exact ih member inside (named member inside) (valid member inside)
      have copied := copyNames_eq [] distinct own
      rw [jsonValueDeepCopy, copied]
      rfl

/-! ## Documents with doubles -/

/-- The tolerance does not depend on which number comes first. -/
theorem closeDoubles_comm (m n : Binary64) : closeDoubles m n = closeDoubles n m := by
  cases m with
  | finite negative x =>
      cases n with
      | finite negative' y => simp only [closeDoubles, abs_sub_comm]
      | infinite | nan => rfl
  | infinite | nan => cases n <;> rfl

/-- A finite number is within the tolerance of itself. -/
theorem closeDoubles_self {n : Binary64} (finite : Finite n) : closeDoubles n n = true := by
  cases n with
  | finite negative x => simp [closeDoubles]
  | infinite | nan => exact finite.elim

/-- A document is the same as itself. -/
theorem same_self {value : Value Binary64} (named : value.Everywhere (Value.Named (0 ∉ ·)))
    (finite : value.Everywhere (Value.NumberIs Finite)) : Same closeDoubles value value := by
  induction value using Value.induction with
  | null => exact .null
  | boolean value => exact .boolean value
  | string bytes => exact .string bytes
  | number n => exact .number (closeDoubles_self finite.self)
  | array items ih =>
      obtain ⟨-, named⟩ := Value.everywhere_array.mp named
      obtain ⟨-, finite⟩ := Value.everywhere_array.mp finite
      refine .array rfl fun i hi _ => ?_
      have member := List.getElem_mem hi
      exact ih _ member (named _ member) (finite _ member)
  | object members ih =>
      obtain ⟨⟨distinct, -⟩, named⟩ := Value.everywhere_object.mp named
      obtain ⟨-, finite⟩ := Value.everywhere_object.mp finite
      refine .object (fun _ => .rfl) fun name value value' member member' => ?_
      rw [← value_unique distinct member member']
      exact ih _ member (named _ member) (finite _ member)

/-- On documents `json_value_equals` decides whether they are the same up to the order of
members and to numbers that are close; the order of the arguments does not matter, and
`json_value_deep_copy` gives a document that is equal. -/
theorem documents_compared {a b : Value Binary64} (document : Document a) (document' : Document b) :
    (jsonValueEquals closeDoubles a b = true ↔ Same closeDoubles a b) ∧
      jsonValueEquals closeDoubles a b = jsonValueEquals closeDoubles b a ∧
      ∃ copy, jsonValueDeepCopy doubles.isNumberInvalid a = some copy ∧
        jsonValueEquals closeDoubles a copy = true := by
  have decides := @jsonValueEquals_iff _ closeDoubles _ _ document.named document'.named
  have decides' := @jsonValueEquals_iff _ closeDoubles _ _ document'.named document.named
  refine ⟨decides, ?_, a, ?_, ?_⟩
  · rw [Bool.eq_iff_iff, decides, decides']
    exact ⟨Same.symm closeDoubles_comm, Same.symm closeDoubles_comm⟩
  · refine jsonValueDeepCopy_eq document.named (document.finite.mono fun part => ?_)
    cases part with
    | number n =>
        intro finite
        cases n with
        | finite => rfl
        | infinite | nan => exact finite.elim
    | _ => exact id
  · exact (jsonValueEquals_iff document.named document.named).mpr
      (same_self document.named document.finite)

/-- Two members in the one order or the other. -/
def sampleObject (swapped : Bool) : Value Binary64 :=
  if swapped then .object [(ascii "b", .boolean true), (ascii "a", .null)]
  else .object [(ascii "a", .null), (ascii "b", .boolean true)]

/-- Both objects are documents. -/
theorem sampleObject_document (swapped : Bool) : Document (sampleObject swapped) := by
  have names : ascii "a" ≠ ascii "b" ∧ 0 ∉ ascii "a" ∧ 0 ∉ ascii "b" := by decide
  constructor
  · cases swapped <;> simp [sampleObject, Value.Named, names, names.1.symm]
  · cases swapped <;> simp [sampleObject, Value.NumberIs]
  · cases swapped <;> decide

theorem documents_compared_sample :
    (jsonValueEquals closeDoubles (sampleObject false) (sampleObject true) = true ↔
        Same closeDoubles (sampleObject false) (sampleObject true)) ∧
      jsonValueEquals closeDoubles (sampleObject false) (sampleObject true) =
        jsonValueEquals closeDoubles (sampleObject true) (sampleObject false) ∧
      ∃ copy, jsonValueDeepCopy doubles.isNumberInvalid (sampleObject false) = some copy ∧
        jsonValueEquals closeDoubles (sampleObject false) copy = true :=
  documents_compared (sampleObject_document false) (sampleObject_document true)

end CommunicationProtocols.Parson
