import CommunicationProtocols.Library.Json
import CommunicationProtocols.Library.KeyedList
import Mathlib.Data.Set.Card

/-!
# Objects

An object is kept as an array of names and an array of values, searched from the
front. A name that is set again keeps its place, and a name that is removed is
replaced by the last one. Here both arrays are one list of members, in the order of
the arrays; names are C strings, given without their NUL.
-/

namespace CommunicationProtocols.Parson

open Library Library.Json

universe u

variable {ν : Type u}

/-- `json_object_getn_value`. -/
def jsonObjectGetnValue (object : List (Member ν)) (name : List UInt8) : Option (Value ν) :=
  (KeyedList.find Prod.fst name object).map Prod.snd

/-- `json_object_addn`. -/
def jsonObjectAddn (object : List (Member ν)) (name : List UInt8) (value : Value ν) :
    Option (List (Member ν)) :=
  if (jsonObjectGetnValue object name).isSome then none else some (object ++ [(name, value)])

/-- The loop of `json_object_set_value` over the names: the value of the first one
that is equal. -/
def setLoop (name : List UInt8) (value : Value ν) : List (Member ν) → List (Member ν)
  | [] => []
  | member :: rest =>
      if member.1 = name then (member.1, value) :: rest else member :: setLoop name value rest

/-- `json_object_set_value`, for a value that has no parent. -/
def jsonObjectSetValue (object : List (Member ν)) (name : List UInt8) (value : Value ν) :
    Option (List (Member ν)) :=
  if (jsonObjectGetnValue object name).isSome then some (setLoop name value object)
  else jsonObjectAddn object name value

/-- `json_object_remove_internal`: the last member takes the place of the one that is removed. -/
def jsonObjectRemoveInternal (object : List (Member ν)) (name : List UInt8) :
    Option (List (Member ν)) :=
  if (jsonObjectGetnValue object name).isNone then none
  else
    let lastItemIndex := object.length - 1
    match object.findIdx? (fun member => member.1 = name), object.getLast? with
    | some i, some last =>
        some ((if i ≠ lastItemIndex then object.set i last else object).take lastItemIndex)
    | _, _ => none

/-! ## An object as a finite map -/

variable {object object' : List (Member ν)} {name other : List UInt8} {value : Value ν}

/-- There is no value exactly if no member has the name. -/
theorem jsonObjectGetnValue_eq_none_iff :
    jsonObjectGetnValue object name = none ↔ name ∉ object.map Prod.fst := by
  rw [jsonObjectGetnValue, Option.map_eq_none_iff, KeyedList.find_eq_none_iff, List.mem_map]
  constructor
  · rintro others ⟨member, inside, rfl⟩
    exact others member inside rfl
  · intro absent member inside same
    exact absent ⟨member, inside, same⟩

/-- A member is added exactly if its name is new. -/
theorem jsonObjectAddn_eq_some_iff :
    jsonObjectAddn object name value = some object' ↔
      name ∉ object.map Prod.fst ∧ object' = object ++ [(name, value)] := by
  rw [← jsonObjectGetnValue_eq_none_iff, jsonObjectAddn]
  cases jsonObjectGetnValue object name with
  | none => simp [eq_comm]
  | some => simp

/-- A name is new, or there is a first member with it. -/
theorem absent_or_first (object : List (Member ν)) (name : List UInt8) :
    name ∉ object.map Prod.fst ∨ ∃ front value back,
      object = front ++ (name, value) :: back ∧ name ∉ front.map Prod.fst := by
  induction object with
  | nil => exact .inl List.not_mem_nil
  | cons member object ih =>
      rcases eq_or_ne member.1 name with rfl | differs
      · exact .inr ⟨[], member.2, object, rfl, List.not_mem_nil⟩
      · have other : ∀ {names : List (List UInt8)}, name ∈ member.1 :: names ↔ name ∈ names :=
          fun {names} => by rw [List.mem_cons, or_iff_right differs.symm]
        rcases ih with absent | ⟨front, value, back, rfl, before⟩
        · exact .inl (mt other.mp absent)
        · exact .inr ⟨member :: front, value, back, rfl, mt other.mp before⟩

section First

variable {front back : List (Member ν)} {old : Value ν}

/-- The value is that of the first member with the name. -/
theorem jsonObjectGetnValue_first (before : name ∉ front.map Prod.fst) :
    jsonObjectGetnValue (front ++ (name, value) :: back) name = some value := by
  induction front with
  | nil => simp [jsonObjectGetnValue, KeyedList.find]
  | cons member front ih =>
      obtain ⟨differs, before⟩ := not_or.mp (mt List.mem_cons.mpr before)
      have step : jsonObjectGetnValue (member :: front ++ (name, value) :: back) name =
          jsonObjectGetnValue (front ++ (name, value) :: back) name := by
        rw [jsonObjectGetnValue, List.cons_append, KeyedList.find, if_neg (Ne.symm differs)]
        rfl
      rw [step, ih before]

/-- The value of the first member with the name is replaced. -/
theorem jsonObjectSetValue_first (before : name ∉ front.map Prod.fst) :
    jsonObjectSetValue (front ++ (name, old) :: back) name value =
      some (front ++ (name, value) :: back) := by
  have replaced : setLoop name value (front ++ (name, old) :: back) =
      front ++ (name, value) :: back := by
    induction front with
    | nil => simp [setLoop]
    | cons member front ih =>
        obtain ⟨differs, before⟩ := not_or.mp (mt List.mem_cons.mpr before)
        rw [List.cons_append, setLoop, if_neg (Ne.symm differs), ih before, List.cons_append]
  rw [jsonObjectSetValue, jsonObjectGetnValue_first before, Option.isSome_some, if_pos rfl, replaced]

/-- A new name is added at the end. -/
theorem jsonObjectSetValue_absent (absent : name ∉ object.map Prod.fst) :
    jsonObjectSetValue object name value = some (object ++ [(name, value)]) := by
  rw [jsonObjectSetValue, jsonObjectGetnValue_eq_none_iff.mpr absent, if_neg (by simp),
    jsonObjectAddn_eq_some_iff]
  exact ⟨absent, rfl⟩

/-- The last member moves to the place of the one that is removed. -/
theorem jsonObjectRemoveInternal_first (before : name ∉ front.map Prod.fst) :
    jsonObjectRemoveInternal (front ++ (name, old) :: back) name =
      some (front ++ (back.getLast?.toList ++ back.dropLast)) := by
  have index : (front ++ (name, old) :: back).findIdx? (fun member => member.1 = name) =
      some front.length := by
    rw [List.findIdx?_append, List.findIdx?_eq_none_iff.mpr, List.findIdx?_cons]
    · simp
    · intro member inside
      have differs : member.1 ≠ name := fun same => before (List.mem_map.mpr ⟨member, inside, same⟩)
      simpa using differs
  rw [jsonObjectRemoveInternal, jsonObjectGetnValue_first before, if_neg (by simp), index]
  rcases List.eq_nil_or_concat' back with rfl | ⟨middle, last, rfl⟩
  · simp
  · have reordered : front ++ (name, old) :: (middle ++ [last]) =
        (front ++ (name, old) :: middle) ++ [last] := by simp
    have replaced : (front ++ (name, old) :: (middle ++ [last])).set front.length last =
        (front ++ last :: middle) ++ [last] := by simp
    have lastItemIndex : (front ++ (name, old) :: (middle ++ [last])).length - 1 =
        (front ++ last :: middle).length := by simp
    have isLast : (front ++ (name, old) :: (middle ++ [last])).getLast? = some last := by
      rw [reordered, List.getLast?_concat]
    rw [lastItemIndex, isLast]
    dsimp only
    rw [if_pos (by simp), replaced, List.take_left]
    simp

/-- A name that is not there cannot be removed. -/
theorem jsonObjectRemoveInternal_absent (absent : name ∉ object.map Prod.fst) :
    jsonObjectRemoveInternal object name = none := by
  rw [jsonObjectRemoveInternal, jsonObjectGetnValue_eq_none_iff.mpr absent, Option.isNone_none, if_pos rfl]

end First

/-- What an object is for: values under names. -/
abbrev NameMap (ν : Type u) := List UInt8 → Option (Value ν)

/-- The members of an object are those of a map. -/
structure IsMap (object : List (Member ν)) (map : NameMap ν) : Prop where
  distinct : (object.map Prod.fst).Nodup
  mem_iff : ∀ name value, (name, value) ∈ object ↔ map name = some value

section IsMap

variable {map : NameMap ν} {front back : List (Member ν)} {old : Value ν}

/-- An object without members is the empty map. -/
theorem isMap_nil : IsMap ([] : List (Member ν)) fun _ => none :=
  ⟨List.nodup_nil, by simp⟩

/-- The order of members does not matter to the map. -/
theorem IsMap.perm (isMap : IsMap object map) (same : object'.Perm object) : IsMap object' map :=
  ⟨(same.map Prod.fst).nodup_iff.mpr isMap.distinct, fun name value => by
    rw [same.mem_iff, isMap.mem_iff]⟩

/-- The map has no value exactly for the names no member has. -/
theorem IsMap.eq_none_iff (isMap : IsMap object map) :
    map name = none ↔ name ∉ object.map Prod.fst := by
  rw [Option.eq_none_iff_forall_ne_some]
  constructor
  · intro missing inside
    obtain ⟨⟨_, value⟩, member, rfl⟩ := List.mem_map.mp inside
    exact missing value ((isMap.mem_iff _ value).mp member)
  · intro absent value found
    exact absent (List.mem_map.mpr ⟨_, (isMap.mem_iff name value).mpr found, rfl⟩)

/-- `json_object_getn_value` looks a name up. -/
theorem IsMap.getn (isMap : IsMap object map) (name : List UInt8) :
    jsonObjectGetnValue object name = map name := by
  rcases absent_or_first object name with absent | ⟨front, value, back, rfl, before⟩
  · rw [jsonObjectGetnValue_eq_none_iff.mpr absent, isMap.eq_none_iff.mpr absent]
  · rw [jsonObjectGetnValue_first before, (isMap.mem_iff name value).mp (by simp)]

/-- `json_object_get_count` counts the names. -/
theorem IsMap.ncard (isMap : IsMap object map) :
    {name | map name ≠ none}.ncard = object.length := by
  have names : {name | map name ≠ none} = ↑(object.map Prod.fst).toFinset := by
    ext name
    rw [Set.mem_ofPred_eq, ne_eq, isMap.eq_none_iff, not_not, List.coe_toFinset, Set.mem_ofPred_eq]
  rw [names, Set.ncard_coe_finset, List.toFinset_card_of_nodup isMap.distinct, List.length_map]

/-- The other names are not concerned. -/
theorem IsMap.erase (isMap : IsMap (front ++ (name, old) :: back) map) :
    IsMap (front ++ back) (Function.update map name none) := by
  have distinct := isMap.distinct
  rw [List.map_append, List.map_cons, List.nodup_middle, List.nodup_cons, ← List.map_append]
    at distinct
  refine ⟨distinct.2, fun other value => ?_⟩
  rcases eq_or_ne other name with rfl | differs
  · rw [Function.update_self]
    refine iff_of_false (fun member => distinct.1 ?_) (by simp)
    exact List.mem_map.mpr ⟨_, member, rfl⟩
  · rw [Function.update_of_ne differs, ← isMap.mem_iff]
    simp [differs]

/-- A member with a new name updates the map. -/
theorem IsMap.push (isMap : IsMap object map) (absent : name ∉ object.map Prod.fst)
    (value : Value ν) :
    IsMap (object ++ [(name, value)]) (Function.update map name (some value)) := by
  refine ⟨?_, fun other found => ?_⟩
  · rw [List.map_append, List.map_singleton, ← List.concat_eq_append]
    exact isMap.distinct.concat absent
  · rcases eq_or_ne other name with rfl | differs
    · have unknown : (other, found) ∉ object := fun member =>
        absent (List.mem_map.mpr ⟨_, member, rfl⟩)
      simp [unknown, eq_comm]
    · rw [Function.update_of_ne differs, ← isMap.mem_iff]
      simp [differs]

/-- A new value of a member updates the map. -/
theorem IsMap.replace (isMap : IsMap (front ++ (name, old) :: back) map) (value : Value ν) :
    IsMap (front ++ (name, value) :: back) (Function.update map name (some value)) := by
  have absent : name ∉ (front ++ back).map Prod.fst := by
    have distinct := isMap.distinct
    rw [List.map_append, List.map_cons, List.nodup_middle, List.nodup_cons, ← List.map_append]
      at distinct
    exact distinct.1
  have pushed := isMap.erase.push absent value
  rw [Function.update_idem] at pushed
  refine pushed.perm (List.perm_middle.trans ?_)
  exact (List.perm_append_singleton _ _).symm

end IsMap

end CommunicationProtocols.Parson
