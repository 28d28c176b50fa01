import CommunicationProtocols.Parson.Equality

/-!
# Documents against a schema

`json_validate` takes a document as the schema of others: `null` stands for every value, the
first item of an array for all items, and the members of an object for members of the same
names among any others. What it decides does not depend on the order of members, so documents
that compare as equal are valid together.
-/

namespace CommunicationProtocols.Parson

open Library Library.Json

variable {ν : Type}

/-! ## The function of the source -/

/-- Whether the value under a name passes the test of the schema for it; a value that is
missing does not. -/
def namedValid (tests : List (List UInt8 × (Value ν → Bool))) (object : List (Member ν))
    (key : List UInt8) : Bool :=
  ((KeyedList.find Prod.fst key tests).bind fun test =>
    (jsonObjectGetnValue object key).map test.2).getD false

mutual

/-- `json_validate`, for a schema and a value that are not `NULL`. -/
def jsonValidate : Value ν → Value ν → Bool
  | .null, _ => true
  | .array schema, .array value => itemsValid schema value
  | .object schema, .object value =>
      if schema.length = 0 then true
      else if value.length < schema.length then false
      else (schema.map Prod.fst).all (namedValid (memberSchemas schema) value)
  | .string _, .string _ => true
  | .number _, .number _ => true
  | .boolean _, .boolean _ => true
  | _, _ => false

/-- The loop over the items of an array; only the first item of the schema counts. -/
def itemsValid : List (Value ν) → List (Value ν) → Bool
  | [], _ => true
  | first :: _, value => value.all (jsonValidate first)

/-- The tests of the members of a schema, by their names. -/
def memberSchemas :
    List (List UInt8 × Value ν) → List (List UInt8 × (Value ν → Bool))
  | [] => []
  | (name, schema) :: members => (name, jsonValidate schema) :: memberSchemas members

end

/-! ## Valid documents -/

/-- A value is of the kind that a schema describes. -/
inductive Conforms : Value ν → Value ν → Prop where
  | any (value : Value ν) : Conforms .null value
  | boolean (sample value : Bool) : Conforms (.boolean sample) (.boolean value)
  | number (sample value : ν) : Conforms (.number sample) (.number value)
  | string (sample value : List UInt8) : Conforms (.string sample) (.string value)
  | array {schema items : List (Value ν)}
      (each : ∀ first ∈ schema.head?, ∀ item ∈ items, Conforms first item) :
      Conforms (.array schema) (.array items)
  | object {schema members : List (Member ν)}
      (names : ∀ name ∈ schema.map Prod.fst, name ∈ members.map Prod.fst)
      (each : ∀ name sub value, (name, sub) ∈ schema → (name, value) ∈ members →
        Conforms sub value) :
      Conforms (.object schema) (.object members)

variable {schema value : Value ν}

/-- What is the same as a valid value is valid. -/
theorem Conforms.same {close : ν → ν → Bool} {other : Value ν} (conforms : Conforms schema value)
    (same : Same close value other) : Conforms schema other := by
  induction conforms generalizing other with
  | any => exact .any other
  | boolean sample =>
      cases same
      exact .boolean sample _
  | number sample =>
      cases same
      exact .number sample _
  | string sample =>
      cases same
      exact .string sample _
  | array each ih =>
      cases same with
      | array count same =>
          refine .array fun first isFirst item member => ?_
          obtain ⟨i, bound, rfl⟩ := List.mem_iff_getElem.mp member
          exact ih first isFirst _ (List.getElem_mem _) (same i (count ▸ bound) bound)
  | object names _ ih =>
      cases same with
      | object sameNames same =>
          refine .object (fun name inside => (sameNames name).mp (names name inside))
            fun name sub value inside member => ?_
          have named := names name (List.mem_map.mpr ⟨_, inside, rfl⟩)
          obtain ⟨⟨_, before⟩, original, rfl⟩ := List.mem_map.mp named
          exact ih _ sub before inside original (same _ before value original member)

/-! ## The loops -/

/-- There is one test for each member of the schema. -/
theorem memberSchemas_eq_map (members : List (Member ν)) :
    memberSchemas members = members.map fun member => (member.1, jsonValidate member.2) := by
  induction members with
  | nil => rfl
  | cons member members ih => rw [memberSchemas, ih, List.map_cons]

/-- A name of the schema is satisfied exactly by a member with that name and a valid value. -/
theorem namedValid_iff {members object : List (Member ν)} {name : List UInt8} {sub : Value ν}
    (distinct : (members.map Prod.fst).Nodup) (distinct' : (object.map Prod.fst).Nodup)
    (member : (name, sub) ∈ members) :
    namedValid (memberSchemas members) object name = true ↔
      ∃ value, (name, value) ∈ object ∧ jsonValidate sub value = true := by
  rw [namedValid, memberSchemas_eq_map, find_map_value distinct member, Option.bind_some]
  simp only [(isMap_getn distinct').mem_iff]
  cases jsonObjectGetnValue object name with
  | none => simp
  | some value => simp

/-- The test of the counts forbids nothing that the names allow. -/
theorem length_le_of_names {members object : List (Member ν)}
    (distinct : (members.map Prod.fst).Nodup)
    (names : ∀ name ∈ members.map Prod.fst, name ∈ object.map Prod.fst) :
    members.length ≤ object.length := by
  have short := (distinct.subperm names).length_le
  rwa [List.length_map, List.length_map] at short

/-- Validating an object, if validating its values decides whether they conform. -/
theorem objectValid_iff {members object : List (Member ν)}
    (distinct : (members.map Prod.fst).Nodup) (distinct' : (object.map Prod.fst).Nodup)
    (each : ∀ member ∈ members, ∀ member' ∈ object,
      (jsonValidate member.2 member'.2 = true ↔ Conforms member.2 member'.2)) :
    jsonValidate (.object members) (.object object) = true ↔
      Conforms (.object members) (.object object) := by
  have loop : (members.map Prod.fst).all (namedValid (memberSchemas members) object) = true ↔
      Conforms (.object members) (.object object) := by
    rw [List.all_eq_true]
    constructor
    · intro valid
      have found (name : List UInt8) (sub : Value ν) (member : (name, sub) ∈ members) :=
        (namedValid_iff distinct distinct' member).mp
          (valid name (List.mem_map.mpr ⟨_, member, rfl⟩))
      refine .object (fun name inside => ?_) fun name sub value member member' => ?_
      · obtain ⟨⟨_, sub⟩, member, rfl⟩ := List.mem_map.mp inside
        obtain ⟨value, member', -⟩ := found _ sub member
        exact List.mem_map.mpr ⟨_, member', rfl⟩
      · obtain ⟨other, inside, valid⟩ := found name sub member
        rw [← value_unique distinct' inside member']
        exact (each _ member _ inside).mp valid
    · intro conforms name inside
      cases conforms with
      | object names conforms =>
          obtain ⟨⟨_, value⟩, member', here⟩ := List.mem_map.mp (names name inside)
          obtain ⟨⟨_, sub⟩, member, rfl⟩ := List.mem_map.mp inside
          dsimp only at here
          subst here
          exact (namedValid_iff distinct distinct' member).mpr ⟨value, member',
            (each _ member _ member').mpr (conforms _ sub value member member')⟩
  rw [jsonValidate]
  split_ifs with empty fewer
  · obtain rfl := List.eq_nil_of_length_eq_zero empty
    exact iff_of_true rfl (.object (by simp) (by simp))
  · refine iff_of_false not_false fun conforms => ?_
    cases conforms with
    | object names => exact absurd (length_le_of_names distinct names) (by omega)
  · exact loop

/-- `json_validate` decides whether a value conforms to a schema. -/
theorem jsonValidate_iff (named : schema.Everywhere (Value.Named (0 ∉ ·)))
    (named' : value.Everywhere (Value.Named (0 ∉ ·))) :
    jsonValidate schema value = true ↔ Conforms schema value := by
  induction schema using Value.induction generalizing value with
  | null => exact iff_of_true (by rw [jsonValidate]) (.any value)
  | boolean sample =>
      cases value with
      | boolean value => exact iff_of_true rfl (.boolean sample value)
      | _ => exact iff_of_false (by simp [jsonValidate]) nofun
  | number sample =>
      cases value with
      | number value => exact iff_of_true rfl (.number sample value)
      | _ => exact iff_of_false (by simp [jsonValidate]) nofun
  | string sample =>
      cases value with
      | string value => exact iff_of_true rfl (.string sample value)
      | _ => exact iff_of_false (by simp [jsonValidate]) nofun
  | array schema ih =>
      cases value with
      | array items =>
          obtain ⟨-, named⟩ := Value.everywhere_array.mp named
          obtain ⟨-, named'⟩ := Value.everywhere_array.mp named'
          cases schema with
          | nil => exact iff_of_true (by rw [jsonValidate, itemsValid]) (.array nofun)
          | cons first others =>
              have here (item : Value ν) (member : item ∈ items) :=
                ih first List.mem_cons_self (named first List.mem_cons_self) (named' item member)
              rw [jsonValidate, itemsValid, List.all_eq_true]
              constructor
              · intro valid
                refine .array fun sample isFirst item member => ?_
                cases isFirst
                exact (here item member).mp (valid item member)
              · intro conforms item member
                cases conforms with
                | array each => exact (here item member).mpr (each first rfl item member)
      | _ => exact iff_of_false (by simp [jsonValidate]) nofun
  | object members ih =>
      cases value with
      | object object =>
          obtain ⟨⟨distinct, -⟩, named⟩ := Value.everywhere_object.mp named
          obtain ⟨⟨distinct', -⟩, named'⟩ := Value.everywhere_object.mp named'
          exact objectValid_iff distinct distinct' fun member inside member' inside' =>
            ih member inside (named member inside) (named' member' inside')
      | _ => exact iff_of_false (by simp [jsonValidate]) nofun

/-- On documents `json_validate` decides whether a value conforms to a schema, and two values
that compare as equal conform to the same schemas. -/
theorem documents_validated {schema a b : Value Binary64} (isSchema : Document schema)
    (document : Document a) (document' : Document b) :
    (jsonValidate schema a = true ↔ Conforms schema a) ∧
      (jsonValueEquals closeDoubles a b = true →
        jsonValidate schema a = jsonValidate schema b) := by
  have decides := jsonValidate_iff isSchema.named document.named
  have decides' := jsonValidate_iff isSchema.named document'.named
  refine ⟨decides, fun equal => ?_⟩
  have same := (jsonValueEquals_iff document.named document'.named).mp equal
  rw [Bool.eq_iff_iff, decides, decides']
  exact ⟨fun conforms => conforms.same same,
    fun conforms => conforms.same (same.symm closeDoubles_comm)⟩

/-- A member for each of the two, of any value and of a boolean. -/
theorem documents_validated_sample :
    (jsonValidate (sampleObject false) (sampleObject true) = true ↔
        Conforms (sampleObject false) (sampleObject true)) ∧
      (jsonValueEquals closeDoubles (sampleObject true) (sampleObject false) = true →
        jsonValidate (sampleObject false) (sampleObject true) =
          jsonValidate (sampleObject false) (sampleObject false)) :=
  documents_validated (sampleObject_document false) (sampleObject_document true)
    (sampleObject_document false)

end CommunicationProtocols.Parson
