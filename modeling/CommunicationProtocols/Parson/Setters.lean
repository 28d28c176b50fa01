import CommunicationProtocols.Parson.Documents

/-!
# Making values and reading them

The setters of an object make a value first, and set nothing if there is none: a string
has to be in UTF-8, a number finite. A string is read as a C string, which ends at its
first NUL.
-/

namespace CommunicationProtocols.Parson

open Library Library.Json

universe u

variable {ν : Type u}

/-! ## The functions of the source -/

/-- `json_value_init_string`. -/
def jsonValueInitString (string : List UInt8) : Option (Value ν) :=
  if isValidUtf8 (string ++ [0]) string.length then some (.string string) else none

/-- `json_value_init_number`. -/
def jsonValueInitNumber (numbers : Numbers ν) (number : ν) : Option (Value ν) :=
  if numbers.isNumberInvalid number then none else some (.number number)

/-- `json_object_set_string`, on the bytes of a C string. -/
def jsonObjectSetString (object : List (Member ν)) (name string : List UInt8) :
    Option (List (Member ν)) :=
  (jsonValueInitString string).bind (jsonObjectSetValue object name)

/-- `json_object_set_number`. -/
def jsonObjectSetNumber (numbers : Numbers ν) (object : List (Member ν)) (name : List UInt8)
    (number : ν) : Option (List (Member ν)) :=
  (jsonValueInitNumber numbers number).bind (jsonObjectSetValue object name)

/-- `json_value_get_object`. -/
def jsonValueGetObject : Value ν → Option (List (Member ν))
  | .object members => some members
  | _ => none

/-- `json_value_get_string`, as the C string it points to. -/
def jsonValueGetString : Value ν → Option (List UInt8)
  | .string bytes => some (cString bytes)
  | _ => none

/-- `json_object_get_string`, which finds nothing in an object that is NULL. -/
def jsonObjectGetString (object : Option (List (Member ν))) (name : List UInt8) :
    Option (List UInt8) :=
  (object.bind fun members => jsonObjectGetnValue members name).bind jsonValueGetString

/-- The conversion of an `int` to a `double`. -/
def ofInt (n : ℤ) : Binary64 :=
  .finite (n < 0) ((Magnitude.nearest n.natAbs).getD .zero)

/-! ## What is set -/

variable {object : List (Member ν)} {name string : List UInt8}

/-- A string in UTF-8 becomes a value. -/
theorem jsonValueInitString_eq (valid : Utf8.Valid string) :
    jsonValueInitString string = some (.string string : Value ν) :=
  if_pos (checked_of_valid valid [])

/-- A string that is not in UTF-8 becomes no value. -/
theorem jsonValueInitString_eq_none (invalid : ¬Utf8.Valid string) :
    (jsonValueInitString string : Option (Value ν)) = none :=
  if_neg (mt valid_of_checked invalid)

open Classical in
/-- A field under a new name is set if it is in UTF-8, and is left out otherwise. -/
theorem jsonObjectSetString_getD (absent : name ∉ object.map Prod.fst) :
    (jsonObjectSetString object name string).getD object =
      object ++ if Utf8.Valid string then [(name, .string string)] else [] := by
  split_ifs with valid
  · rw [jsonObjectSetString, jsonValueInitString_eq valid, Option.bind_some,
      jsonObjectSetValue_absent absent, Option.getD_some]
  · rw [jsonObjectSetString, jsonValueInitString_eq_none valid, Option.bind_none,
      Option.getD_none, List.append_nil]

/-- A positive `int` is a double of the same value. -/
theorem ofInt_exact {n : ℤ} (positive : 0 < n) (small : n < 2 ^ 31) :
    ∃ x : Magnitude, ofInt n = .finite false x ∧ x.value = n ∧ x.Normal := by
  obtain ⟨k, rfl⟩ := Int.eq_ofNat_of_zero_le positive.le
  obtain ⟨x, nearest, value, normal⟩ :=
    Magnitude.nearest_natCast (n := k) (by omega) (by omega)
  refine ⟨x, ?_, by rw [value, Int.cast_natCast], normal⟩
  rw [ofInt, Int.natAbs_natCast, nearest, Option.getD_some, decide_eq_false (by omega)]

end CommunicationProtocols.Parson
