import CommunicationProtocols.Parson.Utf8Check

/-!
# Parsed documents

What `json_parse_string` gives is a document of the library: its names are used once
and have no NUL, its numbers are finite, it is not nested too deep, and the strings of a
text in UTF-8 pass `is_valid_utf8`, which every other way of making a string asks for.
Such a document can be serialized, and what it says is read again from its text.
-/

namespace CommunicationProtocols.Parson

open Library Library.Json

variable {string : List UInt8} {value : Value Binary64}

/-- A string and the names of an object pass `is_valid_utf8`, and a number is not one that
`IS_NUMBER_INVALID` refuses. -/
def Checked : Value Binary64 → Prop
  | .number n => doubles.isNumberInvalid n = false
  | .string bytes => isValidUtf8 (bytes ++ [0]) bytes.length = true
  | .object members => ∀ member ∈ members,
      isValidUtf8 (member.1 ++ [0]) member.1.length = true
  | _ => True

/-- Strings in UTF-8 and finite numbers pass the checks. -/
theorem checked_of_inUtf8 (valid : value.InUtf8) (finite : value.NumberIs Finite) :
    Checked value := by
  cases value with
  | null | boolean | array => trivial
  | number n => exact valid_of_finite finite
  | string bytes => exact checked_of_valid valid []
  | object members => exact fun member inside => checked_of_valid (valid member inside) []

/-- Behind a number of the parser a text is still in UTF-8. -/
theorem writtenNumber_utf8 {text rest : List UInt8} {n : Binary64}
    (written : WrittenNumber doubles text n rest) (valid : Utf8.Valid text) : Utf8.Valid rest := by
  obtain ⟨-, length, read, -, finite, rfl⟩ := written
  cases n with
  | infinite | nan => cases finite
  | finite negative x =>
      rw [← List.take_append_drop length text] at valid
      exact (Utf8.valid_ascii_append_iff fun byte => FloatText.strtod_ascii read).mp valid

/-- The byte order mark is a character. -/
theorem valid_afterMark (valid : Utf8.Valid string) : Utf8.Valid (afterMark string) := by
  unfold afterMark
  split_ifs with marked
  · have mark : String.utf8EncodeChar (Char.ofNat 0xFEFF) = [0xEF, 0xBB, 0xBF] := by decide
    rw [← List.take_append_drop 3 string, marked, ← mark] at valid
    exact Utf8.valid_char_append_iff.mp valid
  · exact valid

/-- A document of the library. -/
structure Document (value : Value Binary64) : Prop where
  named : value.Everywhere (Value.Named (0 ∉ ·))
  finite : value.Everywhere (Value.NumberIs Finite)
  shallow : value.depth ≤ maxNesting

/-- What the parser returns is a document. -/
theorem document_of_parsed (parsed : jsonParseString doubles string = some value) :
    Document value := by
  obtain ⟨_, _, _, _, _, derives⟩ := derives_of_parsed parsed
  refine ⟨derives.named.1 value List.mem_cons_self, ?_, derives.depth_le value List.mem_cons_self⟩
  refine derives.number_written (fun text n rest written => ?_) value List.mem_cons_self
  obtain ⟨-, _, _, _, valid, _⟩ := written
  exact finite_of_valid valid

/-- The strings, the names and the numbers of a text in UTF-8 pass the checks that the
setters of the library make. For strings and names the parser makes no such check: its
escapes give whole characters only, and everything around strings is ASCII. -/
theorem parsed_checked (parsed : jsonParseString doubles string = some value)
    (valid : Utf8.Valid string) : value.Everywhere Checked := by
  obtain ⟨blanks, text, rest, same, blank, derives⟩ := derives_of_parsed parsed
  have spaces (byte : UInt8) (isSpace : (lexicon doubles).isSpace byte = true) :
      byte.toNat < 128 := Decimal.isSpace_ascii isSpace
  have validText : Utf8.Valid text := by
    have validBehind := valid_afterMark valid
    rw [same] at validBehind
    exact (Utf8.valid_ascii_append_iff fun byte member => spaces byte (blank byte member)).mp
      validBehind
  have inUtf8 := (derives.utf8 (fun _ _ _ => writtenNumber_utf8) spaces validText).1 value
    List.mem_cons_self
  have finite := (document_of_parsed parsed).finite
  exact fun part inside => checked_of_inUtf8 (inUtf8 part inside) (finite part inside)

/-- The text `["\u20AC"]`, which is parsed as a list of one sign of three bytes. -/
def signText : List UInt8 := ascii "[\"\\u20AC\"]"

def signList : Value Binary64 := .array [.string [0xE2, 0x82, 0xAC]]

/-- The text is parsed as the list. -/
theorem signText_parsed : jsonParseString doubles signText = some signList := by
  have digits : HexDigits (ascii "20AC") (((2 * 16 + 0) * 16 + 10) * 16 + 12) :=
    .four (by decide) (by decide) (by decide) (by decide)
  have sign : Chars (ascii "\\u20AC") [0xE2, 0x82, 0xAC] :=
    .unicode (.scalar digits (.inl (by decide))) .nil
  have items : Derives (lexicon doubles) 2047 (.items [.string [0xE2, 0x82, 0xAC]])
      (ascii "\"\\u20AC\"]") [] := .lastItem blank_nil (.string sign) blank_nil
  have same : afterMark signText = [] ++ signText := by decide
  exact parsed_of_derives same blank_nil (.array items)

theorem parsed_checked_sign : signList.Everywhere Checked := by
  have plain : ∀ byte ∈ signText, byte.toNat < 128 := by decide +kernel
  have valid : Utf8.Valid (signText ++ []) := (Utf8.valid_ascii_append_iff plain).mpr Utf8.valid_nil
  exact parsed_checked signText_parsed (List.append_nil signText ▸ valid)

/-- A parsed document can be serialized. -/
theorem serializable_of_parsed (parsed : jsonParseString doubles string = some value) :
    Serializable doubles value := by
  have document := document_of_parsed parsed
  exact serializable_doubles document.named document.finite

theorem serializer_stays_inside_sign :
    ∃ text, Printer.Prints (jsonSerializeToBufferR doubles ⟨true, false⟩ signList 0) text true ∧
      0 ∉ text ∧ jsonSerializationSize doubles ⟨true, false⟩ signList =
        (if text.length < 2 ^ 31 then some (text.length + 1) else none) ∧
      (text.length < 2 ^ 31 →
        (∀ buf, jsonSerializeToBuffer doubles ⟨true, false⟩ signList buf =
          some (if text.length < buf.length then (true, text ++ 0 :: buf.drop (text.length + 1))
            else (false, buf))) ∧
        ∀ parsonMalloc : Nat → List UInt8, (∀ n, (parsonMalloc n).length = n) →
          jsonSerializeToString doubles ⟨true, false⟩ parsonMalloc signList =
            some (some (text ++ [0]))) :=
  serializer_stays_inside ⟨true, false⟩ (serializable_of_parsed signText_parsed)

/-- A parsed document whose numbers are zero or normal is written, in every layout in which
the length of the text is an `int`, as a text that is parsed as the same document. -/
theorem parse_serialize_parse {parsonMalloc : Nat → List UInt8} (layout : Layout)
    (parsed : jsonParseString doubles string = some value)
    (readable : value.Everywhere (Value.NumberIs Readable))
    (counted : Counted doubles layout value) (sized : ∀ n, (parsonMalloc n).length = n) :
    ∃ block, jsonSerializeToString doubles layout parsonMalloc value = some (some block) ∧
      jsonParseString doubles (cString block) = some value := by
  have document := document_of_parsed parsed
  obtain ⟨block, printed, -, again⟩ :=
    parse_serialize_doubles layout document.named readable counted sized
  exact ⟨block, printed, again.mpr document.shallow⟩

theorem parse_serialize_parse_sign :
    ∃ block, jsonSerializeToString doubles ⟨true, false⟩ (List.replicate · 0) signList =
        some (some block) ∧
      jsonParseString doubles (cString block) = some signList := by
  have readable : signList.Everywhere (Value.NumberIs Readable) := by
    simp [signList, Value.NumberIs]
  have counted := counted_of_textBound ⟨true, false⟩ (serializable_of_parsed signText_parsed)
    (by decide)
  exact parse_serialize_parse ⟨true, false⟩ signText_parsed readable counted
    fun n => List.length_replicate

end CommunicationProtocols.Parson
