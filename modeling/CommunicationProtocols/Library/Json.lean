import CommunicationProtocols.Library.ByteBuffer
import CommunicationProtocols.Library.Utf8
import Mathlib.Data.List.Nodup

/-!
# JSON values and their texts

A value is what a text says; a text has a value by the rules of `Derives`, which
cut it from the front and leave what is behind. Texts may be laid out with white
space, and a character of a string can be written in several ways, so a value has
many texts. What the numbers are, how they are written, what counts as white space
and which names members may have is left to a lexicon.
-/

namespace CommunicationProtocols.Library.Json

universe u

/-- A JSON value; strings and names are bytes. -/
inductive Value (ν : Type u) where
  | null
  | boolean (value : Bool)
  | number (value : ν)
  | string (bytes : List UInt8)
  | array (items : List (Value ν))
  | object (members : List (List UInt8 × Value ν))

/-- A named member of an object. -/
abbrev Member (ν : Type u) := List UInt8 × Value ν

variable {ν : Type u}

namespace Value

/-- Induction over a value, with the hypothesis for every item and every member. -/
@[elab_as_elim] theorem induction {motive : Value ν → Prop} (null : motive .null)
    (boolean : ∀ value, motive (.boolean value)) (number : ∀ value, motive (.number value))
    (string : ∀ bytes, motive (.string bytes))
    (array : ∀ items, (∀ item ∈ items, motive item) → motive (.array items))
    (object : ∀ members, (∀ member ∈ members, motive member.2) → motive (.object members))
    (value : Value ν) : motive value := by
  apply Value.rec (motive_1 := motive) (motive_2 := fun items => ∀ item ∈ items, motive item)
    (motive_3 := fun members => ∀ member ∈ members, motive member.2)
    (motive_4 := fun member => motive member.2) null boolean number string array object
  all_goals simp +contextual

mutual

/-- How many arrays and objects there are around the innermost value. -/
def depth : Value ν → Nat
  | .array items => itemsDepth items
  | .object members => membersDepth members
  | _ => 0

def itemsDepth : List (Value ν) → Nat
  | [] => 0
  | item :: rest => max (depth item + 1) (itemsDepth rest)

def membersDepth : List (List UInt8 × Value ν) → Nat
  | [] => 0
  | (_, value) :: rest => max (depth value + 1) (membersDepth rest)

end

mutual

/-- A value and all values inside it. -/
def parts : Value ν → List (Value ν)
  | .array items => .array items :: itemsParts items
  | .object members => .object members :: membersParts members
  | value => [value]

def itemsParts : List (Value ν) → List (Value ν)
  | [] => []
  | item :: rest => parts item ++ itemsParts rest

def membersParts : List (List UInt8 × Value ν) → List (Value ν)
  | [] => []
  | (_, value) :: rest => parts value ++ membersParts rest

end

/-- A bound on the depth of items is one on each item, with the brackets around it. -/
theorem itemsDepth_le_iff {items : List (Value ν)} {d : Nat} :
    itemsDepth items ≤ d ↔ ∀ item ∈ items, item.depth + 1 ≤ d := by
  induction items with
  | nil => simp [itemsDepth]
  | cons item rest ih => rw [itemsDepth, Nat.max_le, List.forall_mem_cons, ih]

/-- A bound on the depth of members is one on each value, with the braces around it. -/
theorem membersDepth_le_iff {members : List (Member ν)} {d : Nat} :
    membersDepth members ≤ d ↔ ∀ member ∈ members, member.2.depth + 1 ≤ d := by
  induction members with
  | nil => simp [membersDepth]
  | cons member rest ih => rw [membersDepth, Nat.max_le, List.forall_mem_cons, ih]

/-- A bound on the depth of an array is one on each item. -/
theorem depth_array_le_iff {items : List (Value ν)} {d : Nat} :
    (Value.array items).depth ≤ d ↔ ∀ item ∈ items, item.depth + 1 ≤ d := by
  rw [depth, itemsDepth_le_iff]

/-- A bound on the depth of an object is one on each value. -/
theorem depth_object_le_iff {members : List (Member ν)} {d : Nat} :
    (Value.object members).depth ≤ d ↔ ∀ member ∈ members, member.2.depth + 1 ≤ d := by
  rw [depth, membersDepth_le_iff]

/-- A property of a value and of all values inside it. -/
def Everywhere (property : Value ν → Prop) (value : Value ν) : Prop :=
  ∀ part ∈ value.parts, property part

variable {property : Value ν → Prop}

/-- The parts of items are those of each item. -/
theorem mem_itemsParts {items : List (Value ν)} {part : Value ν} :
    part ∈ itemsParts items ↔ ∃ item ∈ items, part ∈ item.parts := by
  induction items with
  | nil => simp [itemsParts]
  | cons item rest ih => simp [itemsParts, ih]

/-- The parts of members are those of each value. -/
theorem mem_membersParts {members : List (Member ν)} {part : Value ν} :
    part ∈ membersParts members ↔ ∃ member ∈ members, part ∈ member.2.parts := by
  induction members with
  | nil => simp [membersParts]
  | cons member rest ih => simp [membersParts, ih]

@[simp] theorem everywhere_null : Everywhere property .null ↔ property (.null : Value ν) := by
  simp [Everywhere, parts]

@[simp] theorem everywhere_boolean {value : Bool} :
    Everywhere property (.boolean value) ↔ property (.boolean value) := by
  simp [Everywhere, parts]

@[simp] theorem everywhere_number {value : ν} :
    Everywhere property (.number value) ↔ property (.number value) := by
  simp [Everywhere, parts]

@[simp] theorem everywhere_string {bytes : List UInt8} :
    Everywhere property (.string bytes) ↔ property (.string bytes) := by
  simp [Everywhere, parts]

@[simp] theorem everywhere_array {items : List (Value ν)} :
    Everywhere property (.array items) ↔
      property (.array items) ∧ ∀ item ∈ items, item.Everywhere property := by
  simp only [Everywhere, parts, List.mem_cons, forall_eq_or_imp, mem_itemsParts]
  exact and_congr_right fun _ =>
    ⟨fun all item member part inside => all part ⟨item, member, inside⟩,
      fun all part ⟨item, member, inside⟩ => all item member part inside⟩

@[simp] theorem everywhere_object {members : List (Member ν)} :
    Everywhere property (.object members) ↔
      property (.object members) ∧ ∀ member ∈ members, member.2.Everywhere property := by
  simp only [Everywhere, parts, List.mem_cons, forall_eq_or_imp, mem_membersParts]
  exact and_congr_right fun _ =>
    ⟨fun all member inside part deep => all part ⟨member, inside, deep⟩,
      fun all part ⟨member, inside, deep⟩ => all member inside part deep⟩

/-- A value is a part of itself. -/
theorem mem_parts_self (value : Value ν) : value ∈ value.parts := by
  cases value <;> simp [parts]

/-- What holds everywhere in a value holds of it. -/
theorem Everywhere.self {value : Value ν} (holds : value.Everywhere property) : property value :=
  holds value value.mem_parts_self

/-- What holds everywhere may be weakened. -/
theorem Everywhere.mono {property' : Value ν → Prop} {value : Value ν}
    (weaker : ∀ part, property part → property' part) (holds : value.Everywhere property) :
    value.Everywhere property' := fun part inside => weaker part (holds part inside)

/-- The names of an object are distinct and admitted. -/
def Named (admits : List UInt8 → Prop) : Value ν → Prop
  | .object members => (members.map Prod.fst).Nodup ∧ ∀ member ∈ members, admits member.1
  | _ => True

/-- A string and the names of an object are texts in UTF-8. -/
def InUtf8 : Value ν → Prop
  | .string bytes => Utf8.Valid bytes
  | .object members => ∀ member ∈ members, Utf8.Valid member.1
  | _ => True

/-- A number has a property. -/
def NumberIs (property : ν → Prop) : Value ν → Prop
  | .number n => property n
  | _ => True

end Value

/-! ## Strings -/

abbrev quote : UInt8 := 34
abbrev backslash : UInt8 := 92
abbrev letterU : UInt8 := 117
abbrev comma : UInt8 := 44
abbrev colon : UInt8 := 58
abbrev openBracket : UInt8 := 91
abbrev closeBracket : UInt8 := 93
abbrev openBrace : UInt8 := 123
abbrev closeBrace : UInt8 := 125

/-- What a byte stands for behind a backslash. -/
def escapeValue (byte : UInt8) : Option UInt8 :=
  if byte = quote ∨ byte = backslash ∨ byte = 47 then some byte
  else if byte = 98 then some 8
  else if byte = 102 then some 12
  else if byte = 110 then some 10
  else if byte = 114 then some 13
  else if byte = 116 then some 9
  else none

/-- The value of a hexadecimal digit. -/
def hexValue (byte : UInt8) : Option Nat :=
  let n := byte.toNat
  if 48 ≤ n ∧ n ≤ 57 then some (n - 48)
  else if 97 ≤ n ∧ n ≤ 102 then some (n - 97 + 10)
  else if 65 ≤ n ∧ n ≤ 70 then some (n - 65 + 10)
  else none

/-- Four hexadecimal digits of a number. -/
inductive HexDigits : List UInt8 → Nat → Prop where
  | four {h3 h2 h1 h0 : UInt8} {n3 n2 n1 n0 : Nat} (first : hexValue h3 = some n3)
      (second : hexValue h2 = some n2) (third : hexValue h1 = some n1)
      (fourth : hexValue h0 = some n0) :
      HexDigits [h3, h2, h1, h0] (((n3 * 16 + n2) * 16 + n1) * 16 + n0)

/-- The digits of a character: one UTF-16 code unit, or two with an escape between them. -/
inductive CodeUnits : List UInt8 → Char → Prop where
  | scalar {digits : List UInt8} {n : Nat} (written : HexDigits digits n)
      (scalar : n.isValidChar) : CodeUnits digits (Char.ofNat n)
  | surrogates {digits digits' : List UInt8} {lead trail : Nat} (written : HexDigits digits lead)
      (isLead : 0xD800 ≤ lead ∧ lead ≤ 0xDBFF) (written' : HexDigits digits' trail)
      (isTrail : 0xDC00 ≤ trail ∧ trail ≤ 0xDFFF) :
      CodeUnits (digits ++ backslash :: letterU :: digits')
        (Char.ofNat ((lead - 0xD800) * 0x400 + (trail - 0xDC00) + 0x10000))

/-- Bytes between quotes, and the bytes they stand for. -/
inductive Chars : List UInt8 → List UInt8 → Prop where
  | nil : Chars [] []
  | plain {byte : UInt8} {raw bytes : List UInt8} (printable : 32 ≤ byte.toNat)
      (notQuote : byte ≠ quote) (notBackslash : byte ≠ backslash) (rest : Chars raw bytes) :
      Chars (byte :: raw) (byte :: bytes)
  | escaped {letter byte : UInt8} {raw bytes : List UInt8} (stands : escapeValue letter = some byte)
      (rest : Chars raw bytes) : Chars (backslash :: letter :: raw) (byte :: bytes)
  | unicode {units raw bytes : List UInt8} {c : Char} (written : CodeUnits units c)
      (rest : Chars raw bytes) :
      Chars (backslash :: letterU :: (units ++ raw)) (String.utf8EncodeChar c ++ bytes)

/-- Two texts of characters make one. -/
theorem Chars.append {raw raw' bytes bytes' : List UInt8} (chars : Chars raw bytes)
    (chars' : Chars raw' bytes') : Chars (raw ++ raw') (bytes ++ bytes') := by
  induction chars with
  | nil => exact chars'
  | plain printable notQuote notBackslash _ ih => exact ih.plain printable notQuote notBackslash
  | escaped stands _ ih => exact ih.escaped stands
  | unicode written _ ih =>
      rw [List.cons_append, List.cons_append, List.append_assoc, List.append_assoc]
      exact ih.unicode written

/-! ## Texts -/

/-- White space, the texts of numbers with what is behind them, and the names that
are admitted. -/
structure Lexicon (ν : Type u) where
  isSpace : UInt8 → Bool
  number : List UInt8 → ν → List UInt8 → Prop
  admits : List UInt8 → Prop

/-- White space. -/
def Lexicon.Blank (lexicon : Lexicon ν) (blanks : List UInt8) : Prop :=
  ∀ byte ∈ blanks, lexicon.isSpace byte = true

/-- What a text is read as: a value, or the items or members up to the closing bracket. -/
inductive Form (ν : Type u) where
  | value (value : Value ν)
  | items (items : List (Value ν))
  | members (members : List (Member ν))

/-- The values of a form. -/
def Form.values : Form ν → List (Value ν)
  | .value single => [single]
  | .items list => list
  | .members list => list.map Prod.snd

/-- The names of a form. -/
def Form.names : Form ν → List (List UInt8)
  | .members list => list.map Prod.fst
  | _ => []

/-- `Derives lexicon d form text rest`: the text starts with the form, nested at most
`d` deep, and the rest is behind it. -/
inductive Derives (lexicon : Lexicon ν) : Nat → Form ν → List UInt8 → List UInt8 → Prop where
  | nullWord {d rest} : Derives lexicon d (.value .null) (ascii "null" ++ rest) rest
  | trueWord {d rest} : Derives lexicon d (.value (.boolean true)) (ascii "true" ++ rest) rest
  | falseWord {d rest} : Derives lexicon d (.value (.boolean false)) (ascii "false" ++ rest) rest
  | number {d n text rest} (written : lexicon.number text n rest) :
      Derives lexicon d (.value (.number n)) text rest
  | string {d raw bytes rest} (chars : Chars raw bytes) :
      Derives lexicon d (.value (.string bytes)) (quote :: (raw ++ quote :: rest)) rest
  | emptyArray {d blanks rest} (blank : lexicon.Blank blanks) :
      Derives lexicon d (.value (.array [])) (openBracket :: (blanks ++ closeBracket :: rest)) rest
  | array {d items text rest} (inside : Derives lexicon d (.items items) text rest) :
      Derives lexicon (d + 1) (.value (.array items)) (openBracket :: text) rest
  | emptyObject {d blanks rest} (blank : lexicon.Blank blanks) :
      Derives lexicon d (.value (.object [])) (openBrace :: (blanks ++ closeBrace :: rest)) rest
  | object {d members blanks text rest} (blank : lexicon.Blank blanks)
      (distinct : (members.map Prod.fst).Nodup)
      (inside : Derives lexicon d (.members members) text rest) :
      Derives lexicon (d + 1) (.value (.object members)) (openBrace :: (blanks ++ text)) rest
  | lastItem {d item before text after rest} (blankBefore : lexicon.Blank before)
      (written : Derives lexicon d (.value item) text (after ++ closeBracket :: rest))
      (blankAfter : lexicon.Blank after) :
      Derives lexicon d (.items [item]) (before ++ text) rest
  | item {d item items before text after text' rest} (blankBefore : lexicon.Blank before)
      (written : Derives lexicon d (.value item) text (after ++ comma :: text'))
      (blankAfter : lexicon.Blank after) (later : Derives lexicon d (.items items) text' rest) :
      Derives lexicon d (.items (item :: items)) (before ++ text) rest
  | lastMember {d name value raw gap before text after rest} (chars : Chars raw name)
      (admitted : lexicon.admits name) (blankGap : lexicon.Blank gap)
      (blankBefore : lexicon.Blank before)
      (written : Derives lexicon d (.value value) text (after ++ closeBrace :: rest))
      (blankAfter : lexicon.Blank after) :
      Derives lexicon d (.members [(name, value)])
        (quote :: (raw ++ quote :: (gap ++ colon :: (before ++ text)))) rest
  | member {d name value members raw gap before text after gap' text' rest}
      (chars : Chars raw name) (admitted : lexicon.admits name) (blankGap : lexicon.Blank gap)
      (blankBefore : lexicon.Blank before)
      (written : Derives lexicon d (.value value) text (after ++ comma :: (gap' ++ text')))
      (blankAfter : lexicon.Blank after) (blankGap' : lexicon.Blank gap')
      (later : Derives lexicon d (.members members) text' rest) :
      Derives lexicon d (.members ((name, value) :: members))
        (quote :: (raw ++ quote :: (gap ++ colon :: (before ++ text)))) rest

/-- A property of the values of members, member by member. -/
theorem Form.forall_members {property : Value ν → Prop} {members : List (Member ν)} :
    (∀ value ∈ (Form.members members).values, property value) ↔
      ∀ member ∈ members, property member.2 :=
  List.forall_mem_map

/-- A property of the names of members, member by member. -/
theorem Form.forall_names {property : List UInt8 → Prop} {members : List (Member ν)} :
    (∀ name ∈ (Form.members members).names, property name) ↔
      ∀ member ∈ members, property member.1 :=
  List.forall_mem_map

/-! ## What has a text -/

section

variable {lexicon : Lexicon ν} {d : Nat} {form : Form ν} {text rest : List UInt8}

/-- Nothing is nested deeper than the rules say. -/
theorem Derives.depth_le (derives : Derives lexicon d form text rest) :
    ∀ value ∈ form.values, value.depth ≤ d := by
  induction derives with
  | nullWord | trueWord | falseWord | number | string | emptyArray | emptyObject =>
      simp [Form.values, Value.depth, Value.itemsDepth, Value.membersDepth]
  | array _ ih => simpa [Form.values, Value.depth_array_le_iff] using ih
  | object _ _ _ ih =>
      rw [Form.forall_members] at ih
      simpa [Form.values, Value.depth_object_le_iff] using ih
  | lastItem _ _ _ ih | lastMember _ _ _ _ _ _ ih => simpa [Form.values] using ih
  | item _ _ _ _ ih later | member _ _ _ _ _ _ _ _ ih later =>
      simpa [Form.values] using And.intro (ih _ List.mem_cons_self) later

/-- The names of every object are distinct and admitted. -/
theorem Derives.named (derives : Derives lexicon d form text rest) :
    (∀ value ∈ form.values, value.Everywhere (Value.Named lexicon.admits)) ∧
      ∀ name ∈ form.names, lexicon.admits name := by
  induction derives with
  | nullWord | trueWord | falseWord | number | string | emptyArray | emptyObject =>
      simp [Form.values, Form.names, Value.Named]
  | array _ ih => simpa [Form.values, Form.names, Value.Named] using ih.1
  | object _ distinct _ ih =>
      rw [Form.forall_members, Form.forall_names] at ih
      simpa [Form.values, Form.names, Value.Named, distinct] using ih.symm
  | lastItem _ _ _ ih => exact ih
  | item _ _ _ _ ih later =>
      exact ⟨List.forall_mem_cons.mpr ⟨ih.1 _ List.mem_cons_self, later.1⟩, by simp [Form.names]⟩
  | lastMember _ admitted _ _ _ _ ih =>
      exact ⟨ih.1, by simpa [Form.names] using admitted⟩
  | member _ admitted _ _ _ _ _ _ ih later =>
      exact ⟨List.forall_mem_cons.mpr ⟨ih.1 _ List.mem_cons_self, later.1⟩,
        List.forall_mem_cons.mpr ⟨admitted, later.2⟩⟩

/-- Every number has a text. -/
theorem Derives.number_written {property : ν → Prop}
    (numbers : ∀ text n rest, lexicon.number text n rest → property n)
    (derives : Derives lexicon d form text rest) :
    ∀ value ∈ form.values, value.Everywhere (Value.NumberIs property) := by
  induction derives with
  | number written => simpa [Form.values, Value.NumberIs] using numbers _ _ _ written
  | nullWord | trueWord | falseWord | string | emptyArray | emptyObject =>
      simp [Form.values, Value.NumberIs]
  | array _ ih => simpa [Form.values, Value.NumberIs] using ih
  | object _ _ _ ih =>
      rw [Form.forall_members] at ih
      simpa [Form.values, Value.NumberIs] using ih
  | lastItem _ _ _ ih | lastMember _ _ _ _ _ _ ih => simpa [Form.values] using ih
  | item _ _ _ _ ih later | member _ _ _ _ _ _ _ _ ih later =>
      simpa [Form.values] using And.intro (ih _ List.mem_cons_self) later

/-- The letter of an escape and what it stands for are ASCII. -/
theorem escapeValue_ascii {letter byte : UInt8} (stands : escapeValue letter = some byte) :
    letter.toNat < 128 ∧ byte.toNat < 128 := by
  unfold escapeValue at stands
  split_ifs at stands with same back feed line carriage tab
  all_goals obtain rfl := Option.some.inj stands
  · rcases same with rfl | rfl | rfl <;> decide
  · subst back; decide
  · subst feed; decide
  · subst line; decide
  · subst carriage; decide
  · subst tab; decide

/-- Hexadecimal digits are ASCII, and their values are below 16. -/
theorem hexValue_ascii {byte : UInt8} {n : Nat} (digit : hexValue byte = some n) :
    byte.toNat < 128 ∧ n < 16 := by
  unfold hexValue at digit
  dsimp only at digit
  split_ifs at digit
  all_goals
    obtain rfl := Option.some.inj digit
    omega

/-- Four hexadecimal digits are ASCII. -/
theorem HexDigits.ascii {digits : List UInt8} {n : Nat} (written : HexDigits digits n) :
    ∀ byte ∈ digits, byte.toNat < 128 := by
  obtain ⟨first, second, third, fourth⟩ := written
  simp only [List.forall_mem_cons]
  exact ⟨(hexValue_ascii first).1, (hexValue_ascii second).1, (hexValue_ascii third).1,
    (hexValue_ascii fourth).1, by simp⟩

/-- Four hexadecimal digits hold no quote and no backslash. -/
theorem HexDigits.plain {digits : List UInt8} {n : Nat} (written : HexDigits digits n) :
    ∀ byte ∈ digits, byte ≠ quote ∧ byte ≠ backslash := by
  have other {byte : UInt8} {n : Nat} (digit : hexValue byte = some n) :
      byte ≠ quote ∧ byte ≠ backslash := by
    constructor
    · rintro rfl
      cases digit
    · rintro rfl
      cases digit
  obtain ⟨first, second, third, fourth⟩ := written
  simp only [List.forall_mem_cons]
  exact ⟨other first, other second, other third, other fourth, by simp⟩

/-- Four hexadecimal digits hold no NUL. -/
theorem HexDigits.clean {digits : List UInt8} {n : Nat} (written : HexDigits digits n) :
    0 ∉ digits := by
  have other {byte : UInt8} {n : Nat} (digit : hexValue byte = some n) : 0 ≠ byte := by
    rintro rfl
    cases digit
  obtain ⟨first, second, third, fourth⟩ := written
  simp only [List.mem_cons, List.not_mem_nil, or_false, not_or]
  exact ⟨other first, other second, other third, other fourth⟩

/-- Four hexadecimal digits are four bytes. -/
theorem HexDigits.length_eq {digits : List UInt8} {n : Nat} (written : HexDigits digits n) :
    digits.length = 4 := by
  cases written
  rfl

/-- Four hexadecimal digits are a number of 16 bits. -/
theorem HexDigits.lt {digits : List UInt8} {n : Nat} (written : HexDigits digits n) :
    n < 0x10000 := by
  obtain ⟨first, second, third, fourth⟩ := written
  have lead := (hexValue_ascii first).2
  have high := (hexValue_ascii second).2
  have low := (hexValue_ascii third).2
  have last := (hexValue_ascii fourth).2
  omega

/-- The escape of a character is ASCII. -/
theorem CodeUnits.ascii {units : List UInt8} {c : Char} (written : CodeUnits units c) :
    ∀ byte ∈ units, byte.toNat < 128 := by
  cases written with
  | scalar written => exact written.ascii
  | surrogates written _ written' _ =>
      intro byte member
      rcases List.mem_append.mp member with first | second
      · exact written.ascii byte first
      · rcases List.mem_cons.mp second with rfl | second
        · decide
        · rcases List.mem_cons.mp second with rfl | second
          · decide
          · exact written'.ascii byte second

/-- The escape of a character holds no NUL. -/
theorem CodeUnits.clean {units : List UInt8} {c : Char} (written : CodeUnits units c) :
    0 ∉ units := by
  cases written with
  | scalar written => exact written.clean
  | surrogates written _ written' _ =>
      simp only [List.mem_append, List.mem_cons, not_or]
      exact ⟨written.clean, by decide, by decide, written'.clean⟩

/-- There is no NUL between quotes. -/
theorem Chars.clean {raw bytes : List UInt8} (chars : Chars raw bytes) : 0 ∉ raw := by
  induction chars with
  | nil => exact List.not_mem_nil
  | plain printable _ _ _ ih =>
      refine List.not_mem_cons_of_ne_of_not_mem ?_ ih
      rintro rfl
      exact absurd printable (by decide)
  | escaped stands _ ih =>
      simp only [List.mem_cons, not_or]
      refine ⟨by decide, ?_, ih⟩
      rintro rfl
      cases stands
  | unicode written _ ih =>
      simp only [List.mem_cons, List.mem_append, not_or]
      exact ⟨by decide, by decide, written.clean, ih⟩

/-- Between quotes a text in UTF-8 stands for one. The bytes in front of an escape are
kept together, as a character may be spread over them. -/
theorem Chars.utf8 {raw bytes front : List UInt8} (chars : Chars raw bytes)
    (valid : Utf8.Valid (front ++ raw)) : Utf8.Valid (front ++ bytes) := by
  have isAscii : backslash.toNat < 128 := by decide
  induction chars generalizing front with
  | nil => exact valid
  | plain _ _ _ _ ih =>
      rw [List.append_cons] at valid ⊢
      exact ih valid
  | escaped stands _ ih =>
      obtain ⟨letterAscii, byteAscii⟩ := escapeValue_ascii stands
      obtain ⟨before, behind⟩ := (Utf8.valid_cons_iff isAscii).mp valid
      have after := (Utf8.valid_ascii_cons_iff letterAscii).mp behind
      exact (Utf8.valid_cons_iff byteAscii).mpr ⟨before, @ih [] after⟩
  | unicode written _ ih =>
      have letterAscii : letterU.toNat < 128 := by decide
      obtain ⟨before, behind⟩ := (Utf8.valid_cons_iff isAscii).mp valid
      have units := (Utf8.valid_ascii_cons_iff letterAscii).mp behind
      have after := (Utf8.valid_ascii_append_iff written.ascii).mp units
      exact before.append ((Utf8.valid_char _).append (@ih [] after))

/-- A string between quotes at the start of a text. -/
theorem utf8_of_quoted {raw bytes behind : List UInt8} (chars : Chars raw bytes)
    (valid : Utf8.Valid (quote :: (raw ++ quote :: behind))) :
    Utf8.Valid bytes ∧ Utf8.Valid behind := by
  have isAscii : quote.toNat < 128 := by decide
  have inside := (Utf8.valid_ascii_cons_iff isAscii).mp valid
  obtain ⟨validRaw, validBehind⟩ := (Utf8.valid_cons_iff isAscii).mp inside
  exact ⟨@Chars.utf8 _ _ [] chars validRaw, validBehind⟩

/-- A text in UTF-8 has strings and names in UTF-8 only. -/
theorem Derives.utf8 (derives : Derives lexicon d form text rest)
    (numbers : ∀ text n rest, lexicon.number text n rest → Utf8.Valid text → Utf8.Valid rest)
    (spaces : ∀ byte, lexicon.isSpace byte = true → byte.toNat < 128) (valid : Utf8.Valid text) :
    (∀ value ∈ form.values, value.Everywhere Value.InUtf8) ∧
      (∀ name ∈ form.names, Utf8.Valid name) ∧ Utf8.Valid rest := by
  have behind {byte : UInt8} {back : List UInt8} (ascii : byte.toNat < 128)
      (valid : Utf8.Valid (byte :: back)) : Utf8.Valid back :=
    (Utf8.valid_ascii_cons_iff ascii).mp valid
  have skip {blanks back : List UInt8} (blank : lexicon.Blank blanks)
      (valid : Utf8.Valid (blanks ++ back)) : Utf8.Valid back :=
    (Utf8.valid_ascii_append_iff fun byte member => spaces byte (blank byte member)).mp valid
  have word (literal : String) (plain : ∀ byte ∈ ascii literal, byte.toNat < 128)
      {back : List UInt8} (valid : Utf8.Valid (ascii literal ++ back)) : Utf8.Valid back :=
    (Utf8.valid_ascii_append_iff plain).mp valid
  induction derives with
  | nullWord =>
      exact ⟨by simp [Form.values, Value.InUtf8], by simp [Form.names],
        word "null" (by decide +kernel) valid⟩
  | trueWord =>
      exact ⟨by simp [Form.values, Value.InUtf8], by simp [Form.names],
        word "true" (by decide +kernel) valid⟩
  | falseWord =>
      exact ⟨by simp [Form.values, Value.InUtf8], by simp [Form.names],
        word "false" (by decide +kernel) valid⟩
  | number written =>
      exact ⟨by simp [Form.values, Value.InUtf8], by simp [Form.names],
        numbers _ _ _ written valid⟩
  | string chars =>
      obtain ⟨bytes, left⟩ := utf8_of_quoted chars valid
      exact ⟨by simpa [Form.values, Value.InUtf8] using bytes, by simp [Form.names], left⟩
  | emptyArray blank | emptyObject blank =>
      exact ⟨by simp [Form.values, Value.InUtf8], by simp [Form.names],
        behind (by decide) (skip blank (behind (by decide) valid))⟩
  | array _ ih =>
      obtain ⟨values, _, left⟩ := ih (behind (by decide) valid)
      exact ⟨by simpa [Form.values, Value.InUtf8] using values, by simp [Form.names], left⟩
  | object blank _ _ ih =>
      obtain ⟨values, names, left⟩ := ih (skip blank (behind (by decide) valid))
      rw [Form.forall_members] at values
      rw [Form.forall_names] at names
      exact ⟨by simpa [Form.values, Value.InUtf8] using And.intro names values,
        by simp [Form.names], left⟩
  | lastItem blankBefore _ blankAfter ih =>
      obtain ⟨values, _, left⟩ := ih (skip blankBefore valid)
      exact ⟨values, by simp [Form.names], behind (by decide) (skip blankAfter left)⟩
  | item blankBefore _ blankAfter _ ih ihLater =>
      obtain ⟨values, _, left⟩ := ih (skip blankBefore valid)
      obtain ⟨others, _, last⟩ := ihLater (behind (by decide) (skip blankAfter left))
      exact ⟨List.forall_mem_cons.mpr ⟨values _ List.mem_cons_self, others⟩,
        by simp [Form.names], last⟩
  | lastMember chars _ blankGap blankBefore _ blankAfter ih =>
      obtain ⟨name, value⟩ := utf8_of_quoted chars valid
      obtain ⟨values, _, left⟩ :=
        ih (skip blankBefore (behind (by decide) (skip blankGap value)))
      exact ⟨values, by simpa [Form.names] using name, behind (by decide) (skip blankAfter left)⟩
  | member chars _ blankGap blankBefore _ blankAfter blankGap' _ ih ihLater =>
      obtain ⟨name, value⟩ := utf8_of_quoted chars valid
      obtain ⟨values, _, left⟩ :=
        ih (skip blankBefore (behind (by decide) (skip blankGap value)))
      obtain ⟨others, names, last⟩ :=
        ihLater (skip blankGap' (behind (by decide) (skip blankAfter left)))
      exact ⟨List.forall_mem_cons.mpr ⟨values _ List.mem_cons_self, others⟩,
        List.forall_mem_cons.mpr ⟨name, names⟩, last⟩

/-- Nothing is put in front of what is left. -/
theorem Derives.length_le
    (numbers : ∀ text n rest, lexicon.number text n rest → rest.length ≤ text.length)
    (derives : Derives lexicon d form text rest) : rest.length ≤ text.length := by
  induction derives with
  | number written => exact numbers _ _ _ written
  | nullWord | trueWord | falseWord | string | emptyArray | emptyObject =>
      simp only [List.length_append, List.length_cons]
      omega
  | array | object | lastItem | item | lastMember | member =>
      simp only [List.length_append, List.length_cons] at *
      omega

/-- The escape of a character is no shorter than the character in UTF-8. -/
theorem CodeUnits.length_le {units : List UInt8} {c : Char} (written : CodeUnits units c) :
    (String.utf8EncodeChar c).length ≤ units.length := by
  have short := c.utf8Size_le_four
  rw [String.length_utf8EncodeChar]
  cases written with
  | scalar written =>
      rw [written.length_eq]
      exact short
  | surrogates written _ written' _ =>
      rw [List.length_append, List.length_cons, List.length_cons, written.length_eq]
      omega

/-- An escape is never shorter than what it stands for. -/
theorem Chars.length_le {raw bytes : List UInt8} (chars : Chars raw bytes) :
    bytes.length ≤ raw.length := by
  induction chars with
  | nil => exact Nat.le_refl _
  | plain _ _ _ _ ih => exact Nat.succ_le_succ ih
  | escaped _ _ ih =>
      simp only [List.length_cons]
      omega
  | unicode written _ ih =>
      have short := written.length_le
      simp only [List.length_append, List.length_cons]
      omega

/-- A string is at most as long as the text it is read from. -/
def Value.StringWithin (n : Nat) : Value ν → Prop
  | .string bytes => bytes.length ≤ n
  | _ => True

/-- A bound on the length of strings may be raised. -/
theorem Value.StringWithin.mono {m n : Nat} (le : m ≤ n) (value : Value ν)
    (within : value.StringWithin m) : value.StringWithin n := by
  cases value with
  | string bytes => exact Nat.le_trans within le
  | _ => trivial

/-- No string of a value is longer than the text of the value. -/
theorem Derives.strings_within
    (numbers : ∀ text n rest, lexicon.number text n rest → rest.length ≤ text.length)
    (derives : Derives lexicon d form text rest) :
    ∀ value ∈ form.values, value.Everywhere (Value.StringWithin text.length) := by
  have wider {m n : Nat} {values : List (Value ν)} (le : m ≤ n)
      (within : ∀ value ∈ values, value.Everywhere (Value.StringWithin m)) :
      ∀ value ∈ values, value.Everywhere (Value.StringWithin n) := fun value member =>
    (within value member).mono (Value.StringWithin.mono le)
  induction derives with
  | nullWord | trueWord | falseWord | number | emptyArray | emptyObject =>
      simp [Form.values, Value.StringWithin]
  | string chars =>
      have short := chars.length_le
      simp only [Form.values, List.forall_mem_singleton, Value.everywhere_string,
        Value.StringWithin, List.length_cons, List.length_append]
      omega
  | array _ ih =>
      have within := wider (Nat.le_succ _) ih
      simpa [Form.values, Value.StringWithin] using within
  | @object _ members blanks text _ _ _ _ ih =>
      have within := wider (n := (openBrace :: (blanks ++ text)).length)
        (by rw [List.length_cons, List.length_append]; omega) ih
      rw [Form.forall_members] at within
      exact List.forall_mem_singleton.mpr (Value.everywhere_object.mpr ⟨trivial, within⟩)
  | lastItem _ _ _ ih =>
      exact wider (by rw [List.length_append]; omega) ih
  | item _ written _ _ ih ihLater =>
      have shorter := written.length_le numbers
      simp only [List.length_append, List.length_cons] at shorter
      refine List.forall_mem_cons.mpr ⟨?_, ?_⟩
      · exact wider (by rw [List.length_append]; omega) ih _ List.mem_cons_self
      · exact wider (by rw [List.length_append]; omega) ihLater
  | lastMember _ _ _ _ _ _ ih =>
      exact wider (by simp only [List.length_cons, List.length_append]; omega) ih
  | member _ _ _ _ written _ _ _ ih ihLater =>
      have shorter := written.length_le numbers
      simp only [List.length_append, List.length_cons] at shorter
      refine List.forall_mem_cons.mpr ⟨?_, ?_⟩
      · exact wider (by simp only [List.length_cons, List.length_append]; omega) ih _
          List.mem_cons_self
      · exact wider (by simp only [List.length_cons, List.length_append]; omega) ihLater

end

end CommunicationProtocols.Library.Json
