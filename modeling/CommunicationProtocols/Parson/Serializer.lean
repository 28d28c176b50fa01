import CommunicationProtocols.Library.Printing
import CommunicationProtocols.Parson.Parser

/-!
# The serializer

`json_serialize_to_buffer_r` is run once without a buffer for the size and once with
one. `APPEND_STRING` and its siblings are the pieces of a printer; a return value of
`-1` is a printer that fails. Numbers are printed by `sprintf`, into a small buffer of
their own while sizes are computed.
-/

namespace CommunicationProtocols.Parson

open Library Library.Json

universe u

variable {ν : Type u}

/-- `is_pretty` and `parson_escape_slashes`. -/
structure Layout where
  isPretty : Bool
  escapeSlashes : Bool

/-- `NUM_BUF_SIZE`. -/
abbrev numBufSize : Nat := 64

/-- Print a piece if a condition holds. -/
def printIf (condition : Bool) (printer : Printer) : Printer :=
  if condition then printer else .nothing

/-- `append_indent`. -/
def appendIndent (level : Nat) : Printer :=
  .all (List.replicate level (.string (ascii "    ")))

/-- A hexadecimal digit. -/
def hexDigit (n : Nat) : UInt8 := UInt8.ofNat (if n < 10 then 48 + n else 87 + n)

/-- The escapes from `\\u0000` to `\\u001f`. -/
def controlEscape (c : UInt8) : List UInt8 :=
  ascii "\\u00" ++ [hexDigit (c.toNat / 16), hexDigit (c.toNat % 16)]

/-- One round of `json_serialize_string`. -/
def serializeChar (layout : Layout) (c : UInt8) : Printer :=
  if c = 34 then .string (ascii "\\\"")
  else if c = 92 then .string (ascii "\\\\")
  else if c = 8 then .string (ascii "\\b")
  else if c = 12 then .string (ascii "\\f")
  else if c = 10 then .string (ascii "\\n")
  else if c = 13 then .string (ascii "\\r")
  else if c = 9 then .string (ascii "\\t")
  else if c < 0x20 then .string (controlEscape c)
  else if c = 47 then
    if layout.escapeSlashes then .string (ascii "\\/") else .string (ascii "/")
  else .char c

/-- `json_serialize_string`. -/
def jsonSerializeString (layout : Layout) (string : List UInt8) : Printer :=
  (Printer.string (ascii "\"")).andThen <|
    (Printer.all (string.map (serializeChar layout))).andThen <| .string (ascii "\"")

/-- `sprintf` of a number, into `num_buf` if there is no buffer. -/
def serializeNumber (numbers : Numbers ν) (num : ν) : Printer
  | none, block =>
      (storeAt (List.replicate numBufSize 0) 0 (numbers.sprintf num ++ [0])).map fun _ =>
        (some (numbers.sprintf num).length, block)
  | some place, block => Printer.string (numbers.sprintf num) (some place) block

/-- The value of a name is printed, or there is none. -/
def printNamed (name : List UInt8) (printers : List (List UInt8 × Printer)) : Printer :=
  ((KeyedList.find Prod.fst name printers).map Prod.snd).getD .failure

/-- The loop over the names of an object. -/
def serializeNames (layout : Layout) (level : Nat) (printers : List (List UInt8 × Printer)) :
    List (List UInt8) → Printer
  | [] => .nothing
  | key :: rest =>
      (printIf layout.isPretty (appendIndent (level + 1))).andThen <|
      (jsonSerializeString layout key).andThen <|
      (Printer.string (ascii ":")).andThen <|
      (printIf layout.isPretty (.string (ascii " "))).andThen <|
      -- `json_object_get_value(object, key)` and not the value of the same index
      (printNamed key printers).andThen <|
      (printIf (rest ≠ []) (.string (ascii ","))).andThen <|
      (printIf layout.isPretty (.string (ascii "\n"))).andThen <|
      serializeNames layout level printers rest

/-- What stands in front of the items or members, and behind them. -/
def serializeBrackets (layout : Layout) (level count : Nat) (opening closing : List UInt8)
    (inside : Printer) : Printer :=
  (Printer.string opening).andThen <|
  (printIf (count > 0 && layout.isPretty) (.string (ascii "\n"))).andThen <|
  inside.andThen <|
  (printIf (count > 0 && layout.isPretty) (appendIndent level)).andThen <|
  .string closing

mutual

/-- `json_serialize_to_buffer_r`. -/
def jsonSerializeToBufferR (numbers : Numbers ν) (layout : Layout) : Value ν → Nat → Printer
  | .array items, level =>
      serializeBrackets layout level items.length (ascii "[") (ascii "]")
        (serializeItems numbers layout items level)
  | .object members, level =>
      serializeBrackets layout level members.length (ascii "\x7b") (ascii "\x7d")
        (serializeNames layout level (memberPrinters numbers layout members (level + 1))
          (members.map Prod.fst))
  | .string bytes, _ => jsonSerializeString layout bytes
  | .boolean value, _ => .string (if value then ascii "true" else ascii "false")
  | .number num, _ => serializeNumber numbers num
  | .null, _ => .string (ascii "null")

/-- The loop over the items of an array. -/
def serializeItems (numbers : Numbers ν) (layout : Layout) : List (Value ν) → Nat → Printer
  | [], _ => .nothing
  | item :: rest, level =>
      (printIf layout.isPretty (appendIndent (level + 1))).andThen <|
      (jsonSerializeToBufferR numbers layout item (level + 1)).andThen <|
      (printIf (rest ≠ []) (.string (ascii ","))).andThen <|
      (printIf layout.isPretty (.string (ascii "\n"))).andThen <|
      serializeItems numbers layout rest level

/-- The printers of the values of an object, by their names. -/
def memberPrinters (numbers : Numbers ν) (layout : Layout) :
    List (List UInt8 × Value ν) → Nat → List (List UInt8 × Printer)
  | [], _ => []
  | (name, value) :: rest, level =>
      (name, jsonSerializeToBufferR numbers layout value level) ::
        memberPrinters numbers layout rest level

end

/-- `json_serialization_size`. There is no result if `num_buf` is too small, or if the
number of bytes does not fit an `int`: the totals that are added up on the way to it are
smaller, so none of them overflows before it does. -/
def jsonSerializationSize (numbers : Numbers ν) (layout : Layout) (value : Value ν) : Option Nat :=
  (jsonSerializeToBufferR numbers layout value 0 none []).bind fun (res, _) =>
    match res with
    | none => some 0
    | some res => if res < 2 ^ 31 then some (res + 1) else none

/-- `json_serialize_to_buffer`: whether it is done, and the buffer afterwards. -/
def jsonSerializeToBuffer (numbers : Numbers ν) (layout : Layout) (value : Value ν)
    (buf : List UInt8) : Option (Bool × List UInt8) :=
  (jsonSerializationSize numbers layout value).bind fun neededSizeInBytes =>
    if neededSizeInBytes = 0 ∨ buf.length < neededSizeInBytes then some (false, buf)
    else
      (jsonSerializeToBufferR numbers layout value 0 (some 0) buf).map fun (written, buf) =>
        (written.isSome, buf)

/-- `json_serialize_to_string`, where `parson_malloc` gives blocks with any contents. -/
def jsonSerializeToString (numbers : Numbers ν) (layout : Layout)
    (parsonMalloc : Nat → List UInt8) (value : Value ν) : Option (Option (List UInt8)) :=
  (jsonSerializationSize numbers layout value).bind fun bufSizeBytes =>
    if bufSizeBytes = 0 then some none
    else
      (jsonSerializeToBuffer numbers layout value (parsonMalloc bufSizeBytes)).map
        fun (done, buf) => if done then some buf else none

mutual

/-- A bound on the length of the text of a value, in every layout. -/
def textBound : Value ν → Nat → Nat
  | .array items, level => itemsBound items (level + 1) + 4 * level + 3
  | .object members, level => membersBound members (level + 1) + 4 * level + 3
  | .string bytes, _ => 6 * bytes.length + 2
  | .number _, _ => numBufSize
  | .boolean _, _ => 5
  | .null, _ => 4

def itemsBound : List (Value ν) → Nat → Nat
  | [], _ => 0
  | item :: rest, level => 4 * level + textBound item level + 2 + itemsBound rest level

def membersBound : List (List UInt8 × Value ν) → Nat → Nat
  | [], _ => 0
  | (name, value) :: rest, level =>
      4 * level + 6 * name.length + textBound value level + 6 + membersBound rest level

end

/-- The C string at the start of a block. -/
def cString (block : List UInt8) : List UInt8 := block.takeWhile fun byte => byte ≠ 0

/-! ## Strings -/

section

open Printer

variable {layout : Layout} {c : UInt8}

/-- A printer under a condition prints its text, or nothing. -/
theorem prints_if (condition : Bool) {printer : Printer} {text : List UInt8} {terminated : Bool}
    (prints : Prints printer text terminated) :
    ∃ terminated', Prints (printIf condition printer) (if condition then text else []) terminated' := by
  cases condition with
  | true => exact ⟨terminated, prints⟩
  | false => exact ⟨false, prints_nothing⟩

/-- A text under a condition is no longer than the text. -/
theorem length_if_le (condition : Bool) (text : List UInt8) :
    (if condition then text else []).length ≤ text.length := by
  cases condition with
  | true => exact Nat.le_refl _
  | false => exact Nat.zero_le _

/-- The escape of a control character. -/
theorem controlEscape_chars (control : c < 0x20) : Chars (controlEscape c) [c] := by
  have digit (n : Nat) (small : n < 16) : hexValue (hexDigit n) = some n := by
    decide +revert
  have small : c.toNat < 32 := control
  have high := digit (c.toNat / 16) (by omega)
  have low := digit (c.toNat % 16) (by omega)
  have zero : hexValue 48 = some 0 := rfl
  have written := HexDigits.four zero zero high low
  have number : ((0 * 16 + 0) * 16 + c.toNat / 16) * 16 + c.toNat % 16 = c.toNat := by omega
  rw [number] at written
  have encoded : String.utf8EncodeChar (Char.ofNat c.toNat) = [c] := by
    rw [Utf8.utf8EncodeChar_ofNat (.inl (by omega)), if_pos (by omega), UInt8.ofNat_toNat]
  have chars := Chars.unicode (.scalar written (.inl (by omega))) .nil
  rwa [encoded] at chars

/-- What is printed for a character stands for it. -/
theorem prints_serializeChar (layout : Layout) (c : UInt8) :
    ∃ raw, (∃ terminated, Prints (serializeChar layout c) raw terminated) ∧ Chars raw [c] ∧
      raw.length ≤ 6 := by
  have escape (letter : UInt8) (stands : escapeValue letter = some c) :
      Chars [backslash, letter] [c] := .escaped stands .nil
  rw [serializeChar]
  split_ifs with isQuote isBackslash back feed line carriage tab control slash escaped
  · subst isQuote
    exact ⟨_, ⟨_, prints_string _⟩, escape quote rfl, by decide⟩
  · subst isBackslash
    exact ⟨_, ⟨_, prints_string _⟩, escape backslash rfl, by decide⟩
  · subst back
    exact ⟨_, ⟨_, prints_string _⟩, escape 98 rfl, by decide⟩
  · subst feed
    exact ⟨_, ⟨_, prints_string _⟩, escape 102 rfl, by decide⟩
  · subst line
    exact ⟨_, ⟨_, prints_string _⟩, escape 110 rfl, by decide⟩
  · subst carriage
    exact ⟨_, ⟨_, prints_string _⟩, escape 114 rfl, by decide⟩
  · subst tab
    exact ⟨_, ⟨_, prints_string _⟩, escape 116 rfl, by decide⟩
  · exact ⟨_, ⟨_, prints_string _⟩, controlEscape_chars control, Nat.le_refl 6⟩
  · subst slash
    exact ⟨_, ⟨_, prints_string _⟩, escape 47 rfl, by decide⟩
  · subst slash
    exact ⟨_, ⟨_, prints_string _⟩, .plain (by decide) (by decide) (by decide) .nil, by decide⟩
  · rw [UInt8.lt_iff_toNat_lt, Nat.not_lt] at control
    exact ⟨_, ⟨_, prints_char c⟩, .plain control isQuote isBackslash .nil, Nat.le_add_left 1 5⟩

/-- Any bytes can be printed as a string, and what is printed stands for them. -/
theorem prints_jsonSerializeString (layout : Layout) (string : List UInt8) :
    ∃ raw, Prints (jsonSerializeString layout string) (quote :: (raw ++ [quote])) true ∧
      Chars raw string ∧ raw.length ≤ 6 * string.length := by
  have inside : ∃ raws, List.Forall₂ (fun printer text => ∃ terminated, Prints printer text terminated)
      (string.map (serializeChar layout)) raws ∧ Chars raws.flatten string ∧
        raws.flatten.length ≤ 6 * string.length := by
    induction string with
    | nil => exact ⟨[], .nil, .nil, Nat.le_refl 0⟩
    | cons c string ih =>
        obtain ⟨raw, prints, chars, short⟩ := prints_serializeChar layout c
        obtain ⟨raws, later, charsLater, shortLater⟩ := ih
        refine ⟨raw :: raws, .cons prints later, chars.append charsLater, ?_⟩
        rw [List.flatten_cons, List.length_append, List.length_cons]
        omega
  obtain ⟨raws, prints, chars, short⟩ := inside
  refine ⟨raws.flatten, ?_, chars, short⟩
  exact (prints_string _).andThen ((prints_all prints).andThen (prints_string _))

end

/-! ## Values -/

section

open Printer

variable {numbers : Numbers ν} {layout : Layout} {d level : Nat} {text rest : List UInt8}

/-- What the serializer may put behind a value. -/
def Stops (rest : List UInt8) : Prop :=
  ∀ byte, rest.head? = some byte → byte ∈ [comma, closeBracket, closeBrace, 10]

/-- A number whose text fits into `num_buf` and has no NUL. -/
structure Numbers.Printable (numbers : Numbers ν) (n : ν) : Prop where
  short : (numbers.sprintf n).length < numBufSize
  clean : 0 ∉ numbers.sprintf n

/-- A number that is read from its text. -/
def Numbers.ReadBack (numbers : Numbers ν) (n : ν) : Prop :=
  ∀ rest, Stops rest → WrittenNumber numbers (numbers.sprintf n ++ rest) n rest

/-- Values that the serializer prints: no name is used twice or has a NUL, and every
number can be printed. -/
structure Serializable (numbers : Numbers ν) (value : Value ν) : Prop where
  named : value.Everywhere (Value.Named (0 ∉ ·))
  printable : value.Everywhere (Value.NumberIs numbers.Printable)

/-- A text that is printed for a value, and from which the value can be read if its
numbers can be read from theirs. -/
structure Serialized (numbers : Numbers ν) (layout : Layout) (value : Value ν) (level : Nat)
    (text : List UInt8) : Prop where
  prints : Prints (jsonSerializeToBufferR numbers layout value level) text true
  short : text.length ≤ textBound value level
  clean : 0 ∉ text
  derives : value.Everywhere (Value.NumberIs numbers.ReadBack) → ∀ d rest, value.depth ≤ d →
    Stops rest → Derives (lexicon numbers) d (.value value) (text ++ rest) rest

/-- No bytes are white space. -/
theorem blank_nil : (lexicon numbers).Blank [] := fun _ member => (List.not_mem_nil member).elim

/-- A byte that ends a value ends it, whatever is behind. -/
theorem Stops.cons {byte : UInt8} (stop : byte ∈ [comma, closeBracket, closeBrace, 10]) :
    Stops (byte :: rest) := by
  rintro _ head
  obtain rfl := Option.some.inj head
  exact stop

/-- White space has no NUL. -/
theorem blank_clean {blanks : List UInt8} (blank : (lexicon numbers).Blank blanks) : 0 ∉ blanks :=
  fun member => Bool.false_ne_true (blank 0 member)

/-- White space under a condition is white space. -/
theorem blank_if (condition : Bool) {blanks : List UInt8} (blank : (lexicon numbers).Blank blanks) :
    (lexicon numbers).Blank (if condition then blanks else []) := by
  cases condition with
  | true => exact blank
  | false => exact blank_nil

/-- White space behind white space is white space. -/
theorem blank_append {blanks blanks' : List UInt8} (blank : (lexicon numbers).Blank blanks)
    (blank' : (lexicon numbers).Blank blanks') : (lexicon numbers).Blank (blanks ++ blanks') :=
  fun byte member => (List.mem_append.mp member).elim (blank byte) (blank' byte)

/-- A line end is white space. -/
theorem blank_line (numbers : Numbers ν) : (lexicon numbers).Blank (ascii "\n") := by
  intro byte member
  obtain rfl := List.mem_singleton.mp member
  rfl

/-- A space is white space. -/
theorem blank_space (numbers : Numbers ν) : (lexicon numbers).Blank (ascii " ") := by
  intro byte member
  obtain rfl := List.mem_singleton.mp member
  rfl

/-- The indent of a level is four bytes of white space for each one. -/
theorem prints_appendIndent (numbers : Numbers ν) (level : Nat) :
    ∃ blanks, Prints (appendIndent level) blanks false ∧ (lexicon numbers).Blank blanks ∧
      blanks.length = 4 * level := by
  induction level with
  | zero => exact ⟨[], prints_nothing, blank_nil, rfl⟩
  | succ level ih =>
      obtain ⟨blanks, prints, blank, long⟩ := ih
      refine ⟨ascii "    " ++ blanks, (prints_string _).andThen prints, blank_append ?_ blank, ?_⟩
      case refine_2 =>
        rw [List.length_append, long, Nat.mul_add, Nat.add_comm]
        rfl
      intro byte member
      obtain rfl : byte = 32 := List.eq_of_mem_replicate (n := 4) member
      rfl

/-- What is behind the last item or member. -/
theorem stops_line (rest : List UInt8) {after : List UInt8} {stop : UInt8}
    (isStop : stop ∈ [comma, closeBracket, closeBrace, 10])
    (compact : layout.isPretty = false → after = []) :
    Stops ((if layout.isPretty = true then ascii "\n" else []) ++ after ++ stop :: rest) := by
  cases pretty : layout.isPretty with
  | true => exact .cons (by decide)
  | false =>
      rw [compact pretty]
      exact .cons isStop

/-- Items follow white space as well. -/
theorem items_blank {blanks : List UInt8} {items : List (Value ν)}
    (blank : (lexicon numbers).Blank blanks)
    (derives : Derives (lexicon numbers) d (.items items) text rest) :
    Derives (lexicon numbers) d (.items items) (blanks ++ text) rest := by
  rw [← items_skip_iff, skip_blank blank]
  exact items_skip_iff.mpr derives

/-- The loop over the items prints a text that stands for them in front of a bracket. -/
theorem prints_items {items : List (Value ν)}
    (each : ∀ item ∈ items, ∀ level, ∃ text, Serialized numbers layout item level text)
    (nonempty : items ≠ []) (level : Nat) :
    ∃ text terminated, Prints (serializeItems numbers layout items level) text terminated ∧
      text.length ≤ itemsBound items (level + 1) ∧ 0 ∉ text ∧ ∀ d after rest,
        (∀ item ∈ items, item.Everywhere (Value.NumberIs numbers.ReadBack)) →
        (∀ item ∈ items, item.depth ≤ d) → (lexicon numbers).Blank after →
        (layout.isPretty = false → after = []) →
        Derives (lexicon numbers) d (.items items) (text ++ (after ++ closeBracket :: rest)) rest := by
  obtain ⟨indent, printsIndent, blankIndent, indentLong⟩ :=
    prints_appendIndent numbers (level + 1)
  obtain ⟨_, printsIndent⟩ := prints_if layout.isPretty printsIndent
  obtain ⟨_, printsLine⟩ := prints_if layout.isPretty (prints_string (ascii "\n"))
  have blankBefore := blank_if layout.isPretty blankIndent
  have blankLine := blank_if layout.isPretty (blank_line numbers)
  have shortIndent := length_if_le layout.isPretty indent
  have shortLine : _ ≤ 1 := length_if_le layout.isPretty (ascii "\n")
  induction items with
  | nil => exact absurd rfl nonempty
  | cons item items ih =>
      obtain ⟨here, others⟩ := List.forall_mem_cons.mp each
      obtain ⟨itemText, printsItem, shortItem, cleanItem, derivesItem⟩ := here (level + 1)
      cases items with
      | nil =>
          refine ⟨_, _, printsIndent.andThen (printsItem.andThen (prints_nothing.andThen
            (printsLine.andThen prints_nothing))), ?_, ?_,
            fun d after rest readBack shallow blankAfter compact => ?_⟩
          · simp only [List.length_append, List.length_nil, itemsBound]
            omega
          · simp [cleanItem, blank_clean blankBefore, blank_clean blankLine]
          have written := Derives.lastItem blankBefore
            (derivesItem (readBack item List.mem_cons_self) d _ (shallow item List.mem_cons_self)
              (stops_line rest (by decide) compact))
            (blank_append blankLine blankAfter)
          simpa only [List.append_assoc, List.nil_append, List.append_nil] using written
      | cons next items =>
          obtain ⟨later, _, printsLater, shortLater, cleanLater, derivesLater⟩ :=
            ih others (List.cons_ne_nil _ _)
          have isComma : ascii "," = [comma] := rfl
          refine ⟨_, _, printsIndent.andThen (printsItem.andThen ((prints_string _).andThen
            (printsLine.andThen printsLater))), ?_, ?_,
            fun d after rest readBack shallow blankAfter compact => ?_⟩
          · rw [itemsBound]
            simp only [List.length_append, isComma, List.length_singleton]
            omega
          · simp [cleanItem, cleanLater, blank_clean blankBefore, blank_clean blankLine]
            decide
          obtain ⟨shallowHere, shallowLater⟩ := List.forall_mem_cons.mp shallow
          obtain ⟨readHere, readLater⟩ := List.forall_mem_cons.mp readBack
          have inside := items_blank blankLine
            (derivesLater d after rest readLater shallowLater blankAfter compact)
          have written := Derives.item blankBefore
            (derivesItem readHere d _ shallowHere (.cons (by decide))) blank_nil inside
          simpa only [List.append_assoc, isComma, List.nil_append, List.cons_append] using written

/-- There is one printer for each member. -/
theorem memberPrinters_eq_map (members : List (Member ν)) (level : Nat) :
    memberPrinters numbers layout members level =
      members.map fun member => (member.1, jsonSerializeToBufferR numbers layout member.2 level) := by
  induction members with
  | nil => rfl
  | cons member members ih => rw [memberPrinters, ih, List.map_cons]

/-- Among distinct names the value of a name is the one at its place. -/
theorem printNamed_of_mem {members : List (Member ν)} {name : List UInt8} {value : Value ν}
    (distinct : (members.map Prod.fst).Nodup) (member : (name, value) ∈ members) :
    printNamed name (memberPrinters numbers layout members level) =
      jsonSerializeToBufferR numbers layout value level := by
  have inside : (name, jsonSerializeToBufferR numbers layout value level) ∈
      memberPrinters numbers layout members level := by
    rw [memberPrinters_eq_map]
    exact List.mem_map_of_mem member
  have distinct' :
      KeyedList.Distinct Prod.fst (memberPrinters numbers layout members level) := by
    rw [memberPrinters_eq_map, KeyedList.Distinct, List.map_map]
    exact distinct
  rw [printNamed, KeyedList.find_of_mem distinct' inside]
  rfl

/-- The loop over the names prints a text that stands for the members in front of a brace. -/
theorem prints_members {members : List (Member ν)} {printers : List (List UInt8 × Printer)}
    (own : ∀ member ∈ members, printNamed member.1 printers =
      jsonSerializeToBufferR numbers layout member.2 (level + 1))
    (each : ∀ member ∈ members, ∀ level, ∃ text, Serialized numbers layout member.2 level text)
    (admitted : ∀ member ∈ members, 0 ∉ member.1) (nonempty : members ≠ []) :
    ∃ blanks text terminated, (lexicon numbers).Blank blanks ∧
      Prints (serializeNames layout level printers (members.map Prod.fst)) (blanks ++ text) terminated ∧
      (blanks ++ text).length ≤ membersBound members (level + 1) ∧ 0 ∉ text ∧ ∀ d after rest,
        (∀ member ∈ members, member.2.Everywhere (Value.NumberIs numbers.ReadBack)) →
        (∀ member ∈ members, member.2.depth ≤ d) → (lexicon numbers).Blank after →
        (layout.isPretty = false → after = []) →
        Derives (lexicon numbers) d (.members members) (text ++ (after ++ closeBrace :: rest)) rest := by
  obtain ⟨indent, printsIndent, blankIndent, indentLong⟩ :=
    prints_appendIndent numbers (level + 1)
  obtain ⟨_, printsIndent⟩ := prints_if layout.isPretty printsIndent
  obtain ⟨_, printsSpace⟩ := prints_if layout.isPretty (prints_string (ascii " "))
  obtain ⟨_, printsLine⟩ := prints_if layout.isPretty (prints_string (ascii "\n"))
  have blankBefore := blank_if layout.isPretty blankIndent
  have blankSpace := blank_if layout.isPretty (blank_space numbers)
  have blankLine := blank_if layout.isPretty (blank_line numbers)
  have shortIndent := length_if_le layout.isPretty indent
  have shortSpace : _ ≤ 1 := length_if_le layout.isPretty (ascii " ")
  have shortLine : _ ≤ 1 := length_if_le layout.isPretty (ascii "\n")
  have isColon : ascii ":" = [colon] := rfl
  induction members with
  | nil => exact absurd rfl nonempty
  | cons member members ih =>
      obtain ⟨name, value⟩ := member
      obtain ⟨here, others⟩ := List.forall_mem_cons.mp each
      obtain ⟨ownHere, ownOthers⟩ := List.forall_mem_cons.mp own
      obtain ⟨admittedHere, admittedOthers⟩ := List.forall_mem_cons.mp admitted
      obtain ⟨valueText, printsValue, shortValue, cleanValue, derivesValue⟩ := here (level + 1)
      obtain ⟨raw, printsName, chars, shortName⟩ := prints_jsonSerializeString layout name
      rw [← ownHere] at printsValue
      cases members with
      | nil =>
          refine ⟨_, _, _, blankBefore, printsIndent.andThen (printsName.andThen
            ((prints_string _).andThen (printsSpace.andThen (printsValue.andThen
              (prints_nothing.andThen (printsLine.andThen prints_nothing)))))),
            ?_, ?_, fun d after rest readBack shallow blankAfter compact => ?_⟩
          · dsimp only at shortValue
            simp only [List.length_append, List.length_cons, List.length_nil, isColon, membersBound]
            omega
          · simp [chars.clean, cleanValue, blank_clean blankSpace, blank_clean blankLine]
            decide
          have written := Derives.lastMember chars admittedHere blank_nil blankSpace
            (derivesValue (readBack _ List.mem_cons_self) d _ (shallow _ List.mem_cons_self)
              (stops_line rest (by decide) compact))
            (blank_append blankLine blankAfter)
          simpa only [List.append_assoc, isColon, List.nil_append, List.append_nil,
            List.cons_append] using written
      | cons next members =>
          obtain ⟨blanks, later, _, blank, printsLater, shortLater, cleanLater, derivesLater⟩ :=
            ih ownOthers others admittedOthers (List.cons_ne_nil _ _)
          have isComma : ascii "," = [comma] := rfl
          refine ⟨_, _, _, blankBefore, printsIndent.andThen (printsName.andThen
            ((prints_string _).andThen (printsSpace.andThen (printsValue.andThen
              ((prints_string _).andThen (printsLine.andThen printsLater)))))),
            ?_, ?_, fun d after rest readBack shallow blankAfter compact => ?_⟩
          · dsimp only at shortValue
            rw [membersBound]
            rw [List.length_append] at shortLater
            simp only [List.length_append, List.length_cons, List.length_nil, isColon, isComma]
            omega
          · simp [chars.clean, cleanValue, cleanLater, blank_clean blankSpace, blank_clean blankLine,
              blank_clean blank]
            decide
          obtain ⟨shallowHere, shallowLater⟩ := List.forall_mem_cons.mp shallow
          obtain ⟨readHere, readLater⟩ := List.forall_mem_cons.mp readBack
          have written := Derives.member chars admittedHere blank_nil
            blankSpace (derivesValue readHere d _ shallowHere (.cons (by decide))) blank_nil
            (blank_append blankLine blank)
            (derivesLater d after rest readLater shallowLater blankAfter compact)
          simpa only [List.append_assoc, isColon, isComma, List.nil_append, List.cons_append]
            using written

/-- Brackets are printed around their contents, with white space on the inside. -/
theorem prints_brackets (numbers : Numbers ν) {opening closing inside : List UInt8}
    {printer : Printer} {count : Nat} {terminated : Bool} (prints : Prints printer inside terminated) :
    ∃ before after, Prints (serializeBrackets layout level count opening closing printer)
        (opening ++ (before ++ (inside ++ (after ++ closing)))) true ∧
      (lexicon numbers).Blank before ∧ (lexicon numbers).Blank after ∧
      (before ++ after).length ≤ 4 * level + 1 ∧ (layout.isPretty = false → after = []) := by
  obtain ⟨indent, printsIndent, blankIndent, long⟩ := prints_appendIndent numbers level
  obtain ⟨_, printsIndent⟩ := prints_if (count > 0 && layout.isPretty) printsIndent
  obtain ⟨_, printsLine⟩ :=
    prints_if (count > 0 && layout.isPretty) (prints_string (ascii "\n"))
  refine ⟨_, _, (prints_string _).andThen (printsLine.andThen (prints.andThen
    (printsIndent.andThen (prints_string _)))), blank_if _ (blank_line _), blank_if _ blankIndent,
    ?_, fun compact => ?_⟩
  · have line : _ ≤ 1 := length_if_le (count > 0 && layout.isPretty) (ascii "\n")
    have blanks := length_if_le (count > 0 && layout.isPretty) indent
    rw [List.length_append]
    omega
  · rw [compact, Bool.and_false]
    rfl

/-- A number whose text fits `num_buf` is printed as that text. -/
theorem prints_serializeNumber {n : ν} (short : (numbers.sprintf n).length < numBufSize) :
    Prints (serializeNumber numbers n) (numbers.sprintf n) true := by
  constructor
  · intro block
    have fits : 0 + (numbers.sprintf n ++ [0]).length ≤ (List.replicate numBufSize (0 : UInt8)).length := by
      simp only [List.length_append, List.length_singleton, List.length_replicate]
      omega
    rw [serializeNumber, storeAt, if_pos fits]
    rfl
  · exact (prints_string (numbers.sprintf n)).write

/-- An array is serialized if its items are. -/
theorem serialized_array {items : List (Value ν)}
    (each : ∀ item ∈ items, ∀ level, ∃ text, Serialized numbers layout item level text)
    (level : Nat) : ∃ text, Serialized numbers layout (.array items) level text := by
  have opening : ascii "[" = [openBracket] := rfl
  have closing : ascii "]" = [closeBracket] := rfl
  by_cases none : items = []
  · subst none
    obtain ⟨before, after, prints, blankBefore, blankAfter, short, -⟩ :=
      prints_brackets numbers prints_nothing
    refine ⟨_, prints, ?_, ?_, fun _ d rest _ _ => ?_⟩
    · rw [List.length_append] at short
      simp only [List.length_append, opening, closing, List.length_singleton, List.length_nil,
        textBound, itemsBound]
      omega
    · simp [blank_clean blankBefore, blank_clean blankAfter]
      decide
    · have written := @Derives.emptyArray _ (lexicon numbers) d _ rest
        (blank_append blankBefore blankAfter)
      simpa only [List.append_assoc, opening, closing, List.cons_append, List.nil_append]
        using written
  · obtain ⟨inside, _, prints, shortItems, clean, derives⟩ := prints_items each none level
    obtain ⟨before, after, printsAll, blankBefore, blankAfter, short, compact⟩ :=
      prints_brackets numbers prints
    refine ⟨_, printsAll, ?_, ?_, fun readBack d rest shallow stops => ?_⟩
    · rw [List.length_append] at short
      rw [textBound]
      simp only [List.length_append, opening, closing, List.length_singleton]
      omega
    · simp [clean, blank_clean blankBefore, blank_clean blankAfter]
      decide
    · rw [Value.depth_array_le_iff] at shallow
      obtain ⟨item, member⟩ := List.exists_mem_of_ne_nil items none
      obtain ⟨d, rfl⟩ : ∃ d', d = d' + 1 :=
        Nat.exists_eq_add_one.mpr (Nat.lt_of_lt_of_le (Nat.succ_pos _) (shallow item member))
      have written := Derives.array (items_blank blankBefore
        (derives d after rest (Value.everywhere_array.mp readBack).2
          (fun item member => Nat.le_of_succ_le_succ (shallow item member)) blankAfter compact))
      simpa only [List.append_assoc, opening, closing, List.cons_append, List.nil_append]
        using written

/-- An object whose names are used once and have no NUL is serialized if its values are. -/
theorem serialized_object {members : List (Member ν)}
    (distinct : (members.map Prod.fst).Nodup) (admitted : ∀ member ∈ members, 0 ∉ member.1)
    (each : ∀ member ∈ members, ∀ level, ∃ text, Serialized numbers layout member.2 level text)
    (level : Nat) : ∃ text, Serialized numbers layout (.object members) level text := by
  have opening : ascii "\x7b" = [openBrace] := rfl
  have closing : ascii "\x7d" = [closeBrace] := rfl
  by_cases none : members = []
  · subst none
    obtain ⟨before, after, prints, blankBefore, blankAfter, short, -⟩ :=
      prints_brackets numbers prints_nothing
    refine ⟨_, prints, ?_, ?_, fun _ d rest _ _ => ?_⟩
    · rw [List.length_append] at short
      simp only [List.length_append, opening, closing, List.length_singleton, List.length_nil,
        textBound, membersBound]
      omega
    · simp [blank_clean blankBefore, blank_clean blankAfter]
      decide
    · have written := @Derives.emptyObject _ (lexicon numbers) d _ rest
        (blank_append blankBefore blankAfter)
      simpa only [List.append_assoc, opening, closing, List.cons_append, List.nil_append]
        using written
  · have own : ∀ member ∈ members, printNamed member.1
        (memberPrinters numbers layout members (level + 1)) =
          jsonSerializeToBufferR numbers layout member.2 (level + 1) := fun member inside =>
      printNamed_of_mem distinct inside
    obtain ⟨indent, inside, _, blankIndent, prints, shortMembers, clean, derives⟩ :=
      prints_members own each admitted none
    obtain ⟨before, after, printsAll, blankBefore, blankAfter, short, compact⟩ :=
      prints_brackets numbers prints
    refine ⟨_, printsAll, ?_, ?_, fun readBack d rest shallow stops => ?_⟩
    · rw [List.length_append] at short shortMembers
      rw [textBound]
      simp only [List.length_append, opening, closing, List.length_singleton]
      omega
    · simp [clean, blank_clean blankBefore, blank_clean blankAfter, blank_clean blankIndent]
      decide
    · rw [Value.depth_object_le_iff] at shallow
      obtain ⟨member, here⟩ := List.exists_mem_of_ne_nil members none
      obtain ⟨d, rfl⟩ : ∃ d', d = d' + 1 :=
        Nat.exists_eq_add_one.mpr (Nat.lt_of_lt_of_le (Nat.succ_pos _) (shallow member here))
      have written := Derives.object (blank_append blankBefore blankIndent) distinct
        (derives d after rest (Value.everywhere_object.mp readBack).2
          (fun member here => Nat.le_of_succ_le_succ (shallow member here)) blankAfter compact)
      simpa only [List.append_assoc, opening, closing, List.cons_append, List.nil_append]
        using written

/-- The serializer prints a text from which the value can be read. -/
theorem exists_serialized (layout : Layout) {value : Value ν}
    (serializable : Serializable numbers value) (level : Nat) :
    ∃ text, Serialized numbers layout value level text := by
  obtain ⟨named, printable⟩ := serializable
  induction value using Value.induction generalizing level with
  | null => exact ⟨_, prints_string _, Nat.le_refl 4, by decide, fun _ _ _ _ _ => .nullWord⟩
  | boolean value =>
      cases value with
      | true =>
          exact ⟨_, prints_string _, Nat.le_succ 4, by decide, fun _ _ _ _ _ => .trueWord⟩
      | false =>
          exact ⟨_, prints_string _, Nat.le_refl 5, by decide, fun _ _ _ _ _ => .falseWord⟩
  | number n =>
      have known : numbers.Printable n := Value.everywhere_number.mp printable
      exact ⟨_, prints_serializeNumber known.short, known.short.le, known.clean,
        fun readBack _ rest _ stops =>
          .number (Value.everywhere_number.mp readBack rest stops)⟩
  | string bytes =>
      obtain ⟨raw, prints, chars, short⟩ := prints_jsonSerializeString layout bytes
      refine ⟨_, prints, ?_, ?_, fun _ d rest _ _ => ?_⟩
      · simp only [List.length_cons, List.length_append, List.length_nil, textBound]
        omega
      · simp [chars.clean]
        decide
      · rw [List.cons_append, List.append_assoc, List.singleton_append]
        exact .string chars
  | array items ih =>
      obtain ⟨-, named⟩ := Value.everywhere_array.mp named
      obtain ⟨-, printable⟩ := Value.everywhere_array.mp printable
      exact serialized_array (fun item member level =>
        ih item member level (named item member) (printable item member)) level
  | object members ih =>
      obtain ⟨⟨distinct, admitted⟩, named⟩ := Value.everywhere_object.mp named
      obtain ⟨-, printable⟩ := Value.everywhere_object.mp printable
      exact serialized_object distinct admitted (fun member inside level =>
        ih member inside level (named member inside) (printable member inside)) level

variable {value : Value ν} {parsonMalloc : Nat → List UInt8}

/-! ### The functions of the library -/

/-- The length of the text of a value is an `int`. -/
def Counted (numbers : Numbers ν) (layout : Layout) (value : Value ν) : Prop :=
  ∀ text, Prints (jsonSerializeToBufferR numbers layout value 0) text true → text.length < 2 ^ 31

/-- A value is counted if the bound of its text is an `int`. -/
theorem counted_of_textBound (layout : Layout) (serializable : Serializable numbers value)
    (short : textBound value 0 < 2 ^ 31) : Counted numbers layout value := by
  intro text prints
  obtain ⟨text', serialized⟩ := exists_serialized layout serializable 0
  rw [prints.length_unique serialized.prints]
  exact Nat.lt_of_le_of_lt serialized.short short

/-- The size is that of the text that is printed. -/
theorem size_of_prints (prints : Prints (jsonSerializeToBufferR numbers layout value 0) text true) :
    jsonSerializationSize numbers layout value =
      if text.length < 2 ^ 31 then some (text.length + 1) else none := by
  rw [jsonSerializationSize, prints.size]
  rfl

/-- The buffer gets the text that is printed, if it has room. -/
theorem toBuffer_of_prints
    (prints : Prints (jsonSerializeToBufferR numbers layout value 0) text true)
    (counted : text.length < 2 ^ 31) (buf : List UInt8) :
    jsonSerializeToBuffer numbers layout value buf =
      some (if text.length < buf.length then (true, text ++ 0 :: buf.drop (text.length + 1))
        else (false, buf)) := by
  rw [jsonSerializeToBuffer, size_of_prints prints, if_pos counted, Option.bind_some]
  by_cases large : text.length < buf.length
  · rw [if_neg (by omega), prints.fill large, if_pos large]
    rfl
  · rw [if_pos (by omega), if_neg large]

/-- The block is filled with the text that is printed. -/
theorem toString_of_prints
    (prints : Prints (jsonSerializeToBufferR numbers layout value 0) text true)
    (counted : text.length < 2 ^ 31) (sized : ∀ n, (parsonMalloc n).length = n) :
    jsonSerializeToString numbers layout parsonMalloc value = some (some (text ++ [0])) := by
  have nothing : (parsonMalloc (text.length + 1)).drop (text.length + 1) = [] := by
    rw [List.drop_eq_nil_iff, sized]
  rw [jsonSerializeToString, size_of_prints prints, if_pos counted, Option.bind_some,
    if_neg (by omega), toBuffer_of_prints prints counted, if_pos (by rw [sized]; omega), nothing]
  rfl

/-- A text without NUL is the string up to the NUL behind it. -/
theorem cString_terminated (clean : 0 ∉ text) : cString (text ++ 0 :: rest) = text := by
  have stops : (0 :: rest).takeWhile (fun byte => byte ≠ 0) = [] := by simp
  rw [cString, List.takeWhile_append_of_pos, stops, List.append_nil]
  intro byte member
  have nonzero : byte ≠ 0 := by
    rintro rfl
    exact clean member
  simpa using nonzero

/-- Both passes of the serializer agree, and as long as the length of the text is an `int` no
byte is stored outside of the block: `json_serialize_to_buffer` either finds the buffer too
small and leaves it as it was, or puts the text and its NUL in front of what stays, and the
block of `json_serialize_to_string` is filled to its end. -/
theorem serializer_stays_inside (layout : Layout) (serializable : Serializable numbers value) :
    ∃ text, Prints (jsonSerializeToBufferR numbers layout value 0) text true ∧ 0 ∉ text ∧
      jsonSerializationSize numbers layout value =
        (if text.length < 2 ^ 31 then some (text.length + 1) else none) ∧
      (text.length < 2 ^ 31 →
        (∀ buf, jsonSerializeToBuffer numbers layout value buf =
          some (if text.length < buf.length then (true, text ++ 0 :: buf.drop (text.length + 1))
            else (false, buf))) ∧
        ∀ parsonMalloc : Nat → List UInt8, (∀ n, (parsonMalloc n).length = n) →
          jsonSerializeToString numbers layout parsonMalloc value = some (some (text ++ [0]))) := by
  obtain ⟨text, serialized⟩ := exists_serialized layout serializable 0
  exact ⟨text, serialized.prints, serialized.clean, size_of_prints serialized.prints,
    fun counted => ⟨toBuffer_of_prints serialized.prints counted,
      fun _ sized => toString_of_prints serialized.prints counted sized⟩⟩

/-- A text that starts like a value has no byte order mark. -/
theorem afterMark_value (derives : Derives (lexicon numbers) d (.value value) text rest) :
    afterMark text = text := by
  obtain ⟨byte, behind, rfl, starts⟩ := starts_value derives
  refine if_neg fun marked => ?_
  rw [List.take_succ_cons] at marked
  obtain ⟨rfl, -⟩ := List.cons.inj marked
  rcases starts with listed | digit
  · revert listed
    decide
  · revert digit
    decide

/-- What the serializer prints, if its length is an `int`, is parsed as the same value, as
long as the value is not nested too deep for the parser; the serializer has no such limit. -/
theorem parse_serialize_iff (layout : Layout) (serializable : Serializable numbers value)
    (counted : Counted numbers layout value)
    (readBack : value.Everywhere (Value.NumberIs numbers.ReadBack))
    (sized : ∀ n, (parsonMalloc n).length = n) :
    ∃ block, jsonSerializeToString numbers layout parsonMalloc value = some (some block) ∧
      (cString block).length ≤ textBound value 0 ∧
      (jsonParseString numbers (cString block) = some value ↔ value.depth ≤ maxNesting) := by
  obtain ⟨text, serialized⟩ := exists_serialized layout serializable 0
  refine ⟨_, toString_of_prints serialized.prints (counted text serialized.prints) sized, ?_⟩
  rw [cString_terminated serialized.clean]
  refine ⟨serialized.short, ?_⟩
  have ends : Stops [] := fun _ head => nomatch head
  constructor
  · intro parsed
    obtain ⟨_, _, _, _, _, derives⟩ := derives_of_parsed parsed
    exact derives.depth_le value List.mem_cons_self
  · intro shallow
    have derives := serialized.derives readBack maxNesting [] shallow ends
    rw [List.append_nil] at derives
    have same : afterMark text = [] ++ text := afterMark_value derives
    exact parsed_of_derives same blank_nil derives

end

end CommunicationProtocols.Parson
