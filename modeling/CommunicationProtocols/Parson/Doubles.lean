import CommunicationProtocols.Library.FloatText
import CommunicationProtocols.Parson.Serializer

/-!
# Documents with doubles

The numbers of the parser and the serializer are doubles, printed with `FLOAT_FORMAT`
and read by `strtod`. A document is parsed back from its text if its numbers are zero
or normal; the text of a number below the normal ones makes the parser fail.
-/

namespace CommunicationProtocols.Parson

open Library Library.Json

/-- What the C library does with doubles. -/
def doubles : Numbers Binary64 where
  strtod := FloatText.strtod
  isNumberInvalid
    | .finite _ _ => false
    | _ => true
  sprintf := FloatText.print

/-- A double that is zero or normal. -/
def Readable : Binary64 → Prop
  | .finite _ x => x.mantissa = 0 ∨ x.Normal
  | _ => False

variable {x : Magnitude} {negative : Bool} {rest : List UInt8}

/-- What ends a value ends the text of a number, too. -/
theorem Stops.number (stops : Stops rest) : FloatText.Stops rest := by
  intro byte head
  have stop := stops byte head
  simp only [List.mem_cons, List.not_mem_nil, or_false] at stop
  rcases stop with rfl | rfl | rfl | rfl <;> decide

/-- What is printed passes `is_decimal`: it has no `x`, and a zero in front has nothing or a
point behind it. -/
theorem isDecimal_print (x : Magnitude) (negative : Bool) (rest : List UInt8) :
    isDecimal (FloatText.print (.finite negative x) ++ rest)
      (FloatText.print (.finite negative x)).length = true := by
  obtain ⟨⟨first, others, same, isFirst, alone⟩, bytes⟩ := FloatText.plain_magnitudeText x
  have noX : ∀ byte ∈ FloatText.print (.finite negative x), byte ≠ 120 ∧ byte ≠ 88 := by
    have plain (byte : UInt8) (kind : Decimal.isDigit byte = true ∨ byte ∈ [46, 101, 43, 45]) :
        byte ≠ 120 ∧ byte ≠ 88 := by
      constructor
      · rintro rfl
        exact absurd kind (by decide)
      · rintro rfl
        exact absurd kind (by decide)
    intro byte member
    rcases List.mem_append.mp member with minus | own
    · split_ifs at minus
      · exact plain byte (.inr (by rw [List.mem_singleton.mp minus]; decide))
      · cases minus
    · exact plain byte (bytes byte own)
  rw [isDecimal, List.take_left, if_neg, if_neg, List.all_eq_true]
  · intro byte member
    simpa using noX byte member
  · rintro ⟨long, minusZero, noPoint⟩
    cases negative with
    | true =>
        simp only [FloatText.print, if_true, same, List.singleton_append, List.length_cons] at *
        obtain rfl : first = 48 := by simpa using minusZero
        rcases alone rfl with rfl | ⟨more, rfl⟩
        · simp at long
        · simp at noPoint
    | false =>
        simp only [FloatText.print, same] at minusZero
        obtain ⟨rfl, -⟩ := List.cons.inj minusZero
        cases isFirst
  · rintro ⟨long, zero, noPoint⟩
    cases negative with
    | true => simp [FloatText.print] at zero
    | false =>
        simp only [FloatText.print, same] at *
        obtain rfl : first = 48 := by simpa using zero
        rcases alone rfl with rfl | ⟨more, rfl⟩
        · simp at long
        · simp at noPoint

/-- A printed number fits `num_buf`. -/
theorem length_print (x : Magnitude) (negative : Bool) :
    (FloatText.print (.finite negative x)).length < numBufSize := by
  have short := FloatText.length_magnitudeText_le x
  have size : numBufSize = 64 := rfl
  rw [FloatText.print, List.length_append]
  split_ifs
  · rw [List.length_singleton]
    omega
  · rw [List.length_nil]
    omega

/-- The printed text of a double has no NUL. -/
theorem clean_print (x : Magnitude) (negative : Bool) : 0 ∉ FloatText.print (.finite negative x) := by
  obtain ⟨-, bytes⟩ := FloatText.plain_magnitudeText x
  intro zero
  rcases List.mem_append.mp zero with minus | own
  · split_ifs at minus
    · exact absurd (List.mem_singleton.mp minus) (by decide)
    · cases minus
  · exact absurd (bytes 0 own) (by decide)

/-- A text of a double starts like a number. -/
theorem starts_print (x : Magnitude) (negative : Bool) :
    ∃ byte others, FloatText.print (.finite negative x) = byte :: others ∧
      (byte = 45 ∨ Decimal.isDigit byte = true) := by
  obtain ⟨⟨first, others, same, isFirst, -⟩, -⟩ := FloatText.plain_magnitudeText x
  cases negative with
  | true => exact ⟨45, _, rfl, .inl rfl⟩
  | false => exact ⟨first, others, by rw [FloatText.print, same]; rfl, .inr isFirst⟩

/-- A double that is not infinite and not a NaN. -/
def Finite : Binary64 → Prop
  | .finite _ _ => True
  | _ => False

/-- Finite doubles are all that the library keeps, and all of them can be printed. -/
theorem finite_of_valid {n : Binary64} (valid : doubles.isNumberInvalid n = false) : Finite n := by
  cases n with
  | finite => trivial
  | infinite | nan => cases valid

/-- Finite numbers pass the check of numbers. -/
theorem valid_of_finite {n : Binary64} (finite : Finite n) : doubles.isNumberInvalid n = false := by
  cases n with
  | infinite | nan => exact finite.elim
  | finite => rfl

/-- Finite numbers can be printed. -/
theorem printable_of_finite {n : Binary64} (finite : Finite n) : doubles.Printable n := by
  cases n with
  | infinite | nan => exact finite.elim
  | finite negative x => exact ⟨length_print x negative, clean_print x negative⟩

/-- A double that is zero or normal is read from its text. -/
theorem readBack_of_readable {n : Binary64} (readable : Readable n) : doubles.ReadBack n := by
  cases n with
  | infinite | nan => exact readable.elim
  | finite negative x =>
      refine fun rest stops => ⟨?_, ?_⟩
      · obtain ⟨byte, others, same, start⟩ := starts_print x negative
        refine ⟨byte, ?_, start⟩
        exact congrArg (fun text => (text ++ rest).head?) same
      · exact ⟨_, FloatText.strtod_print readable negative stops.number,
          isDecimal_print x negative rest, rfl, List.drop_left.symm⟩

/-- A number that is read back is finite. -/
theorem finite_of_readable {n : Binary64} (readable : Readable n) : Finite n := by
  cases n with
  | infinite | nan => exact readable.elim
  | finite => trivial

variable {value : Value Binary64} {parsonMalloc : Nat → List UInt8}

/-- A value with finite numbers and names without NUL can be serialized. -/
theorem serializable_doubles (named : value.Everywhere (Value.Named (0 ∉ ·)))
    (finite : value.Everywhere (Value.NumberIs Finite)) : Serializable doubles value := by
  refine ⟨named, finite.mono fun part => ?_⟩
  cases part with
  | number n => exact printable_of_finite
  | _ => exact id

/-- A document whose numbers are zero or normal, whose names are used once in an object
and have no NUL, is parsed back from what the serializer prints, in every layout in which
the length of that is an `int`, exactly if it is not nested deeper than the parser goes. -/
theorem parse_serialize_doubles (layout : Layout)
    (named : value.Everywhere (Value.Named (0 ∉ ·)))
    (readable : value.Everywhere (Value.NumberIs Readable))
    (counted : Counted doubles layout value) (sized : ∀ n, (parsonMalloc n).length = n) :
    ∃ block, jsonSerializeToString doubles layout parsonMalloc value = some (some block) ∧
      (cString block).length ≤ textBound value 0 ∧
      (jsonParseString doubles (cString block) = some value ↔ value.depth ≤ maxNesting) := by
  have finite : value.Everywhere (Value.NumberIs Finite) := by
    refine readable.mono fun part => ?_
    cases part with
    | number n => exact finite_of_readable
    | _ => exact id
  refine parse_serialize_iff layout (serializable_doubles named finite) counted
    (readable.mono fun part => ?_) sized
  cases part with
  | number n => exact readBack_of_readable
  | _ => exact id

/-- A finite double is printed and parsed back exactly if it is zero or normal: on the text
of any other one `strtod` sets `errno`, and the parser gives up. -/
theorem parse_serialize_double_iff (layout : Layout) (negative : Bool) (x : Magnitude)
    (sized : ∀ n, (parsonMalloc n).length = n) :
    ∃ block,
      jsonSerializeToString doubles layout parsonMalloc (.number (.finite negative x)) =
        some (some block) ∧
      jsonParseString doubles (cString block) =
        if x.mantissa = 0 ∨ x.Normal then some (.number (.finite negative x)) else none := by
  have short : (doubles.sprintf (.finite negative x)).length < numBufSize :=
    length_print x negative
  have prints : Printer.Prints
      (jsonSerializeToBufferR doubles layout (.number (.finite negative x)) 0)
      (FloatText.print (.finite negative x)) true := prints_serializeNumber short
  have counted : (FloatText.print (.finite negative x)).length < 2 ^ 31 :=
    Nat.lt_trans short (by decide)
  refine ⟨_, toString_of_prints prints counted sized, ?_⟩
  rw [cString_terminated (clean_print x negative)]
  split_ifs with readable
  · have named : (Value.number (Binary64.finite negative x)).Everywhere (Value.Named (0 ∉ ·)) :=
      Value.everywhere_number.mpr trivial
    have countedValue : Counted doubles layout (.number (.finite negative x)) :=
      fun text prints' => by rwa [prints'.length_unique prints]
    obtain ⟨block, printed, -, parsed⟩ := parse_serialize_doubles layout named
      (Value.everywhere_number.mpr readable) countedValue sized
    rw [toString_of_prints prints counted sized] at printed
    obtain rfl := Option.some.inj (Option.some.inj printed)
    rw [cString_terminated (clean_print x negative)] at parsed
    exact parsed.mpr (Nat.zero_le _)
  · rw [not_or] at readable
    have failed := FloatText.strtod_subnormal readable.1 readable.2 negative
    refine Option.eq_none_iff_forall_ne_some.mpr fun value parsed => ?_
    obtain ⟨blanks, text, rest, same, blank, derives⟩ := derives_of_parsed parsed
    obtain ⟨byte, others, whole, start⟩ := starts_print x negative
    have visible : Decimal.isSpace byte = false ∧ byte ≠ 0xEF := by
      rcases start with rfl | digit
      · decide
      · refine ⟨Decimal.not_isSpace_of_isDigit digit, ?_⟩
        rintro rfl
        cases digit
    have noMark : afterMark (byte :: others) = byte :: others :=
      if_neg fun marked => visible.2 (List.cons.inj marked).1
    rw [whole, noMark] at same
    cases blanks with
    | nil =>
        obtain rfl : byte :: others = text := same
        have read := (parseNumberValue_eq_some_iff start).mpr derives
        rw [parseNumberValue, ← whole] at read
        simp [doubles, failed] at read
    | cons space blanks =>
        obtain ⟨rfl, -⟩ := List.cons.inj same
        exact Bool.false_ne_true (visible.1.symm.trans (blank byte List.mem_cons_self))

/-- The double 1. -/
def one : Magnitude := ⟨2 ^ 52, -52, by decide, by decide, by decide, .inl le_rfl⟩

theorem parse_serialize_one :
    ∃ block,
      jsonSerializeToString doubles ⟨true, true⟩ (List.replicate · 0)
        (.number (.finite false one)) = some (some block) ∧
      jsonParseString doubles (cString block) =
        if one.mantissa = 0 ∨ one.Normal then some (.number (.finite false one)) else none :=
  parse_serialize_double_iff ⟨true, true⟩ false one fun _ => List.length_replicate

end CommunicationProtocols.Parson
