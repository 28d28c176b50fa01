import CommunicationProtocols.Library.Decimal
import CommunicationProtocols.Parson.Objects
import CommunicationProtocols.Parson.Strings

/-!
# The parser

`parse_value` descends into arrays and objects with a counter of the nesting, and
every loop over items or members goes on as long as it finds a comma. A text is
given by the bytes in front of its NUL. What `strtod` and `sprintf` do with numbers
is a parameter.
-/

namespace CommunicationProtocols.Parson

open Library Library.Json

universe u

/-- What the C library does with numbers: `strtod` gives the number, how many bytes
it has read and whether it has set `errno`. -/
structure Numbers (ν : Type u) where
  strtod : List UInt8 → ν × Nat × Bool
  isNumberInvalid : ν → Bool
  sprintf : ν → List UInt8

/-- `MAX_NESTING`. -/
abbrev maxNesting : Nat := 2048

/-- `SKIP_WHITESPACES`. -/
def skipWhitespaces (string : List UInt8) : List UInt8 := string.dropWhile Decimal.isSpace

/-- `is_decimal`. -/
def isDecimal (string : List UInt8) (length : Nat) : Bool :=
  if length > 1 ∧ string[0]? = some 48 ∧ string[1]? ≠ some 46 then false
  else if length > 2 ∧ string.take 2 = [45, 48] ∧ string[2]? ≠ some 46 then false
  else (string.take length).all fun c => c ≠ 120 ∧ c ≠ 88

variable {ν : Type u}

/-- `parse_string_value`. -/
def parseStringValue (string : List UInt8) : Option (Value ν × List UInt8) :=
  (getQuotedString string).map fun (newString, rest) => (.string newString, rest)

/-- `parse_boolean_value`. -/
def parseBooleanValue (string : List UInt8) : Option (Value ν × List UInt8) :=
  if ascii "true" <+: string then some (.boolean true, string.drop 4)
  else if ascii "false" <+: string then some (.boolean false, string.drop 5)
  else none

/-- `parse_null_value`. -/
def parseNullValue (string : List UInt8) : Option (Value ν × List UInt8) :=
  if ascii "null" <+: string then some (.null, string.drop 4) else none

/-- `parse_number_value`. -/
def parseNumberValue (numbers : Numbers ν) (string : List UInt8) :
    Option (Value ν × List UInt8) :=
  let (number, length, errno) := numbers.strtod string
  if errno ∨ ¬isDecimal string length then none
  else if numbers.isNumberInvalid number then none
  else some (.number number, string.drop length)

/-- The loop of `parse_array_value`, which makes at most `rounds` rounds. -/
def arrayLoop (parse : List UInt8 → Option (Value ν × List UInt8)) :
    Nat → List UInt8 → List (Value ν) → Option (List (Value ν) × List UInt8)
  | 0, string, outputArray => some (outputArray, string)
  | rounds + 1, string, outputArray =>
      if string = [] then some (outputArray, string)
      else
        match parse string with
        | none => none
        | some (newArrayValue, string) =>
            let outputArray := outputArray ++ [newArrayValue]
            match skipWhitespaces string with
            | [] => some (outputArray, [])
            | byte :: rest =>
                if byte ≠ comma then some (outputArray, byte :: rest)
                else arrayLoop parse rounds (skipWhitespaces rest) outputArray

/-- `parse_array_value`, where `parse` is `parse_value` with the nesting. -/
def parseArrayValue (parse : List UInt8 → Option (Value ν × List UInt8)) :
    List UInt8 → Option (Value ν × List UInt8)
  | [] => none
  | byte :: rest =>
      if byte ≠ openBracket then none
      else
        let string := skipWhitespaces rest
        if string.head? = some closeBracket then some (.array [], string.tail)
        else
          match arrayLoop parse string.length string [] with
          | none => none
          | some (outputArray, string) =>
              let string := skipWhitespaces string
              if string.head? = some closeBracket then some (.array outputArray, string.tail)
              else none

/-- The loop of `parse_object_value`, which makes at most `rounds` rounds. -/
def objectLoop (parse : List UInt8 → Option (Value ν × List UInt8)) :
    Nat → List UInt8 → List (Member ν) → Option (List (Member ν) × List UInt8)
  | 0, string, outputObject => some (outputObject, string)
  | rounds + 1, string, outputObject =>
      if string = [] then some (outputObject, string)
      else
        match getQuotedString string with
        | none => none
        | some (newKey, string) =>
            -- `key_len != strlen(new_key)`
            if 0 ∈ newKey then none
            else
              let string := skipWhitespaces string
              if string.head? ≠ some colon then none
              else
                match parse string.tail with
                | none => none
                | some (newValue, string) =>
                    match jsonObjectAddn outputObject newKey newValue with
                    | none => none
                    | some outputObject =>
                        match skipWhitespaces string with
                        | [] => some (outputObject, [])
                        | byte :: rest =>
                            if byte ≠ comma then some (outputObject, byte :: rest)
                            else objectLoop parse rounds (skipWhitespaces rest) outputObject

/-- `parse_object_value`, where `parse` is `parse_value` with the nesting. -/
def parseObjectValue (parse : List UInt8 → Option (Value ν × List UInt8)) :
    List UInt8 → Option (Value ν × List UInt8)
  | [] => none
  | byte :: rest =>
      if byte ≠ openBrace then none
      else
        let string := skipWhitespaces rest
        if string.head? = some closeBrace then some (.object [], string.tail)
        else
          match objectLoop parse string.length string [] with
          | none => none
          | some (outputObject, string) =>
              let string := skipWhitespaces string
              if string.head? = some closeBrace then some (.object outputObject, string.tail)
              else none

/-- `parse_value`. -/
def parseValue (numbers : Numbers ν) (string : List UInt8) (nesting : Nat) :
    Option (Value ν × List UInt8) :=
  if nesting > maxNesting then none
  else
    let string := skipWhitespaces string
    match string with
    | [] => none
    | byte :: _ =>
        if byte = openBrace then
          parseObjectValue (fun string => parseValue numbers string (nesting + 1)) string
        else if byte = openBracket then
          parseArrayValue (fun string => parseValue numbers string (nesting + 1)) string
        else if byte = quote then parseStringValue string
        else if byte = 102 ∨ byte = 116 then parseBooleanValue string
        else if byte = 45 ∨ Decimal.isDigit byte then parseNumberValue numbers string
        else if byte = 110 then parseNullValue string
        else none
termination_by maxNesting + 1 - nesting

/-- `json_parse_string`: a byte order mark in front is skipped, and what is behind the
value is not looked at. -/
def jsonParseString (numbers : Numbers ν) (string : List UInt8) : Option (Value ν) :=
  let string := if string.take 3 = [0xEF, 0xBB, 0xBF] then string.drop 3 else string
  (parseValue numbers string 0).map Prod.fst

/-! ## The texts of the parser -/

/-- The texts that the parser reads as a number. They are its own and not those of the RFC: a
minus sign or a digit, then as much as `strtod` takes, if `is_decimal` lets it pass and the
value is one the parser keeps. So `-x` is the number zero in front of an `x`, `-.5` and `1.`
are numbers, and `0e5` and `1e-310` are none. -/
def WrittenNumber (numbers : Numbers ν) (text : List UInt8) (n : ν) (rest : List UInt8) : Prop :=
  (∃ byte, text.head? = some byte ∧ (byte = 45 ∨ Decimal.isDigit byte)) ∧
    ∃ length, numbers.strtod text = (n, length, false) ∧ isDecimal text length ∧
      numbers.isNumberInvalid n = false ∧ rest = text.drop length

/-- The lexicon of the parser: names have no NUL. -/
def lexicon (numbers : Numbers ν) : Lexicon ν where
  isSpace := Decimal.isSpace
  number := WrittenNumber numbers
  admits name := 0 ∉ name

variable {numbers : Numbers ν} {parse : List UInt8 → Option (Value ν × List UInt8)} {d rounds : Nat}
  {string text rest blanks : List UInt8} {byte : UInt8}

/-! ### White space -/

/-- White space in front is skipped. -/
theorem skip_blank (blank : (lexicon numbers).Blank blanks) :
    skipWhitespaces (blanks ++ text) = skipWhitespaces text :=
  List.dropWhile_append_of_pos blank

/-- A byte that is no white space is not skipped. -/
theorem skip_cons (other : Decimal.isSpace byte = false) :
    skipWhitespaces (byte :: rest) = byte :: rest := by
  rw [skipWhitespaces, List.dropWhile_cons_of_neg (by simp [other])]

/-- What is skipped is white space. -/
theorem exists_blank (numbers : Numbers ν) (string : List UInt8) :
    ∃ blanks, string = blanks ++ skipWhitespaces string ∧ (lexicon numbers).Blank blanks :=
  ⟨string.takeWhile Decimal.isSpace, List.takeWhile_append_dropWhile.symm,
    List.all_eq_true.mp List.all_takeWhile⟩

/-- What is left does not start with white space. -/
theorem skip_head (skipped : skipWhitespaces string = byte :: rest) :
    Decimal.isSpace byte = false := by
  have nonempty : string.dropWhile Decimal.isSpace ≠ [] := by
    rw [← skipWhitespaces, skipped]
    exact List.cons_ne_nil _ _
  have head := List.head_dropWhile_not Decimal.isSpace nonempty
  rwa [List.head_eq_iff_head?_eq_some nonempty |>.mpr (by rw [← skipWhitespaces, skipped]; rfl)] at head

/-- What is behind the white space has none in front. -/
theorem skip_again (skipped : skipWhitespaces string = byte :: rest) :
    skipWhitespaces (byte :: rest) = byte :: rest := skip_cons (skip_head skipped)

/-- The bytes that a value may start with. -/
def StartsValue (byte : UInt8) : Prop :=
  byte ∈ [openBrace, openBracket, quote, 102, 116, 110, 45] ∨ Decimal.isDigit byte = true

/-- A value starts with no white space and with no bracket that closes. -/
theorem StartsValue.visible (starts : StartsValue byte) :
    Decimal.isSpace byte = false ∧ byte ≠ closeBracket := by
  rcases starts with listed | digit
  · revert byte
    decide +kernel
  · refine ⟨Decimal.not_isSpace_of_isDigit digit, ?_⟩
    rintro rfl
    cases digit

/-- The text of a value starts like one. -/
theorem starts_value {value : Value ν}
    (derives : Derives (lexicon numbers) d (.value value) text rest) :
    ∃ byte behind, text = byte :: behind ∧ StartsValue byte := by
  cases derives with
  | nullWord | trueWord | falseWord => exact ⟨_, _, rfl, .inl (by decide)⟩
  | string | emptyArray | array | emptyObject | object => exact ⟨_, _, rfl, .inl (by decide)⟩
  | number written =>
      obtain ⟨⟨byte, head, start⟩, -⟩ := written
      obtain ⟨behind, rfl⟩ := List.head?_eq_some_iff.mp head
      refine ⟨byte, behind, rfl, start.imp ?_ id⟩
      rintro rfl
      decide

/-- A value starts with no white space. -/
theorem skip_value {value : Value ν}
    (derives : Derives (lexicon numbers) d (.value value) text rest) :
    skipWhitespaces text = text := by
  obtain ⟨byte, behind, rfl, starts⟩ := starts_value derives
  exact skip_cons starts.visible.1

/-- Behind white space items start like a value. -/
theorem starts_items {items : List (Value ν)}
    (derives : Derives (lexicon numbers) d (.items items) text rest) :
    ∃ byte behind, skipWhitespaces text = byte :: behind ∧ StartsValue byte := by
  cases derives with
  | lastItem blankBefore written | item blankBefore written =>
      rw [skip_blank blankBefore, skip_value written]
      exact starts_value written

/-- White space may be put in front of items, and left out. -/
theorem items_skip_iff {items : List (Value ν)} :
    Derives (lexicon numbers) d (.items items) (skipWhitespaces text) rest ↔
      Derives (lexicon numbers) d (.items items) text rest := by
  obtain ⟨blanks, same, blank⟩ := exists_blank numbers text
  have put {before : List UInt8} (blankBefore : (lexicon numbers).Blank before) :
      (lexicon numbers).Blank (blanks ++ before) := fun byte member =>
    (List.mem_append.mp member).elim (blank byte) (blankBefore byte)
  have left {before behind : List UInt8} (blankBefore : (lexicon numbers).Blank before) :
      skipWhitespaces (before ++ behind) = skipWhitespaces behind := skip_blank blankBefore
  constructor
  · intro derives
    rw [same]
    generalize skipWhitespaces text = behind at derives
    cases derives with
    | lastItem blankBefore written blankAfter =>
        rw [← List.append_assoc]
        exact .lastItem (put blankBefore) written blankAfter
    | item blankBefore written blankAfter later =>
        rw [← List.append_assoc]
        exact .item (put blankBefore) written blankAfter later
  · intro derives
    have none : (lexicon numbers).Blank [] := fun _ member => nomatch member
    cases derives with
    | lastItem blankBefore written blankAfter =>
        rw [left blankBefore, skip_value written]
        exact .lastItem none written blankAfter
    | item blankBefore written blankAfter later =>
        rw [left blankBefore, skip_value written]
        exact .item none written blankAfter later

/-! ### The loops -/

/-- A parser of values that are nested at most `d` deep. -/
def Reads (numbers : Numbers ν) (d : Nat)
    (parse : List UInt8 → Option (Value ν × List UInt8)) : Prop :=
  ∀ string value rest, parse string = some (value, rest) ↔
    Derives (lexicon numbers) d (.value value) (skipWhitespaces string) rest

/-- Skipping makes a text no longer. -/
theorem length_skip_le (string : List UInt8) : (skipWhitespaces string).length ≤ string.length :=
  (List.dropWhile_sublist _).length_le

/-- A number leaves a text that is no longer. -/
theorem WrittenNumber.length_le {n : ν} (written : WrittenNumber numbers text n rest) :
    rest.length ≤ text.length := by
  obtain ⟨_, length, _, _, _, rfl⟩ := written
  rw [List.length_drop]
  exact Nat.sub_le _ _

/-- Whatever is derived leaves a text that is no longer. -/
theorem derives_length_le {form : Form ν} (derives : Derives (lexicon numbers) d form text rest) :
    rest.length ≤ text.length :=
  derives.length_le fun _ _ _ written => WrittenNumber.length_le written

/-- Reading a value leaves a text that is no longer. -/
theorem Reads.shorter {value : Value ν} (reads : Reads numbers d parse)
    (parsed : parse string = some (value, rest)) : rest.length ≤ string.length :=
  Nat.le_trans (derives_length_le ((reads _ _ _).mp parsed)) (length_skip_le string)

/-- A loop that ends at a bracket has read items, given enough rounds. -/
theorem arrayLoop_sound (reads : Reads numbers d parse) {outputArray final : List (Value ν)}
    {left : List UInt8} (looped : arrayLoop parse rounds string outputArray = some (final, left))
    (closed : skipWhitespaces left = closeBracket :: rest) (enough : string.length ≤ rounds) :
    ∃ items, final = outputArray ++ items ∧ Derives (lexicon numbers) d (.items items) string rest := by
  induction rounds generalizing string outputArray with
  | zero =>
      obtain rfl := List.length_eq_zero_iff.mp (Nat.le_zero.mp enough)
      obtain ⟨rfl, rfl⟩ := Prod.mk.inj (Option.some.inj looped)
      cases closed
  | succ rounds ih =>
      rw [arrayLoop] at looped
      split at looped
      case isTrue empty =>
        obtain ⟨rfl, rfl⟩ := Prod.mk.inj (Option.some.inj looped)
        subst empty
        cases closed
      case isFalse =>
        split at looped
        case h_1 => cases looped
        case h_2 item after parsed =>
          have derives := (reads _ _ _).mp parsed
          have shorter := reads.shorter parsed
          obtain ⟨before, same, blankBefore⟩ := exists_blank numbers string
          obtain ⟨between, sameAfter, blankAfter⟩ := exists_blank numbers after
          dsimp only at looped
          split at looped
          case h_1 =>
            obtain ⟨rfl, rfl⟩ := Prod.mk.inj (Option.some.inj looped)
            cases closed
          case h_2 byte later behind =>
            rw [behind] at sameAfter
            rw [sameAfter] at derives
            split_ifs at looped with isComma
            · obtain ⟨rfl, rfl⟩ := Prod.mk.inj (Option.some.inj looped)
              obtain ⟨rfl, rfl⟩ := List.cons.inj ((skip_again behind).symm.trans closed)
              refine ⟨[item], rfl, ?_⟩
              rw [same]
              exact .lastItem blankBefore derives blankAfter
            · obtain rfl : byte = comma := of_not_not isComma
              have small : (skipWhitespaces later).length ≤ rounds := by
                have skipped := length_skip_le later
                have := congrArg List.length sameAfter
                simp only [List.length_append, List.length_cons] at this
                omega
              obtain ⟨items, rfl, inside⟩ := ih looped small
              refine ⟨item :: items, by simp, ?_⟩
              rw [same]
              exact .item blankBefore derives blankAfter (items_skip_iff.mp inside)

/-- The loop reads every list of items, given enough rounds. -/
theorem arrayLoop_complete (reads : Reads numbers d parse) {items : List (Value ν)}
    (outputArray : List (Value ν))
    (derives : Derives (lexicon numbers) d (.items items) string rest)
    (enough : string.length ≤ rounds) :
    ∃ left, arrayLoop parse rounds string outputArray = some (outputArray ++ items, left) ∧
      skipWhitespaces left = closeBracket :: rest := by
  have step {item : Value ν} {before text after later : List UInt8} {stop : UInt8}
      (blankBefore : (lexicon numbers).Blank before)
      (written : Derives (lexicon numbers) d (.value item) text (after ++ stop :: later))
      (blankAfter : (lexicon numbers).Blank after) (visible : Decimal.isSpace stop = false) :
      before ++ text ≠ [] ∧ later.length < (before ++ text).length ∧
        parse (before ++ text) = some (item, after ++ stop :: later) ∧
        skipWhitespaces (after ++ stop :: later) = stop :: later := by
    have shorter := derives_length_le written
    simp only [List.length_append, List.length_cons] at shorter
    refine ⟨?_, ?_, (reads _ _ _).mpr ?_, ?_⟩
    · rw [← List.length_pos_iff, List.length_append]
      omega
    · rw [List.length_append]
      omega
    · rwa [skip_blank blankBefore, skip_value written]
    · rw [skip_blank blankAfter, skip_cons visible]
  induction rounds generalizing string outputArray items with
  | zero =>
      obtain rfl := List.length_eq_zero_iff.mp (Nat.le_zero.mp enough)
      generalize empty : ([] : List UInt8) = string at derives
      cases derives with
      | lastItem blankBefore written blankAfter =>
          exact absurd empty.symm (step blankBefore written blankAfter (by decide)).1
      | item blankBefore written blankAfter =>
          exact absurd empty.symm (step blankBefore written blankAfter (by decide)).1
  | succ rounds ih =>
      cases derives with
      | lastItem blankBefore written blankAfter =>
          obtain ⟨nonempty, _, parsed, behind⟩ := step blankBefore written blankAfter (by decide)
          refine ⟨closeBracket :: rest, ?_, skip_cons (by decide)⟩
          rw [arrayLoop, if_neg nonempty, parsed]
          dsimp only
          rw [behind]
          dsimp only
          rw [if_pos (by decide)]
      | @item _ item items _ _ _ later _ blankBefore written blankAfter inside =>
          obtain ⟨nonempty, shorter, parsed, behind⟩ :=
            step blankBefore written blankAfter (by decide)
          have small : (skipWhitespaces later).length ≤ rounds := by
            have skipped := length_skip_le later
            omega
          obtain ⟨left, looped, closed⟩ :=
            ih (outputArray ++ [item]) (items_skip_iff.mpr inside) small
          refine ⟨left, ?_, closed⟩
          rw [arrayLoop, if_neg nonempty, parsed]
          dsimp only
          rw [behind]
          dsimp only
          rw [if_neg (by simp), looped, List.append_assoc, List.singleton_append]

/-- Members start with the quote of the first name. -/
theorem starts_members {members : List (Member ν)}
    (derives : Derives (lexicon numbers) d (.members members) text rest) :
    ∃ behind, text = quote :: behind := by
  cases derives with
  | lastMember | member => exact ⟨_, rfl⟩

/-- Members start with a name, without white space in front. -/
theorem skip_members {members : List (Member ν)}
    (derives : Derives (lexicon numbers) d (.members members) text rest) :
    skipWhitespaces text = text := by
  obtain ⟨behind, rfl⟩ := starts_members derives
  exact skip_cons (by decide)

/-- A loop that ends at a brace has read members with distinct names, given enough rounds. -/
theorem objectLoop_sound (reads : Reads numbers d parse) {outputObject final : List (Member ν)}
    {left : List UInt8} (looped : objectLoop parse rounds string outputObject = some (final, left))
    (closed : skipWhitespaces left = closeBrace :: rest) (enough : string.length ≤ rounds)
    (distinct : (outputObject.map Prod.fst).Nodup) :
    (final.map Prod.fst).Nodup ∧ ∃ members, final = outputObject ++ members ∧
      Derives (lexicon numbers) d (.members members) string rest := by
  induction rounds generalizing string outputObject with
  | zero =>
      obtain rfl := List.length_eq_zero_iff.mp (Nat.le_zero.mp enough)
      obtain ⟨rfl, rfl⟩ := Prod.mk.inj (Option.some.inj looped)
      cases closed
  | succ rounds ih =>
      rw [objectLoop] at looped
      split at looped
      case isTrue empty =>
        obtain ⟨rfl, rfl⟩ := Prod.mk.inj (Option.some.inj looped)
        subst empty
        cases closed
      case isFalse =>
        split at looped
        case h_1 => cases looped
        case h_2 newKey afterKey quoted =>
          obtain ⟨raw, rfl, chars⟩ := getQuotedString_eq_some_iff.mp quoted
          split at looped
          case isTrue => cases looped
          case isFalse admitted =>
            dsimp only at looped
            split at looped
            case isTrue => cases looped
            case isFalse isColon =>
              obtain ⟨beforeValue, found⟩ := List.head?_eq_some_iff.mp (of_not_not isColon)
              obtain ⟨gap, sameGap, blankGap⟩ := exists_blank numbers afterKey
              rw [found] at sameGap
              rw [found, List.tail_cons] at looped
              split at looped
              case h_1 => cases looped
              case h_2 value after parsed =>
                have derives := (reads _ _ _).mp parsed
                have shorter := reads.shorter parsed
                obtain ⟨before, same, blankBefore⟩ := exists_blank numbers beforeValue
                obtain ⟨between, sameAfter, blankAfter⟩ := exists_blank numbers after
                split at looped
                case h_1 => cases looped
                case h_2 output added =>
                  obtain ⟨fresh, rfl⟩ := jsonObjectAddn_eq_some_iff.mp added
                  have distinct' : ((outputObject ++ [(newKey, value)]).map Prod.fst).Nodup := by
                    rw [List.map_append, List.map_singleton, List.nodup_append]
                    refine ⟨distinct, List.nodup_singleton _, ?_⟩
                    rintro name known _ last rfl
                    obtain rfl := List.mem_singleton.mp last
                    exact fresh known
                  split at looped
                  case h_1 =>
                    obtain ⟨rfl, rfl⟩ := Prod.mk.inj (Option.some.inj looped)
                    cases closed
                  case h_2 byte later behind =>
                    rw [behind] at sameAfter
                    rw [sameAfter] at derives
                    split_ifs at looped with isComma
                    · obtain ⟨rfl, rfl⟩ := Prod.mk.inj (Option.some.inj looped)
                      obtain ⟨rfl, rfl⟩ := List.cons.inj ((skip_again behind).symm.trans closed)
                      refine ⟨distinct', [(newKey, value)], rfl, ?_⟩
                      rw [sameGap, same]
                      exact .lastMember chars admitted blankGap blankBefore derives blankAfter
                    · obtain rfl : byte = comma := of_not_not isComma
                      have small : (skipWhitespaces later).length ≤ rounds := by
                        have skipped := length_skip_le later
                        have lengthAfter := congrArg List.length sameAfter
                        have lengthGap := congrArg List.length sameGap
                        simp only [List.length_append, List.length_cons] at *
                        omega
                      obtain ⟨distinctFinal, members, rfl, inside⟩ := ih looped small distinct'
                      obtain ⟨gap', sameLater, blankGap'⟩ := exists_blank numbers later
                      refine ⟨distinctFinal, (newKey, value) :: members, by simp, ?_⟩
                      rw [sameLater] at derives
                      rw [sameGap, same]
                      exact .member chars admitted blankGap blankBefore derives blankAfter
                        blankGap' inside

/-- The loop reads all members whose names are distinct, given enough rounds. -/
theorem objectLoop_complete (reads : Reads numbers d parse)
    {members : List (Member ν)} (outputObject : List (Member ν))
    (derives : Derives (lexicon numbers) d (.members members) string rest)
    (distinct : ((outputObject ++ members).map Prod.fst).Nodup) (enough : string.length ≤ rounds) :
    ∃ left, objectLoop parse rounds string outputObject = some (outputObject ++ members, left) ∧
      skipWhitespaces left = closeBrace :: rest := by
  have step {name raw gap before text after later : List UInt8} {value : Value ν} {stop : UInt8}
      {rounds : Nat} {outputObject : List (Member ν)} (chars : Chars raw name) (admitted : 0 ∉ name)
      (blankGap : (lexicon numbers).Blank gap) (blankBefore : (lexicon numbers).Blank before)
      (written : Derives (lexicon numbers) d (.value value) text (after ++ stop :: later))
      (blankAfter : (lexicon numbers).Blank after) (visible : Decimal.isSpace stop = false)
      (fresh : name ∉ outputObject.map Prod.fst) :
      objectLoop parse (rounds + 1) (quote :: (raw ++ quote :: (gap ++ colon :: (before ++ text))))
          outputObject =
        if stop ≠ comma then some (outputObject ++ [(name, value)], stop :: later)
        else objectLoop parse rounds (skipWhitespaces later) (outputObject ++ [(name, value)]) := by
    have quoted : getQuotedString (quote :: (raw ++ quote :: (gap ++ colon :: (before ++ text)))) =
        some (name, gap ++ colon :: (before ++ text)) :=
      getQuotedString_eq_some_iff.mpr ⟨raw, rfl, chars⟩
    have found : skipWhitespaces (gap ++ colon :: (before ++ text)) = colon :: (before ++ text) := by
      rw [skip_blank blankGap, skip_cons (by decide)]
    have parsed : parse (before ++ text) = some (value, after ++ stop :: later) := by
      rwa [reads, skip_blank blankBefore, skip_value written]
    have behind : skipWhitespaces (after ++ stop :: later) = stop :: later := by
      rw [skip_blank blankAfter, skip_cons visible]
    have added : jsonObjectAddn outputObject name value = some (outputObject ++ [(name, value)]) :=
      jsonObjectAddn_eq_some_iff.mpr ⟨fresh, rfl⟩
    rw [objectLoop, if_neg (List.cons_ne_nil _ _), quoted]
    dsimp only
    rw [if_neg admitted, found, if_neg (by simp), List.tail_cons, parsed]
    dsimp only
    rw [added]
    dsimp only
    rw [behind]
  induction rounds generalizing string outputObject members with
  | zero =>
      obtain rfl := List.length_eq_zero_iff.mp (Nat.le_zero.mp enough)
      cases derives
  | succ rounds ih =>
      have fresh {name : List UInt8} {value : Value ν} {others : List (Member ν)}
          (distinct : ((outputObject ++ (name, value) :: others).map Prod.fst).Nodup) :
          name ∉ outputObject.map Prod.fst := by
        rw [List.map_append, List.map_cons, List.nodup_append] at distinct
        exact fun known => distinct.2.2 name known name List.mem_cons_self rfl
      cases derives with
      | lastMember chars admitted blankGap blankBefore written blankAfter =>
          refine ⟨closeBrace :: rest, ?_, skip_cons (by decide)⟩
          rw [step chars admitted blankGap blankBefore written blankAfter (by decide)
            (fresh distinct), if_pos (by decide)]
      | @member _ name value members raw gap before text after gap' later _ chars admitted
          blankGap blankBefore written blankAfter blankGap' inside =>
          have shorter := derives_length_le written
          have skipped : skipWhitespaces (gap' ++ later) = later := by
            rw [skip_blank blankGap', skip_members inside]
          have small : later.length ≤ rounds := by
            simp only [List.length_append, List.length_cons] at shorter enough
            omega
          obtain ⟨left, looped, closed⟩ :=
            ih (outputObject ++ [(name, value)]) inside (by simpa using distinct) small
          refine ⟨left, ?_, closed⟩
          rw [step chars admitted blankGap blankBefore written blankAfter (by decide)
            (fresh distinct), if_neg (by simp), skipped, looped, List.append_assoc,
            List.singleton_append]

/-! ### Values -/

/-- A parser of the values inside one that may be nested `d` deep. -/
def ReadsInside (numbers : Numbers ν) (d : Nat)
    (parse : List UInt8 → Option (Value ν × List UInt8)) : Prop :=
  match d with
  | 0 => ∀ string, parse string = none
  | d + 1 => Reads numbers d parse

/-- A number starts with a digit or a minus sign. -/
theorem not_number {n : ν} (other : ¬(byte = 45 ∨ Decimal.isDigit byte = true)) :
    ¬WrittenNumber numbers (byte :: text) n rest := by
  rintro ⟨⟨_, head, start⟩, -⟩
  obtain rfl := Option.some.inj head
  exact other start

/-- Where nothing may be inside, the loops stop at once. -/
theorem arrayLoop_none (none : ∀ string, parse string = none) {final outputArray : List (Value ν)}
    {left : List UInt8}
    (looped : arrayLoop parse string.length string outputArray = some (final, left)) : left = [] := by
  cases string with
  | nil => exact (Prod.mk.inj (Option.some.inj looped)).2.symm
  | cons byte later =>
      rw [List.length_cons, arrayLoop, if_neg (List.cons_ne_nil _ _), none] at looped
      cases looped

/-- Where no value can be read, the loop ends at the end of the text only. -/
theorem objectLoop_none (none : ∀ string, parse string = none)
    {final outputObject : List (Member ν)} {left : List UInt8}
    (looped : objectLoop parse string.length string outputObject = some (final, left)) :
    left = [] := by
  cases string with
  | nil => exact (Prod.mk.inj (Option.some.inj looped)).2.symm
  | cons byte later =>
      rw [List.length_cons, objectLoop, if_neg (List.cons_ne_nil _ _)] at looped
      split at looped
      · cases looped
      · simp [none] at looped

/-- Behind a bracket the arrays are read, as long as their items are. -/
theorem parseArrayValue_eq_some_iff (inside : ReadsInside numbers d parse) {value : Value ν} :
    parseArrayValue parse (openBracket :: text) = some (value, rest) ↔
      Derives (lexicon numbers) d (.value value) (openBracket :: text) rest := by
  obtain ⟨blanks, same, blank⟩ := exists_blank numbers text
  rw [parseArrayValue, if_neg (by simp)]
  dsimp only
  constructor
  · intro parsed
    split at parsed
    case isTrue isEmpty =>
      obtain ⟨behind, found⟩ := List.head?_eq_some_iff.mp isEmpty
      rw [found] at same parsed
      obtain ⟨rfl, rfl⟩ := Prod.mk.inj (Option.some.inj parsed)
      rw [same]
      exact .emptyArray blank
    case isFalse =>
      split at parsed
      case h_1 => cases parsed
      case h_2 outputArray left looped =>
        split_ifs at parsed with isClosed
        obtain ⟨behind, closed⟩ := List.head?_eq_some_iff.mp isClosed
        rw [closed] at parsed
        obtain ⟨rfl, rfl⟩ := Prod.mk.inj (Option.some.inj parsed)
        rw [List.tail_cons]
        cases d with
        | zero =>
            rw [arrayLoop_none inside looped] at closed
            cases closed
        | succ d =>
            obtain ⟨items, rfl, derives⟩ :=
              arrayLoop_sound inside looped closed (Nat.le_refl _)
            exact .array (items_skip_iff.mp derives)
  · intro derives
    generalize whole : openBracket :: text = string at derives
    cases derives with
    | nullWord | trueWord | falseWord | string | emptyObject | object => cases whole
    | number written => exact absurd (whole ▸ written) (not_number (by decide))
    | emptyArray blank' =>
        obtain ⟨-, rfl⟩ := List.cons.inj whole
        rw [skip_blank blank', skip_cons (by decide), List.head?_cons, if_pos rfl, List.tail_cons]
    | @array _ items _ _ derives =>
        obtain ⟨-, rfl⟩ := List.cons.inj whole
        have derives' := items_skip_iff.mpr derives
        have notClosed : (skipWhitespaces text).head? ≠ some closeBracket := by
          obtain ⟨byte, behind, start, starts⟩ := starts_items derives
          rw [start, List.head?_cons]
          exact fun same => starts.visible.2 (Option.some.inj same)
        obtain ⟨left, looped, closed⟩ :=
          arrayLoop_complete inside [] derives' (Nat.le_refl _)
        rw [if_neg notClosed, looped]
        dsimp only
        rw [closed, List.head?_cons, if_pos rfl, List.tail_cons, List.nil_append]

/-- Behind a brace the objects are read, as long as their values are. -/
theorem parseObjectValue_eq_some_iff (inside : ReadsInside numbers d parse) {value : Value ν} :
    parseObjectValue parse (openBrace :: text) = some (value, rest) ↔
      Derives (lexicon numbers) d (.value value) (openBrace :: text) rest := by
  obtain ⟨blanks, same, blank⟩ := exists_blank numbers text
  rw [parseObjectValue, if_neg (by simp)]
  dsimp only
  constructor
  · intro parsed
    split at parsed
    case isTrue isEmpty =>
      obtain ⟨behind, found⟩ := List.head?_eq_some_iff.mp isEmpty
      rw [found] at same parsed
      obtain ⟨rfl, rfl⟩ := Prod.mk.inj (Option.some.inj parsed)
      rw [same]
      exact .emptyObject blank
    case isFalse =>
      split at parsed
      case h_1 => cases parsed
      case h_2 outputObject left looped =>
        split_ifs at parsed with isClosed
        obtain ⟨behind, closed⟩ := List.head?_eq_some_iff.mp isClosed
        rw [closed] at parsed
        obtain ⟨rfl, rfl⟩ := Prod.mk.inj (Option.some.inj parsed)
        rw [List.tail_cons]
        cases d with
        | zero =>
            rw [objectLoop_none inside looped] at closed
            cases closed
        | succ d =>
            obtain ⟨distinct, members, rfl, derives⟩ :=
              objectLoop_sound inside looped closed (Nat.le_refl _) List.nodup_nil
            rw [same]
            exact .object blank distinct derives
  · intro derives
    generalize whole : openBrace :: text = string at derives
    cases derives with
    | nullWord | trueWord | falseWord | string | emptyArray | array => cases whole
    | number written => exact absurd (whole ▸ written) (not_number (by decide))
    | emptyObject blank' =>
        obtain ⟨-, rfl⟩ := List.cons.inj whole
        rw [skip_blank blank', skip_cons (by decide), List.head?_cons, if_pos rfl, List.tail_cons]
    | @object _ members blanks' text _ blank' distinct derives =>
        obtain ⟨-, rfl⟩ := List.cons.inj whole
        obtain ⟨left, looped, closed⟩ :=
          objectLoop_complete inside [] derives distinct (Nat.le_refl _)
        have notClosed : text.head? ≠ some closeBrace := by
          obtain ⟨behind, rfl⟩ := starts_members derives
          rw [List.head?_cons]
          decide
        rw [skip_blank blank', skip_members derives, if_neg notClosed, looped]
        dsimp only
        rw [closed, List.head?_cons, if_pos rfl, List.tail_cons, List.nil_append]

/-- Behind a quote the strings are read. -/
theorem parseStringValue_eq_some_iff {value : Value ν} :
    parseStringValue (quote :: text) = some (value, rest) ↔
      Derives (lexicon numbers) d (.value value) (quote :: text) rest := by
  rw [parseStringValue, Option.map_eq_some_iff]
  constructor
  · rintro ⟨⟨bytes, behind⟩, quoted, same⟩
    obtain ⟨rfl, rfl⟩ := Prod.mk.inj same
    obtain ⟨raw, whole, chars⟩ := getQuotedString_eq_some_iff.mp quoted
    rw [whole]
    exact .string chars
  · intro derives
    generalize whole : quote :: text = string at derives
    cases derives with
    | nullWord | trueWord | falseWord | emptyArray | array | emptyObject | object => cases whole
    | number written => exact absurd (whole ▸ written) (not_number (by decide))
    | @string _ raw bytes _ chars =>
        exact ⟨(bytes, rest), getQuotedString_eq_some_iff.mpr ⟨raw, rfl, chars⟩, rfl⟩

/-- The words are looked for in the same way. -/
theorem word_prefix (length : Nat) (word string rest : List UInt8) (long : word.length = length) :
    word <+: string ∧ string.drop length = rest ↔ string = word ++ rest := by
  subst long
  constructor
  · rintro ⟨⟨behind, rfl⟩, rfl⟩
    rw [List.drop_left]
  · rintro rfl
    exact ⟨List.prefix_append _ _, List.drop_left⟩

/-- Behind `t` and `f` the two booleans are read. -/
theorem parseBooleanValue_eq_some_iff {value : Value ν} (start : byte = 102 ∨ byte = 116) :
    parseBooleanValue (byte :: text) = some (value, rest) ↔
      Derives (lexicon numbers) d (.value value) (byte :: text) rest := by
  have isTrue := word_prefix 4 (ascii "true") (byte :: text) rest rfl
  have isFalse := word_prefix 5 (ascii "false") (byte :: text) rest rfl
  rw [parseBooleanValue]
  constructor
  · intro parsed
    split_ifs at parsed with true false
    · obtain ⟨rfl, same⟩ := Prod.mk.inj (Option.some.inj parsed)
      rw [isTrue.mp ⟨true, same⟩]
      exact .trueWord
    · obtain ⟨rfl, same⟩ := Prod.mk.inj (Option.some.inj parsed)
      rw [isFalse.mp ⟨false, same⟩]
      exact .falseWord
  · intro derives
    rcases start with rfl | rfl
    · generalize whole : 102 :: text = string at derives isTrue isFalse
      cases derives with
      | nullWord | trueWord | string | emptyArray | array | emptyObject | object => cases whole
      | number written => exact absurd (whole ▸ written) (not_number (by decide))
      | falseWord =>
          obtain ⟨found, behind⟩ := isFalse.mpr rfl
          have notTrue : ¬ascii "true" <+: ascii "false" ++ rest := by
            rintro ⟨_, same⟩
            cases same
          rw [if_neg notTrue, if_pos found, behind]
    · generalize whole : 116 :: text = string at derives isTrue isFalse
      cases derives with
      | nullWord | falseWord | string | emptyArray | array | emptyObject | object => cases whole
      | number written => exact absurd (whole ▸ written) (not_number (by decide))
      | trueWord =>
          obtain ⟨found, behind⟩ := isTrue.mpr rfl
          rw [if_pos found, behind]

/-- Behind `n` there is `null` to be read. -/
theorem parseNullValue_eq_some_iff {value : Value ν} :
    parseNullValue (110 :: text) = some (value, rest) ↔
      Derives (lexicon numbers) d (.value value) (110 :: text) rest := by
  have isNull := word_prefix 4 (ascii "null") (110 :: text) rest rfl
  rw [parseNullValue]
  constructor
  · intro parsed
    split_ifs at parsed with null
    obtain ⟨rfl, same⟩ := Prod.mk.inj (Option.some.inj parsed)
    rw [isNull.mp ⟨null, same⟩]
    exact .nullWord
  · intro derives
    generalize whole : 110 :: text = string at derives isNull
    cases derives with
    | trueWord | falseWord | string | emptyArray | array | emptyObject | object => cases whole
    | number written => exact absurd (whole ▸ written) (not_number (by decide))
    | nullWord =>
        obtain ⟨found, behind⟩ := isNull.mpr rfl
        rw [if_pos found, behind]

/-- Behind a digit or a minus sign the numbers are read. -/
theorem parseNumberValue_eq_some_iff {value : Value ν}
    (start : byte = 45 ∨ Decimal.isDigit byte = true) :
    parseNumberValue numbers (byte :: text) = some (value, rest) ↔
      Derives (lexicon numbers) d (.value value) (byte :: text) rest := by
  constructor
  · intro parsed
    obtain ⟨⟨n, length, errno⟩, read⟩ : ∃ result, numbers.strtod (byte :: text) = result := ⟨_, rfl⟩
    rw [parseNumberValue, read] at parsed
    dsimp only at parsed
    split_ifs at parsed with failed invalid
    obtain ⟨rfl, rfl⟩ := Prod.mk.inj (Option.some.inj parsed)
    rw [not_or, not_not, Bool.not_eq_true] at failed
    obtain ⟨rfl, decimal⟩ := failed
    exact .number ⟨⟨byte, rfl, start⟩, length, read, decimal, by simpa using invalid, rfl⟩
  · intro derives
    generalize whole : byte :: text = string at derives
    have notWord {other : UInt8} {behind : List UInt8} (same : byte :: text = other :: behind)
        (differs : ¬(other = 45 ∨ Decimal.isDigit other = true)) : False := by
      obtain ⟨rfl, -⟩ := List.cons.inj same
      exact differs start
    cases derives with
    | nullWord | trueWord | falseWord => exact (notWord whole (by decide)).elim
    | string | emptyArray | array | emptyObject | object => exact (notWord whole (by decide)).elim
    | number written =>
        obtain ⟨-, length, read, decimal, valid, rfl⟩ := written
        rw [parseNumberValue, read]
        dsimp only
        rw [if_neg (by simp [decimal]), if_neg (by simp [valid])]

/-- `parse_value` reads exactly the values that are nested as deep as is left, with
white space in front. -/
theorem parseValue_eq_some_iff {nesting : Nat} {value : Value ν} :
    parseValue numbers string nesting = some (value, rest) ↔ nesting ≤ maxNesting ∧
      Derives (lexicon numbers) (maxNesting - nesting) (.value value) (skipWhitespaces string) rest := by
  induction left : maxNesting + 1 - nesting generalizing nesting string value rest with
  | zero =>
      rw [parseValue, if_pos (by omega)]
      exact iff_of_false (by simp) (by omega)
  | succ left ih =>
      have inside : ReadsInside numbers (maxNesting - nesting)
          (fun string => parseValue numbers string (nesting + 1)) := by
        cases below : maxNesting - nesting with
        | zero =>
            intro string
            have tooDeep : nesting + 1 > maxNesting := by omega
            dsimp only
            rw [parseValue, if_pos tooDeep]
        | succ d =>
            intro string value rest
            have deeper : maxNesting - (nesting + 1) = d := by omega
            rw [ih (by omega), deeper, and_iff_right (by omega)]
      rw [parseValue, if_neg (by omega), and_iff_right (by omega)]
      dsimp only
      generalize skipWhitespaces string = text at *
      match text with
      | [] =>
          refine iff_of_false (by simp) fun derives => ?_
          obtain ⟨_, _, same, -⟩ := starts_value derives
          cases same
      | byte :: text =>
          dsimp only
          split_ifs with brace bracket isQuote word number null
          · subst brace
            exact parseObjectValue_eq_some_iff inside
          · subst bracket
            exact parseArrayValue_eq_some_iff inside
          · subst isQuote
            exact parseStringValue_eq_some_iff
          · exact parseBooleanValue_eq_some_iff word
          · exact parseNumberValue_eq_some_iff number
          · subst null
            exact parseNullValue_eq_some_iff
          · refine iff_of_false (by simp) fun derives => ?_
            obtain ⟨_, _, same, starts⟩ := starts_value derives
            obtain ⟨rfl, -⟩ := List.cons.inj same
            simp only [StartsValue, List.mem_cons, List.not_mem_nil] at starts
            tauto

/-- The text behind a byte order mark. -/
def afterMark (string : List UInt8) : List UInt8 :=
  if string.take 3 = [0xEF, 0xBB, 0xBF] then string.drop 3 else string

/-- A text that is accepted is one of the grammar. -/
theorem derives_of_parsed {value : Value ν} (parsed : jsonParseString numbers string = some value) :
    ∃ blanks text rest, afterMark string = blanks ++ text ∧ (lexicon numbers).Blank blanks ∧
      Derives (lexicon numbers) maxNesting (.value value) text rest := by
  obtain ⟨⟨_, rest⟩, inside, rfl⟩ := Option.map_eq_some_iff.mp parsed
  obtain ⟨-, derives⟩ := parseValue_eq_some_iff.mp inside
  obtain ⟨blanks, same, blank⟩ := exists_blank numbers (afterMark string)
  exact ⟨blanks, _, rest, same, blank, derives⟩

/-- A text of the grammar is accepted. -/
theorem parsed_of_derives {value : Value ν} (same : afterMark string = blanks ++ text)
    (blank : (lexicon numbers).Blank blanks)
    (derives : Derives (lexicon numbers) maxNesting (.value value) text rest) :
    jsonParseString numbers string = some value := by
  refine Option.map_eq_some_iff.mpr ⟨(value, rest), ?_, rfl⟩
  refine parseValue_eq_some_iff.mpr ⟨Nat.zero_le _, ?_⟩
  change Derives _ _ _ (skipWhitespaces (afterMark string)) _
  rwa [same, skip_blank blank, skip_value derives]

/-- The parser accepts exactly the texts of the grammar: behind an optional byte order
mark and white space there is a value with at most `MAX_NESTING` brackets around
anything, in which no name is used twice and none has a NUL; and that value is the
result. What is behind it is not looked at. -/
theorem jsonParseString_eq_some_iff {value : Value ν} :
    jsonParseString numbers string = some value ↔
      ∃ blanks text rest, afterMark string = blanks ++ text ∧ (lexicon numbers).Blank blanks ∧
        Derives (lexicon numbers) maxNesting (.value value) text rest := by
  constructor
  · exact derives_of_parsed
  · rintro ⟨blanks, text, rest, same, blank, derives⟩
    exact parsed_of_derives same blank derives

end CommunicationProtocols.Parson
