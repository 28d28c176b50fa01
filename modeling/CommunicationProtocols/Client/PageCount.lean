import CommunicationProtocols.Client.Session
import CommunicationProtocols.Library.Decimal

/-!
# The page count of a book

`add_book` asks for the page count until the answer is a number that `atoi` makes
positive. The two tests look at different things: `isNumber` at the token, the
comparison at an `int`. A number that does not fit an `int` can pass both and is
submitted as another one.
-/

namespace CommunicationProtocols.Client

open Library Library.Decimal

/-- What `scanf("%s")` stores: no white space, at least one byte. The block it is stored in
has room for few bytes (`Token.Fits`). -/
structure Token where
  bytes : CString
  nonempty : bytes ≠ []
  unspaced : ∀ byte ∈ bytes, isSpace byte = false
  terminated : ∀ byte ∈ bytes, byte ≠ 0
deriving DecidableEq

/-- `isNumber`. -/
def isNumber : CString → Bool
  | [] => true
  | byte :: rest => if isDigit byte then isNumber rest else false

/-- `atoi` is the conversion to `int` of what `strtol` reads, which is always something
(`isSome_strtol_string`). -/
def atoi (string : CString) : Int := toInt ((strtol (string ++ [0])).getD 0)

/-- The validation loop of `add_book`, with the tokens that are still to be typed.
It has no result while the last token is refused. -/
def validate (pageCount : Token) (count : Int) (tokens : List Token) : Option (Token × Int) :=
  if isNumber pageCount.bytes = false ∨ count ≤ 0 then
    match tokens with
    | [] => none
    | token :: later => validate token (atoi token.bytes) later
  else
    some (pageCount, count)

/-- The token accepted from those typed at the prompts, and the count submitted. -/
def submittedCount : List Token → Option (Token × Int)
  | [] => none
  | pageCount :: later => validate pageCount (atoi pageCount.bytes) later

/-! ## The loop stops at the first token that passes both tests -/

/-- A token that passes both tests. -/
def Accepted (token : Token) : Prop := isNumber token.bytes = true ∧ 0 < atoi token.bytes

instance (token : Token) : Decidable (Accepted token) := inferInstanceAs (Decidable (_ ∧ _))

/-- The source takes for a number what has digits only, if anything. -/
theorem isNumber_iff {string : CString} :
    isNumber string = true ↔ ∀ byte ∈ string, isDigit byte = true := by
  induction string with
  | nil => simp [isNumber]
  | cons byte rest ih => simp [isNumber, ih]

/-- A token is asked for again exactly if it is not accepted. -/
theorem refused_iff {token : Token} :
    isNumber token.bytes = false ∨ atoi token.bytes ≤ 0 ↔ ¬ Accepted token := by
  rw [Accepted, not_and_or, Bool.not_eq_true, not_lt]

/-- The loop keeps the token and its number in step. -/
theorem validate_eq (pageCount : Token) (tokens : List Token) :
    validate pageCount (atoi pageCount.bytes) tokens =
      ((pageCount :: tokens).find? fun token => Accepted token).map fun token =>
        (token, atoi token.bytes) := by
  induction tokens generalizing pageCount with
  | nil =>
      rw [validate]
      split
      case isTrue refused => simp [refused_iff.mp refused]
      case isFalse passes => simp [of_not_not (mt refused_iff.mpr passes)]
  | cons token later ih =>
      rw [validate]
      split
      case isTrue refused =>
        rw [List.find?_cons_of_neg (by simpa using refused_iff.mp refused)]
        exact ih token
      case isFalse passes => simp [of_not_not (mt refused_iff.mpr passes)]

/-- What the loop stops at is accepted. -/
theorem accepted_of_find {tokens : List Token} {token : Token}
    (found : (tokens.find? fun token => Accepted token) = some token) : Accepted token := by
  simpa using List.find?_some found

/-- The first accepted token is submitted. -/
theorem submittedCount_eq (tokens : List Token) :
    submittedCount tokens = (tokens.find? fun token => Accepted token).map fun token =>
      (token, atoi token.bytes) := by
  cases tokens with
  | nil => rfl
  | cons pageCount later => exact validate_eq pageCount later

/-! ## What the number of a token becomes -/

/-- `atoi` of digits: first the greatest `long` cuts the number, then the
conversion to `int` wraps it. -/
theorem atoi_digits {token : Token} (digits : isNumber token.bytes = true) :
    atoi token.bytes = (min (value token.bytes : Int) (2 ^ 63 - 1)).bmod (2 ^ 32) := by
  rw [atoi, strtol_digits_saturates token.nonempty (isNumber_iff.mp digits) rfl]
  rfl

/-- A token that is the decimal text of a positive `int`. -/
structure IsPageCount (token : Token) : Prop where
  digits : isNumber token.bytes = true
  positive : 1 ≤ value token.bytes
  small : value token.bytes < 2 ^ 31

/-- A token whose number is a `long` beyond the `int`s that wraps to a positive `int`. -/
structure WrapsToPositive (token : Token) : Prop where
  digits : isNumber token.bytes = true
  big : 2 ^ 32 ≤ value token.bytes
  long : value token.bytes < 2 ^ 63
  positive : 1 ≤ value token.bytes % 2 ^ 32
  small : value token.bytes % 2 ^ 32 < 2 ^ 31

/-- A page count is read as its number. -/
theorem IsPageCount.atoi_eq {token : Token} (isPageCount : IsPageCount token) :
    atoi token.bytes = value token.bytes := by
  obtain ⟨digits, positive, small⟩ := isPageCount
  rw [atoi_digits digits, Int.bmod_def]
  omega

/-- A number that wraps is read modulo `2 ^ 32`. -/
theorem WrapsToPositive.atoi_eq {token : Token} (wraps : WrapsToPositive token) :
    atoi token.bytes = value token.bytes % 2 ^ 32 := by
  obtain ⟨digits, big, long, positive, small⟩ := wraps
  rw [atoi_digits digits, Int.bmod_def]
  omega

/-- Accepted are the page counts, and the numbers that wrap to one. -/
theorem accepted_iff {token : Token} :
    Accepted token ↔ IsPageCount token ∨ WrapsToPositive token := by
  constructor
  · rintro ⟨digits, positive⟩
    rw [atoi_digits digits, Int.bmod_def] at positive
    by_cases small : value token.bytes < 2 ^ 31
    · exact .inl ⟨digits, by omega, small⟩
    · exact .inr ⟨digits, by omega, by omega, by omega, by omega⟩
  · rintro (isPageCount | wraps)
    · have positive := isPageCount.positive
      exact ⟨isPageCount.digits, by rw [isPageCount.atoi_eq]; omega⟩
    · have positive := wraps.positive
      exact ⟨wraps.digits, by rw [wraps.atoi_eq]; omega⟩

/-! ## When the number typed is the one submitted -/

/-- Once a token is accepted, it is a positive number and the number submitted. -/
def SubmitsTyped (tokens : List Token) : Prop :=
  ∀ token count, submittedCount tokens = some (token, count) →
    (∀ byte ∈ token.bytes, isDigit byte = true) ∧ 0 < count ∧ count = value token.bytes

/-- What is accepted consists of digits and is submitted as a positive number, which
may be the number typed less a multiple of 2 ^ 32. -/
theorem submittedCount_sound {tokens : List Token} {token : Token} {count : Int}
    (submitted : submittedCount tokens = some (token, count)) :
    (∀ byte ∈ token.bytes, isDigit byte = true) ∧ 0 < count ∧
      count = value token.bytes % 2 ^ 32 := by
  rw [submittedCount_eq] at submitted
  obtain ⟨found, first, same⟩ := Option.map_eq_some_iff.mp submitted
  cases same
  have accepted := accepted_of_find first
  refine ⟨isNumber_iff.mp accepted.1, accepted.2, ?_⟩
  rcases accepted_iff.mp accepted with isPageCount | wraps
  · have small := isPageCount.small
    rw [isPageCount.atoi_eq]
    omega
  · exact wraps.atoi_eq

/-- A token that wraps is not submitted as typed. -/
theorem isPageCount_of_typed {token : Token} (accepted : Accepted token)
    (typed : atoi token.bytes = value token.bytes) : IsPageCount token := by
  refine (accepted_iff.mp accepted).resolve_right fun wraps => ?_
  have big := wraps.big
  rw [wraps.atoi_eq] at typed
  omega

/-- The number submitted is the one typed if and only if every token that wraps to
a positive `int` is typed after a proper page count. -/
theorem submitsTyped_iff (tokens : List Token) :
    SubmitsTyped tokens ↔ ∀ earlier token later, tokens = earlier ++ token :: later →
      WrapsToPositive token → ∃ proper ∈ earlier, IsPageCount proper := by
  constructor
  · rintro typed earlier token later rfl wraps
    have accepted : Accepted token := accepted_iff.mpr (.inr wraps)
    have found := submittedCount_eq (earlier ++ token :: later)
    rw [List.find?_append] at found
    cases first : earlier.find? fun token => Accepted token with
    | none =>
        rw [first, Option.none_or, List.find?_cons_of_pos (by simpa using accepted)] at found
        have isPageCount := isPageCount_of_typed accepted (typed _ _ found).2.2
        have small := isPageCount.small
        have big := wraps.big
        omega
    | some proper =>
        rw [first, Option.some_or] at found
        exact ⟨proper, List.mem_of_find?_eq_some first,
          isPageCount_of_typed (accepted_of_find first) (typed _ _ found).2.2⟩
  · intro proper token count submitted
    obtain ⟨digits, positive, _⟩ := submittedCount_sound submitted
    rw [submittedCount_eq] at submitted
    obtain ⟨found, first, same⟩ := Option.map_eq_some_iff.mp submitted
    cases same
    obtain ⟨_, earlier, later, split, refused⟩ := List.find?_eq_some_iff_append.mp first
    refine ⟨digits, positive, ?_⟩
    rcases accepted_iff.mp (accepted_of_find first) with isPageCount | wraps
    · exact isPageCount.atoi_eq
    · obtain ⟨before, member, isPageCount⟩ := proper earlier token later split wraps
      have passes : Accepted before := accepted_iff.mpr (.inl isPageCount)
      simpa [passes] using refused before member

/-- The token 4294967297. -/
def wideToken : Token where
  bytes := ascii "4294967297"
  nonempty := by decide
  unspaced := by decide +kernel
  terminated := by decide +kernel

/-- 4294967297 pages are submitted as one page. -/
theorem page_count_wraps : submittedCount [wideToken] = some (wideToken, 1) ∧
    ¬ SubmitsTyped [wideToken] := by
  have submitted : submittedCount [wideToken] = some (wideToken, 1) := by decide +kernel
  refine ⟨submitted, fun typed => ?_⟩
  exact absurd (typed _ _ submitted).2.2 (by decide +kernel)

end CommunicationProtocols.Client
