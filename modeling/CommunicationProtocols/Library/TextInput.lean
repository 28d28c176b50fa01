import CommunicationProtocols.Library.Decimal

/-!
# Lines and words of a text file

`fgets` reads a file line by line into an array, and `sscanf` takes the words out of a
line.
-/

namespace CommunicationProtocols.Library.TextInput

open Decimal

def newline : UInt8 := 10

/-! ## Lines -/

/-- What `fgets` stores in an array of `size` bytes in front of the terminator, and the file
behind it. Where nothing is left of the file it returns `NULL` and stores nothing. -/
def fgets (size : ℕ) (file : List UInt8) : List UInt8 × List UInt8 :=
  let line := file.takeWhile (· ≠ newline) ++ (file.dropWhile (· ≠ newline)).take 1
  (line.take (size - 1), file.drop (line.take (size - 1)).length)

/-- Every line that is read makes the file shorter. -/
theorem fgets_shorter {size : ℕ} {file : List UInt8} (room : 1 < size) (left : file ≠ []) :
    (fgets size file).2.length < file.length := by
  have some : 0 < (file.takeWhile (· ≠ newline) ++
      (file.dropWhile (· ≠ newline)).take 1).length := by
    obtain ⟨byte, rest, rfl⟩ := List.exists_cons_of_ne_nil left
    by_cases ends : byte = newline
    · simp [ends]
    · simp [ends]
  have whole := List.length_pos_of_ne_nil left
  rw [fgets]
  dsimp only
  rw [List.length_drop, List.length_take]
  omega

/-- A line that fits the array is read as a whole, with its newline. -/
theorem fgets_line {size : ℕ} {line file : List UInt8} (single : newline ∉ line)
    (fits : line.length + 1 < size) :
    fgets size (line ++ newline :: file) = (line ++ [newline], file) := by
  have inside : ∀ byte ∈ line, decide (byte ≠ newline) = true := fun byte member =>
    decide_eq_true fun same => single (same ▸ member)
  have taken : (line ++ newline :: file).takeWhile (· ≠ newline) = line :=
    takeWhile_stop inside (by simp)
  have dropped : (line ++ newline :: file).dropWhile (· ≠ newline) = newline :: file :=
    dropWhile_stop inside (by simp)
  have whole : (line ++ [newline]).take (size - 1) = line ++ [newline] :=
    List.take_of_length_le (by rw [List.length_append, List.length_singleton]; omega)
  have regroup : line ++ newline :: file = (line ++ [newline]) ++ file := by
    rw [List.append_assoc]
    rfl
  rw [fgets, taken, dropped, List.take_succ_cons, List.take_zero, whole, regroup, List.drop_left]

/-! ## Words -/

/-- One `%s` of `sscanf` into an array of `size` bytes: the word behind the white space, and
what follows it. There is no result if there is no word, or if it does not fit the array
with its terminator. -/
def scanWord (size : ℕ) (text : List UInt8) : Option (List UInt8 × List UInt8) :=
  let word := (text.dropWhile isSpace).takeWhile (!isSpace ·)
  if word = [] ∨ size ≤ word.length then none
  else some (word, (text.dropWhile isSpace).dropWhile (!isSpace ·))

/-- The words of a text: its maximal pieces without white space. -/
def words (text : List UInt8) : List (List UInt8) :=
  (text.splitOnP isSpace).filter (· ≠ [])

/-- A blank separates the words on its sides. -/
theorem words_append_blank {blank : UInt8} (isBlank : isSpace blank = true)
    (front rest : List UInt8) : words (front ++ blank :: rest) = words front ++ words rest := by
  rw [words, List.splitOnP_append_cons front rest isBlank, List.filter_append]
  rfl

@[simp] theorem words_nil : words [] = [] := rfl

/-- A blank in front makes no word. -/
theorem words_blank {blank : UInt8} (isBlank : isSpace blank = true) (rest : List UInt8) :
    words (blank :: rest) = words rest := words_append_blank isBlank [] rest

/-- White space in front of a text does not count. -/
theorem words_dropWhile (text : List UInt8) : words (text.dropWhile isSpace) = words text := by
  induction text with
  | nil => rfl
  | cons byte text ih =>
      by_cases isBlank : isSpace byte = true
      · rw [List.dropWhile_cons_of_pos isBlank, ih, words_blank isBlank]
      · rw [List.dropWhile_cons_of_neg isBlank]

/-- A word is its only word. -/
theorem words_unspaced {word : List UInt8} (nonempty : word ≠ [])
    (unspaced : ∀ byte ∈ word, isSpace byte = false) : words word = [word] := by
  rw [words, List.splitOnP_eq_singleton unspaced, List.filter_cons_of_pos (by simpa using nonempty),
    List.filter_nil]

/-- The first word of a text, and what is left behind it. -/
theorem words_eq (text : List UInt8) :
    words text =
      if (text.dropWhile isSpace).takeWhile (!isSpace ·) = [] then []
      else (text.dropWhile isSpace).takeWhile (!isSpace ·) ::
        words ((text.dropWhile isSpace).dropWhile (!isSpace ·)) := by
  rw [← words_dropWhile]
  have start := List.head?_dropWhile_not isSpace text
  generalize text.dropWhile isSpace = trimmed at start ⊢
  split
  case isTrue empty =>
    cases trimmed with
    | nil => rfl
    | cons byte rest =>
        have visible : isSpace byte = false := by simpa using start
        simp [visible] at empty
  case isFalse nonempty =>
    have unspaced : ∀ byte ∈ trimmed.takeWhile (!isSpace ·), isSpace byte = false :=
      fun byte member => by simpa using List.all_eq_true.mp List.all_takeWhile byte member
    have stops := List.head?_dropWhile_not (!isSpace ·) trimmed
    have whole : trimmed.takeWhile (!isSpace ·) ++ trimmed.dropWhile (!isSpace ·) = trimmed :=
      List.takeWhile_append_dropWhile
    generalize trimmed.takeWhile (!isSpace ·) = word at *
    generalize trimmed.dropWhile (!isSpace ·) = rest at *
    subst whole
    cases rest with
    | nil => rw [List.append_nil, words_unspaced nonempty unspaced, words_nil]
    | cons blank rest =>
        have isBlank : isSpace blank = true := by simpa using stops
        rw [words_append_blank isBlank, words_unspaced nonempty unspaced, words_blank isBlank]
        rfl

/-- `%s` takes the first word of the text, if it fits. -/
theorem scanWord_eq_some_iff {size : ℕ} {text word : List UInt8} {more : List (List UInt8)} :
    (∃ rest, scanWord size text = some (word, rest) ∧ words rest = more) ↔
      words text = word :: more ∧ word.length < size := by
  rw [words_eq, scanWord]
  generalize (text.dropWhile isSpace).takeWhile (!isSpace ·) = first
  generalize (text.dropWhile isSpace).dropWhile (!isSpace ·) = left
  constructor
  · rintro ⟨rest, scanned, later⟩
    split at scanned
    case isTrue => cases scanned
    case isFalse accepted =>
      obtain ⟨nonempty, short⟩ := not_or.mp accepted
      cases scanned
      rw [if_neg nonempty, later]
      exact ⟨rfl, Nat.lt_of_not_le short⟩
  · rintro ⟨split, fits⟩
    split_ifs at split with empty
    obtain ⟨rfl, later⟩ := List.cons.inj split
    exact ⟨left, if_neg (not_or.mpr ⟨empty, Nat.not_le_of_lt fits⟩), later⟩

/-- The bytes of a word: at least one, and no white space. -/
structure Word (size : ℕ) (bytes : List UInt8) : Prop where
  nonempty : bytes ≠ []
  fits : bytes.length < size
  unspaced : ∀ byte ∈ bytes, isSpace byte = false

/-- Blanks in front of a word are skipped. -/
theorem scanWord_blank {size : ℕ} {byte : UInt8} {rest : List UInt8}
    (blank : isSpace byte = true) : scanWord size (byte :: rest) = scanWord size rest := by
  rw [scanWord, scanWord, List.dropWhile_cons_of_pos blank]

/-- A word that fits is read up to the blank behind it. -/
theorem scanWord_word {size : ℕ} {word rest : List UInt8} {stop : UInt8} (isWord : Word size word)
    (stops : isSpace stop = true) :
    scanWord size (word ++ stop :: rest) = some (word, stop :: rest) := by
  have inside : ∀ byte ∈ word, (!isSpace byte) = true := fun byte member => by
    rw [isWord.unspaced byte member]
    rfl
  have trimmed : (word ++ stop :: rest).dropWhile isSpace = word ++ stop :: rest := by
    obtain ⟨byte, more, rfl⟩ := List.exists_cons_of_ne_nil isWord.nonempty
    rw [List.cons_append, List.dropWhile_cons, isWord.unspaced byte List.mem_cons_self]
    rfl
  have taken : (word ++ stop :: rest).takeWhile (!isSpace ·) = word :=
    takeWhile_stop inside (by simpa using stops)
  have dropped : (word ++ stop :: rest).dropWhile (!isSpace ·) = stop :: rest :=
    dropWhile_stop inside (by simpa using stops)
  have accepted : ¬ (word = [] ∨ size ≤ word.length) := by
    rintro (empty | long)
    · exact isWord.nonempty empty
    · exact absurd isWord.fits (by omega)
  rw [scanWord, trimmed, taken, dropped]
  exact if_neg accepted

end CommunicationProtocols.Library.TextInput
