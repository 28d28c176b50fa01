import CommunicationProtocols.Library.InetAddr
import CommunicationProtocols.Library.TextInput
import CommunicationProtocols.Router.RouteLookup
import CommunicationProtocols.Router.Sorting
import Mathlib.Data.List.TakeWhile

/-!
# The file of the routing table

At start-up the router reads `rtable.txt`, one entry a line, and sorts what it has read. The
main theorem follows a configuration from the text of its entries to the routes that lookups
find.
-/

namespace CommunicationProtocols.Router

open Library Library.Decimal Library.TextInput Library.InetAddr

/-! ## Reading the file -/

/-- `sizeof(line)`. -/
def lineSize : Nat := 100

/-- The size of the array of each word. -/
def wordSize : Nat := 50

/-- The entries that `main` allocates. -/
def rtableCapacity : Nat := 100000

/-- `atoi` is the conversion to `int` of what `strtol` reads. -/
def atoi (string : List UInt8) : Int := ((strtol (string ++ [0])).getD 0).bmod (2 ^ 32)

/-- The body of the loop of `read_rtable` for one line. There is no result where a word is
missing, so that its array is read without having been written, or does not fit its array. -/
def readEntry (line : List UInt8) : Option RouteTableEntry := do
  let netPrefix ← scanWord wordSize (line.takeWhile (· ≠ 0))
  let nextHop ← scanWord wordSize netPrefix.2
  let mask ← scanWord wordSize nextHop.2
  let interface ← scanWord wordSize mask.2
  return {
    netPrefix := inetAddr netPrefix.1
    nextHop := inetAddr nextHop.1
    mask := inetAddr mask.1
    interface := atoi interface.1 }

/-- The loop of `read_rtable`. There is no result where an entry is written behind the
allocated ones. -/
def readLoop (i : Nat) (rtable : Rtable) (file : List UInt8) : Option (Rtable × Nat) :=
  if _left : file ≠ [] then
    let line := fgets lineSize file
    if i < rtableCapacity then
      (readEntry line.1).bind fun entry =>
        readLoop (i + 1) (Function.update rtable i entry) line.2
    else none
  else some (rtable, i)
termination_by file.length
decreasing_by exact fgets_shorter (by decide) _left

/-- `read_rtable`, for a file that can be opened. -/
def readRtable (rtable : Rtable) (file : List UInt8) : Option (Rtable × Nat) :=
  readLoop 0 rtable file

/-- What `main` does with the file before its loop: the sorted table and its size. -/
def loadRtable (rtable : Rtable) (file : List UInt8) : Option (Rtable × Nat) :=
  (readRtable rtable file).map fun read => (quicksort read.1 0 (read.2 - 1), read.2)

/-! ## What the words of a line are read as -/

/-- The words of the string that a line holds. -/
def lineWords (line : List UInt8) : List (List UInt8) := words (line.takeWhile (· ≠ 0))

/-- The entry of four words. -/
def entryOfWords (netPrefix nextHop mask interface : List UInt8) : RouteTableEntry where
  netPrefix := inetAddr netPrefix
  nextHop := inetAddr nextHop
  mask := inetAddr mask
  interface := atoi interface

/-- The line is read as this entry: it has four words that fit their arrays, and the entry
is theirs. What stands behind them does not matter. -/
def ReadsAs (line : List UInt8) (entry : RouteTableEntry) : Prop :=
  ∃ netPrefix nextHop mask interface more,
    lineWords line = netPrefix :: nextHop :: mask :: interface :: more ∧
    (∀ word ∈ [netPrefix, nextHop, mask, interface], word.length < wordSize) ∧
    entry = entryOfWords netPrefix nextHop mask interface

/-- A line gives an entry exactly if it is read as it. -/
theorem readEntry_eq_some_iff {line : List UInt8} {entry : RouteTableEntry} :
    readEntry line = some entry ↔ ReadsAs line entry := by
  constructor
  · intro read
    rw [readEntry] at read
    obtain ⟨⟨netPrefix, rest⟩, scanned, read⟩ := Option.bind_eq_some_iff.mp read
    obtain ⟨first, firstFits⟩ := scanWord_eq_some_iff.mp ⟨_, scanned, rfl⟩
    obtain ⟨⟨nextHop, rest⟩, scanned, read⟩ := Option.bind_eq_some_iff.mp read
    obtain ⟨second, secondFits⟩ := scanWord_eq_some_iff.mp ⟨_, scanned, rfl⟩
    obtain ⟨⟨mask, rest⟩, scanned, read⟩ := Option.bind_eq_some_iff.mp read
    obtain ⟨third, thirdFits⟩ := scanWord_eq_some_iff.mp ⟨_, scanned, rfl⟩
    obtain ⟨⟨interface, rest⟩, scanned, read⟩ := Option.bind_eq_some_iff.mp read
    obtain ⟨fourth, fourthFits⟩ := scanWord_eq_some_iff.mp ⟨_, scanned, rfl⟩
    refine ⟨netPrefix, nextHop, mask, interface, words rest, ?_, ?_, (Option.some.inj read).symm⟩
    · rw [lineWords, first, second, third, fourth]
    · simpa only [List.forall_mem_cons, List.not_mem_nil, false_imp_iff, implies_true, and_true]
        using ⟨firstFits, secondFits, thirdFits, fourthFits⟩
  · rintro ⟨netPrefix, nextHop, mask, interface, more, split, fits, rfl⟩
    simp only [List.forall_mem_cons] at fits
    obtain ⟨firstFits, secondFits, thirdFits, fourthFits, -⟩ := fits
    obtain ⟨rest, first, split⟩ := scanWord_eq_some_iff.mpr ⟨split, firstFits⟩
    obtain ⟨rest', second, split⟩ := scanWord_eq_some_iff.mpr ⟨split, secondFits⟩
    obtain ⟨rest'', third, split⟩ := scanWord_eq_some_iff.mpr ⟨split, thirdFits⟩
    obtain ⟨more, fourth, -⟩ := scanWord_eq_some_iff.mpr ⟨split, fourthFits⟩
    simp only [readEntry, first, second, third, fourth, Option.bind_eq_bind, Option.bind_some]
    rfl

/-- A line is read exactly if it has four words and each of them fits its array. -/
theorem exists_readsAs_iff_words {line : List UInt8} :
    (∃ entry, ReadsAs line entry) ↔
      4 ≤ (lineWords line).length ∧ ∀ word ∈ (lineWords line).take 4, word.length < wordSize := by
  constructor
  · rintro ⟨entry, netPrefix, nextHop, mask, interface, more, split, fits, -⟩
    rw [split]
    exact ⟨by simp only [List.length_cons]; omega, fits⟩
  · rintro ⟨four, fits⟩
    obtain ⟨netPrefix, nextHop, mask, interface, more, split⟩ :
        ∃ netPrefix nextHop mask interface more,
          lineWords line = netPrefix :: nextHop :: mask :: interface :: more := by
      match lineWords line, four with
      | netPrefix :: nextHop :: mask :: interface :: more, _ =>
          exact ⟨netPrefix, nextHop, mask, interface, more, rfl⟩
    rw [split] at fits
    exact ⟨_, netPrefix, nextHop, mask, interface, more, split, fits, rfl⟩

/-! ## Writing the file -/

/-- A line of the file: addresses in their usual notation, and an interface. -/
structure TableLine where
  netPrefix : Vector UInt8 4
  nextHop : Vector UInt8 4
  mask : Vector UInt8 4
  interface : Int
  isInt : -2 ^ 31 ≤ interface ∧ interface < 2 ^ 31

namespace TableLine

def entry (line : TableLine) : RouteTableEntry where
  netPrefix := word32 line.netPrefix
  nextHop := word32 line.nextHop
  mask := word32 line.mask
  interface := line.interface

/-- The text of a line up to its newline. -/
def text (line : TableLine) : List UInt8 :=
  dotted line.netPrefix ++ 32 :: (dotted line.nextHop ++ 32 :: (dotted line.mask ++
    32 :: intText line.interface))

end TableLine

def fileText (lines : List TableLine) : List UInt8 :=
  lines.flatMap fun line => line.text ++ [newline]

/-! ## Words of a line -/

/-- The bytes of addresses and numbers. -/
def IsFieldByte (byte : UInt8) : Prop := isDigit byte = true ∨ byte = dot ∨ byte = 45

/-- The bytes of fields are no white space and no NUL. -/
theorem IsFieldByte.visible {byte : UInt8} (field : IsFieldByte byte) :
    isSpace byte = false ∧ byte ≠ 0 := by
  rcases field with digit | rfl | rfl
  · refine ⟨not_isSpace_of_isDigit digit, ?_⟩
    rintro rfl
    cases digit
  · decide
  · decide

/-- A dotted address is made of bytes of fields. -/
theorem isFieldByte_of_mem_dotted {octets : Vector UInt8 4} {byte : UInt8}
    (member : byte ∈ dotted octets) : IsFieldByte byte := by
  obtain ⟨a, b, c, d, -, parts⟩ := exists_dotted_eq octets
  simp only [parts, List.mem_append, List.mem_cons] at member
  rcases member with first | rfl | second | rfl | third | rfl | fourth
  · exact .inl (isDigit_of_mem_text first)
  · exact .inr (.inl rfl)
  · exact .inl (isDigit_of_mem_text second)
  · exact .inr (.inl rfl)
  · exact .inl (isDigit_of_mem_text third)
  · exact .inr (.inl rfl)
  · exact .inl (isDigit_of_mem_text fourth)

/-- A decimal interface is made of bytes of fields. -/
theorem isFieldByte_of_mem_intText {z : Int} {byte : UInt8} (member : byte ∈ intText z) :
    IsFieldByte byte := by
  rw [intText] at member
  split at member
  case isTrue =>
    rcases List.mem_cons.mp member with rfl | digit
    · exact .inr (.inr rfl)
    · exact .inl (isDigit_of_mem_text digit)
  case isFalse => exact .inl (isDigit_of_mem_text member)

/-- A dotted address has fifteen bytes at most. -/
theorem length_dotted_le (octets : Vector UInt8 4) : (dotted octets).length ≤ 15 := by
  have short (octet : UInt8) : (Decimal.text octet.toNat).length ≤ 3 := by
    have small := octet.toNat_lt
    rw [length_text_le_iff (by decide)]
    omega
  obtain ⟨a, b, c, d, -, parts⟩ := exists_dotted_eq octets
  have first := short a
  have second := short b
  have third := short c
  have fourth := short d
  simp only [parts, List.length_append, List.length_cons]
  omega

/-- The text of an `int` has eleven bytes at most. -/
theorem length_intText_le {z : Int} (isInt : -2 ^ 31 ≤ z ∧ z < 2 ^ 31) :
    (intText z).length ≤ 11 := by
  have magnitude : (Decimal.text z.natAbs).length ≤ 10 := by
    rw [length_text_le_iff (by decide)]
    omega
  rw [intText]
  split
  · rw [List.length_cons]
    omega
  · omega

/-- A dotted address is a word that fits its array. -/
theorem dotted_word (octets : Vector UInt8 4) : Word wordSize (dotted octets) := by
  have short := length_dotted_le octets
  refine ⟨?_, ?_, fun byte member => (isFieldByte_of_mem_dotted member).visible.1⟩
  · obtain ⟨a, b, c, d, -, parts⟩ := exists_dotted_eq octets
    rw [parts]
    exact List.append_ne_nil_of_left_ne_nil (text_ne_nil _) _
  · rw [wordSize]
    omega

/-- The text of an `int` is a word that fits its array. -/
theorem intText_word {z : Int} (isInt : -2 ^ 31 ≤ z ∧ z < 2 ^ 31) : Word wordSize (intText z) := by
  have short := length_intText_le isInt
  refine ⟨?_, ?_, fun byte member => (isFieldByte_of_mem_intText member).visible.1⟩
  · rw [intText]
    split
    · exact List.cons_ne_nil _ _
    · exact text_ne_nil _
  · rw [wordSize]
    omega

/-- The text of an `int` is read back. -/
theorem atoi_intText {z : Int} (isInt : -2 ^ 31 ≤ z ∧ z < 2 ^ 31) : atoi (intText z) = z := by
  rw [atoi, strtol_intText rfl (by omega), Option.getD_some]
  exact Int.bmod_eq_of_le (by omega) (by omega)

/-! ## Reading what was written -/

namespace TableLine

variable (line : TableLine)

/-- A line is made of bytes of fields and blanks. -/
theorem visible_or_blank {byte : UInt8} (member : byte ∈ line.text) :
    IsFieldByte byte ∨ byte = 32 := by
  simp only [text, List.mem_append, List.mem_cons] at member
  rcases member with first | rfl | second | rfl | third | rfl | last
  · exact .inl (isFieldByte_of_mem_dotted first)
  · exact .inr rfl
  · exact .inl (isFieldByte_of_mem_dotted second)
  · exact .inr rfl
  · exact .inl (isFieldByte_of_mem_dotted third)
  · exact .inr rfl
  · exact .inl (isFieldByte_of_mem_intText last)

/-- The text of a line has no line end. -/
theorem newline_not_mem : newline ∉ line.text := by
  intro member
  rcases line.visible_or_blank member with field | same
  · exact absurd field.visible.1 (by decide)
  · exact absurd same (by decide)

/-- The text of a line has 59 bytes at most. -/
theorem length_text_le : line.text.length ≤ 59 := by
  have first := length_dotted_le line.netPrefix
  have second := length_dotted_le line.nextHop
  have third := length_dotted_le line.mask
  have last := length_intText_le line.isInt
  simp only [text, List.length_append, List.length_cons]
  omega

/-- `sscanf` does not meet a terminator before the end of the line. -/
theorem takeWhile_text : (line.text ++ [newline]).takeWhile (· ≠ 0) = line.text ++ [newline] := by
  rw [List.takeWhile_eq_self_iff]
  intro byte member
  refine decide_eq_true ?_
  rcases List.mem_append.mp member with inside | ends
  · rcases line.visible_or_blank inside with field | rfl
    · exact field.visible.2
    · decide
  · rw [List.mem_singleton.mp ends]
    decide

end TableLine

/-- A line is read as the entry it was written for. -/
theorem readsAs_text (line : TableLine) : ReadsAs (line.text ++ [newline]) line.entry := by
  have space (rest : List UInt8) : scanWord wordSize (32 :: rest) = scanWord wordSize rest :=
    scanWord_blank rfl
  have address (octets : Vector UInt8 4) (rest : List UInt8) :
      scanWord wordSize (dotted octets ++ 32 :: rest) = some (dotted octets, 32 :: rest) :=
    scanWord_word (dotted_word octets) rfl
  have number : scanWord wordSize (intText line.interface ++ [newline]) =
      some (intText line.interface, [newline]) :=
    scanWord_word (intText_word line.isInt) rfl
  rw [← readEntry_eq_some_iff, readEntry, line.takeWhile_text]
  simp only [TableLine.text, List.append_assoc, List.cons_append, address, space, number,
    Option.bind_eq_bind, Option.bind_some, inetAddr_dotted, atoi_intText line.isInt]
  rfl

/-- The entries that the loop has written from entry `i` on. -/
def written (rtable : Rtable) (i : Nat) : List RouteTableEntry → Rtable
  | [] => rtable
  | entry :: entries => written (Function.update rtable i entry) (i + 1) entries

/-- The lines as the calls of `fgets` return them. -/
def fileLines (file : List UInt8) : List (List UInt8) :=
  if _left : file ≠ [] then
    (fgets lineSize file).1 :: fileLines (fgets lineSize file).2
  else []
termination_by file.length
decreasing_by exact fgets_shorter (by decide) _left

/-- The loop ends well exactly if every line is read and every entry has a place. -/
theorem readLoop_eq_some_iff {file : List UInt8} {i : Nat} (room : i ≤ rtableCapacity)
    {rtable loaded : Rtable} {size : Nat} :
    readLoop i rtable file = some (loaded, size) ↔
      ∃ entries, List.Forall₂ ReadsAs (fileLines file) entries ∧
        i + entries.length ≤ rtableCapacity ∧ loaded = written rtable i entries ∧
        size = i + entries.length := by
  induction file using fileLines.induct generalizing i rtable with
  | case1 file left ih =>
      rw [readLoop, dif_pos left, fileLines, dif_pos left]
      dsimp only
      constructor
      · intro read
        split_ifs at read with place
        obtain ⟨entry, isEntry, rest⟩ := Option.bind_eq_some_iff.mp read
        obtain ⟨entries, isRead, fits, rfl, rfl⟩ := (ih place).mp rest
        refine ⟨entry :: entries, .cons (readEntry_eq_some_iff.mp isEntry) isRead, ?_, rfl, ?_⟩
        · rw [List.length_cons]
          omega
        · rw [List.length_cons]
          omega
      · rintro ⟨_, isRead, fits, rfl, rfl⟩
        obtain ⟨entry, entries, isEntry, others, rfl⟩ := List.forall₂_cons_left_iff.mp isRead
        rw [List.length_cons] at fits
        rw [if_pos (by omega), readEntry_eq_some_iff.mpr isEntry, Option.bind_some]
        refine (ih (by omega)).mpr ⟨entries, others, by omega, rfl, ?_⟩
        rw [List.length_cons]
        omega
  | case2 file none =>
      rw [readLoop, dif_neg none, fileLines, dif_neg none]
      constructor
      · rintro read
        cases read
        exact ⟨[], .nil, room, rfl, rfl⟩
      · rintro ⟨_, ⟨⟩, -, rfl, rfl⟩
        rfl

/-- The lines of a written configuration are those that were written. -/
theorem fileLines_fileText (lines : List TableLine) :
    fileLines (fileText lines) = lines.map fun line => line.text ++ [newline] := by
  induction lines with
  | nil =>
      rw [fileLines]
      rfl
  | cons line lines ih =>
      have file : fileText (line :: lines) = line.text ++ newline :: fileText lines := by
        simp [fileText]
      have short := line.length_text_le
      have left : line.text ++ newline :: fileText lines ≠ [] := by simp
      have read : fgets lineSize (line.text ++ newline :: fileText lines) =
          (line.text ++ [newline], fileText lines) :=
        fgets_line line.newline_not_mem (by rw [lineSize]; omega)
      rw [file, fileLines, dif_pos left, read, ih, List.map_cons]

section Written

variable {rtable : Rtable} {entries : List RouteTableEntry} {i : Nat}

/-- Writing entries leaves the table around them. -/
theorem written_outside {k : Int} (outside : ¬ ((i : Int) ≤ k ∧ k < i + entries.length)) :
    written rtable i entries k = rtable k := by
  induction entries generalizing rtable i with
  | nil => rfl
  | cons entry entries ih =>
      rw [List.length_cons] at outside
      have elsewhere : k ≠ i := by omega
      rw [written, ih (by omega), Function.update_of_ne elsewhere]

/-- The entries written stand one after the other. -/
theorem written_inside {j : Nat} (bound : j < entries.length) :
    written rtable i entries (i + j : Nat) = entries[j] := by
  induction entries generalizing rtable i j with
  | nil => cases bound
  | cons entry entries ih =>
      rw [written]
      cases j with
      | zero =>
          rw [written_outside (by omega)]
          exact Function.update_self _ _ _
      | succ j =>
          rw [List.length_cons] at bound
          have index : i + (j + 1) = (i + 1) + j := by omega
          rw [index, ih (by omega), List.getElem_cons_succ]

/-- The entries written are the segment. -/
theorem segment_written : Cells.segment (written rtable 0 entries) entries.length = entries := by
  refine List.ext_getElem (by simp [Cells.segment]) fun j bound bound' => ?_
  have inside : written rtable 0 entries (0 + j : Nat) = entries[j] := written_inside bound'
  rw [Nat.zero_add] at inside
  simpa [Cells.segment] using inside

end Written

/-! ## Tables of one mask -/

/-- Under a single mask the masked destination is compared with ascending prefixes, and no
probe turns away from an entry that covers it. -/
theorem findsLongestMatch_of_sameMask {rtable : Rtable} {rtableSize : Nat}
    (sorted : SortedTable rtable rtableSize)
    (sameMask : ∀ i j, 0 ≤ i → i ≤ (rtableSize : Int) - 1 → 0 ≤ j → j ≤ (rtableSize : Int) - 1 →
      (rtable i).mask = (rtable j).mask) (destIp : BitVec 32) :
    FindsLongestMatch rtable rtableSize destIp := by
  cases search : bisect (verdict rtable destIp) 0 (rtableSize - 1) with
  | none =>
      have route := getBestRoute_of_none search
      refine ⟨⟨fun _ i lower upper covers => ?_, fun _ => route⟩, fun found => absurd route found⟩
      have masked (m : Int) (low : 0 ≤ m) (high : m ≤ (rtableSize : Int) - 1) :
          destIp &&& (rtable m).mask = (rtable i).netPrefix := by
        rw [sameMask m i low high lower upper]
        exact covers
      have reached : ∃ m, bisect (verdict rtable destIp) 0 (rtableSize - 1) = some m := by
        apply bisect_of_never_away lower upper
        · intro m low high turn
          rw [verdict, masked m low high] at turn
          by_contra behind
          have ascending := sorted.prefix_le low (by omega : m ≤ i) upper
          split_ifs at turn with same less
          exact absurd less (BitVec.not_lt.mpr ascending)
        · intro m low high turn
          rw [verdict, masked m low high] at turn
          by_contra before
          have ascending := sorted.prefix_le lower (by omega : i ≤ m) high
          split_ifs at turn with same less
          exact less (BitVec.lt_of_le_ne ascending same)
      rw [search] at reached
      obtain ⟨m, found⟩ := reached
      cases found
  | some m =>
      obtain ⟨route, walked⟩ := getBestRoute_of_some search
      have bounds := bisect_some search
      have backwards := walked.backwards
      have longest : IsLongestMatch rtable rtableSize destIp (walkBack rtable destIp m.toNat) := by
        refine ⟨by omega, by omega, walked.covers, fun j lower upper _ => ?_⟩
        have same := sameMask j (walkBack rtable destIp m.toNat) lower upper (by omega) (by omega)
        rw [same]
      rw [← route] at longest
      have lower := longest.lower
      refine ⟨⟨fun missing => by omega, fun uncovered => ?_⟩, fun _ => longest⟩
      exact absurd longest.covers (uncovered _ lower longest.upper)

/-! ## From the file to the routes -/

/-- What the router has at the end of its start-up, for a file with these entries: the
entries and nothing else, sorted, the memory around them as it was. The lookup of the source,
which tests what memory holds before entry 0 like an entry, is `getBestRoute` exactly where
it stops inside the table. There every route is an entry that covers the destination, and
where all masks are one, lookups are longest-prefix match. -/
structure LoadedTable (rtable : Rtable) (entries : List RouteTableEntry) (loaded : Rtable)
    (size : Nat) : Prop where
  count : size = entries.length
  permuted : (Cells.segment loaded size).Perm entries
  sorted : SortedTable loaded size
  outside : ∀ k : Int, ¬ (0 ≤ k ∧ k < size) → loaded k = rtable k
  lookups : ∀ destIp fuel, size ≤ fuel →
    (getBestRouteUnguarded loaded size destIp fuel = some (getBestRoute loaded size destIp) ↔
      StopsInside loaded size destIp)
  routes : ∀ destIp, StopsInside loaded size destIp → getBestRoute loaded size destIp ≠ -1 →
    ∃ entry ∈ entries, loaded (getBestRoute loaded size destIp) = entry ∧ Covers entry destIp
  longest : (∀ x ∈ entries, ∀ y ∈ entries, x.mask = y.mask) →
    ∀ destIp, StopsInside loaded size destIp → FindsLongestMatch loaded size destIp

/-- Sorting the entries of a file gives the table that is loaded. -/
theorem loadedTable_quicksort (rtable : Rtable) (entries : List RouteTableEntry) :
    LoadedTable rtable entries (quicksort (written rtable 0 entries) 0 (entries.length - 1))
      entries.length := by
  have moved := quicksort_rearranges (written rtable 0 entries) 0 (entries.length - 1)
  have sorted := quicksort_sorted (written rtable 0 entries) entries.length
  have permuted := moved.perm
  have outside (k : Int) (behind : ¬ (0 ≤ k ∧ k < entries.length)) :
      quicksort (written rtable 0 entries) 0 (entries.length - 1) k = rtable k := by
    rw [moved.apply_outside (by omega), written_outside (by omega)]
  rw [segment_written] at permuted
  generalize quicksort (written rtable 0 entries) 0 (entries.length - 1) = loaded
    at sorted permuted outside ⊢
  have isEntry (i : Int) (lower : 0 ≤ i) (upper : i ≤ (entries.length : Int) - 1) :
      loaded i ∈ entries := by
    obtain ⟨index, rfl⟩ := Int.eq_ofNat_of_zero_le lower
    exact permuted.mem_iff.mp (List.mem_map.mpr ⟨index, List.mem_range.mpr (by omega), rfl⟩)
  refine ⟨rfl, permuted, sorted, outside, fun destIp fuel enough => ?_,
    fun destIp _ routed => ?_, fun oneMask destIp _ => ?_⟩
  · exact getBestRouteUnguarded_eq_iff enough
  · have sound := soundRoute_of_routed routed
    have upper := sound.upper
    exact ⟨_, isEntry _ sound.lower (by omega), rfl, sound.covers⟩
  · refine findsLongestMatch_of_sameMask sorted (fun i j lowI highI lowJ highJ => ?_) destIp
    exact oneMask _ (isEntry i lowI highI) _ (isEntry j lowJ highJ)

/-- All lines are read exactly if each has four words that fit. -/
theorem exists_readsAs_iff {lines : List (List UInt8)} :
    (∃ entries, List.Forall₂ ReadsAs lines entries) ↔
      ∀ line ∈ lines, 4 ≤ (lineWords line).length ∧
        ∀ word ∈ (lineWords line).take 4, word.length < wordSize := by
  induction lines with
  | nil => simp
  | cons line lines ih =>
      rw [List.forall_mem_cons, ← ih, ← exists_readsAs_iff_words]
      constructor
      · rintro ⟨_, isRead⟩
        obtain ⟨entry, entries, isEntry, rest, -⟩ := List.forall₂_cons_left_iff.mp isRead
        exact ⟨⟨entry, isEntry⟩, entries, rest⟩
      · rintro ⟨⟨entry, isEntry⟩, entries, rest⟩
        exact ⟨entry :: entries, .cons isEntry rest⟩

/-- A table is loaded exactly if all lines are read and there is room for them. -/
theorem loadRtable_eq_some_iff {rtable loaded : Rtable} {file : List UInt8} {size : Nat} :
    loadRtable rtable file = some (loaded, size) ↔
      ∃ entries, List.Forall₂ ReadsAs (fileLines file) entries ∧
        entries.length ≤ rtableCapacity ∧
        loaded = quicksort (written rtable 0 entries) 0 (entries.length - 1) ∧
        size = entries.length := by
  rw [loadRtable, Option.map_eq_some_iff]
  constructor
  · rintro ⟨⟨filled, count⟩, read, same⟩
    obtain ⟨entries, isRead, fits, rfl, rfl⟩ := (readLoop_eq_some_iff (Nat.zero_le _)).mp read
    rw [Nat.zero_add] at fits same
    cases same
    exact ⟨entries, isRead, fits, rfl, rfl⟩
  · rintro ⟨entries, isRead, fits, rfl, rfl⟩
    refine ⟨(written rtable 0 entries, entries.length), ?_, rfl⟩
    exact (readLoop_eq_some_iff (Nat.zero_le _)).mpr
      ⟨entries, isRead, by omega, rfl, (Nat.zero_add _).symm⟩

/-- The router comes through its start-up exactly if the file has no more lines than the
table has room for and every line has four words that fit their arrays. Then the table is
that of the entries of the lines. -/
theorem file_loaded (rtable : Rtable) (file : List UInt8) :
    ((loadRtable rtable file).isSome ↔ (fileLines file).length ≤ rtableCapacity ∧
      ∀ line ∈ fileLines file, 4 ≤ (lineWords line).length ∧
        ∀ word ∈ (lineWords line).take 4, word.length < wordSize) ∧
    ∀ loaded size, loadRtable rtable file = some (loaded, size) →
      ∃ entries, List.Forall₂ ReadsAs (fileLines file) entries ∧
        LoadedTable rtable entries loaded size := by
  constructor
  · rw [Option.isSome_iff_exists, ← exists_readsAs_iff]
    constructor
    · rintro ⟨⟨loaded, size⟩, read⟩
      obtain ⟨entries, isRead, fits, -, -⟩ := loadRtable_eq_some_iff.mp read
      exact ⟨isRead.length_eq ▸ fits, entries, isRead⟩
    · rintro ⟨fits, entries, isRead⟩
      rw [isRead.length_eq] at fits
      exact ⟨_, loadRtable_eq_some_iff.mpr ⟨entries, isRead, fits, rfl, rfl⟩⟩
  · intro loaded size read
    obtain ⟨entries, isRead, -, rfl, rfl⟩ := loadRtable_eq_some_iff.mp read
    exact ⟨entries, isRead, loadedTable_quicksort rtable entries⟩

/-- Every configuration that the table has room for is loaded from its text. -/
theorem configuration_loaded (lines : List TableLine) (rtable : Rtable)
    (room : lines.length ≤ rtableCapacity) :
    ∃ loaded, loadRtable rtable (fileText lines) = some (loaded, lines.length) ∧
      LoadedTable rtable (lines.map TableLine.entry) loaded lines.length := by
  have count : (lines.map TableLine.entry).length = lines.length := List.length_map _
  have isRead : List.Forall₂ ReadsAs (fileLines (fileText lines)) (lines.map TableLine.entry) := by
    rw [fileLines_fileText, List.forall₂_map_left_iff, List.forall₂_map_right_iff,
      List.forall₂_same]
    exact fun line _ => readsAs_text line
  have table := loadedTable_quicksort rtable (lines.map TableLine.entry)
  rw [count] at table
  refine ⟨_, loadRtable_eq_some_iff.mpr ⟨_, isRead, by rwa [count], ?_, count.symm⟩, table⟩
  rw [count]

/-- 10.0.0.0 by 192.168.0.1 on interface 0 and 11.0.0.0 by 192.168.1.1 on interface 1, the
greater prefix first. -/
def twoLines : List TableLine := [
  { netPrefix := #v[11, 0, 0, 0]
    nextHop := #v[192, 168, 1, 1]
    mask := #v[255, 0, 0, 0]
    interface := 1
    isInt := by decide },
  { netPrefix := #v[10, 0, 0, 0]
    nextHop := #v[192, 168, 0, 1]
    mask := #v[255, 0, 0, 0]
    interface := 0
    isInt := by decide }]

theorem configuration_loaded_two :
    ∃ loaded, loadRtable (fun _ => default) (fileText twoLines) = some (loaded, 2) ∧
      LoadedTable (fun _ => default) (twoLines.map TableLine.entry) loaded 2 :=
  configuration_loaded twoLines (fun _ => default) (by decide)

end CommunicationProtocols.Router
