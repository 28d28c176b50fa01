import CommunicationProtocols.Library.ByteBuffer
import Mathlib.Data.List.Infix

/-!
# HTTP/1.1 requests

A request is a request line and header lines, each ended by CRLF, an empty line,
and a body that takes up the rest. The header section ends with the first empty
line, whatever follows it. A request whose lines contain no line end is read back
as it was written.
-/

namespace CommunicationProtocols.Library

/-- A request: the method and target of its first line, the header lines, and what
follows the empty line. -/
structure HttpRequest where
  method : List UInt8
  target : List UInt8
  fields : List (List UInt8)
  body : List UInt8
deriving DecidableEq

namespace HttpRequest

def crlf : List UInt8 := [13, 10]

def space : UInt8 := 32

/-- The end of a request line. -/
def version : List UInt8 := space :: ascii "HTTP/1.1"

/-- Lines, each with its line end. -/
def linesText (lines : List (List UInt8)) : List UInt8 := lines.flatMap fun line => line ++ crlf

@[simp] theorem linesText_append (front back : List (List UInt8)) :
    linesText (front ++ back) = linesText front ++ linesText back := List.flatMap_append

@[simp] theorem linesText_cons (line : List UInt8) (lines : List (List UInt8)) :
    linesText (line :: lines) = line ++ (crlf ++ linesText lines) := by
  simp only [linesText, List.flatMap_cons, List.append_assoc]

@[simp] theorem linesText_nil : linesText [] = [] := rfl

def requestLine (request : HttpRequest) : List UInt8 :=
  request.method ++ space :: (request.target ++ version)

def text (request : HttpRequest) : List UInt8 :=
  linesText (request.requestLine :: request.fields) ++ crlf ++ request.body

/-! ## Reading -/

/-- The lines up to the first empty one, and what follows it; `line` has been read
of the current line. There is no result without an empty line. -/
def readSection (line : List UInt8) :
    List UInt8 → Option (List (List UInt8) × List UInt8)
  | [] => none
  | [_] => none
  | first :: second :: rest =>
      if first = 13 ∧ second = 10 then
        if line = [] then some ([], rest)
        else (readSection [] rest).map fun read => (line :: read.1, read.2)
      else
        readSection (line ++ [first]) (second :: rest)

/-- The method of a request line ends with the first space, the target is what is
left in front of the version. -/
def readRequestLine (line : List UInt8) : Option (List UInt8 × List UInt8) :=
  let rest := (line.dropWhile fun byte => byte ≠ space).drop 1
  if version <:+ rest then
    some (line.takeWhile fun byte => byte ≠ space, rest.take (rest.length - version.length))
  else
    none

def parse (bytes : List UInt8) : Option HttpRequest :=
  match readSection [] bytes with
  | some (line :: fields, body) =>
      (readRequestLine line).map fun read => ⟨read.1, read.2, fields, body⟩
  | _ => none

/-! ## What is written is read back -/

/-- Nothing in the request ends its line or its section early. -/
structure WellFormed (request : HttpRequest) : Prop where
  method : space ∉ request.method
  line : 13 ∉ request.requestLine
  nonempty : ∀ field ∈ request.fields, field ≠ []
  fields : ∀ field ∈ request.fields, 13 ∉ field

/-- A line is read up to its line end. -/
theorem readSection_line {line more rest : List UInt8} (whole : 13 ∉ more) :
    readSection line (more ++ crlf ++ rest) =
      if line ++ more = [] then some ([], rest)
      else (readSection [] rest).map fun read => ((line ++ more) :: read.1, read.2) := by
  induction more generalizing line with
  | nil =>
      rw [List.append_nil]
      rfl
  | cons byte more ih =>
      obtain ⟨differs, whole⟩ := not_or.mp (mt List.mem_cons.mpr whole)
      obtain ⟨second, behind, split⟩ : ∃ second behind,
          more ++ crlf ++ rest = second :: behind := by
        cases more with
        | nil => exact ⟨13, 10 :: rest, rfl⟩
        | cons second more => exact ⟨second, more ++ crlf ++ rest, rfl⟩
      have goesOn : readSection line (byte :: (more ++ crlf ++ rest)) =
          readSection (line ++ [byte]) (more ++ crlf ++ rest) := by
        rw [split, readSection, if_neg fun ends => differs ends.1.symm]
      rw [List.cons_append, List.cons_append, goesOn, ih whole, List.append_assoc]
      rfl

/-- The lines of a header section are read back, up to the empty line. -/
theorem readSection_linesText {lines : List (List UInt8)} {rest : List UInt8}
    (nonempty : ∀ line ∈ lines, line ≠ []) (whole : ∀ line ∈ lines, 13 ∉ line) :
    readSection [] (linesText lines ++ crlf ++ rest) = some (lines, rest) := by
  induction lines with
  | nil => rfl
  | cons line lines ih =>
      have later := ih (fun other member => nonempty other (List.mem_cons_of_mem line member))
        fun other member => whole other (List.mem_cons_of_mem line member)
      have front : linesText (line :: lines) ++ crlf ++ rest =
          line ++ crlf ++ (linesText lines ++ crlf ++ rest) := by
        simp only [linesText_cons, List.append_assoc]
      rw [front, readSection_line (whole line List.mem_cons_self), List.nil_append,
        if_neg (nonempty line List.mem_cons_self), later, Option.map_some]

/-- The request line is read back. -/
theorem readRequestLine_requestLine {request : HttpRequest} (method : space ∉ request.method) :
    readRequestLine request.requestLine = some (request.method, request.target) := by
  have before : ∀ byte ∈ request.method, decide (byte ≠ space) = true := fun byte member =>
    decide_eq_true fun same => method (same ▸ member)
  have dropped : (request.requestLine.dropWhile fun byte => byte ≠ space).drop 1 =
      request.target ++ version := by
    rw [requestLine, List.dropWhile_append_of_pos before, List.dropWhile_cons_of_neg (by simp)]
    rfl
  have taken : (request.requestLine.takeWhile fun byte => byte ≠ space) = request.method := by
    rw [requestLine, List.takeWhile_append_of_pos before, List.takeWhile_cons_of_neg (by simp),
      List.append_nil]
  rw [readRequestLine, dropped, taken, if_pos (List.suffix_append _ _), List.length_append, Nat.add_sub_cancel, List.take_left]

/-- The request line has no carriage return that its parts do not have. -/
theorem not_mem_requestLine {request : HttpRequest} (method : 13 ∉ request.method)
    (target : 13 ∉ request.target) : 13 ∉ request.requestLine := by
  have version : 13 ∉ version := by decide
  have separate : 13 ≠ space := by decide
  simp [requestLine, method, target, version, separate]

/-- The request line is not empty. -/
theorem requestLine_ne_nil (request : HttpRequest) : request.requestLine ≠ [] :=
  List.append_ne_nil_of_right_ne_nil _ (List.cons_ne_nil _ _)

/-- Reading a well-formed request gives the request. -/
theorem parse_text {request : HttpRequest} (wellFormed : request.WellFormed) :
    parse request.text = some request := by
  have nonempty : ∀ line ∈ request.requestLine :: request.fields, line ≠ [] :=
    List.forall_mem_cons.mpr ⟨request.requestLine_ne_nil, wellFormed.nonempty⟩
  have whole : ∀ line ∈ request.requestLine :: request.fields, 13 ∉ line :=
    List.forall_mem_cons.mpr ⟨wellFormed.line, wellFormed.fields⟩
  rw [parse, text, readSection_linesText nonempty whole]
  dsimp only
  rw [readRequestLine_requestLine wellFormed.method, Option.map_some]

end HttpRequest

end CommunicationProtocols.Library
