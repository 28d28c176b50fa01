import CommunicationProtocols.Client.Buffer
import CommunicationProtocols.Library.Decimal

/-!
# Receiving a response

`receive_from_server` reads until the buffer has a header terminator and a
content length, and then until it has as many bytes as the two say. A response
that declares its length is put together again from whatever pieces it arrives
in, and not a byte more is waited for.
-/

namespace CommunicationProtocols.Client

open Library

/-- `HEADER_TERMINATOR`. -/
def headerTerminator : List UInt8 := [13, 10, 13, 10]

/-- `CONTENT_LENGTH`. -/
def contentLengthName : List UInt8 := ascii "Content-Length: "

/-- `BUFLEN`. -/
def bufLen : Nat := 4096

/-- What a `read` of at most `BUFLEN` bytes returns: an error, or bytes, and no
bytes at the end of the stream. -/
inductive ReadResult where
  | failed
  | data (bytes : List UInt8)
deriving DecidableEq

/-- How `receive_from_server` ends: with the string it returns and the reads it
has not made, in `error`, in a read without a result yet, or with a read behind
the block. -/
inductive Received where
  | returned (data : List UInt8) (unread : List ReadResult)
  | exited
  | blocked
  | overread
deriving DecidableEq

/-- The variables when the first loop is left: the buffer, `header_end`,
`content_length` and the reads that are left. -/
inductive Searched where
  | left (buffer : Buffer) (headerEnd contentLength : Int) (unread : List ReadResult)
  | stopped (received : Received)
deriving DecidableEq

/-- The first loop. -/
def searchHeader (buffer : Buffer) (headerEnd contentLength : Int) : List ReadResult → Searched
  | [] => .stopped .blocked
  | .failed :: _ => .stopped .exited
  | .data [] :: reads => .left buffer headerEnd contentLength reads
  | .data (byte :: bytes) :: reads =>
      let buffer := bufferAdd buffer (byte :: bytes)
      match bufferFind buffer headerTerminator with
      | none => .stopped .overread
      | some headerEnd =>
          if headerEnd ≥ 0 then
            let headerEnd := toInt (headerEnd + headerTerminator.length)
            match bufferFindInsensitive buffer contentLengthName with
            | none => .stopped .overread
            | some start =>
                if start < 0 then searchHeader buffer headerEnd contentLength reads
                else
                  let start := toInt (start + contentLengthName.length)
                  match Decimal.strtol (buffer.data.drop start.toNat) with
                  | none => .stopped .overread
                  | some contentLength => .left buffer headerEnd (toInt contentLength) reads
          else searchHeader buffer headerEnd contentLength reads

/-- The second loop and the terminator. -/
def readBody (buffer : Buffer) (total : Nat) : List ReadResult → Received
  | [] =>
      if buffer.size < total then .blocked else .returned (bufferAdd buffer [0]).data []
  | .failed :: reads =>
      if buffer.size < total then .exited
      else .returned (bufferAdd buffer [0]).data (.failed :: reads)
  | .data [] :: reads =>
      if buffer.size < total then .returned (bufferAdd buffer [0]).data reads
      else .returned (bufferAdd buffer [0]).data (.data [] :: reads)
  | .data (byte :: bytes) :: reads =>
      if buffer.size < total then readBody (bufferAdd buffer (byte :: bytes)) total reads
      else .returned (bufferAdd buffer [0]).data (.data (byte :: bytes) :: reads)

/-- `receive_from_server` on the results its reads will have. -/
def receiveFromServer (reads : List ReadResult) : Received :=
  match searchHeader bufferInit 0 0 reads with
  | .stopped received => received
  | .left buffer headerEnd contentLength unread =>
      readBody buffer ((toSize contentLength + toSize headerEnd) % 2 ^ 64) unread

/-! ## Responses that declare their length -/

/-- A response with a header section, a body, and the length of the body in the
first content length of the response, which is in the header section. -/
structure DeclaresLength (response header body : List UInt8) (start : Nat) (digits : List UInt8) :
    Prop where
  parts : response = header ++ headerTerminator ++ body
  short : response.length < 2 ^ 31
  terminator : Search.first headerTerminator response = some header.length
  name : Search.first (contentLengthName.map toLower) (response.map toLower) = some start
  inHeader : start + contentLengthName.length ≤ header.length
  nonempty : digits ≠ []
  decimal : ∀ byte ∈ digits, Decimal.isDigit byte = true
  length : Decimal.value digits = body.length
  declared : digits ++ [13] <+: response.drop (start + contentLengthName.length)

/-- The pieces a response arrives in. -/
structure Delivers (chunks : List (List UInt8)) (response : List UInt8) : Prop where
  joined : chunks.flatten = response
  nonempty : ∀ chunk ∈ chunks, chunk ≠ []
  bounded : ∀ chunk ∈ chunks, chunk.length ≤ bufLen

section

variable {response header body digits : List UInt8} {start : Nat} {buffer : Buffer}

/-- The length of a response: the header block, the empty line and the body. -/
theorem DeclaresLength.length_eq (declares : DeclaresLength response header body start digits) :
    response.length = header.length + 4 + body.length := by
  rw [declares.parts, List.length_append, List.length_append]
  rfl

/-- Before the header terminator is complete it is not found. -/
theorem bufferFind_of_cut (declares : DeclaresLength response header body start digits)
    (received : buffer.data <+: response) (cut : buffer.size < header.length + 4) :
    bufferFind buffer headerTerminator = some (-1) := by
  rw [bufferFind, find_eq, List.map_id, List.map_id,
    Search.first_of_cut received declares.terminator cut]
  rfl

/-- Once it is received the end of the header block is found. -/
theorem bufferFind_of_complete (declares : DeclaresLength response header body start digits)
    (received : buffer.data <+: response) (complete : header.length + 4 ≤ buffer.size) :
    bufferFind buffer headerTerminator = some (header.length : Int) := by
  have short := declares.short
  have length := declares.length_eq
  rw [bufferFind, find_eq, List.map_id, List.map_id,
    Search.first_of_complete received declares.terminator complete]
  exact congrArg some (toInt_of_small (by omega))

/-- With the header section the content length is there. -/
theorem bufferFindInsensitive_of_complete
    (declares : DeclaresLength response header body start digits)
    (received : buffer.data <+: response) (complete : header.length + 4 ≤ buffer.size) :
    bufferFindInsensitive buffer contentLengthName = some (start : Int) := by
  have short := declares.short
  have length := declares.length_eq
  have inHeader := declares.inHeader
  have fits : start + (contentLengthName.map toLower).length ≤
      (buffer.data.map toLower).length := by
    rw [List.length_map, List.length_map]
    rw [Buffer.size] at complete
    omega
  rw [bufferFindInsensitive, find_eq,
    Search.first_of_complete (received.map toLower) declares.name fits]
  exact congrArg some (toInt_of_small (by omega))

/-- The digits end before the header terminator does. -/
theorem DeclaresLength.digits_le (declares : DeclaresLength response header body start digits) :
    start + contentLengthName.length + digits.length ≤ header.length := by
  refine Nat.not_lt.mp fun long => ?_
  have inHeader := declares.inHeader
  obtain ⟨rest, split⟩ := declares.declared
  obtain ⟨k, here⟩ := Nat.exists_eq_add_of_le inHeader
  have inDigits : k < digits.length := by omega
  have digit : response[header.length]? = some digits[k] := by
    rw [here, ← List.getElem?_drop, ← split, List.append_assoc, List.getElem?_append_left inDigits,
      List.getElem?_eq_getElem inDigits]
  have return13 : response[header.length]? = some 13 := by
    rw [declares.parts, List.append_assoc, List.getElem?_append_right (Nat.le_refl _), Nat.sub_self]
    rfl
  have isDigit := declares.decimal digits[k] (List.getElem_mem inDigits)
  rw [Option.some_inj.mp (digit.symm.trans return13)] at isDigit
  cases isDigit

/-- The number and the byte behind it are in the buffer with the header section. -/
theorem strtol_of_complete (declares : DeclaresLength response header body start digits)
    (received : buffer.data <+: response) (complete : header.length + 4 ≤ buffer.size) :
    Decimal.strtol (buffer.data.drop (start + contentLengthName.length)) =
      some (body.length : Int) := by
  have short := declares.short
  have length := declares.length_eq
  have ends := declares.digits_le
  obtain ⟨rest, split⟩ := Search.prefix_drop_shorter received declares.declared
    (by rw [List.length_append, List.length_singleton]; rw [Buffer.size] at complete; omega)
  rw [← split, List.append_assoc, List.singleton_append, ← declares.length]
  refine Decimal.strtol_digits declares.nonempty declares.decimal rfl ?_
  rw [declares.length]
  omega

/-! ## The two loops -/

/-- The first loop ends with the piece that completes the header terminator. -/
theorem searchHeader_spec (declares : DeclaresLength response header body start digits)
    {chunks : List (List UInt8)} (nonempty : ∀ chunk ∈ chunks, chunk ≠ [])
    (joined : buffer.data ++ chunks.flatten = response) (cut : buffer.size < header.length + 4)
    (headerEnd contentLength : Int) (later : List ReadResult) :
    ∃ (buffer' : Buffer) (chunks' : List (List UInt8)), searchHeader buffer headerEnd contentLength
        (chunks.map ReadResult.data ++ later) =
        .left buffer' (header.length + 4 : Nat) body.length
          (chunks'.map ReadResult.data ++ later) ∧
      buffer'.data ++ chunks'.flatten = response ∧ ∀ chunk ∈ chunks', chunk ≠ [] := by
  have short := declares.short
  have length := declares.length_eq
  induction chunks generalizing buffer headerEnd contentLength with
  | nil =>
      rw [List.flatten_nil, List.append_nil] at joined
      rw [Buffer.size, joined] at cut
      omega
  | cons chunk chunks ih =>
      obtain ⟨byte, bytes, rfl⟩ := List.exists_cons_of_ne_nil (nonempty chunk List.mem_cons_self)
      have others := fun chunk member => nonempty chunk (List.mem_cons_of_mem _ member)
      have grown : (bufferAdd buffer (byte :: bytes)).data ++ chunks.flatten = response := by
        rw [← joined, List.flatten_cons, bufferAdd, List.append_assoc]
      have received : (bufferAdd buffer (byte :: bytes)).data <+: response := ⟨_, grown⟩
      simp only [List.map_cons, List.cons_append, searchHeader]
      rcases Nat.lt_or_ge (bufferAdd buffer (byte :: bytes)).size (header.length + 4) with
        still | complete
      · rw [bufferFind_of_cut declares received still]
        exact ih others grown still _ _
      · have inHeader := declares.inHeader
        have found : toInt ((header.length : Int) + headerTerminator.length) =
            (header.length + 4 : Nat) := toInt_of_small (n := header.length + 4) (by omega)
        have numberAt : (toInt ((start : Int) + contentLengthName.length)).toNat =
            start + contentLengthName.length := by
          rw [← Nat.cast_add, toInt_of_small (by omega), Int.toNat_natCast]
        refine ⟨_, chunks, ?_, grown, others⟩
        rw [bufferFind_of_complete declares received complete]
        dsimp only
        rw [if_pos (Int.natCast_nonneg _),
          bufferFindInsensitive_of_complete declares received complete]
        dsimp only
        rw [if_neg (Int.not_lt.mpr (Int.natCast_nonneg _)), numberAt,
          strtol_of_complete declares received complete, found]
        dsimp only
        rw [toInt_of_small (by omega)]

/-- The second loop reads the pieces that are left and no more. -/
theorem readBody_spec {chunks : List (List UInt8)} (nonempty : ∀ chunk ∈ chunks, chunk ≠ [])
    (joined : buffer.data ++ chunks.flatten = response) (later : List ReadResult) :
    readBody buffer response.length (chunks.map ReadResult.data ++ later) =
      .returned (response ++ [0]) later := by
  induction chunks generalizing buffer with
  | nil =>
      rw [List.flatten_nil, List.append_nil] at joined
      have complete : ¬ buffer.size < response.length := by
        rw [Buffer.size, joined]
        exact Nat.lt_irrefl _
      rw [List.map_nil, List.nil_append, ← joined]
      rcases later with _ | ⟨_ | ⟨_ | ⟨byte, bytes⟩⟩, later⟩
      all_goals
        rw [readBody, joined, if_neg complete, bufferAdd]
        rw [joined]
  | cons chunk chunks ih =>
      obtain ⟨byte, bytes, rfl⟩ := List.exists_cons_of_ne_nil (nonempty chunk List.mem_cons_self)
      have missing : buffer.size < response.length := by
        rw [← joined, Buffer.size, List.flatten_cons, List.length_append, List.length_append,
          List.length_cons]
        omega
      have grown : (bufferAdd buffer (byte :: bytes)).data ++ chunks.flatten = response := by
        rw [← joined, List.flatten_cons, bufferAdd, List.append_assoc]
      rw [List.map_cons, List.cons_append, readBody, if_pos missing]
      exact ih (fun chunk member => nonempty chunk (List.mem_cons_of_mem _ member)) grown

end

/-- A response that declares its length is returned whole, with a terminator,
however it is cut into pieces, and no read is made behind its last byte. -/
theorem receive_segmentation_independent {response header body digits : List UInt8} {start : Nat}
    (declares : DeclaresLength response header body start digits) {chunks : List (List UInt8)}
    (delivers : Delivers chunks response) (later : List ReadResult) :
    receiveFromServer (chunks.map ReadResult.data ++ later) = .returned (response ++ [0]) later := by
  have short := declares.short
  have length := declares.length_eq
  have cut : bufferInit.size < header.length + 4 := Nat.zero_lt_succ _
  obtain ⟨buffer, chunks', searched, joined, nonempty⟩ :=
    @searchHeader_spec _ _ _ _ _ bufferInit declares _ delivers.nonempty delivers.joined cut 0 0 later
  have total : (toSize body.length + toSize (header.length + 4 : Nat)) % 2 ^ 64 =
      response.length := by
    rw [toSize_natCast (by omega), toSize_natCast (by omega)]
    omega
  rw [receiveFromServer, searched]
  dsimp only
  rw [total]
  exact readBody_spec nonempty joined later

/-- "HTTP/1.1 200 OK" with one content length and a body of two bytes, in
pieces that end in the terminator and in the body. -/
theorem receive_two_bytes :
    receiveFromServer ([ascii "HTTP/1.1 200 OK\r\nCONTENT-length: 2\r\n\r", ascii "\nO",
      ascii "K"].map ReadResult.data) =
      .returned (ascii "HTTP/1.1 200 OK\r\nCONTENT-length: 2\r\n\r\nOK" ++ [0]) [] := by
  have declares : DeclaresLength (ascii "HTTP/1.1 200 OK\r\nCONTENT-length: 2\r\n\r\nOK")
      (ascii "HTTP/1.1 200 OK\r\nCONTENT-length: 2") (ascii "OK") 17 (ascii "2") := by
    constructor <;> decide +kernel
  have delivers : Delivers [ascii "HTTP/1.1 200 OK\r\nCONTENT-length: 2\r\n\r", ascii "\nO",
      ascii "K"] (ascii "HTTP/1.1 200 OK\r\nCONTENT-length: 2\r\n\r\nOK") := by
    constructor <;> decide +kernel
  rw [← List.append_nil (List.map _ _)]
  exact receive_segmentation_independent declares delivers []

end CommunicationProtocols.Client
