import CommunicationProtocols.Client.Response
import CommunicationProtocols.Client.Session

/-!
# What the book commands print

`get_books` and `get_book` should print the body of the response. They look for
it in the whole response: first for the start of an object, and only if there is
none for the start of a list. A list of books is found by its first object, so that
its bracket is lost; a header that contains the text is found before the body.
-/

namespace CommunicationProtocols.Client

open Library

/-- The start of an object with a member. -/
def objectStart : CString := ascii "\x7b\""

/-- The string the book commands hand to `puts`: NULL if neither text is found. -/
def printedJson (listStart : CString) (response : CString) : Option CString :=
  if basicExtractJsonResponse response = none then strstr response listStart
  else basicExtractJsonResponse response

/-- What `get_books` prints. -/
def getBooksText (response : CString) : Option CString := printedJson (ascii "[") response

/-- What `get_book` prints. -/
def getBookText (response : CString) : Option CString := printedJson (ascii "[\x7b\"") response

/-- The first object is printed, or else what starts the list. -/
theorem printedJson_eq_or (listStart response : CString) :
    printedJson listStart response =
      (basicExtractJsonResponse response).or (strstr response listStart) := by
  rw [printedJson]
  split
  case isTrue absent => rw [absent, Option.none_or]
  case isFalse present =>
    obtain ⟨json, found⟩ := Option.ne_none_iff_exists'.mp present
    rw [found, Option.some_or]

/-- The commands go on exactly when they have something to print. -/
theorem respond_getBooks (jsonToken : CString → Option CString) (client : ClientState)
    (response : CString) : respond jsonToken client response .getBooks =
      (getBooksText response).map fun _ => client := by
  rw [getBooksText, printedJson_eq_or, respond]

/-- The cookies do not change, unless there is nothing to print. -/
theorem respond_getBook (jsonToken : CString → Option CString) (client : ClientState)
    (response id : CString) : respond jsonToken client response (.getBook id) =
      (getBookText response).map fun _ => client := by
  rw [getBookText, printedJson_eq_or, respond]

/-! ## Where the searches cut the response -/

/-- A response with a header block and a body. -/
def responseText (header body : CString) : CString := header ++ headerTerminator ++ body

variable {header body : CString}

/-- The start of an object shares no byte with the end of the header block. -/
theorem objectStart_apart : ∀ byte ∈ objectStart, byte ∉ headerTerminator := by decide +kernel

/-- `strstr` cuts the response in front of the body exactly if the pattern starts
the body and does not occur in the header. -/
theorem strstr_response_eq_body_iff {pattern : CString} (nonempty : pattern ≠ [])
    (apart : ∀ byte ∈ pattern, byte ∉ headerTerminator) :
    strstr (responseText header body) pattern = some body ↔
      pattern <+: body ∧ ¬ pattern <:+: header := by
  rw [← Search.first_separated_eq_iff nonempty (by decide) apart, strstr, responseText,
    Option.map_eq_some_iff]
  constructor
  · rintro ⟨i, found, cut⟩
    -- A suffix that equals the body is as long as the body.
    have inside := (Search.first_eq_some_iff.mp found).1
    have length := congrArg List.length cut
    simp only [List.length_drop, List.length_append] at length inside
    rw [found]
    congr 1
    omega
  · intro found
    refine ⟨_, found, ?_⟩
    rw [← List.length_append, List.drop_left]

/-- Such a pattern is not in the response exactly if it is in neither part. -/
theorem strstr_response_eq_none_iff {pattern : CString}
    (apart : ∀ byte ∈ pattern, byte ∉ headerTerminator) :
    strstr (responseText header body) pattern = none ↔
      ¬ pattern <:+: header ∧ ¬ pattern <:+: body := by
  rw [strstr, Option.map_eq_none_iff, Search.first_eq_none_iff_not_infix, responseText,
    Search.infix_separated_iff (by decide) apart, not_or]

/-- The body is printed if it starts with an object, or, when the response has no
object at all, with the text that is searched for next; and never if the text that
is found occurs in the header. -/
theorem printedJson_eq_body_iff {listStart : CString} (nonempty : listStart ≠ [])
    (apart : ∀ byte ∈ listStart, byte ∉ headerTerminator) :
    printedJson listStart (responseText header body) = some body ↔
      ¬ objectStart <:+: header ∧ (objectStart <+: body ∨
        ¬ objectStart <:+: body ∧ listStart <+: body ∧ ¬ listStart <:+: header) := by
  have object := @strstr_response_eq_body_iff header body objectStart (by decide) objectStart_apart
  have noObject := @strstr_response_eq_none_iff header body objectStart objectStart_apart
  rw [printedJson]
  split
  case isTrue absent =>
    obtain ⟨cleanHeader, cleanBody⟩ := noObject.mp absent
    rw [strstr_response_eq_body_iff nonempty apart]
    constructor
    · exact fun list => ⟨cleanHeader, .inr ⟨cleanBody, list⟩⟩
    · rintro ⟨_, start | ⟨_, list⟩⟩
      · exact absurd start.isInfix cleanBody
      · exact list
  case isFalse present =>
    rw [basicExtractJsonResponse, ← objectStart, object]
    constructor
    · exact fun ⟨start, clean⟩ => ⟨clean, .inl start⟩
    · rintro ⟨clean, start | ⟨cleanBody, _⟩⟩
      · exact ⟨start, clean⟩
      · exact absurd (noObject.mpr ⟨clean, cleanBody⟩) present

/-- `get_books` prints the body exactly if no object starts in the header and the
body starts with an object, or contains none and starts with a bracket that does not
occur in the header either. `get_book` prints it only in the first case: what it
searches for next contains the start of an object. -/
theorem book_commands_print_body_iff (header body : CString) :
    (getBooksText (responseText header body) = some body ↔
      ¬ objectStart <:+: header ∧ (objectStart <+: body ∨
        ¬ objectStart <:+: body ∧ ascii "[" <+: body ∧ ¬ ascii "[" <:+: header)) ∧
    (getBookText (responseText header body) = some body ↔
      ¬ objectStart <:+: header ∧ objectStart <+: body) := by
  refine ⟨printedJson_eq_body_iff (by decide) (by decide +kernel), ?_⟩
  rw [getBookText, printedJson_eq_body_iff (by decide) (by decide +kernel)]
  refine and_congr_right fun _ => or_iff_left ?_
  rintro ⟨cleanBody, list, _⟩
  have object : objectStart <:+: ascii "[\x7b\"" := ⟨ascii "[", [], rfl⟩
  exact cleanBody (object.trans list.isInfix)

/-! ## A list of books -/

/-- A list of books is printed without its opening bracket. -/
theorem printedJson_of_list {listStart books : CString} (clean : ¬ objectStart <:+: header)
    (object : objectStart <+: books) :
    printedJson listStart (responseText header (ascii "[" ++ books)) = some books := by
  have cut : basicExtractJsonResponse (responseText header (ascii "[" ++ books)) = some books := by
    have found := (@Search.first_separated_eq_iff _ objectStart header
      (headerTerminator ++ ascii "[") books _ (by decide) (by decide) (by decide +kernel)).mpr
        ⟨object, clean⟩
    rw [basicExtractJsonResponse, strstr, ← objectStart, responseText, List.append_assoc header,
      ← List.append_assoc headerTerminator, ← List.append_assoc, found, Option.map_some,
      ← List.length_append, List.drop_left]
  rw [printedJson_eq_or, cut, Option.some_or]

/-- The list of one book is printed as `{"id":1}]`, by both commands. -/
theorem book_list_loses_bracket :
    getBooksText (responseText (ascii "HTTP/1.1 200 OK") (ascii "[\x7b\"id\":1\x7d]")) =
        some (ascii "\x7b\"id\":1\x7d]") ∧
      getBookText (responseText (ascii "HTTP/1.1 200 OK") (ascii "[\x7b\"id\":1\x7d]")) =
        some (ascii "\x7b\"id\":1\x7d]") ∧
      ¬ getBooksText (responseText (ascii "HTTP/1.1 200 OK") (ascii "[\x7b\"id\":1\x7d]")) =
        some (ascii "[\x7b\"id\":1\x7d]") := by
  decide +kernel

end CommunicationProtocols.Client
