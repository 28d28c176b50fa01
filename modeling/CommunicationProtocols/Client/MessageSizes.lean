import CommunicationProtocols.Client.PageCount
import CommunicationProtocols.Client.RequestParsing
import CommunicationProtocols.Client.Response
import Mathlib.Data.List.Flatten

/-!
# Blocks of the client

The client reads every word into a block from `malloc(sizeof(char))`, prints every header
line into a block of `LINELEN` bytes and appends it to a message of `BUFLEN` bytes, and
never checks that there is room. The strings of the other modules have any length. Here are
the bounds under which nothing is written behind a block: words that fit theirs, and
credentials that fit a line.
-/

namespace CommunicationProtocols.Client

open Library

/-- `LINELEN`. -/
def lineLen : Nat := 1000

/-- The bytes that a block for one `char` has room for, once `malloc` has rounded its size
up. -/
def tokenRoom : Nat := 24

/-- `scanf` writes the token and its NUL inside the block. -/
def Token.Fits (token : Token) : Prop := token.bytes.length < tokenRoom

instance (token : Token) : Decidable token.Fits := inferInstanceAs (Decidable (_ < _))

/-- The header lines of a message fit `line`, and the message fits its own block. -/
structure Inside (message : Request) : Prop where
  lines : ∀ line ∈ message.takeWhile fun line => line ≠ [], line.length < lineLen
  text : (HttpRequest.linesText message).length < bufLen

/-- The lines that the credentials are printed to. -/
def Cookies.lines (cookies : Cookies) : Request :=
  [authorizationName ++ printed cookies.token, cookieName ++ printed cookies.sid]

/-- The credentials fit their lines, and hold no line end. -/
structure Cookies.Printable (cookies : Cookies) : Prop where
  short : ∀ line ∈ cookies.lines, line.length < lineLen
  clean : ∀ string ∈ [printed cookies.sid, printed cookies.token], 13 ∉ string ∧ 10 ∉ string

/-- A bound for the texts of the objects that are sent. -/
def payloadRoom : Nat := 1053

/-- The words of a command fit their blocks, and what is sent with it is no longer than the
text of such words. -/
def Command.Fits : Command → Prop
  | .register data | .login data | .addBook data => data.length ≤ payloadRoom
  | .getBook id | .deleteBook id => id.length < tokenRoom ∧ 13 ∉ id ∧ 10 ∉ id
  | .enterLibrary | .getBooks | .logout | .unknown => True

/-! ## Lengths -/

/-- Every line has a line end of two bytes. -/
theorem length_linesText (lines : Request) :
    (HttpRequest.linesText lines).length = (lines.map fun line => line.length + 2).sum := by
  induction lines with
  | nil => rfl
  | cons line lines ih =>
      have lineEnd : HttpRequest.crlf.length = 2 := rfl
      rw [HttpRequest.linesText_cons, List.length_append, List.length_append, ih, lineEnd,
        List.map_cons, List.sum_cons]
      omega

/-- The lines up to the first empty one are among those in front of any empty one. -/
theorem mem_front {front rest : Request} {line : CString}
    (member : line ∈ (front ++ [] :: rest).takeWhile fun line => line ≠ []) : line ∈ front := by
  induction front with
  | nil => simp at member
  | cons first front ih =>
      rw [List.cons_append, List.takeWhile_cons] at member
      split at member
      case isTrue =>
        rcases List.mem_cons.mp member with rfl | later
        · exact List.mem_cons_self
        · exact List.mem_cons_of_mem _ (ih later)
      case isFalse => cases member

variable {cookies : Cookies} {url data : CString}

/-- A message of short lines and printable credentials stays inside its block. -/
theorem inside_message (printable : cookies.Printable) {fixed credentials rest : Request}
    (listed : credentials.Sublist cookies.lines)
    (short : ∀ line ∈ fixed, line.length < lineLen)
    (total : (HttpRequest.linesText fixed).length + (HttpRequest.linesText rest).length ≤ 2000) :
    Inside (fixed ++ (credentials ++ [] :: rest)) := by
  have printed : (HttpRequest.linesText credentials).length ≤ 2 * (lineLen + 1) := by
    have shorter : (HttpRequest.linesText credentials).length ≤
        (HttpRequest.linesText cookies.lines).length :=
      (listed.flatMap fun line => line ++ HttpRequest.crlf).length_le
    have token := printable.short _ List.mem_cons_self
    have sid := printable.short _ (List.mem_cons_of_mem _ List.mem_cons_self)
    rw [length_linesText cookies.lines] at shorter
    simp only [Cookies.lines, List.map_cons, List.map_nil, List.sum_cons, List.sum_nil] at shorter
    omega
  constructor
  · intro line member
    rw [← List.append_assoc] at member
    rcases List.mem_append.mp (mem_front member) with here | credential
    · exact short line here
    · exact printable.short line (listed.subset credential)
  · have lineEnd : HttpRequest.crlf.length = 2 := rfl
    have size : lineLen = 1000 ∧ bufLen = 4096 := ⟨rfl, rfl⟩
    simp only [HttpRequest.linesText_append, HttpRequest.linesText_cons, List.length_append,
      List.length_nil, lineEnd]
    omega

/-- Without credentials there is nothing that does not fit. -/
theorem noCredentials_printable : Cookies.Printable ⟨none, none⟩ := ⟨by decide, by decide⟩

/-! ## Requests -/

/-- The lines of a GET in front of its credentials. -/
def getLines (url : CString) : Request :=
  [ascii "GET " ++ (url ++ ascii " HTTP/1.1"), ascii "Host: " ++ host]

/-- A GET has its own lines and some of those with the credentials. -/
theorem computeGetRequest_eq (url : CString) (cookies : Cookies) (cookiesCount : Nat) :
    ∃ credentials, credentials.Sublist cookies.lines ∧
      computeGetRequest host url (some cookies) cookiesCount =
        getLines url ++ (credentials ++ [] :: []) := by
  obtain ⟨_ | sid, token⟩ := cookies
  · exact ⟨[], List.nil_sublist _, rfl⟩
  · cases token with
    | none => exact ⟨[cookieName ++ sid], List.sublist_cons_self _ _, rfl⟩
    | some token =>
        by_cases two : cookiesCount = 2
        · exact ⟨[authorizationName ++ token, cookieName ++ sid], .refl _, by subst two; rfl⟩
        · refine ⟨[cookieName ++ sid], List.sublist_cons_self _ _, ?_⟩
          simp [computeGetRequest, computeMessage, two, getLines]

/-- A GET with printable credentials and a short url stays inside its blocks. -/
theorem inside_get (printable : cookies.Printable) (short : url.length ≤ 60)
    (cookiesCount : Nat) : Inside (computeGetRequest host url (some cookies) cookiesCount) := by
  obtain ⟨credentials, listed, same⟩ := computeGetRequest_eq url cookies cookiesCount
  have size : lineLen = 1000 := rfl
  have fixed : host.length = 46 ∧ (ascii "GET ").length = 4 ∧ (ascii " HTTP/1.1").length = 9 ∧
      (ascii "Host: ").length = 6 := by decide
  rw [same]
  refine inside_message printable listed ?_ ?_
  · simp only [getLines, List.forall_mem_cons, List.length_append, List.not_mem_nil,
      false_imp_iff, implies_true, and_true]
    omega
  · simp only [length_linesText, getLines, List.map_cons, List.map_nil, List.sum_cons,
      List.sum_nil, List.length_append]
    omega

/-- The lines of a DELETE in front of its credentials. -/
def deleteLines (url : CString) : Request :=
  [ascii "DELETE " ++ (url ++ ascii " HTTP/1.1"), ascii "Host: " ++ host]

/-- A DELETE with printable credentials and a short url stays inside its blocks. -/
theorem inside_delete (printable : cookies.Printable) (short : url.length ≤ 60) :
    Inside (computeDeleteRequest host url (some cookies) 2) := by
  obtain ⟨credentials, listed, same⟩ : ∃ credentials, credentials.Sublist cookies.lines ∧
      computeDeleteRequest host url (some cookies) 2 =
        deleteLines url ++ (credentials ++ [] :: []) := by
    obtain ⟨sid, _ | token⟩ := cookies
    · exact ⟨[], List.nil_sublist _, rfl⟩
    · exact ⟨[authorizationName ++ token], .cons_cons _ (List.nil_sublist _), rfl⟩
  have size : lineLen = 1000 := rfl
  have fixed : host.length = 46 ∧ (ascii "DELETE ").length = 7 ∧
      (ascii " HTTP/1.1").length = 9 ∧ (ascii "Host: ").length = 6 := by decide
  rw [same]
  refine inside_message printable listed ?_ ?_
  · simp only [deleteLines, List.forall_mem_cons, List.length_append, List.not_mem_nil,
      false_imp_iff, implies_true, and_true]
    omega
  · simp only [length_linesText, deleteLines, List.map_cons, List.map_nil, List.sum_cons,
      List.sum_nil, List.length_append]
    omega

/-- The lines of a POST in front of its credentials. -/
def postLines (url data : CString) : Request :=
  [ascii "POST " ++ (url ++ ascii " HTTP/1.1"), ascii "Host: " ++ host,
    ascii "Content-Type: " ++ contentType, ascii "Content-Length: " ++ Decimal.text data.length]

/-- A POST with printable credentials, a short url and data for which there is room stays inside
its blocks. -/
theorem inside_post (printable : cookies.Printable) (short : url.length ≤ 60)
    (small : data.length ≤ payloadRoom) {argument : Option Cookies} {cookiesCount : Nat}
    (called : argument = none ∧ cookiesCount = 0 ∨ argument = some cookies ∧ cookiesCount = 2) :
    Inside (computePostRequest host url contentType data argument cookiesCount) := by
  obtain ⟨credentials, listed, same⟩ : ∃ credentials, credentials.Sublist cookies.lines ∧
      computePostRequest host url contentType data argument cookiesCount =
        postLines url data ++ (credentials ++ [] :: [data]) := by
    rcases called with ⟨rfl, rfl⟩ | ⟨rfl, rfl⟩
    · exact ⟨[], List.nil_sublist _, rfl⟩
    · exact ⟨cookies.lines, .refl _, rfl⟩
  have size : lineLen = 1000 ∧ payloadRoom = 1053 := ⟨rfl, rfl⟩
  have digits : (Decimal.text data.length).length ≤ 4 :=
    (Decimal.length_text_le_iff (by decide)).mpr (by omega)
  have fixed : host.length = 46 ∧ contentType.length = 16 ∧ (ascii "POST ").length = 5 ∧
      (ascii " HTTP/1.1").length = 9 ∧ (ascii "Host: ").length = 6 ∧
      (ascii "Content-Type: ").length = 14 ∧ (ascii "Content-Length: ").length = 16 := by
    decide
  rw [same]
  refine inside_message printable listed ?_ ?_
  · simp only [postLines, List.forall_mem_cons, List.length_append, List.not_mem_nil,
      false_imp_iff, implies_true, and_true]
    omega
  · simp only [length_linesText, postLines, List.map_cons, List.map_nil, List.sum_cons,
      List.sum_nil, List.length_append]
    omega

/-- No request that the client makes of words that fit is written behind a block. -/
theorem request_inside {command : Command} (fits : command.Fits)
    (printable : cookies.Printable) : ∀ sent ∈ request cookies command, Inside sent := by
  have urls : booksUrl.length = 26 ∧ (ascii "/").length = 1 := by decide
  have book {id : CString} (fits : id.length < tokenRoom) :
      (booksUrl ++ ascii "/" ++ id).length ≤ 60 := by
    have room : tokenRoom = 24 := rfl
    rw [List.length_append, List.length_append]
    omega
  cases command with
  | register data =>
      rintro _ ⟨⟩
      exact inside_post printable (by decide) fits (.inl ⟨rfl, rfl⟩)
  | login data =>
      rintro _ ⟨⟩
      exact inside_post printable (by decide) fits (.inl ⟨rfl, rfl⟩)
  | addBook data =>
      rintro _ ⟨⟩
      exact inside_post printable (by decide) fits (.inr ⟨rfl, rfl⟩)
  | enterLibrary =>
      rintro _ ⟨⟩
      exact inside_get printable (by decide) 1
  | logout =>
      rintro _ ⟨⟩
      exact inside_get printable (by decide) 1
  | getBooks =>
      rintro _ ⟨⟩
      exact inside_get printable (by decide) 2
  | getBook id =>
      rintro _ ⟨⟩
      exact inside_get printable (book fits.1) 2
  | deleteBook id =>
      rintro _ ⟨⟩
      exact inside_delete printable (book fits.1)
  | unknown => exact fun _ none => nomatch none

end CommunicationProtocols.Client
