import CommunicationProtocols.Client.Requests
import CommunicationProtocols.Library.HttpRequest

/-!
# Reading requests back

The string a builder makes should be an HTTP/1.1 request for what it was asked: all
its header lines in front of the first empty line, and behind it the body of the
declared length. For GET and DELETE it is. The POST builder appends the body with
`compute_message`, so that a line end follows it, and with a single cookie it ends
the header section before the cookie.
-/

namespace CommunicationProtocols.Client

open Library

/-- The arguments `cookies` and `cookies_count`: NULL with any count, or an array
of as many strings as the count says. -/
inductive CookiesArgument where
  | null (count : Int)
  | one (sid : CString)
  | two (sid token : CString)
deriving DecidableEq

namespace CookiesArgument

def cookies : CookiesArgument → Option Cookies
  | null _ => none
  | one sid => some ⟨some sid, none⟩
  | two sid token => some ⟨some sid, some token⟩

/-- The builders compare the count with 2 only; a negative one is like 0 to them. -/
def count : CookiesArgument → Nat
  | null count => count.toNat
  | one _ => 1
  | two _ _ => 2

/-- The strings of the array. -/
def strings : CookiesArgument → List CString
  | null _ => []
  | one sid => [sid]
  | two sid token => [sid, token]

/-- The lines GET and POST print for the array. -/
def lines : CookiesArgument → List CString
  | null _ => []
  | one sid => [cookieName ++ sid]
  | two sid token => [authorizationName ++ token, cookieName ++ sid]

/-- The lines DELETE prints for the array. -/
def tokenLines : CookiesArgument → List CString
  | null _ => []
  | one _ => []
  | two _ token => [authorizationName ++ token]

end CookiesArgument

/-- A call of one of the builders. -/
inductive RequestCall where
  | get (host url : CString) (argument : CookiesArgument)
  | post (host url contentType data : CString) (argument : CookiesArgument)
  | delete (host url : CString) (argument : CookiesArgument)
deriving DecidableEq

namespace RequestCall

/-- The lines the builder appends. -/
def request : RequestCall → Request
  | get host url argument => computeGetRequest host url argument.cookies argument.count
  | post host url contentType data argument =>
      computePostRequest host url contentType data argument.cookies argument.count
  | delete host url argument => computeDeleteRequest host url argument.cookies argument.count

/-- The string the builder returns. -/
def text (call : RequestCall) : CString := HttpRequest.linesText call.request

/-- The strings that become part of a line. -/
def strings : RequestCall → List CString
  | get host url argument => [host, url] ++ argument.strings
  | post host url contentType _ argument => [host, url, contentType] ++ argument.strings
  | delete host url argument => [host, url] ++ argument.strings

/-- No line end is smuggled into a line. -/
def Clean (call : RequestCall) : Prop := ∀ string ∈ call.strings, 13 ∉ string ∧ 10 ∉ string

instance (call : RequestCall) : Decidable call.Clean :=
  inferInstanceAs (Decidable (∀ string ∈ call.strings, _))

def hostLine (host : CString) : CString := ascii "Host: " ++ host

def contentTypeLine (contentType : CString) : CString := ascii "Content-Type: " ++ contentType

/-- `"Content-Length: "`. -/
def contentLengthName : CString := ascii "Content-Length: "

def contentLengthLine (data : CString) : CString :=
  contentLengthName ++ Decimal.text data.length

/-- The request that is asked for, with the header lines the builder prints: a DELETE is
asked for with the token only. -/
def asked : RequestCall → HttpRequest
  | get host url argument => ⟨ascii "GET", url, hostLine host :: argument.lines, []⟩
  | post host url contentType data argument =>
      ⟨ascii "POST", url, [hostLine host, contentTypeLine contentType, contentLengthLine data] ++
        argument.lines, data⟩
  | delete host url argument => ⟨ascii "DELETE", url, hostLine host :: argument.tokenLines, []⟩

/-- What comes back from reading the string: method and target, every header line in
the header section, and the body behind it, of the declared length. -/
def ParsesBack (call : RequestCall) : Prop :=
  ∃ parsed, HttpRequest.parse call.text = some parsed ∧
    parsed.method = call.asked.method ∧ parsed.target = call.asked.target ∧
    (∀ line ∈ call.asked.fields, line ∈ parsed.fields) ∧ parsed.body = call.asked.body ∧
    ∀ length ∈ headerValues contentLengthName parsed.fields,
      length = Decimal.text parsed.body.length

/-- The call builds a POST. -/
def IsPost : RequestCall → Prop
  | get _ _ _ => False
  | post _ _ _ _ _ => True
  | delete _ _ _ => False

/-! ## What is sent -/

/-- The request the string really is: a POST has a line end behind the data, and its
credentials are in front of the data unless the count is 2. -/
def sent : RequestCall → HttpRequest
  | get host url argument => asked (get host url argument)
  | post host url contentType data argument =>
      let fields := [hostLine host, contentTypeLine contentType, contentLengthLine data]
      if argument.count = 2 then
        ⟨ascii "POST", url, fields ++ argument.lines, data ++ HttpRequest.crlf⟩
      else
        ⟨ascii "POST", url, fields,
          HttpRequest.linesText argument.lines ++ (data ++ HttpRequest.crlf)⟩
  | delete host url argument => asked (delete host url argument)

/-- One call of `compute_message` appends a line and its line end. -/
theorem linesText_computeMessage (message : Request) (line : CString) :
    HttpRequest.linesText (computeMessage message line) =
      HttpRequest.linesText message ++ (line ++ HttpRequest.crlf) := by
  simp [computeMessage]

/-- The lines of a GET. -/
theorem request_get (host url : CString) (argument : CookiesArgument) :
    (get host url argument).request =
      (get host url argument).asked.requestLine ::
        ((get host url argument).asked.fields ++ [[]]) := by
  cases argument <;> rfl

/-- The lines of a DELETE. -/
theorem request_delete (host url : CString) (argument : CookiesArgument) :
    (delete host url argument).request =
      (delete host url argument).asked.requestLine ::
        ((delete host url argument).asked.fields ++ [[]]) := by
  cases argument <;> rfl

/-- The lines of a POST. -/
theorem request_post (host url contentType data : CString) (argument : CookiesArgument) :
    (post host url contentType data argument).request =
      (post host url contentType data argument).asked.requestLine ::
        ([hostLine host, contentTypeLine contentType, contentLengthLine data] ++
          if argument.count = 2 then argument.lines ++ [[], data]
          else [] :: (argument.lines ++ [data])) := by
  cases argument with
  | null count =>
      simp only [request, computePostRequest, CookiesArgument.cookies]
      by_cases two : (CookiesArgument.null count).count = 2
      · simp only [two, if_true]
        rfl
      · simp only [two, ne_eq, not_false_eq_true, if_true, if_false]
        rfl
  | one sid => rfl
  | two sid token => rfl

/-- The string of a builder is the text of the request that is sent. -/
theorem text_eq (call : RequestCall) : call.text = call.sent.text := by
  cases call with
  | get host url argument =>
      rw [text, request_get]
      simp [HttpRequest.text, sent, asked]
  | post host url contentType data argument =>
      rw [text, request_post, sent]
      by_cases two : argument.count = 2
      · simp [HttpRequest.text, two, asked, HttpRequest.requestLine]
      · simp [HttpRequest.text, two, asked, HttpRequest.requestLine]
  | delete host url argument =>
      rw [text, request_delete]
      simp [HttpRequest.text, sent, asked]

/-! ## Reading it -/

/-- A line that neither is empty nor holds a line end. -/
def IsHeaderLine (line : CString) : Prop := line ≠ [] ∧ 13 ∉ line

instance (line : CString) : Decidable (IsHeaderLine line) := inferInstanceAs (Decidable (_ ∧ _))

/-- The name of a header makes a line of every string without a line end. -/
theorem IsHeaderLine.append {name string : CString} (header : IsHeaderLine name)
    (clean : 13 ∉ string) : IsHeaderLine (name ++ string) :=
  ⟨List.append_ne_nil_of_left_ne_nil header.1 _,
    fun member => (List.mem_append.mp member).elim header.2 clean⟩

theorem isHeaderLine_cookieName : IsHeaderLine cookieName := by decide

theorem isHeaderLine_authorizationName : IsHeaderLine authorizationName := by decide

/-- The Host line is a header line, if the host has no line end. -/
theorem isHeaderLine_hostLine {host : CString} (clean : 13 ∉ host) :
    IsHeaderLine (hostLine host) :=
  (show IsHeaderLine (ascii "Host: ") by decide).append clean

/-- The Content-Type line is a header line, if the type has no line end. -/
theorem isHeaderLine_contentTypeLine {contentType : CString} (clean : 13 ∉ contentType) :
    IsHeaderLine (contentTypeLine contentType) :=
  (show IsHeaderLine (ascii "Content-Type: ") by decide).append clean

/-- The Content-Length line is a header line. -/
theorem isHeaderLine_contentLengthLine (data : CString) :
    IsHeaderLine (contentLengthLine data) :=
  (show IsHeaderLine contentLengthName by decide).append (Decimal.not_mem_text (by decide))

/-- The lines with cookies are header lines, if the cookies have no line end. -/
theorem isHeaderLine_of_mem_lines {argument : CookiesArgument}
    (clean : ∀ string ∈ argument.strings, 13 ∉ string ∧ 10 ∉ string) :
    ∀ line ∈ argument.lines, IsHeaderLine line := by
  cases argument with
  | null count => exact fun _ member => absurd member List.not_mem_nil
  | one sid =>
      have sidClean := (clean sid List.mem_cons_self).1
      exact List.forall_mem_singleton.mpr (isHeaderLine_cookieName.append sidClean)
  | two sid token =>
      have sidClean := (clean sid List.mem_cons_self).1
      have tokenClean := (clean token (List.mem_cons_of_mem _ List.mem_cons_self)).1
      exact List.forall_mem_cons.mpr ⟨isHeaderLine_authorizationName.append tokenClean,
        List.forall_mem_singleton.mpr (isHeaderLine_cookieName.append sidClean)⟩

/-- The line with the token is one of the lines with cookies. -/
theorem mem_lines_of_mem_tokenLines {argument : CookiesArgument} {line : CString}
    (member : line ∈ argument.tokenLines) : line ∈ argument.lines := by
  cases argument with
  | null count => exact member
  | one sid => exact absurd member List.not_mem_nil
  | two sid token => exact List.mem_cons.mpr (.inl (List.mem_singleton.mp member))

/-- The strings of a clean call make header lines. -/
theorem isHeaderLine_of_mem_asked {call : RequestCall} (clean : call.Clean) :
    ∀ line ∈ call.asked.fields, IsHeaderLine line := by
  cases call with
  | get host url argument =>
      obtain ⟨hostClean, _, cookies⟩ := by
        simpa only [Clean, strings, List.cons_append, List.nil_append, List.forall_mem_cons]
          using clean
      exact List.forall_mem_cons.mpr
        ⟨isHeaderLine_hostLine hostClean.1, isHeaderLine_of_mem_lines cookies⟩
  | post host url contentType data argument =>
      obtain ⟨hostClean, _, typeClean, cookies⟩ := by
        simpa only [Clean, strings, List.cons_append, List.nil_append, List.forall_mem_cons]
          using clean
      exact List.forall_mem_cons.mpr ⟨isHeaderLine_hostLine hostClean.1,
        List.forall_mem_cons.mpr ⟨isHeaderLine_contentTypeLine typeClean.1,
          List.forall_mem_cons.mpr ⟨isHeaderLine_contentLengthLine data,
            isHeaderLine_of_mem_lines cookies⟩⟩⟩
  | delete host url argument =>
      obtain ⟨hostClean, _, cookies⟩ := by
        simpa only [Clean, strings, List.cons_append, List.nil_append, List.forall_mem_cons]
          using clean
      exact List.forall_mem_cons.mpr ⟨isHeaderLine_hostLine hostClean.1,
        fun line member => isHeaderLine_of_mem_lines cookies line
          (mem_lines_of_mem_tokenLines member)⟩

/-- The header section never has a line that was not asked for. -/
theorem mem_asked_of_mem_sent {call : RequestCall} {line : CString}
    (member : line ∈ call.sent.fields) : line ∈ call.asked.fields := by
  cases call with
  | get host url argument => exact member
  | post host url contentType data argument =>
      simp only [sent] at member
      split at member
      · exact member
      · exact List.mem_append_left _ member
  | delete host url argument => exact member

/-- Method and target are sent as they are asked for. -/
theorem line_sent (call : RequestCall) :
    call.sent.method = call.asked.method ∧ call.sent.target = call.asked.target := by
  cases call with
  | get host url argument => exact ⟨rfl, rfl⟩
  | post host url contentType data argument =>
      simp only [sent]
      split <;> exact ⟨rfl, rfl⟩
  | delete host url argument => exact ⟨rfl, rfl⟩

/-- The target is one of the strings of the call. -/
theorem target_mem_strings (call : RequestCall) : call.asked.target ∈ call.strings := by
  cases call with
  | get host url argument => exact List.mem_cons_of_mem _ List.mem_cons_self
  | post host url contentType data argument => exact List.mem_cons_of_mem _ List.mem_cons_self
  | delete host url argument => exact List.mem_cons_of_mem _ List.mem_cons_self

/-- The methods have no space and no line end. -/
theorem method_plain (call : RequestCall) :
    HttpRequest.space ∉ call.asked.method ∧ 13 ∉ call.asked.method := by
  have getPlain : HttpRequest.space ∉ ascii "GET" ∧ 13 ∉ ascii "GET" := by decide
  have postPlain : HttpRequest.space ∉ ascii "POST" ∧ 13 ∉ ascii "POST" := by decide
  have deletePlain : HttpRequest.space ∉ ascii "DELETE" ∧ 13 ∉ ascii "DELETE" := by decide
  cases call with
  | get host url argument => exact getPlain
  | post host url contentType data argument => exact postPlain
  | delete host url argument => exact deletePlain

/-- Without line ends in its strings a request is well formed. -/
theorem sent_wellFormed {call : RequestCall} (clean : call.Clean) : call.sent.WellFormed where
  method := by
    rw [call.line_sent.1]
    exact call.method_plain.1
  line := by
    refine HttpRequest.not_mem_requestLine ?_ ?_
    · rw [call.line_sent.1]
      exact call.method_plain.2
    · rw [call.line_sent.2]
      exact (clean _ call.target_mem_strings).1
  nonempty := fun line member =>
    (isHeaderLine_of_mem_asked clean line (mem_asked_of_mem_sent member)).1
  fields := fun line member =>
    (isHeaderLine_of_mem_asked clean line (mem_asked_of_mem_sent member)).2

/-- Reading the string of a builder gives the request that is sent. -/
theorem parse_text {call : RequestCall} (clean : call.Clean) :
    HttpRequest.parse call.text = some call.sent := by
  rw [text_eq, HttpRequest.parse_text (sent_wellFormed clean)]

/-- A GET and a DELETE are sent as they are asked for. -/
theorem sent_eq_asked {call : RequestCall} (other : ¬ call.IsPost) : call.sent = call.asked := by
  cases call with
  | get host url argument => rfl
  | post host url contentType data argument => exact absurd trivial other
  | delete host url argument => rfl

/-- Neither of them has a body, and neither declares one. -/
theorem no_body {call : RequestCall} (other : ¬ call.IsPost) :
    call.asked.body = [] ∧ headerValues contentLengthName call.asked.fields = [] := by
  have none : headerValues contentLengthName [] = [] := rfl
  cases call with
  | get host url argument =>
      refine ⟨rfl, ?_⟩
      cases argument <;>
        simp (disch := decide) [asked, hostLine, CookiesArgument.lines, headerValues_other, none]
  | post host url contentType data argument => exact absurd trivial other
  | delete host url argument =>
      refine ⟨rfl, ?_⟩
      cases argument <;>
        simp (disch := decide) [asked, hostLine, CookiesArgument.tokenLines, headerValues_other,
          none]

/-- What follows the empty line of a POST is longer than its data. -/
theorem length_body_post (host url contentType data : CString) (argument : CookiesArgument) :
    data.length + 2 ≤ (post host url contentType data argument).sent.body.length := by
  have lineEnd : HttpRequest.crlf.length = 2 := rfl
  simp only [sent]
  split
  · rw [List.length_append, lineEnd]
  · rw [List.length_append, List.length_append, lineEnd]
    omega

/-- The string of a builder reads back as what was asked if and only if it is not
the POST builder, whatever the strings and the credentials are. -/
theorem parsesBack_iff (call : RequestCall) (clean : call.Clean) :
    call.ParsesBack ↔ ¬ call.IsPost := by
  constructor
  · rintro ⟨parsed, read, _, _, _, body, _⟩ isPost
    cases call with
    | get host url argument => exact isPost
    | post host url contentType data argument =>
        obtain rfl : _ = parsed := Option.some.inj ((parse_text clean).symm.trans read)
        have longer := length_body_post host url contentType data argument
        rw [body] at longer
        simp only [asked] at longer
        omega
    | delete host url argument => exact isPost
  · intro other
    have read := parse_text clean
    rw [sent_eq_asked other] at read
    obtain ⟨_, undeclared⟩ := no_body other
    refine ⟨call.asked, read, rfl, rfl, fun _ member => member, rfl, fun length declared => ?_⟩
    rw [undeclared] at declared
    exact absurd declared List.not_mem_nil

/-- A request for the list of books, with both credentials. -/
def sampleGet : RequestCall :=
  get (ascii "localhost") (ascii "/api/v1/tema/library/books")
    (.two (ascii "connect.sid=s1") (ascii "t1"))

theorem parsesBack_iff_sample : sampleGet.ParsesBack ↔ ¬ sampleGet.IsPost :=
  parsesBack_iff sampleGet (by decide)

/-- A POST with the session cookie alone. -/
def samplePost : RequestCall :=
  post (ascii "localhost") (ascii "/api/v1/tema/auth/login") (ascii "application/json")
    (ascii "\x7b\x7d") (.one (ascii "connect.sid=s1"))

/-- The cookie and a line end become part of a body that is declared with two bytes. -/
theorem post_body_misplaced :
    samplePost.Clean ∧
      (HttpRequest.parse samplePost.text).map HttpRequest.body =
        some (ascii "Cookie: connect.sid=s1\r\n\x7b\x7d\r\n") ∧
      ¬ samplePost.ParsesBack := by
  have clean : samplePost.Clean := by decide
  have body : (HttpRequest.parse samplePost.text).map HttpRequest.body =
      some (ascii "Cookie: connect.sid=s1\r\n\x7b\x7d\r\n") := by
    rw [parse_text clean]
    decide
  refine ⟨clean, body, fun ⟨parsed, read, _, _, _, same, _⟩ => ?_⟩
  rw [read, Option.map_some, same] at body
  exact absurd body (by decide)

end RequestCall

end CommunicationProtocols.Client
