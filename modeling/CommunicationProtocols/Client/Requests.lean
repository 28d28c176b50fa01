import CommunicationProtocols.Client.Buffer
import CommunicationProtocols.Library.Decimal

/-!
# Requests

A request is built line by line with `compute_message`. The three builders treat
the cookies they are given differently: one leaves out what is missing, one
prints it, and one has no place for the session cookie. What a request carries
is read off the lines of its header section.
-/

namespace CommunicationProtocols.Client

open Library

/-- A string of the source, without its terminating NUL. -/
abbrev CString := List UInt8

/-- The array `cookies`: the session cookie and the access token, each possibly NULL. -/
structure Cookies where
  sid : Option CString
  token : Option CString
deriving DecidableEq

/-- A message as the lines it consists of; `compute_message` ends each with CRLF. -/
abbrev Request := List CString

def computeMessage (message : Request) (line : CString) : Request := message ++ [line]

/-- `%s`, which prints a NULL as the C library does. -/
def printed (string : Option CString) : CString := string.getD (ascii "(null)")

/-- The names the credentials have in a header section. -/
def cookieName : CString := ascii "Cookie: "
def authorizationName : CString := ascii "Authorization: Bearer "

def computeGetRequest (host url : CString) (cookies : Option Cookies) (cookiesCount : Nat) :
    Request :=
  let message := computeMessage [] (ascii "GET " ++ (url ++ ascii " HTTP/1.1"))
  let message := computeMessage message (ascii "Host: " ++ host)
  let message := match cookies with
    | some ⟨some sid, token⟩ =>
        let message := match token with
          | some token =>
              if cookiesCount = 2 then computeMessage message (authorizationName ++ token)
              else message
          | none => message
        computeMessage message (cookieName ++ sid)
    | _ => message
  computeMessage message []

def computePostRequest (host url contentType data : CString) (cookies : Option Cookies)
    (cookiesCount : Nat) : Request :=
  let message := computeMessage [] (ascii "POST " ++ (url ++ ascii " HTTP/1.1"))
  let message := computeMessage message (ascii "Host: " ++ host)
  let message := computeMessage message (ascii "Content-Type: " ++ contentType)
  let message := computeMessage message (ascii "Content-Length: " ++ Decimal.text data.length)
  let message := if cookiesCount ≠ 2 then computeMessage message [] else message
  let message := match cookies with
    | some cookies =>
        let message :=
          if cookiesCount = 2 then
            computeMessage message (authorizationName ++ printed cookies.token)
          else message
        computeMessage message (cookieName ++ printed cookies.sid)
    | none => message
  let message := if cookiesCount = 2 then computeMessage message [] else message
  computeMessage message data

def computeDeleteRequest (host url : CString) (cookies : Option Cookies) (cookiesCount : Nat) :
    Request :=
  let message := computeMessage [] (ascii "DELETE " ++ (url ++ ascii " HTTP/1.1"))
  let message := computeMessage message (ascii "Host: " ++ host)
  let message := match cookies with
    | some ⟨_, some token⟩ =>
        if cookiesCount = 2 then computeMessage message (authorizationName ++ token) else message
    | _ => message
  computeMessage message []

/-! ## What a request carries -/

/-- The values of a header in the header section, which ends with the first empty line. -/
def headerValues (name : CString) (request : Request) : List CString :=
  (request.takeWhile fun line => line ≠ []).filterMap fun line =>
    if name <+: line then some (line.drop name.length) else none

section

variable {name literal rest : CString} {lines : Request}

@[simp] theorem headerValues_empty : headerValues name ([] :: lines) = [] := by
  simp [headerValues]

/-- A line that starts with another literal is no such header. -/
theorem headerValues_other (nonempty : literal ≠ [])
    (differs : ¬ name <+: literal ∧ ¬ literal <+: name) :
    headerValues name ((literal ++ rest) :: lines) = headerValues name lines := by
  have absent : ¬ name <+: literal ++ rest := fun here =>
    (List.prefix_or_prefix_of_prefix here (List.prefix_append literal rest)).elim differs.1
      differs.2
  simp [headerValues, nonempty, absent]

/-- A field with the name has its value among those that are read. -/
theorem headerValues_same (nonempty : name ≠ []) :
    headerValues name ((name ++ rest) :: lines) = rest :: headerValues name lines := by
  simp [headerValues, nonempty]

/-- A GET carries the session cookie that is there, and with it the token. -/
theorem headerValues_get (host url : CString) (cookies : Cookies) (cookiesCount : Nat) :
    headerValues cookieName (computeGetRequest host url (some cookies) cookiesCount) =
        cookies.sid.toList ∧
      headerValues authorizationName (computeGetRequest host url (some cookies) cookiesCount) =
        if cookies.sid ≠ none ∧ cookiesCount = 2 then cookies.token.toList else [] := by
  obtain ⟨_ | sid, _ | token⟩ := cookies
  all_goals
    by_cases both : cookiesCount = 2
    all_goals
      simp only [computeGetRequest, computeMessage, List.nil_append, List.cons_append, both, if_true,
        if_false]
      simp (disch := decide) [headerValues_other, headerValues_same]

/-- A POST without cookies carries none. -/
theorem headerValues_post_none (host url contentType data : CString) {name : CString}
    (known : name = cookieName ∨ name = authorizationName) :
    headerValues name (computePostRequest host url contentType data none 0) = [] := by
  simp only [computePostRequest, computeMessage, List.nil_append, List.cons_append]
  rcases known with rfl | rfl
  all_goals simp (disch := decide) [headerValues_other]

/-- A POST with both cookies carries both, printed if they are missing. -/
theorem headerValues_post (host url contentType data : CString) (cookies : Cookies) :
    headerValues cookieName (computePostRequest host url contentType data (some cookies) 2) =
        [printed cookies.sid] ∧
      headerValues authorizationName
        (computePostRequest host url contentType data (some cookies) 2) =
        [printed cookies.token] := by
  simp only [computePostRequest, computeMessage, List.nil_append, List.cons_append]
  simp (disch := decide) [headerValues_other, headerValues_same]

/-- A DELETE carries the token only. -/
theorem headerValues_delete (host url : CString) (cookies : Cookies) :
    headerValues cookieName (computeDeleteRequest host url (some cookies) 2) = [] ∧
      headerValues authorizationName (computeDeleteRequest host url (some cookies) 2) =
        cookies.token.toList := by
  obtain ⟨sid, _ | token⟩ := cookies
  all_goals
    simp only [computeDeleteRequest, computeMessage, List.nil_append, List.cons_append]
    simp (disch := decide) [headerValues_other, headerValues_same]

end

end CommunicationProtocols.Client
