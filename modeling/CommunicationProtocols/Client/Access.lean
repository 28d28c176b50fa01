import CommunicationProtocols.Client.BookOutput
import CommunicationProtocols.Client.Credentials
import CommunicationProtocols.Client.MessageSizes
import CommunicationProtocols.Parson.Setters

/-!
# The token of the library

`enter_library` looks for a JSON object in the response, takes the string under
`"token"` from it and copies it over the response. From there it goes into the headers of
the requests that follow. The copy never is longer than the text it is put over, and from
the bytes of the response to what a server reads in the header section of a later request the
token is the same, as long as words and credentials fit the blocks they are written to.
-/

namespace CommunicationProtocols.Client

open Library Library.Json Parson

/-- The string under `"token"` in a JSON text. -/
def parsonToken (json : CString) : Option CString :=
  jsonObjectGetString ((jsonParseString doubles json).bind jsonValueGetObject) (ascii "token")

/-! ## The copy fits -/

/-- No string of a parsed value is longer than the text. -/
theorem parsed_strings_within {string : List UInt8} {value : Value Binary64}
    (parsed : jsonParseString doubles string = some value) :
    value.Everywhere (Value.StringWithin string.length) := by
  obtain ⟨blanks, text, rest, same, _, derives⟩ := derives_of_parsed parsed
  have within := derives.strings_within (fun _ _ _ written => WrittenNumber.length_le written) value
    List.mem_cons_self
  have shorter : text.length ≤ string.length := by
    have whole := congrArg List.length same
    rw [List.length_append, afterMark] at whole
    split_ifs at whole
    · rw [List.length_drop] at whole
      omega
    · omega
  exact within.mono (Value.StringWithin.mono shorter)

/-- A value that is found belongs to a member with the name. -/
theorem getn_mem {ν : Type} {object : List (Member ν)} {name : List UInt8} {value : Value ν}
    (found : jsonObjectGetnValue object name = some value) : (name, value) ∈ object := by
  obtain ⟨member, here, rfl⟩ := Option.map_eq_some_iff.mp found
  obtain ⟨inside, rfl⟩ := KeyedList.find_eq_some here
  exact inside

/-- What `parsonToken` finds. -/
theorem parsonToken_eq_some_iff {json token : CString} :
    parsonToken json = some token ↔ ∃ members bytes,
      jsonParseString doubles json = some (.object members) ∧
        jsonObjectGetnValue members (ascii "token") = some (.string bytes) ∧
        token = cString bytes := by
  rw [parsonToken, jsonObjectGetString, Option.bind_eq_some_iff]
  constructor
  · rintro ⟨found, here, read⟩
    obtain ⟨members, object, inside⟩ := Option.bind_eq_some_iff.mp here
    obtain ⟨value, parsed, isObject⟩ := Option.bind_eq_some_iff.mp object
    cases value with
    | object =>
        obtain rfl := Option.some.inj isObject
        cases found with
        | string bytes => exact ⟨_, bytes, parsed, inside, (Option.some.inj read).symm⟩
        | null | boolean | number | array | object => cases read
    | null | boolean | number | string | array => cases isObject
  · rintro ⟨members, bytes, parsed, inside, rfl⟩
    exact ⟨.string bytes, by rw [parsed]; exact inside, rfl⟩

/-- `strcpy` of the token over the JSON text of the response stays inside the text. -/
theorem parsonToken_length_le {json token : CString} (found : parsonToken json = some token) :
    token.length ≤ json.length := by
  obtain ⟨members, bytes, parsed, inside, rfl⟩ := parsonToken_eq_some_iff.mp found
  have within := (Value.everywhere_object.mp (parsed_strings_within parsed)).2 _ (getn_mem inside)
  have bounded : bytes.length ≤ json.length := Value.everywhere_string.mp within
  exact Nat.le_trans (List.takeWhile_sublist _).length_le bounded

/-! ## The response -/

/-- A response that grants a token: behind a header block without a JSON object there is a
body of the declared length that starts like one, and it is the text of an object with
the token. No NUL ends it early. -/
structure Grants (response token : CString) : Prop where
  whole : 0 ∉ response
  parts : ∃ header body digits start, DeclaresLength response header body start digits ∧
    ¬objectStart <:+: header ∧ objectStart <+: body ∧ parsonToken body = some token

/-- What the client takes from such a response is the token. -/
theorem Grants.granted {response token : CString} (grants : Grants response token) :
    grantedToken parsonToken response = some token := by
  obtain ⟨header, body, digits, start, declares, noObject, object, found⟩ := grants.parts
  have cut : basicExtractJsonResponse response = some body := by
    have searched : strstr (responseText header body) objectStart = some body :=
      (strstr_response_eq_body_iff (by decide) objectStart_apart).mpr ⟨object, noObject⟩
    rwa [responseText, ← declares.parts] at searched
  rw [grantedToken, cut, Option.bind_some, found]

/-- The string a response is received as, whatever pieces it comes in. -/
theorem Grants.received {response token : CString} (grants : Grants response token)
    {chunks : List (List UInt8)} (delivers : Delivers chunks response) (later : List ReadResult) :
    ∃ data, receiveFromServer (chunks.map ReadResult.data ++ later) = .returned data later ∧
      cString data = response := by
  obtain ⟨header, body, digits, start, declares, -⟩ := grants.parts
  have short := declares.short
  have length := declares.length_eq
  have cut : bufferInit.size < header.length + 4 := Nat.zero_lt_succ _
  have nothing : bufferInit.data ++ chunks.flatten = response := delivers.joined
  obtain ⟨buffer, left, searched, joined, nonempty⟩ := searchHeader_spec
    declares delivers.nonempty nothing cut 0 0 later
  have total : (toSize body.length + toSize (header.length + 4 : Nat)) % 2 ^ 64 =
      response.length := by
    rw [toSize_natCast (by omega), toSize_natCast (by omega)]
    omega
  refine ⟨response ++ [0], ?_, cString_terminated grants.whole⟩
  rw [receiveFromServer, searched]
  dsimp only
  rw [total]
  exact readBody_spec nonempty joined later

/-! ## From the response to later requests -/

variable {jsonToken : CString → Option CString} {client next : ClientState}

/-- The session cookie is never taken away. -/
theorem sid_kept {exchange : Exchange}
    (responded : respond jsonToken client exchange.response exchange.command = some next)
    (set : client.cookies.sid ≠ none) : next.cookies.sid ≠ none := by
  obtain ⟨command, response⟩ := exchange
  cases command
  case login data =>
    simp only [respond] at responded
    split at responded
    · obtain rfl := Option.some.inj responded
      exact set
    · obtain ⟨_, -, responded⟩ := Option.bind_eq_some_iff.mp responded
      obtain ⟨_, -, rfl⟩ := Option.map_eq_some_iff.mp responded
      exact Option.some_ne_none _
  case enterLibrary =>
    obtain ⟨json, -, rfl⟩ := Option.map_eq_some_iff.mp responded
    cases jsonToken json <;> exact set
  case getBooks | getBook =>
    obtain ⟨_, -, rfl⟩ := Option.map_eq_some_iff.mp responded
    exact set
  all_goals
    obtain rfl := Option.some.inj responded
    exact set

/-- A login that was granted a cookie leaves one. -/
theorem sid_granted {data response : CString}
    (responded : respond jsonToken client response (.login data) = some next)
    (granted : grantedSid response ≠ none) : next.cookies.sid ≠ none := by
  simp only [respond] at responded
  split at responded
  case isTrue failed => exact absurd (if_pos failed) granted
  case isFalse =>
    obtain ⟨_, -, responded⟩ := Option.bind_eq_some_iff.mp responded
    obtain ⟨_, -, rfl⟩ := Option.map_eq_some_iff.mp responded
    exact Option.some_ne_none _

/-- Only the access to the library and the logout change the token. -/
theorem token_kept {exchange : Exchange}
    (responded : respond jsonToken client exchange.response exchange.command = some next)
    (access : exchange.command ≠ .enterLibrary) (logout : exchange.command ≠ .logout) :
    next.cookies.token = client.cookies.token := by
  obtain ⟨command, response⟩ := exchange
  cases command
  case login data =>
    simp only [respond] at responded
    split at responded
    · obtain rfl := Option.some.inj responded
      rfl
    · obtain ⟨_, -, responded⟩ := Option.bind_eq_some_iff.mp responded
      obtain ⟨_, -, rfl⟩ := Option.map_eq_some_iff.mp responded
      rfl
  case enterLibrary => exact absurd rfl access
  case logout => exact absurd rfl logout
  case getBooks | getBook =>
    obtain ⟨_, -, rfl⟩ := Option.map_eq_some_iff.mp responded
    rfl
  all_goals
    obtain rfl := Option.some.inj responded
    rfl

/-- The commands that ask the library. -/
def AsksLibrary : Command → Prop
  | .getBooks | .getBook _ | .addBook _ | .deleteBook _ => True
  | _ => False

/-- The token of a clean call with both credentials is read back, whatever the builder. -/
theorem token_read {call : RequestCall} {sid token : CString} (clean : call.Clean)
    (both : (∃ url, call = .get host url (.two sid token)) ∨
      (∃ url data, call = .post host url contentType data (.two sid token)) ∨
        ∃ url, call = .delete host url (.two sid token)) :
    ∃ parsed, HttpRequest.parse call.text = some parsed ∧
      headerValues authorizationName parsed.fields = [token] := by
  refine ⟨_, RequestCall.parse_text clean, ?_⟩
  have none : headerValues authorizationName [] = [] := rfl
  rcases both with ⟨url, rfl⟩ | ⟨url, data, rfl⟩ | ⟨url, rfl⟩
  all_goals
    simp (disch := decide) [RequestCall.sent, RequestCall.asked, CookiesArgument.count,
      RequestCall.hostLine, RequestCall.contentTypeLine, RequestCall.contentLengthLine,
      RequestCall.contentLengthName, CookiesArgument.lines, CookiesArgument.tokenLines,
      headerValues_other, headerValues_same, none]

/-- With both credentials, every request to the library that fits is read with the token in
its header section. -/
theorem library_request {command : Command} {token : CString} (asks : AsksLibrary command)
    (fits : command.Fits) (printable : client.cookies.Printable)
    (sid : client.cookies.sid ≠ none) (held : client.cookies.token = some token) :
    ∀ sent ∈ request client.cookies command, Inside sent ∧
      ∃ parsed, HttpRequest.parse (HttpRequest.linesText sent) = some parsed ∧
        headerValues authorizationName parsed.fields = [token] := by
  obtain ⟨sid, session⟩ := Option.ne_none_iff_exists'.mp sid
  have cookies : client.cookies = ⟨some sid, some token⟩ := by
    rw [← session, ← held]
  rw [cookies] at printable ⊢
  refine fun sent inside => ⟨request_inside fits printable sent inside, ?_⟩
  have clean := printable.clean
  have plain : (13 ∉ host ∧ 10 ∉ host) ∧ (13 ∉ booksUrl ∧ 10 ∉ booksUrl) ∧
      (13 ∉ contentType ∧ 10 ∉ contentType) ∧ 13 ∉ ascii "/" ∧ 10 ∉ ascii "/" := by decide
  simp only [List.forall_mem_cons, printed, Option.getD_some] at clean
  cases command
  case getBooks =>
    obtain rfl := Option.some.inj inside
    refine @token_read (.get host booksUrl (.two sid token)) _ _ ?_ (.inl ⟨_, rfl⟩)
    simp [RequestCall.Clean, RequestCall.strings, CookiesArgument.strings, plain, clean]
  case getBook id =>
    obtain rfl := Option.some.inj inside
    refine @token_read (.get host (booksUrl ++ ascii "/" ++ id) (.two sid token)) _ _ ?_
      (.inl ⟨_, rfl⟩)
    simp [RequestCall.Clean, RequestCall.strings, CookiesArgument.strings, plain, clean, fits.2]
  case addBook data =>
    obtain rfl := Option.some.inj inside
    refine @token_read (.post host booksUrl contentType data (.two sid token)) _ _ ?_
      (.inr (.inl ⟨_, _, rfl⟩))
    simp [RequestCall.Clean, RequestCall.strings, CookiesArgument.strings, plain, clean]
  case deleteBook id =>
    obtain rfl := Option.some.inj inside
    refine @token_read (.delete host (booksUrl ++ ascii "/" ++ id) (.two sid token)) _ _ ?_
      (.inr (.inr ⟨_, rfl⟩))
    simp [RequestCall.Clean, RequestCall.strings, CookiesArgument.strings, plain, clean, fits.2]
  all_goals exact asks.elim

/-- A step of the machine is a response of the client. -/
theorem responded_of_genuine {transition : Transition (Option ClientState) Exchange Request}
    (genuine : (machine jsonToken).Genuine transition) :
    ∃ client, transition.before = some client ∧
      transition.after = respond jsonToken client transition.event.response
        transition.event.command ∧
      transition.outputs = (request client.cookies transition.event.command).toList := by
  obtain ⟨client, running, result⟩ := Option.map_eq_some_iff.mp genuine.stepped
  obtain ⟨after, outputs⟩ := Prod.mk.inj result
  exact ⟨client, running, after.symm, outputs.symm⟩

/-- The state behind the last transition of a run. -/
theorem run_last {start final : Option ClientState}
    {trace : List (Transition (Option ClientState) Exchange Request)}
    {last : Transition (Option ClientState) Exchange Request}
    (run : (machine jsonToken).Run start (trace ++ [last]) final) :
    (machine jsonToken).Run start trace last.before ∧ (machine jsonToken).Genuine last ∧
      final = last.after := by
  obtain ⟨prior, genuine⟩ := run.prior (Eq.refl (trace ++ last :: []))
  refine ⟨prior, genuine, ?_⟩
  generalize whole : trace ++ [last] = all at run
  cases run with
  | refl => simp at whole
  | step _ _ _ =>
      obtain ⟨-, same⟩ := List.append_inj' whole rfl
      obtain rfl := List.singleton_inj.mp same
      rfl

/-- Once a login has been granted a cookie, there is one. -/
theorem sid_of_run {start final : Option ClientState}
    {trace : List (Transition (Option ClientState) Exchange Request)}
    {login : Transition (Option ClientState) Exchange Request} {data : CString}
    (run : (machine jsonToken).Run start trace final) (member : login ∈ trace)
    (isLogin : login.event.command = .login data) (granted : grantedSid login.event.response ≠ none)
    (running : final = some client) : client.cookies.sid ≠ none := by
  induction run generalizing client with
  | refl => cases member
  | @step trace before exchange outputs next prior admitted stepped ih =>
      obtain ⟨client', rfl, result⟩ := Option.map_eq_some_iff.mp stepped
      obtain ⟨responded, _⟩ := Prod.mk.inj result
      rw [running] at responded
      rcases List.mem_append.mp member with earlier | here
      · exact sid_kept responded (ih earlier rfl)
      · obtain rfl := List.mem_singleton.mp here
        dsimp only at isLogin granted
        rw [isLogin] at responded
        exact sid_granted responded granted

/-- From an access that was granted a token on, the client holds it while nobody logs out
and no other access is made. -/
theorem token_of_run {start final : Option ClientState}
    {earlier between : List (Transition (Option ClientState) Exchange Request)}
    {access : Transition (Option ClientState) Exchange Request} {token : CString}
    (run : (machine jsonToken).Run start (earlier ++ access :: between) final)
    (isAccess : access.event.command = .enterLibrary)
    (granted : grantedToken jsonToken access.event.response = some token)
    (quiet : ∀ transition ∈ between, transition.event.command ≠ .enterLibrary ∧
      transition.event.command ≠ .logout)
    (running : final = some client) : client.cookies.token = some token := by
  induction between using List.reverseRecOn generalizing final client with
  | nil =>
      obtain ⟨-, genuine, same⟩ := run_last run
      obtain ⟨before, -, after, -⟩ := responded_of_genuine genuine
      rw [← same, running, isAccess] at after
      obtain ⟨json, found, rfl⟩ := Option.map_eq_some_iff.mp after.symm
      rw [grantedToken, found, Option.bind_some] at granted
      rw [granted]
  | append_singleton between last ih =>
      have whole : earlier ++ access :: (between ++ [last]) =
          (earlier ++ access :: between) ++ [last] := by simp
      obtain ⟨prior, genuine, same⟩ := run_last (whole ▸ run)
      obtain ⟨before, held, after, -⟩ := responded_of_genuine genuine
      rw [← same, running] at after
      obtain ⟨noAccess, noLogout⟩ := quiet last (by simp)
      rw [token_kept after.symm noAccess noLogout]
      exact ih prior (fun transition member => quiet transition (by simp [member])) held

/-- A round in which nothing is written behind a block: the words of the command fit theirs,
and the credentials that are held can be printed. -/
def RoundFits (transition : Transition (Option ClientState) Exchange Request) : Prop :=
  transition.event.command.Fits ∧
    ∀ client ∈ transition.before, client.cookies.Printable

/-- In every run of fitting rounds in which a login was granted a cookie, and then an access
to the library a token, every later request to the library is read with that token in its
header section, as long as nobody logs out and no other access is made; whatever pieces the
response with the token came in. -/
theorem token_reaches_requests {start final : Option ClientState}
    {trace earlier between later : List (Transition (Option ClientState) Exchange Request)}
    {login access last : Transition (Option ClientState) Exchange Request}
    {data response token : CString} {chunks : List (List UInt8)}
    (run : (machine parsonToken).Run start trace final)
    (fits : ∀ transition ∈ trace, RoundFits transition)
    (split : trace = earlier ++ access :: (between ++ last :: later))
    (member : login ∈ earlier) (isLogin : login.event.command = .login data)
    (granted : grantedSid login.event.response ≠ none)
    (isAccess : access.event.command = .enterLibrary) (grants : Grants response token)
    (delivers : Delivers chunks response)
    (received : ∃ block, receiveFromServer (chunks.map ReadResult.data) = .returned block [] ∧
      access.event.response = cString block)
    (quiet : ∀ transition ∈ between, transition.event.command ≠ .enterLibrary ∧
      transition.event.command ≠ .logout)
    (asks : AsksLibrary last.event.command) :
    ∀ sent ∈ last.outputs, Inside sent ∧
      ∃ parsed, HttpRequest.parse (HttpRequest.linesText sent) = some parsed ∧
        headerValues authorizationName parsed.fields = [token] := by
  obtain ⟨block, returned, isResponse⟩ := received
  obtain ⟨block', returned', whole⟩ := grants.received delivers []
  rw [List.append_nil] at returned'
  obtain ⟨rfl, -⟩ := Received.returned.inj (returned.symm.trans returned')
  rw [whole] at isResponse
  have reached : trace = (earlier ++ access :: between) ++ last :: later := by simp [split]
  obtain ⟨prior, genuine⟩ := run.prior reached
  obtain ⟨client, running, -, outputs⟩ := responded_of_genuine genuine
  have sid := sid_of_run prior (List.mem_append_left _ member) isLogin granted running
  have held := token_of_run prior isAccess (isResponse ▸ grants.granted) quiet running
  obtain ⟨words, printable⟩ := fits last (by simp [split])
  rw [outputs]
  exact fun sent inside => library_request asks words (printable client running) sid held sent
    (Option.mem_toList.mp inside)

/-! ## A run -/

/-- The JSON text of the token `"t"`. -/
def tokenText : CString := ascii "\x7b\"token\":\"t\"\x7d"

def tokenMembers : List (Member Binary64) := [(ascii "token", .string (ascii "t"))]

/-- The answer to an access to the library. -/
def accessResponse : CString := ascii "HTTP/1.1 200 OK\r\nContent-Length: 13\r\n\r\n" ++ tokenText

theorem tokenText_token : parsonToken tokenText = some (ascii "t") := by
  have chars {raw : List UInt8} (plain : raw ∈ [ascii "token", ascii "t"]) : Chars raw raw := by
    have each : ∀ byte ∈ raw, 32 ≤ byte.toNat ∧ byte ≠ quote ∧ byte ≠ backslash := by
      revert raw
      decide +kernel
    clear plain
    induction raw with
    | nil => exact .nil
    | cons byte raw ih =>
        obtain ⟨⟨printable, notQuote, notBackslash⟩, later⟩ := List.forall_mem_cons.mp each
        exact .plain printable notQuote notBackslash (ih later)
  have token : Chars (ascii "token") (ascii "token") := chars (by decide)
  have t : Chars (ascii "t") (ascii "t") := chars (by decide)
  have noNul : 0 ∉ ascii "token" := by decide
  have inside : Derives (lexicon doubles) 2047 (.members tokenMembers)
      (ascii "\"token\":\"t\"\x7d") [] :=
    .lastMember token noNul blank_nil blank_nil (.string t) blank_nil
  have distinct : (tokenMembers.map Prod.fst).Nodup := List.nodup_singleton _
  have derives := Derives.object blank_nil distinct inside
  have marked : afterMark tokenText = [] ++ tokenText := by decide
  have parsed := parsed_of_derives marked blank_nil derives
  exact parsonToken_eq_some_iff.mpr ⟨_, ascii "t", parsed, rfl, by decide⟩

theorem accessResponse_grants : Grants accessResponse (ascii "t") := by
  refine ⟨by decide, ascii "HTTP/1.1 200 OK\r\nContent-Length: 13", tokenText, ascii "13", 17, ?_,
    by decide +kernel, by decide, tokenText_token⟩
  constructor <;> decide +kernel

def loginStep : Transition (Option ClientState) Exchange Request :=
  exchanged freshClient (loggedIn "a" none) (sampleLogin "a")

def accessStep : Transition (Option ClientState) Exchange Request :=
  exchanged (loggedIn "a" none) (loggedIn "a" (ascii "t")) ⟨.enterLibrary, accessResponse⟩

def booksStep : Transition (Option ClientState) Exchange Request :=
  exchanged (loggedIn "a" (ascii "t")) (loggedIn "a" (ascii "t")) sampleBooks

theorem accessStep_genuine : (machine parsonToken).Genuine accessStep := by
  obtain ⟨json, found, token⟩ := Option.bind_eq_some_iff.mp accessResponse_grants.granted
  have accessed : respond parsonToken (loggedIn "a" none) accessResponse .enterLibrary =
      some (loggedIn "a" (ascii "t")) := by
    rw [respond, found, Option.map_some, token]
    rfl
  refine ⟨trivial, ?_⟩
  change some (respond parsonToken (loggedIn "a" none) accessResponse .enterLibrary, _) = _
  rw [accessed]
  rfl

/-- A login, the access to the library in three pieces, and a request for the books. -/
theorem token_reaches_requests_sample :
    (machine parsonToken).Run (some freshClient) [loginStep, accessStep, booksStep]
        (some (loggedIn "a" (ascii "t"))) ∧
      ∀ sent ∈ booksStep.outputs, Inside sent ∧
        ∃ parsed, HttpRequest.parse (HttpRequest.linesText sent) = some parsed ∧
          headerValues authorizationName parsed.fields = [ascii "t"] := by
  have delivers : Delivers [accessResponse.take 20, (accessResponse.drop 20).take 25,
      accessResponse.drop 45] accessResponse := by
    constructor <;> decide +kernel
  obtain ⟨block, returned, whole⟩ := accessResponse_grants.received delivers []
  rw [List.append_nil] at returned
  have run : (machine parsonToken).Run (some freshClient) [loginStep, accessStep, booksStep]
      (some (loggedIn "a" (ascii "t"))) :=
    .cons trivial (by decide +kernel) (.cons trivial accessStep_genuine.stepped
      (.cons trivial (by decide +kernel) .refl))
  have split : [loginStep, accessStep, booksStep] =
      [loginStep] ++ accessStep :: ([] ++ booksStep :: []) := rfl
  have granted : grantedSid loginStep.event.response ≠ none := by decide +kernel
  have fits : ∀ transition ∈ [loginStep, accessStep, booksStep], RoundFits transition := by
    have printable {cookies : Cookies} (known : cookies ∈ [freshClient.cookies,
        (loggedIn "a" none).cookies, (loggedIn "a" (ascii "t")).cookies]) :
        cookies.Printable := by
      constructor
      · revert cookies
        decide +kernel
      · revert cookies
        decide +kernel
    simp only [List.forall_mem_cons]
    refine ⟨⟨?_, ?_⟩, ⟨trivial, ?_⟩, ⟨trivial, ?_⟩, fun _ none => absurd none List.not_mem_nil⟩
    · exact Nat.zero_le payloadRoom
    · rintro _ ⟨⟩
      exact printable (by simp)
    · rintro _ ⟨⟩
      exact printable (by simp)
    · rintro _ ⟨⟩
      exact printable (by simp)
  exact ⟨run, token_reaches_requests run fits split List.mem_cons_self rfl granted rfl
    accessResponse_grants delivers ⟨block, returned, whole.symm⟩
    (fun _ member => absurd member List.not_mem_nil) trivial⟩

end CommunicationProtocols.Client
