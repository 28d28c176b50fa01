import CommunicationProtocols.Client.Session

/-!
# Credentials and sessions

A session begins with a login that returned a cookie and ends with a logout; its
token comes from an access to the library in between. Every request should carry
what the session has and nothing else. The cookies are cleared in part only, and
each builder has its own rule for what is missing, so a request does that only
in the cases listed in `CarriesCurrent`.
-/

namespace CommunicationProtocols.Client

open Library

/-- What the server has given out in the current session. -/
structure Session where
  sid : CString
  token : Option CString
deriving DecidableEq

/-- A request carries the cookie and the token of the session, and no other. -/
structure CarriesSession (session : Option Session) (request : Request) : Prop where
  cookie : headerValues cookieName request = (session.map Session.sid).toList
  authorization : headerValues authorizationName request = (session.bind Session.token).toList

/-- The cookie a login has succeeded with: the response has no error and names one. -/
def grantedSid (response : CString) : Option CString :=
  if (basicExtractJsonResponse response).isSome then none
  else (strstr response sidName).bind fun string => (strtok string).1

/-- The token an access to the library has succeeded with. -/
def grantedToken (jsonToken : CString → Option CString) (response : CString) : Option CString :=
  (basicExtractJsonResponse response).bind jsonToken

/-- The past of a run: the current session, and whether the login that last wrote
`cookies[0]` wrote the cookie of this session there. A login without an error and
without a cookie writes what `strtok` finds in the response of an earlier one. -/
structure History where
  session : Option Session
  intact : Bool

def History.start : History := ⟨none, true⟩

/-- The past after one more exchange. -/
def History.after (jsonToken : CString → Option CString) (history : History)
    (transition : Transition (Option ClientState) Exchange Request) : History :=
  match transition.event.command with
  | .login _ =>
      match grantedSid transition.event.response with
      | some sid => ⟨some ⟨sid, none⟩, true⟩
      | none =>
          if (basicExtractJsonResponse transition.event.response).isSome then history
          else
            { history with
              intact := decide ((transition.before.bind ClientState.saved).bind
                (fun string => (strtok string).1) = history.session.map Session.sid) }
  | .enterLibrary =>
      match grantedToken jsonToken transition.event.response with
      | some token =>
          { history with
            session := history.session.map fun session => { session with token := some token } }
      | none => history
  | .logout => { history with session := none }
  | _ => history

/-- The past of a run. -/
def historyOf (jsonToken : CString → Option CString)
    (trace : List (Transition (Option ClientState) Exchange Request)) : History :=
  trace.foldl (History.after jsonToken) .start

/-- The cases in which a request carries what the session has. Without a session
the cookie must never have been written, as a logout does not clear it; a library
request also needs the token of the session, or the token cleared. A POST prints
both and needs both, a DELETE has no place for the cookie, and the other requests
carry no token, or nothing at all. -/
def CarriesCurrent (history : History) (client : ClientState) : Command → Prop
  | .register _ | .login _ => history.session = none
  | .enterLibrary | .logout =>
      (history.session = none ∧ client.cookies.sid = none) ∨
        (history.session.map Session.token = some none ∧ history.intact = true)
  | .getBooks | .getBook _ =>
      (history.session = none ∧ client.cookies.sid = none) ∨
        (history.session ≠ none ∧ history.intact = true ∧
          (history.session.map Session.token = some none → client.cookies.token = none))
  | .addBook _ => history.session.bind Session.token ≠ none ∧ history.intact = true
  | .deleteBook _ => history.session = none ∧ client.cookies.token = none
  | .unknown => True

instance (history : History) (client : ClientState) :
    DecidablePred (CarriesCurrent history client)
  | .register _ | .login _ => inferInstanceAs (Decidable (_ = _))
  | .enterLibrary | .logout => inferInstanceAs (Decidable (_ ∧ _ ∨ _ ∧ _))
  | .getBooks | .getBook _ => inferInstanceAs (Decidable (_ ∧ _ ∨ _ ∧ _ ∧ (_ → _)))
  | .addBook _ | .deleteBook _ => inferInstanceAs (Decidable (_ ∧ _))
  | .unknown => inferInstanceAs (Decidable True)

/-! ## The cookies and the past -/

/-- What the past says about the cookies. -/
structure Tracks (client : ClientState) (history : History) : Prop where
  sid : ∀ session, history.session = some session →
    (history.intact = true ↔ client.cookies.sid = some session.sid)
  named : ∀ session, history.session = some session → sidName <+: session.sid
  written : history.session ≠ none → client.cookies.sid ≠ none
  token : ∀ session token, history.session = some session → session.token = some token →
    client.cookies.token = some token

/-- At the start there is nothing to track. -/
theorem tracks_start (client : ClientState) : Tracks client .start := by
  constructor <;> simp [History.start]

/-- A string that starts with the cookie's name has a token that does. -/
theorem strtok_named {string : CString} (named : sidName <+: string) :
    ∃ token, (strtok string).1 = some token ∧ sidName <+: token := by
  obtain ⟨rest, rfl⟩ := named
  have skipped : (sidName ++ rest).dropWhile (fun byte => byte = 59) = sidName ++ rest := by
    simp [sidName, ascii]
  have undelimited : ∀ byte ∈ sidName, decide (byte ≠ 59) = true := by decide +kernel
  have taken : (sidName ++ rest).takeWhile (fun byte => byte ≠ 59) =
      sidName ++ rest.takeWhile fun byte => byte ≠ 59 :=
    List.takeWhile_append_of_pos undelimited
  refine ⟨_, ?_, taken ▸ List.prefix_append _ _⟩
  simp only [strtok, skipped]
  rw [if_neg (List.append_ne_nil_of_left_ne_nil (by decide) _)]

/-- What is found starts with the name of the cookie. -/
theorem named_of_strstr {string found : CString} (here : strstr string sidName = some found) :
    sidName <+: found := by
  obtain ⟨i, first, rfl⟩ := Option.map_eq_some_iff.mp here
  exact (Search.first_eq_some_iff.mp first).2.1

variable {jsonToken : CString → Option CString} {client next : ClientState} {history : History}

/-- A login writes the cookie of the new session, or what `strtok` goes on with. -/
theorem Tracks.login (tracks : Tracks client history) {data response : CString}
    {outputs : List Request}
    (responded : respond jsonToken client response (.login data) = some next) :
    Tracks next
      (history.after jsonToken ⟨some client, ⟨.login data, response⟩, outputs, some next⟩) := by
  simp only [respond] at responded
  split at responded
  case isTrue failed =>
    obtain rfl := Option.some.inj responded
    simp only [History.after, grantedSid, if_pos failed]
    exact tracks
  case isFalse accepted =>
    obtain ⟨string, source, responded⟩ := Option.bind_eq_some_iff.mp responded
    obtain ⟨token, taken, rfl⟩ := Option.map_eq_some_iff.mp responded
    simp only [History.after, grantedSid, if_neg accepted]
    rw [loginString, Option.or_eq_some_iff] at source
    rcases source with found | ⟨missing, left⟩
    · have named := named_of_strstr found
      obtain ⟨token', taken', namedToken⟩ := strtok_named named
      obtain rfl := Option.some.inj (taken.symm.trans taken')
      simp only [found, Option.bind_some, taken]
      refine ⟨?_, ?_, fun _ => Option.some_ne_none _, ?_⟩
      · rintro session ⟨⟩
        exact iff_of_true rfl rfl
      · rintro session ⟨⟩
        exact namedToken
      · rintro session token ⟨⟩ ⟨⟩
    · simp only [missing, Option.bind_none, Option.bind_some, left, taken]
      refine ⟨fun session same => ?_, tracks.named, fun _ => Option.some_ne_none _, tracks.token⟩
      have expected : history.session = some session := same
      rw [decide_eq_true_eq, expected]
      rfl

/-- The past keeps track of the cookies through every exchange. -/
theorem Tracks.after (tracks : Tracks client history) {exchange : Exchange}
    {outputs : List Request}
    (responded : respond jsonToken client exchange.response exchange.command = some next) :
    Tracks next (history.after jsonToken ⟨some client, exchange, outputs, some next⟩) := by
  obtain ⟨command, response⟩ := exchange
  cases command
  case login data => exact tracks.login responded
  case enterLibrary =>
    obtain ⟨json, found, rfl⟩ := Option.map_eq_some_iff.mp responded
    simp only [History.after, grantedToken, found, Option.bind_some]
    cases jsonToken json
    case none => exact tracks
    case some token =>
      refine ⟨?_, ?_, ?_, ?_⟩
      · intro session same
        obtain ⟨before, session', rfl⟩ := Option.map_eq_some_iff.mp same
        exact tracks.sid before session'
      · intro session same
        obtain ⟨before, session', rfl⟩ := Option.map_eq_some_iff.mp same
        exact tracks.named before session'
      · intro present
        exact tracks.written fun absent => present (by rw [absent]; rfl)
      · intro session other same given
        obtain ⟨before, session', rfl⟩ := Option.map_eq_some_iff.mp same
        exact given
  case logout =>
    obtain rfl := Option.some.inj responded
    refine ⟨?_, ?_, ?_, ?_⟩
    · rintro session ⟨⟩
    · rintro session ⟨⟩
    · exact fun present => absurd rfl present
    · rintro session token ⟨⟩
  case getBooks =>
    obtain ⟨_, _, rfl⟩ := Option.map_eq_some_iff.mp responded
    exact tracks
  case getBook id =>
    obtain ⟨_, _, rfl⟩ := Option.map_eq_some_iff.mp responded
    exact tracks
  all_goals
    obtain rfl := Option.some.inj responded
    exact tracks

/-- The past of a run keeps track of the cookies it has led to. -/
theorem tracks_of_run {start : ClientState} {final : Option ClientState}
    {trace : List (Transition (Option ClientState) Exchange Request)}
    (run : (machine jsonToken).Run (some start) trace final) {client : ClientState}
    (running : final = some client) : Tracks client (historyOf jsonToken trace) := by
  induction run generalizing client with
  | refl =>
      obtain rfl := Option.some.inj running
      exact tracks_start start
  | @step trace before exchange outputs next prior admitted stepped ih =>
      obtain ⟨client', rfl, result⟩ := Option.map_eq_some_iff.mp stepped
      obtain ⟨responded, _⟩ := Prod.mk.inj result
      subst running
      rw [historyOf, List.foldl_append]
      exact (ih rfl).after responded

/-! ## What each request carries -/

/-- A request carries a session exactly if its fields are the session's. -/
theorem carriesSession_iff {session : Option Session} {request : Request} {sid token : List CString}
    (cookie : headerValues cookieName request = sid)
    (authorization : headerValues authorizationName request = token) :
    CarriesSession session request ↔
      sid = (session.map Session.sid).toList ∧ token = (session.bind Session.token).toList := by
  rw [← cookie, ← authorization]
  exact ⟨fun ⟨cookie, authorization⟩ => ⟨cookie, authorization⟩,
    fun ⟨cookie, authorization⟩ => ⟨cookie, authorization⟩⟩

/-- A request without credentials is right exactly where there is no session. -/
theorem carriesSession_iff_of_none {session : Option Session} {request : Request}
    (cookie : headerValues cookieName request = [])
    (authorization : headerValues authorizationName request = []) :
    CarriesSession session request ↔ session = none := by
  rw [carriesSession_iff cookie authorization]
  cases session <;> simp

/-- The cookie sent is the session's exactly if it was written for the session. -/
theorem Tracks.sid_iff (tracks : Tracks client history) {session : Session}
    (current : history.session = some session) :
    client.cookies.sid.toList = [session.sid] ↔ history.intact = true := by
  rw [Option.toList_eq_singleton_iff, tracks.sid session current]

/-- The cookie is printed as it was received exactly while it is intact. -/
theorem Tracks.printed_iff (tracks : Tracks client history) {session : Session}
    (current : history.session = some session) :
    printed client.cookies.sid = session.sid ↔ history.intact = true := by
  obtain ⟨sid, written⟩ := Option.ne_none_iff_exists'.mp
    (tracks.written (by rw [current]; exact Option.some_ne_none _))
  rw [tracks.sid session current, written, Option.some_inj]
  rfl

/-- A GET without token, for the access to the library and the logout. -/
theorem Tracks.get_iff (tracks : Tracks client history) (url : CString) :
    CarriesSession history.session (computeGetRequest host url (some client.cookies) 1) ↔
      CarriesCurrent history client .logout := by
  obtain ⟨cookie, authorization⟩ := headerValues_get host url client.cookies 1
  rw [if_neg (by simp)] at authorization
  rw [carriesSession_iff cookie authorization, CarriesCurrent]
  cases current : history.session with
  | none => simp
  | some session =>
      have written := tracks.sid_iff current
      obtain ⟨sid, _ | token⟩ := session
      · simpa using written
      · simp

/-- A GET with token, for the books. -/
theorem Tracks.getBooks_iff (tracks : Tracks client history) (url : CString) :
    CarriesSession history.session (computeGetRequest host url (some client.cookies) 2) ↔
      CarriesCurrent history client .getBooks := by
  obtain ⟨cookie, authorization⟩ := headerValues_get host url client.cookies 2
  rw [carriesSession_iff cookie authorization, CarriesCurrent]
  cases current : history.session with
  | none =>
      have absent : client.cookies.sid = none →
          (if client.cookies.sid ≠ none ∧ 2 = 2 then client.cookies.token.toList else []) = [] :=
        fun unwritten => if_neg fun both => both.1 unwritten
      simpa using absent
  | some session =>
      have written := tracks.sid_iff current
      have sent : client.cookies.sid ≠ none := tracks.written (by rw [current]; simp)
      have token : client.cookies.token.toList = session.token.toList ↔
          (session.token = none → client.cookies.token = none) := by
        cases given : session.token with
        | none => simp
        | some token => simp [tracks.token session token current given]
      rw [if_pos ⟨sent, rfl⟩]
      simp only [Option.map_some, Option.toList_some, Option.bind_some, written, token,
        Option.some.injEq, ne_eq, reduceCtorEq, not_false_eq_true, true_and, false_and, false_or]

/-- A POST of a book. -/
theorem Tracks.addBook_iff (tracks : Tracks client history) (data : CString) :
    CarriesSession history.session
        (computePostRequest host booksUrl contentType data (some client.cookies) 2) ↔
      CarriesCurrent history client (.addBook data) := by
  obtain ⟨cookie, authorization⟩ :=
    headerValues_post host booksUrl contentType data client.cookies
  rw [carriesSession_iff cookie authorization, CarriesCurrent]
  cases current : history.session with
  | none => simp
  | some session =>
      have written := tracks.printed_iff current
      have token : [printed client.cookies.token] = session.token.toList ↔ session.token ≠ none := by
        cases given : session.token with
        | none => simp
        | some token => simp [tracks.token session token current given, printed]
      simp only [Option.map_some, Option.toList_some, Option.bind_some, List.cons.injEq, and_true,
        written, token]
      exact and_comm

/-- A request carries what the session has exactly in the cases of `CarriesCurrent`. -/
theorem Tracks.carries_iff (tracks : Tracks client history) (command : Command) :
    (∀ sent ∈ request client.cookies command, CarriesSession history.session sent) ↔
      CarriesCurrent history client command := by
  cases command
  case unknown => exact iff_of_true (fun sent member => by cases member) trivial
  all_goals
    rw [request]
    simp only [Option.mem_def, Option.some.injEq, forall_eq']
  case register data | login data =>
    exact carriesSession_iff_of_none (headerValues_post_none host _ contentType data (.inl rfl))
      (headerValues_post_none host _ contentType data (.inr rfl))
  case enterLibrary | logout => exact tracks.get_iff _
  case getBooks | getBook id => exact tracks.getBooks_iff _
  case addBook data => exact tracks.addBook_iff data
  case deleteBook id =>
    obtain ⟨cookie, authorization⟩ :=
      headerValues_delete host (booksUrl ++ ascii "/" ++ id) client.cookies
    rw [carriesSession_iff cookie authorization, CarriesCurrent]
    cases history.session <;> simp

/-- In every run, from whatever cookies, all requests carry the cookie and the
token of the current session exactly if every request is made in one of the cases
of `CarriesCurrent`. -/
theorem credentials_iff {start : ClientState} {final : Option ClientState}
    {trace : List (Transition (Option ClientState) Exchange Request)}
    (run : (machine jsonToken).Run (some start) trace final) :
    (∀ earlier transition later, trace = earlier ++ transition :: later →
        ∀ sent ∈ transition.outputs, CarriesSession (historyOf jsonToken earlier).session sent) ↔
      ∀ earlier transition later, trace = earlier ++ transition :: later →
        ∀ client, transition.before = some client →
          CarriesCurrent (historyOf jsonToken earlier) client transition.event.command := by
  have each (earlier : List (Transition (Option ClientState) Exchange Request))
      (transition : Transition (Option ClientState) Exchange Request)
      (later : List (Transition (Option ClientState) Exchange Request))
      (split : trace = earlier ++ transition :: later) :
      (∀ sent ∈ transition.outputs, CarriesSession (historyOf jsonToken earlier).session sent) ↔
        ∀ client, transition.before = some client →
          CarriesCurrent (historyOf jsonToken earlier) client transition.event.command := by
    obtain ⟨prior, genuine⟩ := run.prior split
    obtain ⟨client, running, result⟩ := Option.map_eq_some_iff.mp genuine.stepped
    have sent : transition.outputs = (request client.cookies transition.event.command).toList :=
      (Prod.mk.inj result).2.symm
    rw [sent, running]
    simp only [Option.mem_toList, Option.some.injEq, forall_eq']
    exact (tracks_of_run prior running).carries_iff transition.event.command
  exact forall_congr' fun earlier => forall_congr' fun transition => forall_congr' fun later =>
    forall_congr' fun split => each earlier transition later split

/-! ## A second login -/

/-- What parson finds in the one JSON text of the samples. -/
def sampleToken (json : CString) : Option CString :=
  if json = ascii "\x7b\"token\":\"t\"\x7d" then some (ascii "t") else none

/-- A login that the server answers with a cookie. -/
def sampleLogin (sid : String) : Exchange :=
  ⟨.login [], ascii "HTTP/1.1 200 OK\r\nSet-Cookie: connect.sid=" ++ ascii sid ++
    ascii "; Path=/\r\n\r\nOK"⟩

def sampleAccess : Exchange :=
  ⟨.enterLibrary, ascii "HTTP/1.1 200 OK\r\n\r\n\x7b\"token\":\"t\"\x7d"⟩

def sampleBooks : Exchange := ⟨.getBooks, ascii "HTTP/1.1 200 OK\r\n\r\n[]"⟩

/-- The client with its cookies cleared. -/
def freshClient : ClientState := ⟨⟨none, none⟩, none⟩

/-- The client after `sampleLogin`. -/
def loggedIn (sid : String) (token : Option CString) : ClientState :=
  ⟨⟨some (sidName ++ ascii sid), token⟩, some (ascii " Path=/\r\n\r\nOK")⟩

/-- One step of the client. -/
def exchanged (client next : ClientState) (exchange : Exchange) :
    Transition (Option ClientState) Exchange Request :=
  ⟨some client, exchange, (request client.cookies exchange.command).toList, some next⟩

/-- A login, the access to the library and a request for the books, in this order. -/
theorem credentials_iff_session :
    ∃ trace final, (machine sampleToken).Run (some freshClient) trace final ∧ trace.length = 3 ∧
      ∀ earlier transition later, trace = earlier ++ transition :: later →
        ∀ sent ∈ transition.outputs, CarriesSession (historyOf sampleToken earlier).session sent := by
  have run : (machine sampleToken).Run (some freshClient)
      [exchanged freshClient (loggedIn "a" none) (sampleLogin "a"),
        exchanged (loggedIn "a" none) (loggedIn "a" (ascii "t")) sampleAccess,
        exchanged (loggedIn "a" (ascii "t")) (loggedIn "a" (ascii "t")) sampleBooks]
      (some (loggedIn "a" (ascii "t"))) :=
    .cons trivial (by decide +kernel) (.cons trivial (by decide +kernel)
      (.cons trivial (by decide +kernel) .refl))
  refine ⟨_, _, run, rfl, (credentials_iff run).mpr ?_⟩
  intro earlier transition later split client running
  rcases earlier with _ | ⟨first, _ | ⟨second, _ | ⟨third, earlier⟩⟩⟩
  all_goals
    simp only [List.nil_append, List.cons_append, List.cons.injEq, List.nil_eq,
      List.append_eq_nil_iff, reduceCtorEq, and_false] at split
  · obtain ⟨rfl, _⟩ := split
    obtain rfl := Option.some.inj running
    decide +kernel
  · obtain ⟨rfl, rfl, _⟩ := split
    obtain rfl := Option.some.inj running
    decide +kernel
  · obtain ⟨rfl, rfl, rfl, _⟩ := split
    obtain rfl := Option.some.inj running
    decide +kernel

/-- After a second login the books are still asked for with the token of the first session. -/
theorem stale_token_sent :
    ∃ trace final, (machine sampleToken).Run (some freshClient) trace final ∧
      ¬ ∀ earlier transition later, trace = earlier ++ transition :: later →
        ∀ sent ∈ transition.outputs, CarriesSession (historyOf sampleToken earlier).session sent := by
  have run : (machine sampleToken).Run (some freshClient)
      ([exchanged freshClient (loggedIn "a" none) (sampleLogin "a"),
        exchanged (loggedIn "a" none) (loggedIn "a" (ascii "t")) sampleAccess,
        exchanged (loggedIn "a" (ascii "t")) (loggedIn "b" (ascii "t")) (sampleLogin "b")] ++
        [exchanged (loggedIn "b" (ascii "t")) (loggedIn "b" (ascii "t")) sampleBooks])
      (some (loggedIn "b" (ascii "t"))) :=
    .cons trivial (by decide +kernel) (.cons trivial (by decide +kernel)
      (.cons trivial (by decide +kernel) (.cons trivial (by decide +kernel) .refl)))
  refine ⟨_, _, run, fun all => ?_⟩
  have carries := all _ _ [] rfl _ List.mem_cons_self
  exact absurd carries.authorization (by decide +kernel)

end CommunicationProtocols.Client
