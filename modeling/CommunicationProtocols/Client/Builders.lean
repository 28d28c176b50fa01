import CommunicationProtocols.Client.Requests

/-!
# The three builders compared

A request should carry the session cookie if there is one, and the token if both
are there. The GET builder does. The POST builder tests neither pointer, and the
DELETE builder has no line for the session cookie, so there is no state of the
credentials in which the three of them do the same.
-/

namespace CommunicationProtocols.Client

open Library

/-- The header section carries the session cookie if it is there, the token if
both are there, and no other credentials. A line is what one call of
`compute_message` appends. -/
structure CarriesCredentials (cookies : Cookies) (request : Request) : Prop where
  cookie : ∀ c, c ∈ headerValues cookieName request ↔ cookies.sid = some c
  authorization : ∀ t, t ∈ headerValues authorizationName request ↔
    cookies.sid ≠ none ∧ cookies.token = some t

/-- The requests of the three builders carry the same credentials, as they should. -/
structure BuildersAgree (host url contentType data : CString) (cookies : Cookies) : Prop where
  get : CarriesCredentials cookies (computeGetRequest host url (some cookies) 2)
  post : CarriesCredentials cookies (computePostRequest host url contentType data (some cookies) 2)
  delete : CarriesCredentials cookies (computeDeleteRequest host url (some cookies) 2)

section

variable (host url contentType data : CString) (cookies : Cookies)

/-- The GET builder is right about every pair of credentials. -/
theorem get_carriesCredentials :
    CarriesCredentials cookies (computeGetRequest host url (some cookies) 2) := by
  obtain ⟨session, token⟩ := headerValues_get host url cookies 2
  constructor
  · intro c
    rw [session, Option.mem_toList]
  · intro t
    rw [token]
    by_cases logged : cookies.sid = none
    · simp [logged]
    · simp [logged]

/-- The POST builder is right where both credentials are there. -/
theorem post_carriesCredentials_iff :
    CarriesCredentials cookies
        (computePostRequest host url contentType data (some cookies) 2) ↔
      cookies.sid ≠ none ∧ cookies.token ≠ none := by
  obtain ⟨session, token⟩ := headerValues_post host url contentType data cookies
  constructor
  · intro carries
    have printedToken := (carries.authorization (printed cookies.token)).mp (by simp [token])
    refine ⟨printedToken.1, fun missing => ?_⟩
    exact Option.some_ne_none _ (printedToken.2.symm.trans missing)
  · rintro ⟨hasSession, hasToken⟩
    obtain ⟨_ | sid, _ | accessToken⟩ := cookies
    · exact absurd rfl hasSession
    · exact absurd rfl hasSession
    · exact absurd rfl hasToken
    constructor
    · intro c
      rw [session]
      simp [printed, eq_comm]
    · intro t
      rw [token]
      simp [printed, eq_comm]

/-- The DELETE builder is right where neither credential is there. -/
theorem delete_carriesCredentials_iff :
    CarriesCredentials cookies (computeDeleteRequest host url (some cookies) 2) ↔
      cookies.sid = none ∧ cookies.token = none := by
  obtain ⟨session, token⟩ := headerValues_delete host url cookies
  constructor
  · intro carries
    have noSession : cookies.sid = none := by
      refine Option.eq_none_iff_forall_ne_some.mpr fun c here => ?_
      have listed := (carries.cookie c).mpr here
      rw [session] at listed
      cases listed
    refine ⟨noSession, Option.eq_none_iff_forall_ne_some.mpr fun t here => ?_⟩
    have listed : t ∈ headerValues authorizationName
        (computeDeleteRequest host url (some cookies) 2) := by
      rw [token, here]
      simp
    exact ((carries.authorization t).mp listed).1 noSession
  · rintro ⟨noSession, noToken⟩
    constructor
    · intro c
      rw [session, noSession]
      simp
    · intro t
      rw [token, noToken]
      simp

/-- No credentials, no host and no body make the three builders agree. -/
theorem builders_never_agree : ¬ BuildersAgree host url contentType data cookies := by
  intro agree
  have both := (post_carriesCredentials_iff host url contentType data cookies).mp agree.post
  have neither := (delete_carriesCredentials_iff host url cookies).mp agree.delete
  exact both.1 neither.1

end

/-- With both credentials at hand the DELETE request has no session cookie. -/
theorem delete_without_session_cookie :
    ¬ BuildersAgree (ascii "localhost") (ascii "/api/v1/tema/library/books/1")
      (ascii "application/json") (ascii "") ⟨some (ascii "connect.sid=s1"), some (ascii "t1")⟩ := by
  intro agree
  have listed := (agree.delete.cookie (ascii "connect.sid=s1")).mpr rfl
  revert listed
  decide +kernel

end CommunicationProtocols.Client
