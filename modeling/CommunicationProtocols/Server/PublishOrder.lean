import CommunicationProtocols.Server.Conservation
import CommunicationProtocols.Server.Opaque

/-!
# Publish order

A subscriber should get the texts in the order in which their datagrams were
processed. Stored texts are put in front of the pending list and sent from its
front, so two texts stored in one absence arrive in the opposite order. To tell
equal texts apart the datagrams of a run carry increasing numbers; texts being
opaque to the server, every run can be numbered.
-/

namespace CommunicationProtocols.Server

open Library

variable {Text : Type*}

/-- The number of the datagram in a step. -/
def publishedNumber
    (transition : Transition (Session (ℕ × Text)) (Event (ℕ × Text)) (Output (ℕ × Text))) :
    List ℕ :=
  match transition.event with
  | .publish _ text => [text.1]
  | _ => []

/-- The numbers of the datagrams of a run, in the order they are processed. -/
def publishedNumbers
    (trace : List (Transition (Session (ℕ × Text)) (Event (ℕ × Text)) (Output (ℕ × Text)))) :
    List ℕ :=
  trace.flatMap publishedNumber

/-- Later datagrams carry larger numbers. -/
def Numbered
    (trace : List (Transition (Session (ℕ × Text)) (Event (ℕ × Text)) (Output (ℕ × Text)))) :
    Prop :=
  (publishedNumbers trace).Pairwise (· < ·)

/-- The texts a run sends to a client, in the order they are sent. -/
def sentInOrder (id : CString)
    (trace : List (Transition (Session Text) (Event Text) (Output Text))) : List Text :=
  trace.flatMap (textsTo id)

/-- No text is sent to the client after the text of a later datagram. -/
def OrderPreserved (id : CString)
    (trace : List (Transition (Session (ℕ × Text)) (Event (ℕ × Text)) (Output (ℕ × Text)))) :
    Prop :=
  (sentInOrder id trace).Pairwise fun earlier later => earlier.1 ≤ later.1

/-- Whenever the client comes back, at most one text is pending for it. -/
def AtMostOneWaiting (id : CString)
    (trace : List (Transition (Session Text) (Event Text) (Output Text))) : Prop :=
  ∀ transition ∈ trace, ∀ fd, transition.event = .connect fd id →
    transition.before.checkUniqueId id = true → (transition.before.pendingOf id).length ≤ 1

/-! ## Nothing is pending for a client that is online -/

namespace Session

/-- The pending lists of the clients that are online are empty. -/
def Drained (session : Session Text) : Prop :=
  ∀ ptr ∈ session.allClients, (session.clients ptr).online = true →
    (session.clients ptr).pendingMessages = []

/-- Enrolling leaves nothing pending for clients that are online. -/
theorem enroll_drained {session : Session Text} (consistent : session.Consistent)
    (drained : session.Drained) (id : CString) : (session.enroll id).1.Drained := by
  unfold enroll
  cases session.getClient id with
  | some ptr => exact drained
  | none =>
      intro ptr member online
      rcases List.mem_cons.mp member with rfl | known
      · simp [register] at online
      · rw [register_clients_of_mem consistent known] at online ⊢
        exact drained ptr known online

/-- If the record that changed is drained, so is the session. -/
theorem ChangesRecord.drained {before after : Session Text} {ptr : ClientPtr}
    (changes : ChangesRecord before after ptr) (drained : before.Drained)
    (changed : ptr ∈ before.allClients → (after.clients ptr).online = true →
      (after.clients ptr).pendingMessages = []) : after.Drained := by
  intro other member online
  rw [changes.allClients] at member
  by_cases same : other = ptr
  · subst same
    exact changed member online
  · rw [changes.others other same] at online ⊢
    exact drained other member online

/-- Whatever an event does, nothing is pending for clients that are online. -/
theorem Effect.drained {session after : Session Text} {event : Event Text}
    {outputs : List (Output Text)} (effect : session.Effect event after outputs)
    (consistent : session.Consistent) (drained : session.Drained) : after.Drained := by
  cases effect with
  | refused taken => exact drained
  | @accepted fd id closed valid unique =>
      apply (attach_changes _ fd _).drained (enroll_drained consistent drained id)
      intro _ _
      rw [attach_clients_same]
  | @gone fd ptr reported online =>
      apply (detach_changes session fd ptr).drained drained
      intro _ still
      rw [detach_clients_same] at still
      cases still
  | @subscribed fd ptr topic sf online =>
      apply (setTopics_changes session ptr _).drained drained
      rw [setTopics_clients_same]
      exact drained ptr
  | @unsubscribed fd ptr topic online =>
      apply (setTopics_changes session ptr _).drained drained
      rw [setTopics_clients_same]
      exact drained ptr
  | @published topic text =>
      rw [consistent.publish_eq]
      intro ptr member online
      have known : ptr ∈ session.allClients := member
      simp only [known, if_true, storeText_online] at online ⊢
      simp [storeText, online, drained ptr known online]

/-- The session is clean and nothing is pending for clients that are online. -/
structure Settled (session : Session Text) : Prop where
  clean : session.Clean
  drained : session.Drained

/-- Every transition keeps a session settled. -/
theorem settled_preserved (transition : Transition (Session Text) (Event Text) (Output Text))
    (genuine : (sessionMachine Text).Genuine transition) (settled : transition.before.Settled) :
    transition.after.Settled where
  clean := clean_preserved transition genuine settled.clean
  drained := (settled.clean.consistent.effect genuine).drained settled.clean.consistent
    settled.drained

/-- A start with empty records is settled. -/
theorem Initial.settled {session : Session Text} (initial : session.Initial)
    (fresh : session.FreshMemory) : session.Settled where
  clean := initial.clean fresh
  drained := by simp [Drained, initial.nobodyKnown]

/-- Nothing is pending for an id that is online. -/
theorem Settled.pendingOf_of_online {session : Session Text} (settled : session.Settled)
    {id : CString} (online : session.IsOnline id) : session.pendingOf id = [] := by
  obtain ⟨ptr, member, rfl, flag⟩ := online
  rw [pendingOf_of_mem settled.clean.consistent member]
  exact settled.drained ptr member flag

end Session

/-! ## Numbers sent and numbers pending -/

/-- How the numbers sent to a client and pending for it relate to each other and
to the numbers processed. -/
structure InOrder (processed : List ℕ) (sent pending : List (ℕ × Text)) : Prop where
  sentProcessed : ∀ text ∈ sent, text.1 ∈ processed
  pendingProcessed : ∀ text ∈ pending, text.1 ∈ processed
  pendingDecreases : pending.Pairwise fun earlier later => later.1 < earlier.1
  sentFirst : ∀ text ∈ sent, ∀ waiting ∈ pending, text.1 < waiting.1

/-- No texts are in order. -/
theorem InOrder.nil : InOrder [] ([] : List (ℕ × Text)) [] := by
  constructor <;> simp

/-- More datagrams processed do not matter. -/
theorem InOrder.weaken {processed : List ℕ} {sent pending : List (ℕ × Text)}
    (order : InOrder processed sent pending) (more : List ℕ) :
    InOrder (processed ++ more) sent pending :=
  { order with
    sentProcessed := fun text member => List.mem_append_left _ (order.sentProcessed text member)
    pendingProcessed := fun text member =>
      List.mem_append_left _ (order.pendingProcessed text member) }

/-- Draining the pending list. -/
theorem InOrder.drain {processed : List ℕ} {sent pending : List (ℕ × Text)}
    (order : InOrder processed sent pending) : InOrder processed (sent ++ pending) [] where
  sentProcessed text member :=
    (List.mem_append.mp member).elim (order.sentProcessed text) (order.pendingProcessed text)
  pendingProcessed := by simp
  pendingDecreases := .nil
  sentFirst := by simp

/-- Sending the text of a new datagram while nothing is pending. -/
theorem InOrder.send {processed : List ℕ} {sent : List (ℕ × Text)}
    (order : InOrder processed sent []) (text : ℕ × Text) :
    InOrder (processed ++ [text.1]) (sent ++ [text]) [] where
  sentProcessed other member := by
    rcases List.mem_append.mp member with earlier | last
    · exact List.mem_append_left _ (order.sentProcessed other earlier)
    · rw [List.mem_singleton.mp last]
      exact List.mem_append_right _ List.mem_cons_self
  pendingProcessed := by simp
  pendingDecreases := .nil
  sentFirst := by simp

/-- Storing the text of a new datagram. -/
theorem InOrder.store {processed : List ℕ} {sent pending : List (ℕ × Text)}
    (order : InOrder processed sent pending) (text : ℕ × Text)
    (new : ∀ number ∈ processed, number < text.1) :
    InOrder (processed ++ [text.1]) sent (text :: pending) where
  sentProcessed other member := List.mem_append_left _ (order.sentProcessed other member)
  pendingProcessed other member := by
    rcases List.mem_cons.mp member with rfl | earlier
    · exact List.mem_append_right _ List.mem_cons_self
    · exact List.mem_append_left _ (order.pendingProcessed other earlier)
  pendingDecreases := List.pairwise_cons.mpr
    ⟨fun other member => new _ (order.pendingProcessed other member), order.pendingDecreases⟩
  sentFirst other member waiting waits := by
    rcases List.mem_cons.mp waits with rfl | earlier
    · exact new _ (order.sentProcessed other member)
    · exact order.sentFirst other member waiting earlier

/-- A decreasing list is in order exactly when it has at most one element. -/
theorem pairwise_le_iff_of_decreases {pending : List (ℕ × Text)}
    (decreases : pending.Pairwise fun earlier later => later.1 < earlier.1) :
    (pending.Pairwise fun earlier later => earlier.1 ≤ later.1) ↔ pending.length ≤ 1 := by
  match pending, decreases with
  | [], _ => simp
  | [_], _ => simp
  | first :: second :: rest, decreases =>
      have less := (List.pairwise_cons.mp decreases).1 second List.mem_cons_self
      constructor
      · intro ordered
        have atMost := (List.pairwise_cons.mp ordered).1 second List.mem_cons_self
        omega
      · intro short
        simp at short

/-! ## The order over a run -/

/-- A step that is no accepted connection of the client adds no condition. -/
theorem atMostOneWaiting_concat {id : CString}
    {trace : List (Transition (Session Text) (Event Text) (Output Text))}
    {transition : Transition (Session Text) (Event Text) (Output Text)}
    (notAccepted : ∀ fd, transition.event = .connect fd id →
      transition.before.checkUniqueId id = false) :
    AtMostOneWaiting id (trace ++ [transition]) ↔ AtMostOneWaiting id trace := by
  constructor
  · exact fun waiting earlier member => waiting earlier (List.mem_append_left _ member)
  · intro waiting earlier member fd event unique
    rcases List.mem_append.mp member with before | last
    · exact waiting earlier before fd event unique
    · obtain rfl := List.mem_singleton.mp last
      rw [notAccepted fd event] at unique
      cases unique

/-- A connection that is accepted adds the condition that at most one text waits for it. -/
theorem atMostOneWaiting_accepted {id : CString}
    {trace : List (Transition (Session Text) (Event Text) (Output Text))}
    {transition : Transition (Session Text) (Event Text) (Output Text)} {fd : Fd}
    (event : transition.event = .connect fd id)
    (unique : transition.before.checkUniqueId id = true) :
    AtMostOneWaiting id (trace ++ [transition]) ↔
      AtMostOneWaiting id trace ∧ (transition.before.pendingOf id).length ≤ 1 := by
  constructor
  · intro waiting
    exact ⟨fun earlier member => waiting earlier (List.mem_append_left _ member),
      waiting transition (List.mem_append_right _ List.mem_cons_self) fd event unique⟩
  · rintro ⟨waiting, short⟩ earlier member fd' event' unique'
    rcases List.mem_append.mp member with before | last
    · exact waiting earlier before fd' event' unique'
    · obtain rfl := List.mem_singleton.mp last
      exact short

/-- One step: the numbers stay in relation, and the order is lost exactly where more
than one text is drained. -/
theorem order_step {id : CString}
    {trace : List (Transition (Session (ℕ × Text)) (Event (ℕ × Text)) (Output (ℕ × Text)))}
    {transition : Transition (Session (ℕ × Text)) (Event (ℕ × Text)) (Output (ℕ × Text))}
    (genuine : (sessionMachine (ℕ × Text)).Genuine transition)
    (settled : transition.before.Settled)
    (numbered : ∀ number ∈ publishedNumbers trace, ∀ new ∈ publishedNumber transition,
      number < new)
    (order : InOrder (publishedNumbers trace) (sentInOrder id trace)
      (transition.before.pendingOf id))
    (soFar : OrderPreserved id trace ↔ AtMostOneWaiting id trace) :
    InOrder (publishedNumbers (trace ++ [transition])) (sentInOrder id (trace ++ [transition]))
        (transition.after.pendingOf id) ∧
      (OrderPreserved id (trace ++ [transition]) ↔
        AtMostOneWaiting id (trace ++ [transition])) := by
  have sentSnoc : sentInOrder id (trace ++ [transition]) =
      sentInOrder id trace ++ textsTo id transition := by
    simp [sentInOrder]
  have numbersSnoc : publishedNumbers (trace ++ [transition]) =
      publishedNumbers trace ++ publishedNumber transition := by
    simp [publishedNumbers]
  have notConnect : ∀ {topic text}, transition.event = .publish topic text →
      ∀ fd, transition.event = .connect fd id → transition.before.checkUniqueId id = false :=
    fun published fd connected => by
      rw [published] at connected
      cases connected
  unfold OrderPreserved at soFar ⊢
  rw [sentSnoc, numbersSnoc]
  cases Session.deliveryStep id genuine settled.clean with
  | idle sent kept ineligible notAccepted =>
      rw [sent, kept, List.append_nil, atMostOneWaiting_concat notAccepted]
      exact ⟨order.weaken _, soFar⟩
  | drained fd event unique sent emptied =>
      have noNumber : publishedNumber transition = [] := by rw [publishedNumber, event]
      rw [sent, emptied, noNumber, List.append_nil, atMostOneWaiting_accepted event unique]
      refine ⟨order.drain, ?_⟩
      rw [List.pairwise_append, pairwise_le_iff_of_decreases order.pendingDecreases, soFar]
      constructor
      · exact fun ⟨earlier, short, _⟩ => ⟨earlier, short⟩
      · exact fun ⟨earlier, short⟩ => ⟨earlier, short,
          fun text member waiting waits => (order.sentFirst text member waiting waits).le⟩
  | live topic text event online eligible sent kept =>
      have number : publishedNumber transition = [text.1] := by rw [publishedNumber, event]
      have empty := settled.pendingOf_of_online online
      rw [empty] at order kept
      rw [sent, kept, number, atMostOneWaiting_concat (notConnect event)]
      refine ⟨order.send text, ?_⟩
      rw [List.pairwise_append, soFar]
      constructor
      · exact fun ⟨earlier, _⟩ => earlier
      · refine fun earlier => ⟨earlier, List.pairwise_singleton _ _,
            fun other member last lastly => ?_⟩
        rw [List.mem_singleton.mp lastly]
        exact (numbered other.1 (order.sentProcessed other member) text.1
          (by simp [number])).le
  | stored topic text event eligible sent added =>
      have number : publishedNumber transition = [text.1] := by rw [publishedNumber, event]
      rw [sent, added, number, List.append_nil, atMostOneWaiting_concat (notConnect event)]
      exact ⟨order.store text fun earlier member => numbered earlier member text.1
        (by simp [number]), soFar⟩

/-- In every run the numbered texts of a client are sent or pending, and they are sent in order
exactly if at most one of them waits at each connection that is accepted. -/
theorem order_of_run {start final : Session (ℕ × Text)}
    {trace : List (Transition (Session (ℕ × Text)) (Event (ℕ × Text)) (Output (ℕ × Text)))}
    (initial : start.Initial) (fresh : start.FreshMemory)
    (run : (sessionMachine (ℕ × Text)).Run start trace final) (numbered : Numbered trace)
    (id : CString) :
    InOrder (publishedNumbers trace) (sentInOrder id trace) (final.pendingOf id) ∧
      (OrderPreserved id trace ↔ AtMostOneWaiting id trace) := by
  induction run with
  | refl =>
      have unknown : start.getClient id = none := by
        simp [Session.getClient, initial.nobodyKnown, KeyedList.find]
      rw [Session.pendingOf_of_unknown unknown]
      refine ⟨InOrder.nil, ?_⟩
      simp [OrderPreserved, sentInOrder, AtMostOneWaiting]
  | @step trace session event outputs next prior admitted stepped ih =>
      unfold Numbered publishedNumbers at numbered
      rw [List.flatMap_append, List.pairwise_append] at numbered
      obtain ⟨earlier, _, later⟩ := numbered
      obtain ⟨order, soFar⟩ := ih earlier
      have settled := prior.invariant Session.settled_preserved (initial.settled fresh)
      refine @order_step _ id trace ⟨session, event, outputs, next⟩ ⟨admitted, stepped⟩
        settled (fun number member new isNew => later number member new ?_) order soFar
      simpa using isNew

/-! ## Numbering a run -/

/-- A run with the same steps whose datagrams carry increasing numbers. -/
structure Numbers (start : Session Text)
    (trace : List (Transition (Session Text) (Event Text) (Output Text)))
    (numbered : List (Transition (Session (ℕ × Text)) (Event (ℕ × Text)) (Output (ℕ × Text)))) :
    Prop where
  erased : numbered.map (mapTransition Prod.snd) = trace
  increasing : Numbered numbered
  run : ∃ start' final', start'.map Prod.snd = start ∧
    (sessionMachine (ℕ × Text)).Run start' numbered final'

/-- Numbering the texts can be undone in a session. -/
theorem map_number (number : ℕ) (session : Session Text) :
    (session.map fun text => (number, text)).map Prod.snd = session := by
  simp [Session.map, Client.map, Function.comp_def]

/-- Numbering the texts can be undone in an event. -/
theorem event_map_number (number : ℕ) (event : Event Text) :
    (event.map fun text => (number, text)).map Prod.snd = event := by
  cases event <;> rfl

/-- A numbered event publishes its number, or none. -/
theorem publishedNumber_of_event (number : ℕ) (event : Event Text)
    (before after : Session (ℕ × Text)) (outputs : List (Output (ℕ × Text))) :
    publishedNumber ⟨before, event.map fun text => (number, text), outputs, after⟩ = [] ∨
      publishedNumber ⟨before, event.map fun text => (number, text), outputs, after⟩ =
        [number] := by
  cases event with
  | publish topic text => exact .inr rfl
  | _ => exact .inl rfl

/-- Every run can be numbered. -/
theorem exists_numbering {start final : Session Text}
    {trace : List (Transition (Session Text) (Event Text) (Output Text))}
    (run : (sessionMachine Text).Run start trace final) :
    ∃ numbered start' final', numbered.map (mapTransition Prod.snd) = trace ∧
      Numbered numbered ∧ (∀ number ∈ publishedNumbers numbered, number < trace.length) ∧
      start'.map Prod.snd = start ∧ final'.map Prod.snd = final ∧
      (sessionMachine (ℕ × Text)).Run start' numbered final' := by
  induction run with
  | refl =>
      refine ⟨[], start.map fun text => (0, text), _, rfl, ?_, ?_, map_number 0 start,
        map_number 0 start, .refl⟩
      · exact .nil
      · simp [publishedNumbers]
  | @step trace session event outputs next prior admitted stepped ih =>
      obtain ⟨numbered, start', session', erased, increasing, below, fromStart, here, run'⟩ := ih
      have event_eq := event_map_number trace.length event
      rw [← here, ← event_eq] at admitted stepped
      obtain ⟨sent, after, genuine, mapped⟩ := Session.genuine_of_map Prod.snd admitted stepped
      rw [here, event_eq] at mapped
      have last := publishedNumber_of_event trace.length event session' after sent
      generalize (event.map fun text => (trace.length, text)) = event' at *
      have snoc : publishedNumbers (numbered ++ [⟨session', event', sent, after⟩]) =
          publishedNumbers numbered ++ publishedNumber ⟨session', event', sent, after⟩ := by
        simp [publishedNumbers]
      refine ⟨numbered ++ [⟨session', event', sent, after⟩], start', after, ?_, ?_, ?_, fromStart,
        congrArg Transition.after mapped, .step run' genuine.admitted genuine.stepped⟩
      · rw [List.map_append, List.map_singleton, erased, mapped]
      · unfold Numbered
        rw [snoc, List.pairwise_append]
        rcases last with none | one
        · simpa [none, Numbered] using increasing
        · refine ⟨increasing, by simp [one], fun number member new isNew => ?_⟩
          rw [one, List.mem_singleton] at isNew
          rw [isNew]
          exact below number member
      · intro number member
        rw [snoc] at member
        rw [List.length_append, List.length_singleton]
        rcases List.mem_append.mp member with earlier | isNew
        · exact (below number earlier).trans (Nat.lt_succ_self _)
        · rcases last with none | one
          · simp [none] at isNew
          · rw [one, List.mem_singleton] at isNew
            rw [isNew]
            exact Nat.lt_succ_self _

/-- Changing the texts goes past what is pending. -/
theorem pendingOf_map {Text' : Type*} (f : Text → Text') (session : Session Text)
    (id : CString) : (session.map f).pendingOf id = (session.pendingOf id).map f := by
  unfold Session.pendingOf
  rw [Session.getClient_map]
  cases session.getClient id <;> rfl

/-- Changing the texts keeps connections what they are. -/
theorem event_map_connect {Text' : Type*} {f : Text → Text'} {event : Event Text} {fd : Fd}
    {id : CString} : event.map f = .connect fd id ↔ event = .connect fd id := by
  cases event <;> simp [Event.map]

/-- The numbers do not change how much is pending. -/
theorem atMostOneWaiting_map {Text' : Type*} (f : Text → Text') (id : CString)
    (trace : List (Transition (Session Text) (Event Text) (Output Text))) :
    AtMostOneWaiting id (trace.map (mapTransition f)) ↔ AtMostOneWaiting id trace := by
  simp only [AtMostOneWaiting, List.forall_mem_map, mapTransition, event_map_connect,
    Session.checkUniqueId_map, pendingOf_map, List.length_map]

/-- A session is a start if it is one with other texts. -/
theorem initial_of_map {Text' : Type*} {f : Text → Text'} {session : Session Text}
    (initial : (session.map f).Initial) : session.Initial :=
  ⟨initial.nobodyOnline, initial.nobodyKnown, initial.watched, initial.opened, initial.fdmax⟩

/-- New records are empty if they are with other texts. -/
theorem freshMemory_of_map {Text' : Type*} {f : Text → Text'} {session : Session Text}
    (fresh : (session.map f).FreshMemory) : session.FreshMemory := fun ptr above =>
  ⟨(fresh ptr above).1, List.map_eq_nil_iff.mp (fresh ptr above).2⟩

/-- Every run can be numbered, and in every numbering the order of the datagrams is
preserved for a client if and only if at most one text is pending whenever the client
comes back. -/
theorem publish_order_iff {start final : Session Text}
    {trace : List (Transition (Session Text) (Event Text) (Output Text))}
    (initial : start.Initial) (fresh : start.FreshMemory)
    (run : (sessionMachine Text).Run start trace final) (id : CString) :
    (∃ numbered, Numbers start trace numbered) ∧
      ∀ numbered, Numbers start trace numbered →
        (OrderPreserved id numbered ↔ AtMostOneWaiting id trace) := by
  constructor
  · obtain ⟨numbered, start', final', erased, increasing, _, fromStart, _, run'⟩ :=
      exists_numbering run
    exact ⟨numbered, erased, increasing, start', final', fromStart, run'⟩
  · rintro numbered ⟨erased, increasing, start', final', fromStart, run'⟩
    have order := (order_of_run (initial_of_map (fromStart ▸ initial))
      (freshMemory_of_map (fromStart ▸ fresh)) run' increasing id).2
    rw [order, ← erased, atMostOneWaiting_map]

/-! ## Two texts in one absence -/

/-- A client that stores a topic goes, misses two datagrams and comes back. -/
def absenceEvents : List (Event (ℕ × Unit)) :=
  [.connect 5 [65], .subscribe 5 [116] true, .disconnect 5, .publish [116] (1, ()),
    .publish [116] (2, ()), .connect 6 [65]]

/-- A server that has just started. -/
def numberedSession : Session (ℕ × Unit) := sampleSession.map fun number => (number, ())

theorem absenceEvents_run :
    ((sessionMachine (ℕ × Unit)).exec numberedSession absenceEvents).isSome := by
  decide +kernel

/-- The run of `absenceEvents`. -/
def absenceTrace :
    List (Transition (Session (ℕ × Unit)) (Event (ℕ × Unit)) (Output (ℕ × Unit))) :=
  (((sessionMachine (ℕ × Unit)).exec numberedSession absenceEvents).get absenceEvents_run).1

theorem numberedSession_initial : numberedSession.Initial :=
  ⟨rfl, rfl, rfl, sampleSession_initial.opened, rfl⟩

theorem numberedSession_fresh : numberedSession.FreshMemory := fun _ _ => ⟨rfl, rfl⟩

/-- The order of a run in which the client misses one text. -/
theorem publish_order_iff_sample :
    (∃ numbered, Numbers sampleSession
        (((sessionMachine Nat).exec sampleSession sampleEvents).get sampleEvents_run).1
        numbered) ∧
      ∀ numbered, Numbers sampleSession
          (((sessionMachine Nat).exec sampleSession sampleEvents).get sampleEvents_run).1
          numbered →
        (OrderPreserved [65] numbered ↔ AtMostOneWaiting [65]
          (((sessionMachine Nat).exec sampleSession sampleEvents).get sampleEvents_run).1) :=
  publish_order_iff sampleSession_initial sampleSession_fresh
    (Machine.run_exec sampleEvents_run) [65]

/-- The two texts arrive in the opposite order. -/
theorem stored_texts_reversed :
    numberedSession.Initial ∧ numberedSession.FreshMemory ∧
      (∃ final, (sessionMachine (ℕ × Unit)).Run numberedSession absenceTrace final) ∧
      Numbered absenceTrace ∧ sentInOrder [65] absenceTrace = [(2, ()), (1, ())] ∧
      ¬ OrderPreserved [65] absenceTrace := by
  have sent : sentInOrder [65] absenceTrace = [(2, ()), (1, ())] := by decide +kernel
  refine ⟨numberedSession_initial, numberedSession_fresh,
    ⟨_, Machine.run_exec absenceEvents_run⟩, ?_, sent, ?_⟩
  · unfold Numbered
    decide +kernel
  · unfold OrderPreserved
    rw [sent]
    decide

end CommunicationProtocols.Server
