import CommunicationProtocols.Server.Conservation
import Mathlib.Order.Bounds.Defs

/-!
# Which descriptors are polled

`select` and the dispatch loop look at the descriptors up to `fdmax`. The server
starts with `fdmax` at the TCP socket, although the UDP socket comes after it;
the first client's socket is higher than both and repairs this. So nothing that
a publisher sends is read before a client has connected.
-/

namespace CommunicationProtocols.Server

open Library

variable {Text : Type*}

/-! ## The descriptors of a session -/

/-- What the session knows about descriptors. -/
structure Descriptors where
  active : Finset Fd
  opened : Finset Fd
  fdmax : Fd
  tcpSock : Fd
  udpSock : Fd

namespace Descriptors

/-- A connection has been accepted on `fd`, and its client entered. -/
def watch (descriptors : Descriptors) (fd : Fd) : Descriptors :=
  { descriptors with
    active := insert fd descriptors.active
    opened := insert fd descriptors.opened
    fdmax := if fd > descriptors.fdmax then fd else descriptors.fdmax }

/-- A connection has been accepted on `fd`, and its client has been refused. -/
def turnAway (descriptors : Descriptors) (fd : Fd) : Descriptors :=
  { descriptors with opened := insert fd descriptors.opened }

/-- The connection on `fd` has been closed. -/
def close (descriptors : Descriptors) (fd : Fd) : Descriptors :=
  { descriptors with
    active := descriptors.active.erase fd
    opened := descriptors.opened.erase fd }

/-- `select` and the dispatch loop cover every watched descriptor. -/
def EveryWatchedPolled (descriptors : Descriptors) : Prop :=
  ∀ fd ∈ descriptors.active, fd ≤ descriptors.fdmax

/-- The descriptors as the start of the server lays them out: nothing up to the
UDP socket is ever free, and what is watched besides the server's own descriptors
lies between it and `fdmax`. -/
structure LaidOut (descriptors : Descriptors) : Prop where
  order : descriptors.tcpSock < descriptors.udpSock
  tcpPolled : descriptors.tcpSock ≤ descriptors.fdmax
  udpActive : descriptors.udpSock ∈ descriptors.active
  taken : ∀ fd, fd ≤ descriptors.udpSock → fd ∈ descriptors.opened
  own : ∀ fd ∈ descriptors.active, fd ≤ descriptors.udpSock →
    fd = 0 ∨ fd = descriptors.tcpSock ∨ fd = descriptors.udpSock
  clients : ∀ fd ∈ descriptors.active, descriptors.udpSock < fd → fd ≤ descriptors.fdmax

variable {descriptors : Descriptors} {fd : Fd}

/-- The socket of a new client lies above the UDP socket. -/
theorem LaidOut.above (laidOut : descriptors.LaidOut) (free : fd ∉ descriptors.opened) :
    descriptors.udpSock < fd := by
  by_contra low
  exact free (laidOut.taken fd (Nat.not_lt.mp low))

/-- `fdmax` is raised to the new socket if that is higher. -/
theorem le_raised (fdmax fd : Nat) :
    fdmax ≤ (if fd > fdmax then fd else fdmax) ∧ fd ≤ if fd > fdmax then fd else fdmax := by
  split <;> omega

/-- Watching a new descriptor keeps the layout. -/
theorem LaidOut.watch (laidOut : descriptors.LaidOut) (free : fd ∉ descriptors.opened) :
    (descriptors.watch fd).LaidOut := by
  obtain ⟨grows, covers⟩ := le_raised descriptors.fdmax fd
  refine ⟨laidOut.order, Nat.le_trans laidOut.tcpPolled grows,
    Finset.mem_insert_of_mem laidOut.udpActive,
    fun other low => Finset.mem_insert_of_mem (laidOut.taken other low),
    fun other member low => ?_, fun other member above => ?_⟩
  · rcases Finset.mem_insert.mp member with rfl | earlier
    · exact absurd low (Nat.not_le.mpr (laidOut.above free))
    · exact laidOut.own other earlier low
  · rcases Finset.mem_insert.mp member with rfl | earlier
    · exact covers
    · exact Nat.le_trans (laidOut.clients other earlier above) grows

/-- Turning a descriptor away keeps the layout. -/
theorem LaidOut.turnAway (laidOut : descriptors.LaidOut) (fd : Fd) :
    (descriptors.turnAway fd).LaidOut where
  order := laidOut.order
  tcpPolled := laidOut.tcpPolled
  udpActive := laidOut.udpActive
  taken other low := Finset.mem_insert_of_mem (laidOut.taken other low)
  own := laidOut.own
  clients := laidOut.clients

/-- Closing the socket of a client frees nothing below the UDP socket. -/
theorem LaidOut.close (laidOut : descriptors.LaidOut) (above : descriptors.udpSock < fd) :
    (descriptors.close fd).LaidOut where
  order := laidOut.order
  tcpPolled := laidOut.tcpPolled
  udpActive := Finset.mem_erase.mpr ⟨Nat.ne_of_lt above, laidOut.udpActive⟩
  taken other low :=
    Finset.mem_erase.mpr ⟨Nat.ne_of_lt (Nat.lt_of_le_of_lt low above), laidOut.taken other low⟩
  own other member := laidOut.own other (Finset.mem_of_mem_erase member)
  clients other member := laidOut.clients other (Finset.mem_of_mem_erase member)

/-- Everything is polled exactly if the UDP socket is. -/
theorem LaidOut.allPolled_iff (laidOut : descriptors.LaidOut) :
    descriptors.EveryWatchedPolled ↔ descriptors.udpSock ≤ descriptors.fdmax := by
  constructor
  · intro polled
    exact polled _ laidOut.udpActive
  · intro udpPolled fd member
    by_cases low : fd ≤ descriptors.udpSock
    · exact Nat.le_trans low udpPolled
    · exact laidOut.clients fd member (Nat.not_le.mp low)

end Descriptors

/-! ## What the events do to them -/

namespace Session

def descriptors (session : Session Text) : Descriptors :=
  ⟨session.activeFds, session.openFds, session.fdmax, session.tcpSock, session.udpSock⟩

/-- Enrolling a client touches no descriptor. -/
theorem descriptors_enroll (session : Session Text) (id : CString) :
    (session.enroll id).1.descriptors = session.descriptors := by
  unfold enroll
  cases session.getClient id <;> rfl

/-- Attaching a client watches its descriptor. -/
theorem descriptors_attach (session : Session Text) (fd : Fd) (ptr : ClientPtr) :
    (session.attach fd ptr).descriptors = session.descriptors.watch fd := rfl

/-- A datagram changes client records only. -/
theorem publish_descriptors (session : Session Text) (topic : CString) (text : Text) :
    (session.publish topic text).1.descriptors = session.descriptors ∧
      (session.publish topic text).1.onlineClients = session.onlineClients := by
  have stored (ptrs : List ClientPtr) (current : Session Text) :
      (ptrs.foldl (storeFor topic text) current).descriptors = current.descriptors ∧
        (ptrs.foldl (storeFor topic text) current).onlineClients = current.onlineClients := by
    induction ptrs generalizing current with
    | nil => exact ⟨rfl, rfl⟩
    | cons ptr rest ih =>
        rw [List.foldl_cons, (ih _).1, (ih _).2, storeFor_eq]
        exact ⟨rfl, rfl⟩
  exact stored session.allClients session

/-- What an event does to the descriptors. -/
inductive DescriptorEffect (session : Session Text) : Event Text → Session Text → Prop where
  | admitted {fd id after} (unique : session.checkUniqueId id = true)
      (same : after.descriptors = session.descriptors.watch fd) :
      DescriptorEffect session (.connect fd id) after
  | turnedAway {fd id after} (taken : session.checkUniqueId id = false)
      (same : after.descriptors = session.descriptors.turnAway fd) :
      DescriptorEffect session (.connect fd id) after
  | closed {fd after} (online : session.onlineClients ≠ [])
      (same : after.descriptors = session.descriptors.close fd) :
      DescriptorEffect session (.disconnect fd) after
  | kept {event after} (other : ∀ fd id, event ≠ .connect fd id)
      (same : after.descriptors = session.descriptors)
      (online : after.onlineClients = session.onlineClients) :
      DescriptorEffect session event after

/-- A change of topics touches no descriptor. -/
theorem changeTopics_effect {session after : Session Text} {fd : Fd}
    {change : List Topic → List Topic} {outputs : List (Output Text)}
    (stepped : session.changeTopics fd change = some (after, outputs)) :
    after.descriptors = session.descriptors ∧ after.onlineClients = session.onlineClients := by
  unfold changeTopics at stepped
  split at stepped
  · cases stepped
  · cases stepped
    exact ⟨rfl, rfl⟩

/-- What an event does to the descriptors. -/
theorem descriptorEffect {session after : Session Text} {event : Event Text}
    {outputs : List (Output Text)}
    (stepped : (sessionMachine Text).step session event = some (after, outputs)) :
    session.DescriptorEffect event after := by
  cases event with
  | connect fd id =>
      have stepped : session.connect fd id = some (after, outputs) := stepped
      cases unique : session.checkUniqueId id with
      | true =>
          rw [connect_unique unique] at stepped
          cases stepped
          exact .admitted unique (by rw [descriptors_attach, descriptors_enroll])
      | false =>
          rw [connect_refused unique] at stepped
          cases stepped
          exact .turnedAway unique rfl
  | disconnect fd =>
      have stepped : session.disconnect fd = some (after, outputs) := stepped
      unfold disconnect at stepped
      split at stepped
      · cases stepped
      case h_2 itr found =>
        cases stepped
        exact .closed (List.ne_nil_of_mem (KeyedList.find_eq_some found).1) rfl
  | subscribe fd topic sf =>
      obtain ⟨same, online⟩ := changeTopics_effect stepped
      exact .kept (by simp) same online
  | unsubscribe fd topic =>
      obtain ⟨same, online⟩ := changeTopics_effect stepped
      exact .kept (by simp) same online
  | publish topic text =>
      cases stepped
      obtain ⟨same, online⟩ := publish_descriptors session topic text
      exact .kept (by simp) same online

end Session

/-! ## Runs from the start of the server -/

/-- The lowest descriptor not in use. -/
def LowestFree (opened : Finset Fd) (fd : Fd) : Prop := IsLeast {fd | fd ∉ opened} fd

/-- The start of the server: stdin is open, and `socket` has returned the lowest
free descriptor twice. -/
structure Session.StartUp (session : Session Text) : Prop where
  initial : session.Initial
  sockets : ∃ inherited : Finset Fd, 0 ∈ inherited ∧
    LowestFree inherited session.tcpSock ∧
    LowestFree (insert session.tcpSock inherited) session.udpSock ∧
    session.openFds = insert session.udpSock (insert session.tcpSock inherited)

/-- The session as a machine whose events come from `select`: a descriptor above
`fdmax` is not reported, and `accept` returns the lowest free descriptor. Ids may
be any strings. -/
def pollingMachine (Text : Type*) : Machine (Session Text) (Event Text) (Output Text) where
  Admits session event := match event with
    | .connect fd _ => session.tcpSock ≤ session.fdmax ∧ LowestFree session.openFds fd
    | .disconnect fd => session.Reports fd ∧ fd ≤ session.fdmax
    | .subscribe fd _ _ => session.Reports fd ∧ fd ≤ session.fdmax
    | .unsubscribe fd _ => session.Reports fd ∧ fd ≤ session.fdmax
    | .publish _ _ => session.udpSock ≤ session.fdmax
  step := (sessionMachine Text).step

/-- A client connects. -/
def Event.IsConnection : Event Text → Prop
  | .connect _ _ => True
  | _ => False

/-- Start-up lays the descriptors out. -/
theorem Session.StartUp.laidOut {session : Session Text} (startUp : session.StartUp) :
    session.descriptors.LaidOut := by
  obtain ⟨initial, inherited, _, tcpLeast, udpLeast, opened⟩ := startUp
  have udpFree : session.udpSock ∉ insert session.tcpSock inherited := udpLeast.1
  have udpFree' : session.udpSock ∉ inherited := fun member =>
    udpFree (Finset.mem_insert_of_mem member)
  have differs : session.tcpSock ≠ session.udpSock := fun same =>
    udpFree (same ▸ Finset.mem_insert_self _ _)
  have order : session.tcpSock < session.udpSock := lt_of_le_of_ne (tcpLeast.2 udpFree') differs
  have own : ∀ fd ∈ session.activeFds, fd = 0 ∨ fd = session.tcpSock ∨ fd = session.udpSock := by
    simp [initial.watched]
  refine ⟨order, le_of_eq initial.fdmax.symm, ?_, fun fd low => ?_, fun fd member _ => own fd member,
    fun fd member above => ?_⟩
  · simp [descriptors, initial.watched]
  · change fd ∈ session.openFds
    rw [opened]
    by_contra free
    obtain ⟨notUdp, unused⟩ := not_or.mp (fun either => free (Finset.mem_insert.mpr either))
    exact notUdp (le_antisymm low (udpLeast.2 unused))
  · rcases own fd member with rfl | rfl | rfl
    · exact absurd above (Nat.not_lt_zero _)
    · exact absurd above (Nat.lt_asymm order)
    · exact absurd above (Nat.lt_irrefl _)

/-- How far a run has come: until the first connection nobody is online and the
UDP socket is not polled, and from then on it is. -/
structure Progress (trace : List (Transition (Session Text) (Event Text) (Output Text)))
    (session : Session Text) : Prop where
  laidOut : session.descriptors.LaidOut
  before : (∀ transition ∈ trace, ¬ transition.event.IsConnection) →
    session.onlineClients = [] ∧ session.fdmax = session.tcpSock
  after : (∃ transition ∈ trace, transition.event.IsConnection) →
    session.udpSock ≤ session.fdmax

/-- Every id is free while nobody is online. -/
theorem Session.checkUniqueId_of_nobody {session : Session Text} {id : CString}
    (nobody : session.onlineClients = []) : session.checkUniqueId id = true := by
  simp [checkUniqueId, nobody]

/-- A run with a connection only has to keep the UDP socket polled. -/
theorem Progress.of_connection
    {trace : List (Transition (Session Text) (Event Text) (Output Text))} {session : Session Text}
    (laidOut : session.descriptors.LaidOut)
    (visited : ∃ transition ∈ trace, transition.event.IsConnection)
    (polled : session.udpSock ≤ session.fdmax) : Progress trace session where
  laidOut := laidOut
  before none := by
    obtain ⟨transition, member, connects⟩ := visited
    exact absurd connects (none transition member)
  after _ := polled

/-- A step that is no connection and leaves the server's own descriptors and `fdmax` alone
keeps the progress. -/
theorem Progress.of_quiet {trace : List (Transition (Session Text) (Event Text) (Output Text))}
    {session next : Session Text} {event : Event Text} {outputs : List (Output Text)}
    (progress : Progress trace session) (quiet : ¬ event.IsConnection)
    (laidOut : next.descriptors.LaidOut) (tcp : next.tcpSock = session.tcpSock)
    (udp : next.udpSock = session.udpSock) (fdmax : next.fdmax = session.fdmax)
    (nobody : session.onlineClients = [] → next.onlineClients = []) :
    Progress (trace ++ [⟨session, event, outputs, next⟩]) next where
  laidOut := laidOut
  before none := by
    obtain ⟨empty, least⟩ := progress.before fun transition member =>
      none transition (List.mem_append_left _ member)
    rw [fdmax, tcp]
    exact ⟨nobody empty, least⟩
  after visited := by
    obtain ⟨transition, member, connects⟩ := visited
    rw [udp, fdmax]
    rcases List.mem_append.mp member with earlier | last
    · exact progress.after ⟨transition, earlier, connects⟩
    · obtain rfl := List.mem_singleton.mp last
      exact absurd connects quiet

/-- Every event keeps the progress of the run. -/
theorem Progress.step {trace : List (Transition (Session Text) (Event Text) (Output Text))}
    {session next : Session Text} {event : Event Text} {outputs : List (Output Text)}
    (progress : Progress trace session) (admitted : (pollingMachine Text).Admits session event)
    (stepped : (pollingMachine Text).step session event = some (next, outputs)) :
    Progress (trace ++ [⟨session, event, outputs, next⟩]) next := by
  have laidOut := progress.laidOut
  cases Session.descriptorEffect stepped with
  | @admitted fd id _ unique same =>
      have above : session.udpSock < fd := laidOut.above admitted.2.1
      have udp : next.udpSock = session.udpSock := congrArg Descriptors.udpSock same
      have fdmax : next.fdmax = if fd > session.fdmax then fd else session.fdmax :=
        congrArg Descriptors.fdmax same
      refine .of_connection (same ▸ laidOut.watch admitted.2.1)
        ⟨_, List.mem_append_right _ List.mem_cons_self, trivial⟩ ?_
      rw [udp, fdmax]
      exact Nat.le_trans (Nat.le_of_lt above) (Descriptors.le_raised session.fdmax fd).2
  | @turnedAway fd id _ taken same =>
      -- A client is only refused for one that is online, so this is not the first connection.
      have visited : ∃ transition ∈ trace, transition.event.IsConnection := by
        by_contra none
        have nobody := (progress.before fun transition member connects =>
          none ⟨transition, member, connects⟩).1
        rw [Session.checkUniqueId_of_nobody nobody] at taken
        cases taken
      have udp : next.udpSock = session.udpSock := congrArg Descriptors.udpSock same
      have fdmax : next.fdmax = session.fdmax := congrArg Descriptors.fdmax same
      refine .of_connection (same ▸ laidOut.turnAway fd)
        ⟨_, List.mem_append_right _ List.mem_cons_self, trivial⟩ ?_
      rw [udp, fdmax]
      exact progress.after visited
  | @closed fd _ online same =>
      obtain ⟨⟨active, notStdin, notTcp, notUdp⟩, _⟩ := admitted
      have above : session.udpSock < fd := by
        by_contra low
        rcases laidOut.own fd active (Nat.not_lt.mp low) with stdin | tcp | udp
        · exact notStdin stdin
        · exact notTcp tcp
        · exact notUdp udp
      exact progress.of_quiet id (same ▸ laidOut.close above) (congrArg Descriptors.tcpSock same)
        (congrArg Descriptors.udpSock same) (congrArg Descriptors.fdmax same)
        fun nobody => absurd nobody online
  | kept other same online =>
      have quiet : ¬ event.IsConnection := by
        cases event with
        | connect fd id => exact absurd rfl (other fd id)
        | _ => exact id
      exact progress.of_quiet quiet (same ▸ laidOut) (congrArg Descriptors.tcpSock same)
        (congrArg Descriptors.udpSock same) (congrArg Descriptors.fdmax same) online.trans

/-- In every run from start-up the UDP socket is polled from the first connection on. -/
theorem progress_of_run {start final : Session Text}
    {trace : List (Transition (Session Text) (Event Text) (Output Text))} (startUp : start.StartUp)
    (run : (pollingMachine Text).Run start trace final) : Progress trace final := by
  induction run with
  | refl =>
      exact ⟨startUp.laidOut, fun _ => ⟨startUp.initial.nobodyOnline, startUp.initial.fdmax⟩,
        fun visited => by simp at visited⟩
  | step _ admitted stepped ih => exact ih.step admitted stepped

/-- At the head of the loop every watched descriptor is polled exactly if some
client has connected before. -/
theorem everyWatchedPolled_iff {start final : Session Text}
    {trace : List (Transition (Session Text) (Event Text) (Output Text))} (startUp : start.StartUp)
    (run : (pollingMachine Text).Run start trace final) :
    final.descriptors.EveryWatchedPolled ↔
      ∃ transition ∈ trace, transition.event.IsConnection := by
  have progress := progress_of_run startUp run
  rw [progress.laidOut.allPolled_iff]
  constructor
  · intro polled
    by_contra none
    have atTcp := (progress.before fun transition member connects =>
      none ⟨transition, member, connects⟩).2
    have order : final.tcpSock < final.udpSock := progress.laidOut.order
    have polled : final.udpSock ≤ final.fdmax := polled
    rw [atTcp] at polled
    exact absurd order (Nat.not_lt.mpr polled)
  · exact progress.after

/-! ## The first iteration -/

theorem sampleSession_startUp : sampleSession.StartUp where
  initial := sampleSession_initial
  sockets := by
    have below_three (fd : Nat) (low : fd < 3) : fd = 0 ∨ fd = 1 ∨ fd = 2 := by omega
    have below_four (fd : Nat) (low : fd < 4) : fd = 0 ∨ fd = 1 ∨ fd = 2 ∨ fd = 3 := by omega
    refine ⟨{0, 1, 2}, by decide, ⟨by decide, fun fd free => ?_⟩, ⟨by decide, fun fd free => ?_⟩,
      by decide⟩
    · by_contra low
      rcases below_three fd (Nat.not_le.mp low) with rfl | rfl | rfl
      all_goals exact absurd free (by decide)
    · by_contra low
      rcases below_four fd (Nat.not_le.mp low) with rfl | rfl | rfl | rfl
      all_goals exact absurd free (by decide)

/-- The client `A` connects to the server that has just started. -/
theorem sampleSession_connects :
    (pollingMachine Nat).Admits sampleSession (.connect 5 [65]) := by
  have below_five (fd : Nat) (low : fd < 5) : fd = 0 ∨ fd = 1 ∨ fd = 2 ∨ fd = 3 ∨ fd = 4 := by omega
  refine ⟨by decide, by decide, fun fd free => ?_⟩
  by_contra low
  rcases below_five fd (Nat.not_le.mp low) with rfl | rfl | rfl | rfl | rfl
  all_goals exact absurd free (by decide)

theorem sampleSession_steps :
    ((pollingMachine Nat).step sampleSession (.connect 5 [65])).isSome := by
  decide +kernel

/-- Once `A` is connected everything is polled. -/
theorem everyWatchedPolled_iff_sample :
    (((pollingMachine Nat).step sampleSession (.connect 5 [65])).get
        sampleSession_steps).1.descriptors.EveryWatchedPolled ↔
      ∃ transition ∈ [(⟨sampleSession, .connect 5 [65],
        (((pollingMachine Nat).step sampleSession (.connect 5 [65])).get sampleSession_steps).2,
        (((pollingMachine Nat).step sampleSession (.connect 5 [65])).get sampleSession_steps).1⟩ :
          Transition (Session Nat) (Event Nat) (Output Nat))], transition.event.IsConnection :=
  everyWatchedPolled_iff sampleSession_startUp
    (Machine.run_single sampleSession_connects sampleSession_steps)

/-- In the first iteration the UDP socket is watched and not polled. -/
theorem udp_socket_not_polled :
    sampleSession.StartUp ∧ (pollingMachine Nat).Run sampleSession [] sampleSession ∧
      ¬ sampleSession.descriptors.EveryWatchedPolled := by
  refine ⟨sampleSession_startUp, .refl, fun polled => ?_⟩
  have udpPolled := polled 4 (by decide)
  revert udpPolled
  decide

end CommunicationProtocols.Server
