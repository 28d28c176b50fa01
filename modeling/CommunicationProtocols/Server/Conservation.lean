import CommunicationProtocols.Server.Delivery
import Mathlib.Algebra.BigOperators.Group.Multiset.Basic

/-!
# Store-and-forward conservation

For every client the texts sent to it and the texts still pending for it are
together exactly the texts of the datagrams it was eligible for when they were
processed: nothing is lost, duplicated or delivered to the wrong client.
-/

namespace CommunicationProtocols.Server

open Library

variable {Text : Type*}

/-- What a step sends and leaves pending is what was pending and what it was eligible for. -/
theorem Session.balanced (id : CString)
    (transition : Transition (Session Text) (Event Text) (Output Text))
    (genuine : (sessionMachine Text).Genuine transition) (clean : transition.before.Clean) :
    (textsTo id transition : Multiset Text) + (transition.after.pendingOf id : Multiset Text) =
      (transition.before.pendingOf id : Multiset Text) +
        (eligibleText id transition : Multiset Text) := by
  cases deliveryStep id genuine clean with
  | idle sent kept ineligible notAccepted =>
      rw [sent, kept, ineligible, add_comm]
  | drained fd event unique sent emptied =>
      rw [sent, emptied, eligibleText, event]
  | live topic text event online eligible sent kept =>
      rw [sent, kept, eligible, add_comm]
  | stored topic text event eligible sent added =>
      rw [sent, added, eligible, add_comm (transition.before.pendingOf id : Multiset Text),
        Multiset.coe_nil, zero_add, Multiset.coe_add, List.singleton_append]

/-! ## The balance of a run -/

/-- The texts a run has sent on the sockets of a client. -/
def sentTo (id : CString)
    (trace : List (Transition (Session Text) (Event Text) (Output Text))) : Multiset Text :=
  (trace.map fun transition => (textsTo id transition : Multiset Text)).sum

/-- The texts of the datagrams of a run for which a client was eligible. -/
def eligibleFor (id : CString)
    (trace : List (Transition (Session Text) (Event Text) (Output Text))) : Multiset Text :=
  (trace.map fun transition => (eligibleText id transition : Multiset Text)).sum

/-- What a client has been sent and what is still pending for it are together
what it was eligible for. -/
theorem store_and_forward {start final : Session Text}
    {trace : List (Transition (Session Text) (Event Text) (Output Text))}
    (initial : start.Initial) (fresh : start.FreshMemory)
    (run : (sessionMachine Text).Run start trace final) (id : CString) :
    sentTo id trace + (final.pendingOf id : Multiset Text) = eligibleFor id trace := by
  have unknown : start.getClient id = none := by
    simp [Session.getClient, initial.nobodyKnown, KeyedList.find]
  have balance : sentTo id trace + (final.pendingOf id : Multiset Text) =
      (start.pendingOf id : Multiset Text) + eligibleFor id trace :=
    @Machine.Run.balance _ _ _ _ (Multiset Text) _ Session.Clean
      (fun session => (session.pendingOf id : Multiset Text))
      (fun transition => (eligibleText id transition : Multiset Text))
      (fun transition => (textsTo id transition : Multiset Text)) start final trace
      Session.clean_preserved (Session.balanced id) run (initial.clean fresh)
  rwa [Session.pendingOf_of_unknown unknown, Multiset.coe_nil, zero_add] at balance

/-- A server that has just started; its texts are numbers. -/
def sampleSession : Session Nat where
  clients _ := ⟨[], false, [], []⟩
  allocated := 0
  onlineClients := []
  allClients := []
  activeFds := {0, 3, 4}
  openFds := {0, 1, 2, 3, 4}
  fdmax := 3
  tcpSock := 3
  udpSock := 4

theorem sampleSession_initial : sampleSession.Initial where
  nobodyOnline := rfl
  nobodyKnown := rfl
  watched := rfl
  opened := by decide
  fdmax := rfl

theorem sampleSession_fresh : sampleSession.FreshMemory := fun _ _ => ⟨rfl, rfl⟩

/-- A client that stores and forwards a topic goes and comes back. -/
def sampleEvents : List (Event Nat) :=
  [.connect 5 [65], .subscribe 5 [116] true, .publish [116] 1, .disconnect 5, .publish [116] 2,
    .connect 6 [65]]

theorem sampleEvents_run : ((sessionMachine Nat).exec sampleSession sampleEvents).isSome := by
  decide +kernel

/-- The client of the sample gets both texts. -/
theorem store_and_forward_sample :
    sentTo [65] (((sessionMachine Nat).exec sampleSession sampleEvents).get sampleEvents_run).1 +
        ((((sessionMachine Nat).exec sampleSession sampleEvents).get
          sampleEvents_run).2.pendingOf [65] : Multiset Nat) =
      eligibleFor [65]
        (((sessionMachine Nat).exec sampleSession sampleEvents).get sampleEvents_run).1 :=
  store_and_forward sampleSession_initial sampleSession_fresh
    (Machine.run_exec sampleEvents_run) [65]

end CommunicationProtocols.Server
