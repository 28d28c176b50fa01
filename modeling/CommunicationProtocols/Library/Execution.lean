import Mathlib.Algebra.BigOperators.Group.List.Basic
import Mathlib.Data.List.Forall2

/-!
# Executions of a partial machine

A machine steps deterministically on events offered by its environment. A step
may be undefined, and the environment may be unable to offer an event in a
state; the two are kept apart so that "the step is defined" can be a theorem.
`Machine.Run` keeps every transition as data, because the laws of this
development speak about when an output happened and not only about the state
reached.
-/

namespace CommunicationProtocols.Library

universe u v w

/-- One step together with everything an observer of the run may refer to. -/
structure Transition (State : Type u) (Event : Type v) (Output : Type w) where
  before : State
  event : Event
  outputs : List Output
  after : State

/-- A machine whose step may be undefined, and the events its environment can
offer. -/
structure Machine (State : Type u) (Event : Type v) (Output : Type w) where
  Admits : State → Event → Prop
  step : State → Event → Option (State × List Output)

namespace Machine

variable {State : Type u} {Event : Type v} {Output : Type w}

/-- Zero or more admitted and defined steps from a selected state. -/
inductive Run (machine : Machine State Event Output) (start : State) :
    List (Transition State Event Output) → State → Prop where
  | refl : Run machine start [] start
  | step {trace state event outputs next}
      (prior : Run machine start trace state)
      (admitted : machine.Admits state event)
      (stepped : machine.step state event = some (next, outputs)) :
      Run machine start (trace ++ [⟨state, event, outputs, next⟩]) next

variable {machine : Machine State Event Output}

/-- A transition the machine can really make. -/
structure Genuine (machine : Machine State Event Output)
    (transition : Transition State Event Output) : Prop where
  admitted : machine.Admits transition.before transition.event
  stepped : machine.step transition.before transition.event =
    some (transition.after, transition.outputs)

/-- Compose two runs that meet at the same state. -/
theorem Run.trans {start middle final : State}
    {first second : List (Transition State Event Output)}
    (left : machine.Run start first middle) (right : machine.Run middle second final) :
    machine.Run start (first ++ second) final := by
  induction right with
  | refl => simpa using left
  | step _ admitted stepped ih =>
      simpa [List.append_assoc] using Run.step ih admitted stepped

/-- Put one genuine step in front of a run. -/
theorem Run.cons {start next final : State} {event : Event} {outputs : List Output}
    {trace : List (Transition State Event Output)}
    (admitted : machine.Admits start event)
    (stepped : machine.step start event = some (next, outputs))
    (rest : machine.Run next trace final) :
    machine.Run start (⟨start, event, outputs, next⟩ :: trace) final :=
  (Run.step .refl admitted stepped).trans rest

/-- An invariant of every step holds wherever a run ends. -/
theorem Run.invariant {Inv : State → Prop} {start final : State}
    {trace : List (Transition State Event Output)}
    (preserved : ∀ transition, machine.Genuine transition →
      Inv transition.before → Inv transition.after)
    (run : machine.Run start trace final) (holds : Inv start) : Inv final := by
  induction run with
  | refl => exact holds
  | step _ admitted stepped ih => exact preserved ⟨_, _, _, _⟩ ⟨admitted, stepped⟩ ih

/-- Every transition of a run is genuine and starts where the invariant holds. -/
theorem Run.transitions {Inv : State → Prop} {start final : State}
    {trace : List (Transition State Event Output)}
    (preserved : ∀ transition, machine.Genuine transition →
      Inv transition.before → Inv transition.after)
    (run : machine.Run start trace final) (holds : Inv start) :
    ∀ transition ∈ trace, machine.Genuine transition ∧ Inv transition.before := by
  induction run with
  | refl => simp
  | step prior admitted stepped ih =>
      intro transition member
      rcases List.mem_append.mp member with earlier | last
      · exact ih transition earlier
      · rw [List.mem_singleton.mp last]
        exact ⟨⟨admitted, stepped⟩, prior.invariant preserved holds⟩

/-- Each transition of a run is genuine and starts where the transitions in
front of it have led. -/
theorem Run.prior {start final : State} {trace earlier later : List (Transition State Event Output)}
    {transition : Transition State Event Output} (run : machine.Run start trace final)
    (split : trace = earlier ++ transition :: later) :
    machine.Run start earlier transition.before ∧ machine.Genuine transition := by
  induction run generalizing later with
  | refl => simp at split
  | step prior admitted stepped ih =>
      rcases List.eq_nil_or_concat later with rfl | ⟨front, last, rfl⟩
      · obtain ⟨rfl, same⟩ := List.append_inj' split rfl
        obtain rfl := List.singleton_inj.mp same
        exact ⟨prior, admitted, stepped⟩
      · rw [List.concat_eq_append, ← List.cons_append, ← List.append_assoc] at split
        exact ih (List.append_inj' split rfl).1

/-- A run is repeated from a related state, on events that match its own, when every step
can be: with the same outputs, and ending in related states. -/
theorem Run.lockstep {Related : State → State → Prop}
    {Matches : Transition State Event Output → Event → Prop}
    (repeated : ∀ transition, machine.Genuine transition → ∀ other event,
      Related transition.before other → Matches transition event →
        machine.Admits other event ∧ ∃ next,
          machine.step other event = some (next, transition.outputs) ∧
            Related transition.after next)
    {start start' final : State} {trace : List (Transition State Event Output)}
    {events : List Event} (run : machine.Run start trace final) (related : Related start start')
    (matched : List.Forall₂ Matches trace events) :
    ∃ trace' final', machine.Run start' trace' final' ∧
      trace'.map Transition.event = events ∧
      trace'.map Transition.outputs = trace.map Transition.outputs ∧ Related final final' := by
  induction run generalizing events with
  | refl =>
      cases matched
      exact ⟨[], start', .refl, rfl, rfl, related⟩
  | @step trace state event outputs next prior admitted stepped ih =>
      obtain ⟨front, back, first, last, rfl⟩ : ∃ front back, List.Forall₂ Matches trace front ∧
          List.Forall₂ Matches [⟨state, event, outputs, next⟩] back ∧ events = front ++ back :=
        ⟨_, _, (List.forall₂_take_append _ _ _ matched.flip).flip,
          (List.forall₂_drop_append _ _ _ matched.flip).flip, (List.take_append_drop _ _).symm⟩
      obtain ⟨event', matches', rfl⟩ : ∃ event', Matches ⟨state, event, outputs, next⟩ event' ∧
          back = [event'] := by
        cases last with
        | cons head tail =>
            cases tail
            exact ⟨_, head, rfl⟩
      obtain ⟨trace', state', run', sameEvents, sameOutputs, related'⟩ := ih first
      obtain ⟨admitted', next', stepped', after⟩ :=
        repeated ⟨state, event, outputs, next⟩ ⟨admitted, stepped⟩ state' event' related' matches'
      refine ⟨_, next', run'.step admitted' stepped', ?_, ?_, after⟩
      · rw [List.map_append, sameEvents, List.map_singleton]
      · rw [List.map_append, List.map_append, sameOutputs, List.map_singleton, List.map_singleton]

/-- If every step moves exactly what it takes in between a stock and an
outflow, a whole run does: outflow and final stock add up to the initial stock
and the inflow. -/
theorem Run.balance {Amount : Type*} [AddCommMonoid Amount] {Inv : State → Prop}
    {stock : State → Amount} {inflow outflow : Transition State Event Output → Amount}
    {start final : State} {trace : List (Transition State Event Output)}
    (preserved : ∀ transition, machine.Genuine transition →
      Inv transition.before → Inv transition.after)
    (balanced : ∀ transition, machine.Genuine transition → Inv transition.before →
      outflow transition + stock transition.after =
        stock transition.before + inflow transition)
    (run : machine.Run start trace final) (holds : Inv start) :
    (trace.map outflow).sum + stock final = stock start + (trace.map inflow).sum := by
  induction run with
  | refl => simp
  | step prior admitted stepped ih =>
      have last := balanced ⟨_, _, _, _⟩ ⟨admitted, stepped⟩ (prior.invariant preserved holds)
      simp only [List.map_append, List.map_singleton, List.sum_append, List.sum_singleton]
      rw [add_assoc, last, ← add_assoc, ih, add_assoc]

/-- Run a list of events, stopping at the first event that is not admitted or
whose step is undefined. -/
def exec (machine : Machine State Event Output)
    [admits : ∀ state event, Decidable (machine.Admits state event)] (state : State) :
    List Event → Option (List (Transition State Event Output) × State)
  | [] => some ([], state)
  | event :: events =>
      if machine.Admits state event then
        match machine.step state event with
        | none => none
        | some (next, outputs) =>
            (machine.exec next events).map fun rest =>
              (⟨state, event, outputs, next⟩ :: rest.1, rest.2)
      else none

/-- What `exec` computes is a run. -/
theorem run_of_exec [∀ state event, Decidable (machine.Admits state event)]
    {events : List Event} {start final : State} {trace : List (Transition State Event Output)}
    (computed : machine.exec start events = some (trace, final)) :
    machine.Run start trace final := by
  induction events generalizing start trace with
  | nil =>
      cases computed
      exact .refl
  | cons event events ih =>
      simp only [exec] at computed
      split at computed
      case isFalse => cases computed
      case isTrue admitted =>
        split at computed
        case h_1 => cases computed
        case h_2 next outputs stepped =>
          obtain ⟨⟨tail, last⟩, inner, outer⟩ := Option.map_eq_some_iff.mp computed
          cases outer
          exact Run.cons admitted stepped (ih inner)

/-- Events that `exec` gets through make a run. -/
theorem run_exec [∀ state event, Decidable (machine.Admits state event)]
    {events : List Event} {start : State} (through : (machine.exec start events).isSome) :
    machine.Run start ((machine.exec start events).get through).1
      ((machine.exec start events).get through).2 :=
  run_of_exec (Option.some_get through).symm

/-- A computed run takes the events it is given. -/
theorem event_of_exec [∀ state event, Decidable (machine.Admits state event)]
    {events : List Event} {start final : State} {trace : List (Transition State Event Output)}
    (computed : machine.exec start events = some (trace, final)) :
    trace.map Transition.event = events := by
  induction events generalizing start trace with
  | nil =>
      cases computed
      rfl
  | cons event events ih =>
      simp only [exec] at computed
      split at computed
      case isFalse => cases computed
      case isTrue =>
        split at computed
        case h_1 => cases computed
        case h_2 next outputs stepped =>
          obtain ⟨⟨tail, last⟩, inner, outer⟩ := Option.map_eq_some_iff.mp computed
          cases outer
          rw [List.map_cons, ih inner]

/-- The run that `exec` makes is on the events it was given. -/
theorem event_exec [∀ state event, Decidable (machine.Admits state event)]
    {events : List Event} {start : State} (through : (machine.exec start events).isSome) :
    ((machine.exec start events).get through).1.map Transition.event = events :=
  event_of_exec (Option.some_get through).symm

/-- An admitted event with a step makes a run of one step. -/
theorem run_single {start : State} {event : Event} (admitted : machine.Admits start event)
    (defined : (machine.step start event).isSome) :
    machine.Run start [⟨start, event, ((machine.step start event).get defined).2,
      ((machine.step start event).get defined).1⟩] ((machine.step start event).get defined).1 :=
  .cons admitted (Option.some_get defined).symm .refl

end Machine

/-! ## Steps without a meaning -/

/-- An event, together with the state in which the machine is left if its step has no
meaning there. -/
structure Disturbed (State : Type u) (Event : Type v) where
  event : Event
  aftermath : State

/-- The transition on the event alone. -/
def Transition.undisturbed {State : Type u} {Event : Type v} {Output : Type w}
    (transition : Transition State (Disturbed State Event) Output) :
    Transition State Event Output where
  before := transition.before
  event := transition.event.event
  outputs := transition.outputs
  after := transition.after

namespace Machine

variable {State : Type u} {Event : Type v} {Output : Type w}
  {machine : Machine State Event Output} {Fits : State → Event → Prop}
  [∀ state event, Decidable (Fits state event)]

/-- The machine whose steps have a meaning only where the event fits; elsewhere its
environment chooses what comes out of them. -/
def undefinedUnless (machine : Machine State Event Output) (Fits : State → Event → Prop)
    [∀ state event, Decidable (Fits state event)] :
    Machine State (Disturbed State Event) Output where
  Admits state input := machine.Admits state input.event
  step state input :=
    if Fits state input.event then machine.step state input.event
    else some (input.aftermath, [])

instance [∀ state event, Decidable (machine.Admits state event)] (state : State)
    (input : Disturbed State Event) :
    Decidable ((machine.undefinedUnless Fits).Admits state input) :=
  inferInstanceAs (Decidable (machine.Admits state input.event))

/-- Where the condition is met, the step is that of the machine. -/
theorem undefinedUnless_step_of_fits {state : State} {event : Event} (fits : Fits state event)
    (aftermath : State) :
    (machine.undefinedUnless Fits).step state ⟨event, aftermath⟩ = machine.step state event :=
  if_pos fits

/-- Where it is not, any state may follow. -/
theorem undefinedUnless_step_of_not {state : State} {event : Event}
    (overrun : ¬ Fits state event) (aftermath : State) :
    (machine.undefinedUnless Fits).step state ⟨event, aftermath⟩ = some (aftermath, []) :=
  if_neg overrun

/-- A run in which every event fits is a run of the machine itself. -/
theorem Run.undisturbed {start final : State}
    {trace : List (Transition State (Disturbed State Event) Output)}
    (run : (machine.undefinedUnless Fits).Run start trace final)
    (fits : ∀ transition ∈ trace, Fits transition.before transition.event.event) :
    machine.Run start (trace.map Transition.undisturbed) final := by
  induction run with
  | refl => exact .refl
  | @step trace state input outputs next prior admitted stepped ih =>
      have earlier := ih fun transition member => fits transition (List.mem_append_left _ member)
      have last : Fits state input.event :=
        fits _ (List.mem_append_right _ List.mem_cons_self)
      have taken : machine.step state input.event = some (next, outputs) :=
        (undefinedUnless_step_of_fits last input.aftermath).symm.trans stepped
      rw [List.map_append]
      exact earlier.step admitted taken

end Machine

end CommunicationProtocols.Library
