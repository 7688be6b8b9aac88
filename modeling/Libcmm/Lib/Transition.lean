import Mathlib.Logic.Basic
import Mathlib.Data.List.Basic

/-! # Event-driven machines

A machine is an executable step function over states and events. A step may trap
(`none`), which ends the run: no state is reached through it. Events may come
from an environment that promises something about the states in which it raises
them; that promise is `permitted`.

`Machine.Reachable` is reachability by permitted events from an initial state,
`Machine.Reachable.induct` the invariant rule, and `Machine.Total` says that no
permitted event traps in a reachable state.
-/

namespace Libcmm.Lib

/-- An executable transition system with an environment promise. -/
structure Machine (σ ε : Type*) where
  initial : σ → Prop
  permitted : σ → ε → Prop
  step : σ → ε → Option σ

namespace Machine

variable {σ ε : Type*} (machine : Machine σ ε)

/-- The states some run of permitted, non-trapping events ends in. -/
inductive Reachable : σ → Prop where
  | initial {state : σ} : machine.initial state → Reachable state
  | step {before after : σ} {event : ε} : Reachable before → machine.permitted before event →
      machine.step before event = some after → Reachable after

/-- No permitted event traps in a reachable state. -/
def Total : Prop :=
  ∀ state event, machine.Reachable state → machine.permitted state event →
    ∃ after, machine.step state event = some after

/-- The same machine in an environment that promises more. -/
def restrict (promise : σ → ε → Prop) : Machine σ ε where
  initial := machine.initial
  permitted state event := machine.permitted state event ∧ promise state event
  step := machine.step

instance {promise : σ → ε → Prop} [∀ state event, Decidable (machine.permitted state event)]
    [∀ state event, Decidable (promise state event)] :
    ∀ state event, Decidable ((machine.restrict promise).permitted state event) :=
  fun _ _ => instDecidableAnd

variable {machine}

/-- What holds initially and is kept by every permitted step holds in every
reachable state. The step obligation may use reachability of the source. -/
theorem Reachable.induct {motive : σ → Prop} {state : σ} (reached : machine.Reachable state)
    (start : ∀ first, machine.initial first → motive first)
    (keep : ∀ before after event, machine.Reachable before → motive before →
      machine.permitted before event → machine.step before event = some after →
        motive after) : motive state := by
  induction reached with
  | initial first => exact start _ first
  | step before permitted moved ih => exact keep _ _ _ before ih permitted moved

/-- A restricted machine reaches nothing new. -/
theorem Reachable.of_restrict {promise : σ → ε → Prop} {state : σ}
    (reached : (machine.restrict promise).Reachable state) : machine.Reachable state := by
  induction reached with
  | initial first => exact .initial first
  | step _ permitted moved ih => exact .step ih permitted.1 moved

/-- What an environment reaches, one that promises less reaches too. -/
theorem Reachable.weaken {more less : σ → ε → Prop} {state : σ}
    (reached : (machine.restrict more).Reachable state)
    (weaker : ∀ state event, more state event → less state event) :
    (machine.restrict less).Reachable state := by
  induction reached with
  | initial first => exact .initial first
  | step _ permitted moved ih => exact .step ih ⟨permitted.1, weaker _ _ permitted.2⟩ moved

/-- The state a list of events leads to, if each is permitted and none traps. -/
def run (machine : Machine σ ε) [∀ state event, Decidable (machine.permitted state event)]
    (state : σ) : List ε → Option σ
  | [] => some state
  | event :: rest =>
      if machine.permitted state event then
        (machine.step state event).bind fun next => machine.run next rest
      else none

/-- Executing a list of events stays inside the reachable states. -/
theorem Reachable.run [∀ state event, Decidable (machine.permitted state event)] {before after : σ}
    {events : List ε} (reached : machine.Reachable before)
    (moved : machine.run before events = some after) : machine.Reachable after := by
  induction events generalizing before with
  | nil =>
      cases moved
      exact reached
  | cons event rest ih =>
      unfold Machine.run at moved
      split_ifs at moved with permitted
      obtain ⟨next, stepped, onward⟩ := Option.bind_eq_some_iff.mp moved
      exact ih (reached.step permitted stepped) onward

end Machine

end Libcmm.Lib
