import Libcmm.Lib.Transition

/-! # Several steps at once

A step of one machine may be several steps of another, or none. `Machine.Leads` is a run of
permitted steps from one state to another. A machine all of whose steps are such runs of
another one stays in what the other one reaches (`Machine.Leads.reachable`).
-/

namespace Libcmm.Lib.Machine

variable {σ ε τ δ : Type*} {machine : Machine σ ε}

/-- A run of permitted steps, none of which traps. -/
inductive Leads (machine : Machine σ ε) : σ → σ → Prop where
  | refl (state : σ) : Leads machine state state
  | tail {first before after : σ} {event : ε} : Leads machine first before →
      machine.permitted before event → machine.step before event = some after →
        Leads machine first after

namespace Leads

variable {first middle last : σ}

theorem one {event : ε} (permitted : machine.permitted first event)
    (moved : machine.step first event = some last) : machine.Leads first last :=
  .tail (.refl first) permitted moved

theorem trans (left : machine.Leads first middle) (right : machine.Leads middle last) :
    machine.Leads first last := by
  induction right with
  | refl => exact left
  | tail _ permitted moved ih => exact .tail ih permitted moved

/-- A run from a reachable state ends in one. -/
theorem reachable (leads : machine.Leads first last) (reached : machine.Reachable first) :
    machine.Reachable last := by
  induction leads with
  | refl => exact reached
  | tail _ permitted moved ih => exact .step ih permitted moved

/-- What every step keeps, a run keeps. -/
theorem induct {motive : σ → Prop} (leads : machine.Leads first last)
    (keep : ∀ before after event, machine.permitted before event →
      machine.step before event = some after → motive before → motive after)
    (start : motive first) : motive last := by
  induction leads with
  | refl => exact start
  | tail _ permitted moved ih => exact keep _ _ _ permitted moved ih

/-- A run that keeps one promise keeps one that asks for less. -/
theorem weaken {more less : σ → ε → Prop} (leads : (machine.restrict more).Leads first last)
    (weaker : ∀ state event, more state event → less state event) :
    (machine.restrict less).Leads first last := by
  induction leads with
  | refl => exact .refl _
  | tail _ permitted moved ih => exact .tail ih ⟨permitted.1, weaker _ _ permitted.2⟩ moved

end Leads

end Libcmm.Lib.Machine
