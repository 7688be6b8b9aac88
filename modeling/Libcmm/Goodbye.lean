import Libcmm.Shutdown

/-! # At most one GOODBYE

Two flags guard the GOODBYE of an endpoint. `sending_goodbye` is set before the lock is
given up for the write and taken back only when that write fails; `goodbye_sent` is set
after a full write, and by the handlers that give up a connection. The exclusion rests on
the first alone: while it is set a thread is in its write or the GOODBYE is out.
-/

namespace Libcmm

open Lib

namespace Endpoint

variable {endpoint after : Endpoint} {event : EndpointEvent} {csock : CSocketId}

/-- At most one thread writes a GOODBYE, and none does after one was written in full. -/
structure OneGoodbye (endpoint : Endpoint) : Prop where
  exclusive : ∀ first second, endpoint.tasks first = .goodbye → endpoint.tasks second = .goodbye →
    first = second
  sending : ∀ csock, endpoint.tasks csock = .goodbye → endpoint.sendingGoodbye = true
  written : (∃ record ∈ endpoint.history, record.isGoodbye = true) →
    endpoint.sendingGoodbye = true ∧ ∀ csock, endpoint.tasks csock ≠ .goodbye
  once : endpoint.history.countP LoopRecord.isGoodbye ≤ 1

namespace OneGoodbye

theorem empty : OneGoodbye .empty := by
  refine ⟨fun _ _ writing => ?_, fun _ writing => ?_, ?_, Nat.zero_le _⟩
  · cases writing
  · cases writing
  · rintro ⟨record, member, -⟩
    cases member

/-- Where no thread starts to write a GOODBYE, the flag stays, and none is recorded. -/
theorem keep (one : endpoint.OneGoodbye) (sending : after.sendingGoodbye = endpoint.sendingGoodbye)
    (tasks : ∀ csock, after.tasks csock = .goodbye → endpoint.tasks csock = .goodbye)
    (records : List LoopRecord) (history : after.history = records ++ endpoint.history)
    (silent : ∀ record ∈ records, record.isGoodbye = false) : after.OneGoodbye := by
  refine ⟨?_, ?_, ?_, ?_⟩
  · exact fun first second left right =>
      one.exclusive first second (tasks first left) (tasks second right)
  · intro csock writing
    rw [sending]
    exact one.sending csock (tasks csock writing)
  · rintro ⟨record, member, goodbye⟩
    rw [history] at member
    rcases List.mem_append.mp member with new | old
    · cases (silent record new).symm.trans goodbye
    · obtain ⟨flag, nobody⟩ := one.written ⟨record, old, goodbye⟩
      exact ⟨sending.trans flag, fun csock writing => nobody csock (tasks csock writing)⟩
  · have none : records.countP LoopRecord.isGoodbye = 0 := by
      rw [List.countP_eq_zero]
      intro record member
      rw [silent record member]
      exact Bool.false_ne_true
    rw [history, List.countP_append, none, Nat.zero_add]
    exact one.once

/-- A thread that takes up some other task. -/
theorem setTask (one : endpoint.OneGoodbye) (csock : CSocketId) {task : LoopTask}
    (other : task ≠ .goodbye) : (endpoint.setTask csock task).OneGoodbye := by
  refine one.keep rfl (fun query writing => ?_) [] rfl fun _ none => (List.not_mem_nil none).elim
  rw [setTask_tasks] at writing
  split_ifs at writing
  · exact (other writing).elim
  · exact writing

theorem raises (one : endpoint.OneGoodbye) (raises : endpoint.Raises after) : after.OneGoodbye := by
  refine one.keep raises.sending (fun csock writing => ?_) [] raises.history fun _ none =>
    (List.not_mem_nil none).elim
  rw [raises.tasks] at writing
  exact writing

/-- Setting `sending_goodbye`. -/
theorem decide (one : endpoint.OneGoodbye) (unsending : endpoint.sendingGoodbye = false) :
    OneGoodbye { endpoint.setTask csock .goodbye with
      sendingGoodbye := true, history := .decided csock :: endpoint.history } := by
  have nobody : ∀ other, endpoint.tasks other ≠ .goodbye := by
    intro other writing
    cases unsending.symm.trans (one.sending other writing)
  have unwritten : ¬∃ record ∈ endpoint.history, record.isGoodbye = true := by
    intro written
    cases unsending.symm.trans (one.written written).1
  have only : ∀ other, (endpoint.setTask csock .goodbye).tasks other = .goodbye → other = csock := by
    intro other writing
    rw [setTask_tasks] at writing
    split_ifs at writing with same
    · exact same
    · exact (nobody other writing).elim
  refine ⟨fun first second left right => ?_, fun _ _ => rfl, ?_, ?_⟩
  · exact (only first left).trans (only second right).symm
  · rintro ⟨record, member, goodbye⟩
    rcases List.mem_cons.mp member with rfl | old
    · cases goodbye
    · exact (unwritten ⟨record, old, goodbye⟩).elim
  · rw [List.countP_cons_of_neg (by exact Bool.false_ne_true)]
    exact one.once

/-- A full write: the thread was the only one, and nobody follows. -/
theorem goodbyeWritten (one : endpoint.OneGoodbye) (writing : endpoint.tasks csock = .goodbye) :
    OneGoodbye { endpoint.setTask csock .looping with
      goodbyeSent := true, history := .goodbyeWritten csock :: endpoint.history } := by
  have nobody : ∀ other, (endpoint.setTask csock .looping).tasks other ≠ .goodbye := by
    intro other still
    rw [setTask_tasks] at still
    split_ifs at still with same
    exact same (one.exclusive other csock still writing)
  have first : endpoint.history.countP LoopRecord.isGoodbye = 0 := by
    rw [List.countP_eq_zero]
    intro record member goodbye
    exact (one.written ⟨record, member, goodbye⟩).2 csock writing
  refine ⟨fun other _ still => (nobody other still).elim, fun _ _ => one.sending csock writing,
    fun _ => ⟨one.sending csock writing, nobody⟩, ?_⟩
  rw [List.countP_cons_of_pos rfl, first]

/-- A failed write: the flag is taken back, and nothing was written before. -/
theorem goodbyeFailed (one : endpoint.OneGoodbye) (writing : endpoint.tasks csock = .goodbye) :
    OneGoodbye { endpoint.setTask csock (.throwing false) with sendingGoodbye := false } := by
  have nobody : ∀ other, (endpoint.setTask csock (.throwing false)).tasks other ≠ .goodbye := by
    intro other still
    rw [setTask_tasks] at still
    split_ifs at still with same
    exact same (one.exclusive other csock still writing)
  refine ⟨fun other _ still => (nobody other still).elim, fun other still => (nobody other still).elim,
    fun written => ?_, one.once⟩
  exact ((one.written written).2 csock writing).elim

/-- Every event keeps it. -/
theorem step (one : endpoint.OneGoodbye) (moved : endpoint.step event = some after) :
    after.OneGoodbye := by
  cases step_move moved with
  | outgoing records stepped entered recorded =>
      have silent : ∀ record ∈ records, record.isGoodbye = false := by
        intro record member
        obtain ⟨⟨id, rfl⟩, -⟩ := recorded record member
        rfl
      exact one.keep rfl (fun _ writing => writing) records rfl silent
  | raise raises => exact one.raises raises
  | decide looping shutting nothing unsent unsending => exact one.decide unsending
  | goodbyeWritten writing => exact one.goodbyeWritten writing
  | goodbyeFailed writing => exact one.goodbyeFailed writing
  | startWrite looping found => exact one.setTask _ nofun
  | @wrote csock message id outcome writing task stops =>
      have set : (endpoint.setTask csock task).OneGoodbye := by
        apply one.setTask
        rcases stops with rfl | rfl <;> exact nofun
      have silent : ∀ record ∈ [LoopRecord.wrote csock message id], record.isGoodbye = false := by
        intro record member
        rw [List.mem_singleton.mp member]
        rfl
      exact set.keep rfl (fun _ writing => writing) [.wrote csock message id] rfl silent
  | stop raises away stops =>
      apply (one.raises raises).setTask
      rcases stops with rfl | ⟨fatal, rfl⟩ <;> exact nofun

end OneGoodbye

theorem oneGoodbye_of_reachable (reached : machine.Reachable endpoint) : endpoint.OneGoodbye := by
  apply reached.induct
  · intro first start
    rw [show first = Endpoint.empty from start]
    exact .empty
  · intro before next event _ one _ moved
    exact one.step moved

/-- What is empty when a thread finds nothing to send. -/
theorem nothingToSend_iff : endpoint.nothingToSend csock = true ↔
    endpoint.outgoing.irobs.isEmpty = true ∧ endpoint.downLocalIfaces = [] ∧
    (endpoint.csockets csock).waitingAcks.tasks = [] ∧ endpoint.multisocket.waitingAcks.tasks = [] ∧
    (endpoint.csockets csock).resendRequests.tasks = [] ∧
    endpoint.multisocket.resendRequests.tasks = [] ∧
    (endpoint.csockets csock).waitingDataChecks.tasks = [] ∧
    endpoint.multisocket.waitingDataChecks.tasks = [] := by
  unfold nothingToSend
  simp only [Bool.and_eq_true, List.isEmpty_iff]
  tauto

/-- At most one GOODBYE: however the sender threads interleave and whatever their writes
return, at most one GOODBYE is written in full, at most one thread is between setting
`sending_goodbye` and the end of its write, and every attempt starts when the multisocket
is shutting down with no IROB pending and with no acknowledgment, resend request or data
check waiting for the csocket or the multisocket. -/
theorem one_goodbye (reached : machine.Reachable endpoint) :
    endpoint.history.countP LoopRecord.isGoodbye ≤ 1 ∧
    (∀ first second, endpoint.tasks first = .goodbye → endpoint.tasks second = .goodbye →
      first = second) ∧
    ∀ event after csock, endpoint.step event = some after → endpoint.tasks csock ≠ .goodbye →
      after.tasks csock = .goodbye →
        after.shuttingDown = true ∧ after.outgoing.irobs.isEmpty = true ∧
        (after.csockets csock).waitingAcks.tasks = [] ∧ after.multisocket.waitingAcks.tasks = [] ∧
        (after.csockets csock).resendRequests.tasks = [] ∧
        after.multisocket.resendRequests.tasks = [] ∧
        (after.csockets csock).waitingDataChecks.tasks = [] ∧
        after.multisocket.waitingDataChecks.tasks = [] := by
  have one := oneGoodbye_of_reachable reached
  refine ⟨one.once, one.exclusive, fun event after csock moved away starts => ?_⟩
  have other : ∀ (raised : Endpoint) (thread : CSocketId) (task : LoopTask),
      raised.tasks = endpoint.tasks → task ≠ .goodbye →
        (raised.setTask thread task).tasks csock ≠ .goodbye := by
    intro raised thread task same different still
    rw [setTask_tasks, same] at still
    split_ifs at still
    · exact different still
    · exact away still
  cases step_move moved with
  | outgoing records stepped entered recorded => exact (away starts).elim
  | raise raises =>
      rw [raises.tasks] at starts
      exact (away starts).elim
  | @decide thread looping shutting nothing unsent unsending =>
      have same : csock = thread := by
        by_contra different
        rw [setTask_tasks, if_neg different] at starts
        exact away starts
      subst same
      obtain ⟨noIrobs, -, rest⟩ := nothingToSend_iff.mp nothing
      exact ⟨shutting, noIrobs, rest⟩
  | goodbyeWritten writing => exact (other endpoint _ .looping rfl nofun starts).elim
  | goodbyeFailed writing => exact (other endpoint _ (.throwing false) rfl nofun starts).elim
  | @startWrite thread message id looping pirob found =>
      exact (other endpoint thread (.writing message id) rfl nofun starts).elim
  | wrote writing stops =>
      refine (other endpoint _ _ rfl ?_ starts).elim
      rcases stops with rfl | rfl <;> exact nofun
  | stop raises _ stops =>
      refine (other _ _ _ raises.tasks ?_ starts).elim
      rcases stops with rfl | ⟨fatal, rfl⟩ <;> exact nofun

/-- The application closes. The first thread fails to write the GOODBYE, and another one
writes it. -/
def retryEvents : List EndpointEvent :=
  [.goodbye false [] true, .shutdownTest 0, .shutdownTest 1, .goodbyeDone 0 .short,
    .controlException 0 (.passOn (some 1) [] false), .shutdownTest 1, .goodbyeDone 1 .full,
    .shutdownTest 2]

theorem one_goodbye_retried : ∃ endpoint, machine.Reachable endpoint ∧
    endpoint.history = [.goodbyeWritten 1, .decided 1, .decided 0] ∧
      endpoint.history.countP LoopRecord.isGoodbye ≤ 1 := by
  have ran : ∃ endpoint, machine.run empty retryEvents = some endpoint ∧
      endpoint.history = [.goodbyeWritten 1, .decided 1, .decided 0] := ⟨_, rfl, rfl⟩
  obtain ⟨endpoint, ran, history⟩ := ran
  have reached := Machine.Reachable.run (.initial rfl) ran
  exact ⟨endpoint, reached, history, (one_goodbye reached).1⟩

end Endpoint

end Libcmm
