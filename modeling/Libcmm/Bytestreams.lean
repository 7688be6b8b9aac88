import Libcmm.SessionRuns
import Libcmm.Stream

/-! # Byte streams in both directions

A session refines two connections (`Session.direction_reachable`), so what was shown of a
connection holds of the bytes: whatever writes are cut off and whatever csockets fail, each
application reads the beginning of the byte stream that the other one has sent
(`Session.streams_in_order`).
-/

namespace Libcmm

open Lib

/-- A promise of the applications only. -/
def OfApplications (promise : Connection → ConnectionEvent → Prop) : Prop :=
  ∀ connection event, event.byApplication = false → promise connection event

/-- What has been written stays so. -/
theorem Written.mono {outward inward laterOutward laterInward : Connection} {message : WireMessage}
    (written : Written outward inward message) (outwards : Connection.Records outward laterOutward)
    (inwards : Connection.Records inward laterInward) : Written laterOutward laterInward message :=
  ⟨fun carrying taken => outwards.wire (written.irob carrying taken),
    fun id content => outwards.checks (written.check id content),
    fun id request seqno nextChunk content =>
      inwards.requests (written.request id request seqno nextChunk content)⟩

/-- The buffer an event sends from an endpoint. -/
def SessionEvent.buffer (side : Bool) : SessionEvent → List Byte
  | .openIrob at' _ _ data _ => if at' = side then data else []
  | _ => []

namespace Session

variable {platform : Platform} {session after : Session} {side : Bool} {csock : CSocketId}

/-! ### What the threads do -/

/-- Both directions go on without the applications, and the pipes stay as they are. -/
structure Advances (session after : Session) : Prop where
  leads : ∀ query, Connection.internally.Leads (session.direction query) (after.direction query)
  bytes : after.bytes = session.bytes
  writable : after.writable = session.writable

namespace Advances

theorem refl (session : Session) : Advances session session := ⟨fun _ => .refl _, rfl, rfl⟩

theorem setDirection {connection : Connection}
    (leads : Connection.internally.Leads (session.direction side) connection) :
    Advances session (session.setDirection side connection) := by
  refine ⟨fun query => ?_, rfl, rfl⟩
  change Connection.internally.Leads _ (Function.update session.direction side connection query)
  by_cases same : query = side
  · rw [same, Function.update_self]
    exact leads
  · rw [Function.update_of_ne same]
    exact .refl _

end Advances

/-- A function of a sender thread goes on with its direction, and what it is going to write is
recorded. -/
structure Prepares (session : Session) (side : Bool) (built : Session × Option Composite) :
    Prop where
  advances : Advances session built.1
  written : ∀ composite ∈ built.2, ∀ message ∈ composite.messages,
    Written (built.1.direction side) (built.1.direction (!side)) message

namespace Prepares

/-- A function that works on the IROBs of its endpoint. -/
theorem of_builds {made : Connection × Option Composite}
    (builds : Connection.Builds (session.direction side) made) :
    Prepares session side (session.setDirection side made.1, made.2) := by
  refine ⟨.setDirection builds.leads, fun composite given message member => ?_⟩
  have own : (session.setDirection side made.1).direction side = made.1 := Function.update_self ..
  rw [own]
  exact builds.written composite given _ message member

/-- A write without an IROB in it. -/
theorem control (session : Session) (side : Bool) {composite : Composite}
    (control : ∀ message ∈ composite.messages, ∀ outward inward, Written outward inward message) :
    Prepares session side (session, some composite) := by
  refine ⟨.refl session, fun other given message member => ?_⟩
  cases given
  exact control message member _ _

end Prepares

/-- The IROBs a thread works on are in range, and the outgoing ones are well formed. -/
def Orderly (session : Session) : Prop :=
  ∀ side, ∀ id ∈ (session.direction side).opened.map (·.id),
    (session.direction side).outgoing.WellFormed ∧ id.InRange

theorem build_prepares (orderly : session.Orderly) {work : SenderWork}
    (scheduled : session.Scheduled side work) (fits : session.Fits platform side csock work)
    {built : Session × Option Composite} (building : session.build side csock work = some built) :
    Prepares session side built := by
  cases work with
  | beginIrob id whole =>
      obtain ⟨made, making, rfl⟩ := Option.map_eq_some_iff.mp building
      obtain ⟨wf, inRange⟩ := orderly side id scheduled
      exact .of_builds (.begin wf inRange making)
  | irobChunk id chunksize waitingAckIrob qdelay =>
      obtain ⟨made, making, rfl⟩ := Option.map_eq_some_iff.mp building
      obtain ⟨wf, inRange⟩ := orderly side id scheduled.1
      exact .of_builds (.chunk wf inRange making)
  | endIrob id =>
      obtain ⟨made, making, rfl⟩ := Option.map_eq_some_iff.mp building
      obtain ⟨wf, inRange⟩ := orderly side id scheduled.1
      exact .of_builds (.finish wf inRange scheduled.2 making)
  | sendDataCheck id =>
      obtain ⟨made, making, rfl⟩ := Option.map_eq_some_iff.mp building
      obtain ⟨wf, inRange⟩ := orderly side id scheduled
      refine .of_builds (.dataCheck wf inRange scheduled ?_ making)
      exact fun composite given => (fits _ building composite given).1
  | resendRequest id request =>
      cases building
      have leads := Connection.leads_buildRequest scheduled
      refine ⟨.setDirection leads, fun composite given message member => ?_⟩
      have own : (session.setDirection (!side)
          ((session.direction (!side)).buildRequest id request).1).direction (!side) =
          ((session.direction (!side)).buildRequest id request).1 := Function.update_self ..
      rw [own]
      exact Connection.written_request _ request composite given _ message member
  | sendAcks id ackedIrobs srvTime qdelay =>
      cases building
      refine .control session side fun message member outward inward => ?_
      cases List.mem_singleton.mp member
      exact Connection.written_ack
  | newInterface iface | downInterface iface | goodbye =>
      cases building
      refine .control session side fun message member outward inward => ?_
      cases List.mem_singleton.mp member
      exact ⟨nofun, nofun, nofun⟩

/-- Acknowledgments one after the other. -/
theorem leads_acks {ids : List IrobId} {connection later : Connection}
    (acked : ids.foldlM Connection.ackReceived connection = some later) :
    Connection.internally.Leads connection later := by
  induction ids generalizing connection with
  | nil =>
      cases acked
      exact .refl _
  | cons id rest ih =>
      obtain ⟨next, first, others⟩ := Option.bind_eq_some_iff.mp acked
      exact (Connection.leads_of_internal (.ack id) rfl trivial first).trans (ih others)

/-- The handler of a message that was written goes on with one of the directions. -/
theorem handle_advances {message : WireMessage}
    (written : Written (session.direction (!side)) (session.direction side) message)
    {handled : Session × Bool} (handling : session.handle side message = some handled) :
    Advances session handled.1 := by
  unfold Session.handle at handling
  split at handling
  · next carrying about =>
      obtain ⟨result, receiving, rfl⟩ := Option.map_eq_some_iff.mp handling
      apply Advances.setDirection
      apply Connection.leads_of_internal (.arrive carrying) rfl (written.irob carrying about)
      change ((session.direction (!side)).receiver.receive carrying).map _ = _
      rw [receiving]
      rfl
  · split at handling
    · next id content =>
        cases handling
        exact .setDirection (Connection.leads_of_internal (.dataCheck id) rfl
          (written.check id content) rfl)
    · next id request seqno nextChunk content =>
        obtain ⟨next, resending, rfl⟩ := Option.map_eq_some_iff.mp handling
        exact .setDirection (Connection.leads_of_internal
          (.resendRequest ⟨id, request, seqno.toNat, nextChunk⟩) rfl
          (written.request id request seqno nextChunk content) resending)
    · obtain ⟨next, acking, rfl⟩ := Option.map_eq_some_iff.mp handling
      exact .setDirection (leads_acks acking)
    · cases handling
      exact .refl session

/-! ### The invariant -/

/-- Only what was written is under way. -/
def Carried (platform : Platform) (session : Session) : Prop :=
  ∀ csock side, ∃ messages,
    platform.Carries (session.bytes csock side) (session.writable csock (!side)) messages ∧
    ∀ message ∈ messages, Written (session.direction (!side)) (session.direction side) message

namespace Carried

theorem initial (platform : Platform) : Carried platform initial :=
  fun _ _ => ⟨[], .nil platform _, nofun⟩

/-- The pipes stay as they are, and more is recorded. -/
theorem records (carried : Carried platform session)
    (records : ∀ query, Connection.Records (session.direction query) (after.direction query))
    (bytes : after.bytes = session.bytes) (writable : after.writable = session.writable) :
    Carried platform after := by
  intro other query
  obtain ⟨messages, carries, written⟩ := carried other query
  refine ⟨messages, ?_, fun message member =>
    (written message member).mono (records (!query)) (records query)⟩
  rw [bytes, writable]
  exact carries

theorem advance (carried : Carried platform session) (advances : Advances session after) :
    Carried platform after :=
  carried.records (fun query => Connection.records_of_leads (advances.leads query)) advances.bytes
    advances.writable

/-- The bytes of one csocket in one direction change, or who writes there. -/
theorem setPipe (carried : Carried platform session) (csock : CSocketId) (side : Bool)
    (others : ∀ other query, ¬(other = csock ∧ query = side) →
      after.bytes other query = session.bytes other query ∧
        after.writable other (!query) = session.writable other (!query))
    (same : after.direction = session.direction)
    (here : ∃ messages, platform.Carries (after.bytes csock side) (after.writable csock (!side))
      messages ∧
      ∀ message ∈ messages, Written (session.direction (!side)) (session.direction side) message) :
    Carried platform after := by
  intro other query
  rw [same]
  by_cases it : other = csock ∧ query = side
  · rw [it.1, it.2]
    exact here
  · rw [(others other query it).1, (others other query it).2]
    exact carried other query

/-- A write. -/
theorem put (carried : Carried platform session) (writes : session.writable csock side = true)
    {bytes : List Byte} {messages : List WireMessage} (reads : platform.Reads bytes messages)
    (written : ∀ message ∈ messages, Written (session.direction side) (session.direction (!side)) message)
    (accepted : Nat) : Carried platform (session.put csock side bytes accepted) := by
  obtain ⟨before, carries, known⟩ := carried csock (!side)
  rw [Bool.not_not] at carries known
  rw [writes] at carries
  apply carried.setPipe csock (!side)
  · intro other query elsewhere
    simp only [Session.put, setBytes]
    by_cases here : other = csock
    · subst here
      have different : query ≠ !side := fun same => elsewhere ⟨rfl, same⟩
      have writer : (!query) ≠ side := fun same => different (by rw [← same, Bool.not_not])
      rw [Function.update_self, Function.update_self, Function.update_of_ne different,
        Function.update_of_ne writer]
      exact ⟨rfl, rfl⟩
    · rw [Function.update_of_ne here, Function.update_of_ne here]
      exact ⟨rfl, rfl⟩
  · rfl
  · refine ⟨before ++ messages, ?_, fun message member => ?_⟩
    · simp only [Session.put, setBytes, Function.update_self, Bool.not_not]
      by_cases full : bytes.length ≤ accepted
      · rw [List.take_of_length_le full, decide_eq_true full]
        exact carries.write reads
      · rw [decide_eq_false full]
        exact carries.cut reads accepted
    · rw [Bool.not_not]
      exact (List.mem_append.mp member).elim (known message) (written message)

/-- A message is taken off the bytes. -/
theorem take (carried : Carried platform session) {message : WireMessage} {later : List Byte}
    (taken : platform.receiveOne (session.bytes csock side) = .ok (message, later)) :
    Carried platform (session.setBytes csock side later) := by
  obtain ⟨messages, carries, written⟩ := carried csock side
  obtain ⟨others, rfl, remaining⟩ := carries.receiveOne taken
  apply carried.setPipe csock side
  · intro other query elsewhere
    simp only [setBytes]
    by_cases here : other = csock
    · subst here
      rw [Function.update_self, Function.update_of_ne fun same => elsewhere ⟨rfl, same⟩]
      exact ⟨rfl, trivial⟩
    · rw [Function.update_of_ne here]
      exact ⟨rfl, trivial⟩
  · rfl
  · refine ⟨others, ?_, fun other member => written other (List.mem_cons_of_mem _ member)⟩
    simp only [setBytes, Function.update_self]
    exact remaining

/-- A csocket is gone. -/
theorem close (carried : Carried platform session) (csock : CSocketId) :
    Carried platform (session.close csock) := by
  intro other query
  simp only [Session.close]
  by_cases here : other = csock
  · rw [here, Function.update_self]
    exact ⟨[], .nil platform _, nofun⟩
  · rw [Function.update_of_ne here, Function.update_of_ne here]
    exact carried other query

/-- The message that is read first is one that was written. -/
theorem first (carried : Carried platform session) {message : WireMessage} {later : List Byte}
    (taken : platform.receiveOne (session.bytes csock side) = .ok (message, later)) :
    Written (session.direction (!side)) (session.direction side) message := by
  obtain ⟨messages, carries, written⟩ := carried csock side
  obtain ⟨others, rfl, -⟩ := carries.receiveOne taken
  exact written message List.mem_cons_self

end Carried

/-- What the threads do, and what becomes of a csocket, goes on with the directions. -/
theorem step_internal (carried : Carried platform session) (orderly : session.Orderly)
    {event : SessionEvent} (permitted : (machine platform).permitted session event)
    (own : appEvent event = none) (moved : session.step platform event = some after) :
    Carried platform after ∧
      ∀ query, Connection.internally.Leads (session.direction query) (after.direction query) := by
  cases event with
  | openIrob side id deps data sendLabels | call side id calling | recv side len flags => cases own
  | write side csock work accepted =>
      simp only [Session.step] at moved
      split_ifs at moved with writes
      · obtain ⟨⟨built, made⟩, building, rfl⟩ := Option.map_eq_some_iff.mp moved
        have prepares := build_prepares orderly permitted.1 permitted.2 building
        have advanced := carried.advance prepares.advances
        cases made with
        | none => exact ⟨advanced, prepares.advances.leads⟩
        | some composite =>
            obtain ⟨inRange, fits⟩ := permitted.2 _ building composite rfl
            refine ⟨?_, prepares.advances.leads⟩
            apply advanced.put _ (Platform.reads_written inRange fits)
              (prepares.written composite rfl) accepted
            rw [prepares.advances.writable]
            exact writes
      · cases moved
        exact ⟨carried, fun _ => .refl _⟩
  | receive side csock =>
      simp only [Session.step] at moved
      split at moved
      · cases moved
        exact ⟨carried, fun _ => .refl _⟩
      · next message later taken =>
          obtain ⟨handled, handling, rfl⟩ := Option.map_eq_some_iff.mp moved
          have advances := handle_advances (carried.first taken) handling
          have advanced := carried.advance advances
          split_ifs
          · exact ⟨advanced.close csock, advances.leads⟩
          · exact ⟨advanced.take (advances.bytes ▸ taken), advances.leads⟩
  | ackHeader side csock =>
      simp only [Session.step] at moved
      split at moved
      · split_ifs at moved with enough
        · obtain ⟨next, acking, rfl⟩ := Option.map_eq_some_iff.mp moved
          have advances : Advances session (session.setDirection side next) :=
            .setDirection (Connection.leads_of_internal (.ack _) rfl trivial acking)
          exact ⟨carried.advance advances, advances.leads⟩
        · cases moved
          exact ⟨carried, fun _ => .refl _⟩
      · cases moved
        exact ⟨carried, fun _ => .refl _⟩
  | fail csock =>
      cases moved
      exact ⟨carried.close csock, fun _ => .refl _⟩

/-- What an application does is one event of a direction. -/
theorem step_app {event : SessionEvent} {act : Bool × ConnectionEvent}
    (permitted : (machine platform).permitted session event) (given : appEvent event = some act)
    (moved : session.step platform event = some after) :
    Connection.machine.permitted (session.direction act.1) act.2 ∧
      ∃ next, (session.direction act.1).step act.2 = some next ∧
        after = session.setDirection act.1 next := by
  cases event with
  | openIrob side id deps data sendLabels =>
      cases given
      obtain ⟨next, stepped, rfl⟩ := Option.map_eq_some_iff.mp moved
      exact ⟨permitted, next, stepped, rfl⟩
  | call side id calling =>
      cases given
      obtain ⟨next, stepped, rfl⟩ := Option.map_eq_some_iff.mp moved
      exact ⟨permitted.2, next, stepped, rfl⟩
  | recv side len flags =>
      cases given
      obtain ⟨next, stepped, rfl⟩ := Option.map_eq_some_iff.mp moved
      exact ⟨trivial, next, stepped, rfl⟩
  | write side csock work accepted | receive side csock | ackHeader side csock | fail csock =>
      cases given

/-! ### The refinement -/

variable {promise : Connection → ConnectionEvent → Prop}

theorem orderly_of_reachable
    (reached : ∀ query, (Connection.machine.restrict promise).Reachable (session.direction query)) :
    session.Orderly := by
  intro side id known
  obtain ⟨contents, agrees⟩ := Connection.agrees_of_reachable (reached side).of_restrict
  exact ⟨agrees.wf, agrees.openedRange known⟩

/-- What the application does in one direction leaves the other one alone. -/
theorem app_directions {act : Bool × ConnectionEvent} {next : Connection}
    (stepped : (session.direction act.1).step act.2 = some next) :
    ∀ query, Connection.Records (session.direction query)
      ((session.setDirection act.1 next).direction query) := by
  intro query
  change Connection.Records _ (Function.update session.direction act.1 next query)
  by_cases same : query = act.1
  · rw [same, Function.update_self]
    exact Connection.step_records stepped
  · rw [Function.update_of_ne same]
    exact .refl _

/-- What is under way was written, and both directions are in states that connections
reach. -/
theorem carried_of_reachable (ofApplications : OfApplications promise)
    (reached : ((machine platform).restrict (Keeps promise)).Reachable session) :
    Carried platform session ∧
      ∀ side, (Connection.machine.restrict promise).Reachable (session.direction side) := by
  apply reached.induct
  · rintro first rfl
    exact ⟨.initial platform, fun _ => .initial rfl⟩
  · rintro before after event - ⟨carried, directions⟩ ⟨permitted, kept⟩ moved
    cases given : appEvent event with
    | none =>
        obtain ⟨next, leads⟩ :=
          step_internal carried (orderly_of_reachable directions) permitted given moved
        refine ⟨next, fun side => ((leads side).weaken ?_).reachable (directions side)⟩
        exact fun connection event own => ofApplications connection event own
    | some act =>
        obtain ⟨allowed, next, stepped, rfl⟩ := step_app permitted given moved
        refine ⟨carried.records (app_directions stepped) rfl rfl, fun side => ?_⟩
        change (Connection.machine.restrict promise).Reachable
          (Function.update before.direction act.1 next side)
        by_cases same : side = act.1
        · rw [same, Function.update_self]
          exact .step (directions act.1) ⟨allowed, kept act given⟩ stepped
        · rw [Function.update_of_ne same]
          exact directions side

/-- **Refinement.** Whatever was cut off, lost with a csocket or read in part, and whatever
the applications promise, each direction of a session is in a state that a connection reaches
whose applications keep that promise. -/
theorem direction_reachable (platform : Platform) (ofApplications : OfApplications promise)
    (reached : ((machine platform).restrict (Keeps promise)).Reachable session) (side : Bool) :
    (Connection.machine.restrict promise).Reachable (session.direction side) :=
  (carried_of_reachable ofApplications reached).2 side

/-! ### Ordered byte streams -/

theorem streams_ofApplications : OfApplications Connection.Streams := by
  intro connection event own
  cases event with
  | openIrob id deps data sendLabels => cases own
  | recv len flags => cases own
  | call id calling => cases calling <;> cases own <;> rfl
  | _ => trivial

/-- Only a buffer that is sent adds to the bytes sent. -/
theorem sentBytes_step (directions : ∀ side,
      (Connection.machine.restrict Connection.Streams).Reachable (session.direction side))
    (carried : Carried platform session) {event : SessionEvent}
    (permitted : (machine platform).permitted session event)
    (kept : session.Keeps Connection.Streams event)
    (moved : session.step platform event = some after) (side : Bool) :
    (after.direction side).sentBytes =
      (session.direction side).sentBytes ++ event.buffer side := by
  cases given : appEvent event with
  | none =>
      obtain ⟨-, leads⟩ := step_internal carried (orderly_of_reachable directions) permitted given moved
      have none' : event.buffer side = [] := by
        cases event <;> first | rfl | cases given
      rw [none', List.append_nil, Connection.sentBytes, Connection.opened_of_leads (leads side)]
      rfl
  | some act =>
      obtain ⟨allowed, next, stepped, rfl⟩ := step_app permitted given moved
      obtain ⟨contents, streaming⟩ := Connection.streaming_of_reachable (directions act.1)
      obtain ⟨later, -, grown⟩ := streaming.step ⟨allowed, kept act given⟩ stepped
      change (Function.update session.direction act.1 next side).sentBytes = _
      have sent : event.buffer side = if side = act.1 then act.2.buffer else [] := by
        cases event <;> cases given
        · exact if_congr eq_comm rfl rfl
        · exact (ite_self _).symm
        · exact (ite_self _).symm
      rw [sent]
      by_cases same : side = act.1
      · rw [same, Function.update_self, if_pos rfl]
        exact grown
      · rw [Function.update_of_ne same, if_neg same, List.append_nil]

/-- **Ordered byte streams.** In every session of applications that send buffers anonymously and
read without peeking, and in both directions: the bytes that `recv` has returned are the
beginning of the concatenation of the buffers sent. A message about an IROB that is taken
off the bytes of a csocket is handled without an exception. -/
theorem streams_in_order (platform : Platform)
    (reached : ((machine platform).restrict (Keeps Connection.Streams)).Reachable session)
    (side : Bool) :
    streamBytes (session.direction side).receiver.history <+: (session.direction side).sentBytes ∧
    (∀ event after, ((machine platform).restrict (Keeps Connection.Streams)).permitted session event →
      session.step platform event = some after → (after.direction side).sentBytes =
        (session.direction side).sentBytes ++ event.buffer side) ∧
    ∀ csock message later carrying,
      platform.receiveOne (session.bytes csock (!side)) = .ok (message, later) →
      message.irobMessage = some carrying → ∃ next, session.handle (!side) message = some (next, false) := by
  obtain ⟨carried, directions⟩ := carried_of_reachable streams_ofApplications reached
  obtain ⟨contents, streaming⟩ := Connection.streaming_of_reachable (directions side)
  refine ⟨streaming.beginning, fun event after permitted moved => ?_,
    fun csock message later carrying taken about => ?_⟩
  · exact sentBytes_step directions carried permitted.1 permitted.2 moved side
  · have written := (carried.first taken).irob carrying about
    rw [Bool.not_not] at written
    obtain ⟨known, conforms⟩ := streaming.agrees.wire carrying written
    obtain ⟨next, verdict, receiving, -, clean⟩ := Receiver.Sound.receive streaming.agrees.receiver
      streaming.agrees.valid (streaming.agrees.openedRange known) conforms
    unfold Session.handle
    rw [about]
    dsimp only
    rw [Bool.not_not, receiving]
    rcases clean with rfl | rfl <;> exact ⟨_, rfl⟩

/-- Both endpoints send, over two csockets. One write is cut off after ten bytes, the other one
is read message by message, the buffer is read and acknowledged, and a csocket fails. -/
def exchangedEvents : List SessionEvent :=
  [.openIrob false 0 [] [1, 2] 0, .openIrob true 0 [] [9] 0, .write true 0 (.beginIrob 0 false) 10,
    .write false 0 (.beginIrob 0 true) 1000, .receive true 0, .receive false 0, .receive true 0,
    .receive true 0, .recv true 4 ⟨false, false⟩, .write true 1 (.sendAcks 0 [] ⟨0, 0⟩ ⟨0, 0⟩) 64,
    .receive false 1, .fail 0]

set_option maxRecDepth 2000 in
theorem exchanged_run :
    (((machine .lp64).restrict (Keeps Connection.Streams)).run initial exchangedEvents).any
      (fun session => decide (streamBytes (session.direction false).receiver.history = [1, 2]) &&
        ((session.direction false).outgoing.find 0).isNone) = true := by
  decide +kernel

theorem exchanged : ∃ session : Session,
    ((machine .lp64).restrict (Keeps Connection.Streams)).Reachable session ∧
      streamBytes (session.direction false).receiver.history = [1, 2] ∧
      ((session.direction false).outgoing.find 0).isNone = true := by
  obtain ⟨session, ran, holds⟩ := (Option.any_eq_true _ _).mp exchanged_run
  obtain ⟨received, acknowledged⟩ := Bool.and_eq_true_iff.mp holds
  exact ⟨session, .run (.initial rfl) ran, of_decide_eq_true received, acknowledged⟩

theorem direction_reachable_exchanged : ∃ session : Session,
    (Connection.machine.restrict Connection.Streams).Reachable (session.direction false) ∧
      streamBytes (session.direction false).receiver.history = [1, 2] := by
  obtain ⟨session, reached, received, -⟩ := exchanged
  exact ⟨session, direction_reachable .lp64 streams_ofApplications reached false, received⟩

theorem streams_in_order_exchanged : ∃ session : Session,
    streamBytes (session.direction false).receiver.history = [1, 2] ∧
      [1, 2] <+: (session.direction false).sentBytes := by
  obtain ⟨session, reached, received, -⟩ := exchanged
  exact ⟨session, received, received ▸ (streams_in_order .lp64 reached false).1⟩

end Session

end Libcmm
