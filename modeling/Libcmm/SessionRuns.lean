import Libcmm.Agreement
import Libcmm.Lib.Simulation
import Libcmm.Session

/-! # Bytes carry a connection

Every function of a sender thread is a few events of its direction, and its write carries
only messages of these. So what is under way on a csocket is always a part of what the two
connections record as written (`Written`), whatever was cut off or lost, and every message
that a receiver thread takes off its bytes may arrive. In each direction, the session stays
among the states of a connection.
-/

namespace Libcmm

open Lib

/-- The application causes an event. -/
def ConnectionEvent.byApplication : ConnectionEvent → Bool
  | .openIrob _ _ _ _ | .recv _ _ => true
  | .call _ calling => !calling.writes
  | _ => false

/-- A message is one of those that the sender of IROBs in `outward`, which is the receiver
in `inward`, has written. -/
structure Written (outward inward : Connection) (message : WireMessage) : Prop where
  irob : ∀ carrying ∈ message.irobMessage, carrying ∈ outward.wire
  check : ∀ id, message.content = .dataCheck id → id ∈ outward.checks
  request : ∀ id request seqno nextChunk,
    message.content = .resendRequest id request seqno nextChunk →
      ⟨id, request, seqno.toNat, nextChunk⟩ ∈ inward.requests

namespace Connection

open SenderIrob OutgoingIrob

/-- More has been written. -/
structure Records (connection after : Connection) : Prop where
  wire : connection.wire ⊆ after.wire
  checks : connection.checks ⊆ after.checks
  requests : connection.requests ⊆ after.requests

namespace Records

theorem refl (connection : Connection) : Records connection connection :=
  ⟨List.Subset.refl _, List.Subset.refl _, List.Subset.refl _⟩

theorem trans {connection middle after : Connection} (first : Records connection middle)
    (second : Records middle after) : Records connection after :=
  ⟨List.Subset.trans first.wire second.wire, List.Subset.trans first.checks second.checks,
    List.Subset.trans first.requests second.requests⟩

/-- The records do not depend on the rest. -/
theorem of_eq {connection after : Connection} (wire : after.wire = connection.wire)
    (checks : after.checks = connection.checks) (requests : after.requests = connection.requests) :
    Records connection after :=
  ⟨by rw [wire]; exact List.Subset.refl _, by rw [checks]; exact List.Subset.refl _,
    by rw [requests]; exact List.Subset.refl _⟩

end Records

variable {connection after : Connection} {id : IrobId}

theorem withSender_records {act : SenderIrob → Option Connection}
    (moved : connection.withSender id act = some after)
    (records : ∀ psirob next, act psirob = some next → Records connection next) :
    Records connection after := by
  rcases withSender_cases moved with rfl | ⟨pirob, psirob, -, -, acted⟩
  · exact .refl _
  · exact records psirob after acted

/-- Nothing that was written is forgotten. -/
theorem step_records {event : ConnectionEvent} (moved : connection.step event = some after) :
    Records connection after := by
  cases event with
  | openIrob id deps data sendLabels =>
      obtain ⟨inserted, -, storing⟩ := Option.bind_eq_some_iff.mp moved
      obtain ⟨kept, -, rfl⟩ := Option.map_eq_some_iff.mp storing
      exact .of_eq rfl rfl rfl
  | call id calling =>
      apply withSender_records moved
      intro psirob next acted
      obtain ⟨result, -, rfl⟩ := Option.map_eq_some_iff.mp acted
      exact ⟨List.subset_append_right _ _, List.Subset.refl _, List.Subset.refl _⟩
  | sendBegin id =>
      apply withSender_records moved
      intro psirob next acted
      cases acted
      exact ⟨List.subset_cons_self _ _, List.Subset.refl _, List.Subset.refl _⟩
  | sendEnd id =>
      apply withSender_records moved
      intro psirob next acted
      cases acted
      split_ifs
      · exact ⟨List.subset_cons_self _ _, List.Subset.refl _, List.Subset.refl _⟩
      · exact .refl _
  | sendDataCheck id =>
      cases moved
      exact ⟨List.Subset.refl _, List.subset_cons_self _ _, List.Subset.refl _⟩
  | arrive message =>
      obtain ⟨result, -, rfl⟩ := Option.map_eq_some_iff.mp moved
      exact .of_eq rfl rfl rfl
  | recv len flags =>
      obtain ⟨receiver, -, rfl⟩ := Option.map_eq_some_iff.mp moved
      exact .of_eq rfl rfl rfl
  | dataCheck id =>
      cases moved
      unfold dataCheckRequested
      split <;> exact .of_eq rfl rfl rfl
  | sendRequest id request =>
      cases moved
      exact ⟨List.Subset.refl _, List.Subset.refl _, List.subset_append_right _ _⟩
  | resendRequest request =>
      apply withSender_records moved
      intro psirob next acted
      obtain ⟨result, -, rfl⟩ := Option.map_eq_some_iff.mp acted
      exact .of_eq rfl rfl rfl
  | ack id =>
      apply withSender_records moved
      intro psirob next acted
      cases acted
      split_ifs <;> exact .of_eq rfl rfl rfl

/-- A connection in which the applications do nothing. -/
def internally : Machine Connection ConnectionEvent :=
  machine.restrict fun _ event => event.byApplication = false

/-- Only the application opens IROBs. -/
theorem step_opened {event : ConnectionEvent} (own : event.byApplication = false)
    (moved : connection.step event = some after) : after.opened = connection.opened := by
  have act : ∀ {id : IrobId} {act : SenderIrob → Option Connection},
      connection.withSender id act = some after →
      (∀ psirob next, act psirob = some next → next.opened = connection.opened) →
        after.opened = connection.opened := by
    intro id act moved keeps
    rcases withSender_cases moved with rfl | ⟨pirob, psirob, -, -, acted⟩
    · rfl
    · exact keeps psirob after acted
  cases event with
  | openIrob id deps data sendLabels => cases own
  | recv len flags => cases own
  | sendDataCheck id | sendRequest id request =>
      cases moved
      rfl
  | dataCheck id =>
      cases moved
      unfold dataCheckRequested
      split <;> rfl
  | arrive message =>
      obtain ⟨result, -, rfl⟩ := Option.map_eq_some_iff.mp moved
      rfl
  | call id calling | resendRequest request =>
      apply act moved
      intro psirob next acted
      obtain ⟨result, -, rfl⟩ := Option.map_eq_some_iff.mp acted
      rfl
  | sendBegin id =>
      apply act moved
      intro psirob next acted
      cases acted
      rfl
  | sendEnd id | ack id =>
      apply act moved
      intro psirob next acted
      cases acted
      split_ifs <;> rfl

theorem records_of_leads (leads : internally.Leads connection after) :
    Records connection after :=
  leads.induct (fun _ _ _ _ moved records => records.trans (step_records moved)) (.refl _)

theorem opened_of_leads (leads : internally.Leads connection after) :
    after.opened = connection.opened :=
  leads.induct (fun _ _ _ permitted moved same => (step_opened permitted.2 moved).trans same) rfl

/-- An internal event is a run. -/
theorem leads_of_internal (event : ConnectionEvent) (own : event.byApplication = false)
    (permitted : machine.permitted connection event)
    (moved : connection.step event = some after) : internally.Leads connection after :=
  .one ⟨permitted, own⟩ moved

/-- An IROB that was changed is found again. -/
theorem find_store (wf : connection.outgoing.WellFormed) (inRange : id.InRange)
    {pirob : OutgoingIrob} (found : connection.outgoing.find id = some pirob) {changed : SenderIrob}
    (named : changed.id = id) : (connection.store changed).outgoing.find id = some changed.toOutgoing := by
  change (connection.outgoing.update changed.id fun _ => changed.toOutgoing).find id = _
  rw [named]
  exact wf.find_write_self inRange found _

theorem withSender_found {pirob : OutgoingIrob} {psirob : SenderIrob}
    (found : connection.outgoing.find id = some pirob) (same : asSender pirob = some psirob)
    (act : SenderIrob → Option Connection) : connection.withSender id act = act psirob := by
  unfold withSender
  rw [found]
  dsimp only
  rw [same]
  rfl

/-- `get_ready_bytes` is called for an IROB: the chunk that it returned counts as written. -/
theorem leads_getReadyBytes {csock : CSocketId} {requested : Int}
    {pirob : OutgoingIrob} {psirob sent : SenderIrob} {transmission : Transmission}
    (found : connection.outgoing.find id = some pirob) (same : asSender pirob = some psirob)
    (got : psirob.getReadyBytes csock requested = some (sent, transmission)) :
    internally.Leads connection ((connection.store sent).record
      (if transmission.bytes.isEmpty then [] else [psirob.chunkMessage transmission])) := by
  apply leads_of_internal (.call id (.getReadyBytes csock requested)) rfl
  · intro psirob _
    trivial
  · change connection.withSender id _ = _
    rw [withSender_found found same]
    simp only [call, got, Option.map_some]
    split_ifs <;> rfl

/-- The `Begin_IROB` is written. -/
theorem leads_sendBegin (connection : Connection) {pirob : OutgoingIrob}
    {psirob : SenderIrob} (found : connection.outgoing.find id = some pirob)
    (same : asSender pirob = some psirob) :
    internally.Leads connection (connection.record [psirob.beginMessage]) := by
  apply leads_of_internal (.sendBegin id) rfl trivial
  exact withSender_found found same _

/-- The `End_IROB` is written, if there is one. -/
theorem leads_sendEnd (connection : Connection) {pirob : OutgoingIrob}
    {psirob : SenderIrob} (found : connection.outgoing.find id = some pirob)
    (same : asSender pirob = some psirob) :
    internally.Leads connection
      (connection.record (if psirob.ends then [psirob.endMessage] else [])) := by
  apply leads_of_internal (.sendEnd id) rfl trivial
  change connection.withSender id _ = _
  rw [withSender_found found same]
  split_ifs <;> rfl

/-- The last chunk is taken once more; it is written as before. -/
theorem leads_getLastSentChunk (connection : Connection) {csock : CSocketId}
    {psirob : SenderIrob} {probe : Option Transmission} (named : psirob.id = id)
    (found : connection.outgoing.find id = some psirob.toOutgoing)
    (got : psirob.getLastSentChunk csock = some probe) :
    internally.Leads connection
      (connection.record (probe.toList.map psirob.chunkMessage)) := by
  have unchanged : connection.store psirob = connection := by
    have same : connection.outgoing.update psirob.id (fun _ => psirob.toOutgoing) =
        connection.outgoing := IrobLattice.update_same (named ▸ found)
    unfold store
    rw [same]
  apply leads_of_internal (.call id (.getLastSentChunk csock)) rfl
  · intro sender _
    trivial
  · change connection.withSender id _ = _
    rw [withSender_found found (asSender_toOutgoing psirob)]
    simp only [call, got, Option.map_some]
    rw [unchanged]
    rfl

/-- A data check is written. -/
theorem leads_sendDataCheck (connection : Connection)
    (opened : id ∈ connection.opened.map (·.id)) :
    internally.Leads connection { connection with checks := id :: connection.checks } :=
  leads_of_internal (.sendDataCheck id) rfl opened rfl

/-! ### What is written -/

/-- The messages of a write about one IROB, as they are recorded. -/
theorem written_begin (psirob : SenderIrob) {inward : Connection}
    (recorded : psirob.beginMessage ∈ connection.wire) :
    Written connection inward ⟨psirob.sendLabels, .beginIrob psirob.id psirob.deps.toList⟩ := by
  refine ⟨fun carrying taken => ?_, nofun, nofun⟩
  cases taken
  exact recorded

theorem written_chunk (psirob : SenderIrob) {transmission : Transmission} {inward : Connection}
    {sendLabels : Int} (recorded : psirob.chunkMessage transmission ∈ connection.wire) :
    Written connection inward (Composite.chunkMessage sendLabels psirob.id transmission) := by
  refine ⟨fun carrying taken => ?_, nofun, nofun⟩
  cases taken
  exact recorded

theorem written_end (psirob : SenderIrob) {inward : Connection} {sendLabels : Int}
    (recorded : psirob.endMessage ∈ connection.wire) :
    Written connection inward
      ⟨sendLabels, .endIrob psirob.id psirob.expectedBytes psirob.numSenderChunks⟩ := by
  refine ⟨fun carrying taken => ?_, nofun, nofun⟩
  cases taken
  exact recorded

theorem written_check {inward : Connection} {sendLabels : Int} (recorded : id ∈ connection.checks) :
    Written connection inward ⟨sendLabels, .dataCheck id⟩ := by
  refine ⟨nofun, fun other same => ?_, nofun⟩
  cases same
  exact recorded

theorem written_ack {outward inward : Connection} {sendLabels : Int} {ackedIrobs : List IrobId}
    {srvTime qdelay : WireTime} :
    Written outward inward ⟨sendLabels, .ack id ackedIrobs srvTime qdelay⟩ :=
  ⟨nofun, nofun, nofun⟩

/-- A function of a sender thread, up to its write, is a run of its direction, and what it
writes is recorded. -/
structure Builds (connection : Connection) (built : Connection × Option Composite) : Prop where
  leads : internally.Leads connection built.1
  written : ∀ composite ∈ built.2, ∀ inward, ∀ message ∈ composite.messages,
    Written built.1 inward message

namespace Builds

variable {built : Connection × Option Composite} {csock : CSocketId}

/-- The IROB is no longer there, and nothing is written. -/
theorem nothing (connection : Connection) : Builds connection (connection, none) :=
  ⟨.refl _, nofun⟩

/-- An IROB is there and is one that is sent. -/
theorem found_id (wf : connection.outgoing.WellFormed) (inRange : id.InRange) {pirob : OutgoingIrob}
    {psirob : SenderIrob} (found : connection.outgoing.find id = some pirob)
    (same : asSender pirob = some psirob) : psirob.id = id := by
  have named := wf.find_id inRange found
  rwa [eq_of_asSender same] at named

theorem complete_of_getReadyBytes {psirob : SenderIrob} {requested : Int}
    {result : SenderIrob × Transmission}
    (got : psirob.getReadyBytes csock requested = some result) :
    result.1.complete = psirob.complete := by
  rcases getReadyBytes_cases got with ⟨_, _, -, same, -⟩ | ⟨-, same, -⟩ | ⟨-, -, -, added⟩
  · rw [same]
  · rw [same]
  · obtain ⟨_, _, same, -⟩ := addSentChunk_cases added
    rw [same]

theorem begin (wf : connection.outgoing.WellFormed)
    (inRange : id.InRange) {whole : Bool}
    (building : connection.buildBegin csock id whole = some built) :
    Builds connection built := by
  unfold buildBegin at building
  cases found : connection.outgoing.find id with
  | none =>
      rw [found] at building
      cases building
      exact nothing _
  | some pirob =>
      rw [found] at building
      obtain ⟨psirob, same, onward⟩ := Option.bind_eq_some_iff.mp building
      have named := found_id wf inRange found same
      split_ifs at onward with all
      · obtain ⟨⟨sent, transmission⟩, got, made⟩ := Option.bind_eq_some_iff.mp onward
        have sentId : sent.id = id := (getReadyBytes_links got).id.trans named
        have stored := find_store wf inRange found sentId
        have first := leads_getReadyBytes found same got
        have second := leads_sendBegin ((connection.store sent).record
          (if transmission.bytes.isEmpty then [] else [psirob.chunkMessage transmission]))
          stored (asSender_toOutgoing sent)
        dsimp only at made
        split_ifs at made with unchunked nothing'
        · cases made
          rw [if_pos nothing'] at first second
          refine ⟨first.trans second, fun composite written inward message carried => ?_⟩
          cases written
          cases List.mem_singleton.mp carried
          rw [← sentId]
          exact written_begin sent List.mem_cons_self
        · cases made
          rw [if_neg nothing'] at first second
          have ends : sent.ends = true := by
            rw [SenderIrob.ends, complete_of_getReadyBytes got, (Bool.and_eq_true_iff.mp all).2]
            simpa using unchunked
          have third := leads_sendEnd (((connection.store sent).record
            [psirob.chunkMessage transmission]).record [sent.beginMessage])
            stored (asSender_toOutgoing sent)
          rw [if_pos ends] at third
          have sameChunk : psirob.chunkMessage transmission = sent.chunkMessage transmission := by
            rw [chunkMessage, chunkMessage, sentId, named]
          rw [sameChunk] at first second third
          refine ⟨(first.trans second).trans third, fun composite written inward message carried => ?_⟩
          cases written
          rw [Composite.messages, List.mem_cons, List.mem_cons, List.mem_singleton] at carried
          rw [← sentId] at carried
          rcases carried with rfl | rfl | rfl
          · exact written_begin sent (List.mem_cons_of_mem _ List.mem_cons_self)
          · exact written_chunk sent
              (List.mem_cons_of_mem _ (List.mem_cons_of_mem _ List.mem_cons_self))
          · exact written_end sent List.mem_cons_self
      · cases onward
        refine ⟨leads_sendBegin connection found same, fun composite written inward message carried => ?_⟩
        cases written
        cases List.mem_singleton.mp carried
        rw [← named]
        exact written_begin psirob List.mem_cons_self

theorem chunk (wf : connection.outgoing.WellFormed)
    (inRange : id.InRange) {chunksize : Int} {waitingAckIrob : IrobId} {qdelay : Timeval}
    (building : connection.buildChunk csock id chunksize waitingAckIrob qdelay = some built) :
    Builds connection built := by
  unfold buildChunk at building
  cases found : connection.outgoing.find id with
  | none =>
      rw [found] at building
      cases building
      exact nothing _
  | some pirob =>
      rw [found] at building
      obtain ⟨psirob, same, onward⟩ := Option.bind_eq_some_iff.mp building
      have named := found_id wf inRange found same
      obtain ⟨⟨sent, transmission⟩, got, made⟩ := Option.map_eq_some_iff.mp onward
      have sentId : sent.id = id := (getReadyBytes_links got).id.trans named
      have leads := leads_getReadyBytes found same got
      dsimp only at made
      split_ifs at made with nothing'
      · cases made
        rw [if_pos nothing'] at leads
        exact ⟨leads, nofun⟩
      · cases made
        have sameChunk : psirob.chunkMessage transmission = sent.chunkMessage transmission := by
          rw [chunkMessage, chunkMessage, sentId, named]
        rw [if_neg nothing', sameChunk] at leads
        refine ⟨leads, fun composite written inward message carried => ?_⟩
        cases written
        have recorded : Written ((connection.store sent).record [sent.chunkMessage transmission])
            inward (Composite.chunkMessage sent.sendLabels sent.id transmission) :=
          written_chunk sent List.mem_cons_self
        rw [sentId] at recorded
        rcases List.mem_append.mp carried with ack | chunk
        · split_ifs at ack
          · cases ack
          · cases List.mem_singleton.mp ack
            exact written_ack
        · cases List.mem_singleton.mp chunk
          exact recorded

theorem finish (wf : connection.outgoing.WellFormed)
    (inRange : id.InRange)
    (ended : ∀ psirob ∈ (connection.outgoing.find id).bind asSender, psirob.ends = true)
    (building : connection.buildEnd id = some built) : Builds connection built := by
  unfold buildEnd at building
  cases found : connection.outgoing.find id with
  | none =>
      rw [found] at building
      cases building
      exact nothing _
  | some pirob =>
      rw [found] at building ended
      obtain ⟨psirob, same, rfl⟩ := Option.map_eq_some_iff.mp building
      have named := found_id wf inRange found same
      have leads := leads_sendEnd connection found same
      rw [if_pos (ended psirob same)] at leads
      refine ⟨leads, fun composite written inward message carried => ?_⟩
      cases written
      cases List.mem_singleton.mp carried
      rw [← named]
      exact written_end psirob List.mem_cons_self

/-- The chunk that goes with a data check, the next one or the last. -/
theorem leads_probe (wf : connection.outgoing.WellFormed)
    (inRange : id.InRange) {pirob : OutgoingIrob} {psirob sent : SenderIrob}
    {transmission : Transmission} {probe : Option Transmission} {requested : Int}
    (found : connection.outgoing.find id = some pirob) (same : asSender pirob = some psirob)
    (got : psirob.getReadyBytes csock requested = some (sent, transmission))
    (probing : (if transmission.data.isEmpty then sent.getLastSentChunk csock
      else some (some transmission)) = some probe)
    (nonempty : transmission.data.isEmpty = false → transmission.bytes.isEmpty = false) :
    internally.Leads connection
      ((connection.store sent).record (probe.toList.map sent.chunkMessage)) := by
  have named := found_id wf inRange found same
  have sentId : sent.id = id := (getReadyBytes_links got).id.trans named
  have first := leads_getReadyBytes found same got
  cases none' : transmission.data.isEmpty with
  | true =>
      have empty : transmission.bytes.isEmpty = true := by
        rw [Transmission.bytes, List.isEmpty_iff.mp none']
        rfl
      rw [if_pos none'] at probing
      rw [if_pos empty] at first
      have stored := find_store wf inRange found sentId
      exact first.trans (leads_getLastSentChunk ((connection.store sent).record [])
        sentId stored probing)
  | false =>
      rw [none', if_neg Bool.false_ne_true] at probing
      cases probing
      have sameChunk : psirob.chunkMessage transmission = sent.chunkMessage transmission := by
        rw [chunkMessage, chunkMessage, sentId, named]
      rw [nonempty none', if_neg Bool.false_ne_true, sameChunk] at first
      exact first

theorem dataCheck (wf : connection.outgoing.WellFormed)
    (inRange : id.InRange) (opened : id ∈ connection.opened.map (·.id))
    (fits : ∀ composite ∈ built.2, composite.InRange)
    (building : connection.buildDataCheck csock id = some built) :
    Builds connection built := by
  unfold buildDataCheck at building
  dsimp only at building
  cases found : connection.outgoing.find id with
  | none =>
      rw [found] at building
      cases building
      refine ⟨leads_sendDataCheck connection opened, fun composite written inward message carried => ?_⟩
      cases written
      cases List.mem_singleton.mp carried
      exact written_check List.mem_cons_self
  | some pirob =>
      rw [found] at building
      obtain ⟨psirob, same, onward⟩ := Option.bind_eq_some_iff.mp building
      obtain ⟨⟨sent, transmission⟩, got, further⟩ := Option.bind_eq_some_iff.mp onward
      obtain ⟨probe, probing, rfl⟩ := Option.map_eq_some_iff.mp further
      have named := found_id wf inRange found same
      have sentId : sent.id = id := (getReadyBytes_links got).id.trans named
      have probed := (fits _ rfl).2 _ rfl
      have nonempty : transmission.data.isEmpty = false → transmission.bytes.isEmpty = false := by
        intro some'
        rw [some', if_neg Bool.false_ne_true] at probing
        cases probing
        have chunk : (some transmission).filter (fun probe => !probe.data.isEmpty) =
            some transmission := by
          rw [Option.filter_some, some', Bool.not_false, if_pos rfl]
        have positive := (probed.2.2.1 transmission chunk).2.2.1
        exact List.isEmpty_eq_false_iff.mpr (List.ne_nil_of_length_pos positive)
      have stored := find_store wf inRange found sentId
      have chunked := leads_probe wf inRange found same got probing nonempty
      have begun := leads_sendBegin ((connection.store sent).record
        (probe.toList.map sent.chunkMessage)) stored (asSender_toOutgoing sent)
      have ended := leads_sendEnd (((connection.store sent).record
        (probe.toList.map sent.chunkMessage)).record [sent.beginMessage])
        stored (asSender_toOutgoing sent)
      have checked := leads_sendDataCheck ((((connection.store sent).record
        (probe.toList.map sent.chunkMessage)).record [sent.beginMessage]).record
        (if sent.ends then [sent.endMessage] else [])) opened
      refine ⟨?_, fun composite written inward message carried => ?_⟩
      · have all := ((chunked.trans begun).trans ended).trans checked
        simp only [record] at all ⊢
        rw [List.append_assoc]
        exact all
      · cases written
        rw [← sentId] at carried ⊢
        have begins : sent.beginMessage ∈ (if sent.ends then [sent.endMessage] else []) ++
            sent.beginMessage :: probe.toList.map sent.chunkMessage ++ connection.wire :=
          List.mem_append_left _ (List.mem_append_right _ List.mem_cons_self)
        rcases List.mem_append.mp carried with early | check
        · rcases List.mem_append.mp early with earlier | ending
          · rcases List.mem_append.mp earlier with begin' | chunk
            · cases List.mem_singleton.mp begin'
              exact written_begin sent begins
            · obtain ⟨shown, present, rfl⟩ := Option.map_eq_some_iff.mp (Option.mem_toList.mp chunk)
              have member := Option.mem_toList.mpr (Option.eq_some_of_filter_eq_some present)
              exact written_chunk sent (List.mem_append_left _ (List.mem_append_right _
                (List.mem_cons_of_mem _ (List.mem_map_of_mem member))))
          · obtain ⟨totals, present, rfl⟩ := Option.map_eq_some_iff.mp (Option.mem_toList.mp ending)
            split_ifs at present with ends
            cases present
            refine written_end sent (List.mem_append_left _ (List.mem_append_left _ ?_))
            rw [if_pos ends]
            exact List.mem_cons_self
        · cases List.mem_singleton.mp check
          exact written_check List.mem_cons_self

end Builds

/-- The requests of an answer are those of its messages. -/
theorem request_recorded (receiver : ReceiverLattice) (request : ResendRequestType)
    {message : WireMessage}
    (carried : message ∈ Composite.requestMessages id request
      (((receiver.irobs.find id).map ReceiverIrob.getMissingChunks).getD [])
      (if request.endIrob = true then
        ((receiver.irobs.find id).map ReceiverIrob.nextChunkSeqno).getD 0 else 0)) :
    ∃ asked seqno, ∃ nextChunk : Nat, message = ⟨0, .resendRequest id asked (seqno : Nat) nextChunk⟩ ∧
      ⟨id, asked, seqno, nextChunk⟩ ∈ receiver.resendRequest id request := by
  have next : ((if request.endIrob = true then
      ((receiver.irobs.find id).map ReceiverIrob.nextChunkSeqno).getD 0 else 0 : Nat) : Int) =
      if request.endIrob = true then ((receiver.irobs.find id).map fun irob =>
        (ReceiverIrob.nextChunkSeqno irob : Int)).getD 0 else 0 := by
    cases receiver.irobs.find id <;> split_ifs <;> rfl
  generalize nextIs : (if request.endIrob = true then
    ((receiver.irobs.find id).map ReceiverIrob.nextChunkSeqno).getD 0 else 0) = nextChunk at *
  generalize missingIs : ((receiver.irobs.find id).map ReceiverIrob.getMissingChunks).getD [] = missing
    at *
  unfold ReceiverLattice.resendRequest
  simp only [missingIs]
  unfold Composite.requestMessages at carried
  split_ifs at carried with data rest
  · obtain ⟨asks, some'⟩ := data
    obtain ⟨first, others, rfl⟩ := List.exists_cons_of_ne_nil some'
    have given : request ≠ .none := by
      rintro rfl
      cases asks
    simp only [asks, if_true, List.isEmpty_cons, Bool.false_eq_true, if_false, given, ← next]
    rcases List.mem_cons.mp carried with rfl | later
    · exact ⟨request, first, nextChunk, rfl, List.mem_cons_self⟩
    · obtain ⟨seqno, member, rfl⟩ := List.mem_map.mp later
      exact ⟨.onlyData, seqno, 0, rfl, List.mem_cons_of_mem _ (List.mem_map_of_mem member)⟩
  · have without : (if request.data = true then missing else []) = [] := by
      split_ifs with asks
      · by_contra some'
        exact data ⟨asks, some'⟩
      · rfl
    have given : { request with data := false } ≠ ResendRequestType.none := by
      rintro same
      injection same with deps _ endIrob
      rcases rest with asks | asks
      · cases asks.symm.trans deps
      · cases asks.symm.trans endIrob
    simp only [without, List.isEmpty_nil, if_true, given, if_false, ← next]
    cases List.mem_singleton.mp carried
    exact ⟨_, 0, nextChunk, rfl, List.mem_singleton.mpr rfl⟩
  · cases carried

/-- The answer to a data check is a run of the direction it is about. -/
theorem leads_buildRequest {request : ResendRequestType}
    (scheduled : (id, request) ∈ connection.scheduled) :
    internally.Leads connection (connection.buildRequest id request).1 :=
  leads_of_internal (.sendRequest id request) rfl scheduled rfl

theorem written_request (connection : Connection) (request : ResendRequestType) :
    ∀ composite ∈ (connection.buildRequest id request).2, ∀ outward,
      ∀ message ∈ composite.messages,
        Written outward (connection.buildRequest id request).1 message := by
  intro composite written outward message carried
  cases written
  obtain ⟨asked, seqno, nextChunk, rfl, recorded⟩ := request_recorded connection.receiver.lattice
    request carried
  refine ⟨nofun, nofun, fun other asked seqno next same => ?_⟩
  cases same
  exact List.mem_append_left _ recorded

end Connection

end Libcmm
