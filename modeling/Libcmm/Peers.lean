import Libcmm.AckTimes
import Libcmm.CsockMapping
import Libcmm.Placeholders
import Libcmm.Received
import Libcmm.ResendRuns
import Libcmm.Transfers

/-! # Headers of any peer

The receiver takes the fields of a header as they come, and looks up the handler in a table. The
type of a header is compared with the size of that table in bytes, so that a type beyond the last
handler is looked up as well. The handlers for the data of an IROB rely on its counters and on the
deque of `incoming_irobs`. The others reach into the rest of the multisocket: into
`outgoing_irobs`, where an IROB that was never begun throws a plain `CMMException` and a
placeholder breaks an assertion; into the statistics of what was sent; into the connections, whose
type of network is asserted; and into the shutdown, during which a second `Goodbye` ends the
thread. `Fits` says which headers go wrong in none of these ways.

Between two headers the application and the other threads change everything but
`incoming_irobs`. What the estimators make of an acknowledgment is left open. A run ends where
`recv` goes on with an IROB that the deque has cut off.
-/

namespace Libcmm

open Lib

/-! ### Headers -/

/-- `struct CMMSocketControlHdr` in host byte order, with what follows it. Every handler
reads its own members of the union `op`; `ackedIrobs` is what the loop of `do_ack` reads. -/
structure ControlHdr where
  type : BitVec 16
  sendLabels : BitVec 32
  id : IrobId
  deps : List IrobId
  seqno : BitVec 32
  offset : BitVec 32
  data : List Byte
  expectedBytes : BitVec 32
  expectedChunks : BitVec 32
  iface : NetInterface
  ackedIrobs : List IrobId
  srvTime : WireTime
  qdelay : WireTime
  request : BitVec 32
  nextChunk : BitVec 32

namespace ControlHdr

variable (hdr : ControlHdr)

def beginIrob : Message := .beginIrob hdr.id hdr.deps hdr.sendLabels.toNat

/-- `expected_bytes` is an `ssize_t`, and `expected_chunks` an `int`. -/
def endIrob : Message := .endIrob hdr.id hdr.expectedBytes.toNat hdr.expectedChunks.toInt

def irobChunk : Message := .irobChunk hdr.id hdr.seqno.toNat hdr.offset.toNat hdr.data

def resendRequest : ResendRequest :=
  ⟨hdr.id, ⟨hdr.request.getLsbD 0, hdr.request.getLsbD 1, hdr.request.getLsbD 2⟩,
    hdr.seqno.toNat, hdr.nextChunk.toInt⟩

/-- The IROBs that an `Ack` acknowledges, in this order. -/
def acks : List IrobId := hdr.id :: hdr.ackedIrobs

/-- Identifiers are in range. -/
def InRange : Prop :=
  hdr.id.InRange ∧ (∀ dep ∈ hdr.deps, dep.InRange) ∧ ∀ id ∈ hdr.ackedIrobs, id.InRange

instance : Decidable hdr.InRange := inferInstanceAs (Decidable (_ ∧ _ ∧ _))

end ControlHdr

/-- Beyond the end of the table are the types from 11 to 175. -/
theorem dispatchType_eq_none_iff {type : BitVec 16} : dispatchType type = none ↔
    (handlers.length : Int) ≤ type.toInt ∧ type.toInt < sizeofHandlers := by
  unfold dispatchType
  split_ifs with outside
  · refine iff_of_false nofun fun inside => ?_
    rcases outside with negative | large
    · have length : (0 : Int) ≤ handlers.length := Int.natCast_nonneg _
      omega
    · omega
  · rw [List.getElem?_eq_none_iff]
    omega

/-! ### Connections -/

namespace CsockMapping

/-- `CSocket::network_type`. None stands for its assertion. -/
def networkType (pair : IfacePair) : Option Nat :=
  if networkFitsRestriction labelWifiOnly pair then some netTypeWifi
  else if networkFitsRestriction labelThreegOnly pair then some netTypeThreeg
  else none

/-- The two interfaces agree on a type. -/
def HasType (pair : IfacePair) : Prop :=
  matchesType netTypeWifi pair = true ∨ matchesType netTypeThreeg pair = true

instance (pair : IfacePair) : Decidable (HasType pair) := inferInstanceAs (Decidable (_ ∨ _))

theorem networkType_isSome_iff {pair : IfacePair} :
    (networkType pair).isSome = true ↔ HasType pair := by
  unfold networkType HasType
  rw [networkFitsRestriction_eq, networkFitsRestriction_eq,
    show fallbackAllowed labelWifiOnly = false by decide,
    show fallbackAllowed labelThreegOnly = false by decide,
    show restrictions labelWifiOnly = (true, false) by decide,
    show restrictions labelThreegOnly = (false, true) by decide]
  cases matchesType netTypeWifi pair <;> cases matchesType netTypeThreeg pair <;> simp

variable (platform : Platform) (mapping : CsockMapping) (iface : NetInterface)

/-- `get_matching_csocks` for a remote interface. -/
def remoteMatches : List Nat :=
  mapping.availableCsocks.toList.filter fun csock =>
    (mapping.ifacePair csock).2.ipAddr == iface.ipAddr

/-- `remote_ifaces.erase`, which compares addresses. -/
def eraseRemote : List NetInterface :=
  mapping.remoteIfaces.filter fun other => other.ipAddr != iface.ipAddr

/-- `CMMSocketImpl::setup` of a remote interface. -/
def setupRemote : Option CsockMapping :=
  if mapping.isLoopbackOnly platform then some mapping
  else
    let matches' := mapping.remoteMatches iface
    let updated (csock : Nat) : CSocket :=
      if csock ∈ matches' then
        { mapping.csocks csock with ifacePair := ((mapping.ifacePair csock).1, iface) }
      else mapping.csocks csock
    -- network_type, an argument of NetStats::update
    if matches'.all fun csock => (networkType (updated csock).ifacePair).isSome then
      some { mapping with
        csocks := updated
        remoteIfaces := (mapping.eraseRemote iface).orderedInsert
          (fun first second => first.ipAddr ≤ second.ipAddr) iface }
    else none

/-- `CMMSocketImpl::teardown` of a remote interface, as far as it changes the mapping. -/
def teardownRemote : CsockMapping :=
  { mapping with
    availableCsocks :=
      mapping.availableCsocks.filter fun csock => csock ∉ mapping.remoteMatches iface
    remoteIfaces := mapping.eraseRemote iface }

/-- Every connection to the interface has a type when its remote end is replaced by the one
announced. -/
def Typed : Prop :=
  ∀ csock ∈ mapping.remoteMatches iface, HasType ((mapping.ifacePair csock).1, iface)

instance : Decidable (mapping.Typed iface) := inferInstanceAs (Decidable (∀ csock ∈ _, _))

variable {platform mapping iface}

theorem setupRemote_isSome_iff : (mapping.setupRemote platform iface).isSome = true ↔
    (mapping.isLoopbackOnly platform = false → mapping.Typed iface) := by
  unfold setupRemote
  cases loopback : mapping.isLoopbackOnly platform with
  | true => exact iff_of_true rfl nofun
  | false =>
      have typed : ((mapping.remoteMatches iface).all fun csock => (networkType
          (if csock ∈ mapping.remoteMatches iface then
            { mapping.csocks csock with ifacePair := ((mapping.ifacePair csock).1, iface) }
          else mapping.csocks csock).ifacePair).isSome) = true ↔ mapping.Typed iface := by
        rw [List.all_eq_true]
        refine forall₂_congr fun csock member => ?_
        rw [if_pos member]
        exact networkType_isSome_iff
      rw [if_neg Bool.false_ne_true, forall_prop_of_true rfl, ← typed]
      dsimp only
      split_ifs with all
      · exact iff_of_true rfl all
      · exact iff_of_false Bool.false_ne_true all

end CsockMapping

/-! ### Statistics -/

namespace TransferStats

open IrobTransfersPerNetwork

variable {stats after : TransferStats} {id other : IrobId} {network : Network} {srvTime : Timeval}
  {passes : Bool}

/-- The IROB is known to be striped, or its total was reported. -/
def Counted (stats : TransferStats) (id : IrobId) : Prop :=
  stats.stripedIrobs.contains id = true ∨ 0 < (stats.record id).totalBytes

/-- As far as the statistics know, the whole IROB went over one network. -/
def Unstriped (stats : TransferStats) (network : Network) (id : IrobId) : Prop :=
  stats.stripedIrobs.contains id = false ∧
    (stats.record id).totalBytes ≤ (stats.record id).bytes network

/-- `report_ack` fails where it asks for the bytes of an IROB without a total. -/
theorem reportAck_isSome_iff (valid : srvTime.tvUsec ≠ -1) :
    (stats.reportAck id network srvTime).isSome = true ↔ stats.Counted id := by
  unfold reportAck Counted hasAllBytes
  rw [if_neg valid]
  cases stats.stripedIrobs.contains id with
  | true => exact iff_of_true rfl (.inl rfl)
  | false =>
      rw [if_neg Bool.false_ne_true, Option.isSome_map, or_iff_right Bool.false_ne_true]
      split_ifs with total
      · exact iff_of_true rfl total
      · exact iff_of_false Bool.false_ne_true total

/-- The three ways `report_ack` returns. -/
theorem reportAck_cases (valid : srvTime.tvUsec ≠ -1)
    (reported : stats.reportAck id network srvTime = some (passes, after)) :
    (stats.stripedIrobs.contains id = true ∧ passes = false ∧ after = stats) ∨
    stats.stripedIrobs.contains id = false ∧ 0 < (stats.record id).totalBytes ∧
      ∃ record, record.totalBytes = (stats.record id).totalBytes ∧
        (∀ query, record.bytes query = (stats.record id).bytes query) ∧
        ((stats.record id).totalBytes ≤ (stats.record id).bytes network ∧ passes = true ∧
            after = stats.setRecord id record ∨
          (stats.record id).bytes network < (stats.record id).totalBytes ∧ passes = false ∧
            after = { stats.setRecord id record with
              stripedIrobs := stats.stripedIrobs.insert id }) := by
  unfold reportAck at reported
  rw [if_neg valid] at reported
  cases striped : stats.stripedIrobs.contains id with
  | true =>
      rw [if_pos striped] at reported
      cases reported
      exact .inl ⟨rfl, rfl, rfl⟩
  | false =>
      rw [if_neg (Bool.eq_false_iff.mp striped)] at reported
      obtain ⟨⟨all, record⟩, looking, finished⟩ := Option.map_eq_some_iff.mp reported
      unfold hasAllBytes at looking
      split_ifs at looking with total
      obtain ⟨rfl, rfl⟩ := Prod.mk.inj (Option.some.inj looking)
      refine .inr ⟨rfl, total, (stats.record id).setBytes network ((stats.record id).bytes network),
        rfl, fun query => ?_, ?_⟩
      · rw [bytes_setBytes]
        split_ifs with same
        · rw [same]
        · rfl
      · dsimp only at finished
        split_ifs at finished with enough
        · cases finished
          exact .inl ⟨of_decide_eq_true enough, rfl, rfl⟩
        · cases finished
          exact .inr ⟨not_le.mp fun less => enough (decide_eq_true less), rfl, rfl⟩

theorem passes_iff (valid : srvTime.tvUsec ≠ -1)
    (reported : stats.reportAck id network srvTime = some (passes, after)) :
    passes = true ↔ stats.Unstriped network id := by
  rcases reportAck_cases valid reported with
    ⟨striped, rfl, -⟩ | ⟨single, -, record, -, -, ⟨enough, rfl, -⟩ | ⟨few, rfl, -⟩⟩
  · exact iff_of_false Bool.false_ne_true fun both => nomatch striped.symm.trans both.1
  · exact iff_of_true rfl ⟨single, enough⟩
  · exact iff_of_false Bool.false_ne_true fun both => not_le.mpr few both.2

/-- What an acknowledgment leaves says the same of every IROB. -/
theorem reportAck_same (valid : srvTime.tvUsec ≠ -1)
    (reported : stats.reportAck id network srvTime = some (passes, after)) :
    (after.Counted other ↔ stats.Counted other) ∧
      (after.Unstriped network other ↔ stats.Unstriped network other) := by
  unfold Counted Unstriped
  rcases reportAck_cases valid reported with
    ⟨-, -, rfl⟩ | ⟨single, total, record, sameTotal, sameBytes, way⟩
  · exact ⟨Iff.rfl, Iff.rfl⟩
  by_cases same : other = id
  · subst same
    rcases way with ⟨-, -, rfl⟩ | ⟨few, -, rfl⟩
    · rw [record_setRecord, sameTotal, sameBytes]
      exact ⟨Iff.rfl, Iff.rfl⟩
    · have now : (stats.stripedIrobs.insert other).contains other = true := by
        rw [IntSet.contains_insert, decide_eq_true rfl, Bool.true_or]
      constructor
      · exact iff_of_true (.inl now) (.inr total)
      · refine iff_of_false (fun both => ?_) fun both => not_le.mpr few both.2
        exact Bool.false_ne_true (both.1.symm.trans now)
  · rcases way with ⟨-, -, rfl⟩ | ⟨-, -, rfl⟩
    · rw [record_setRecord_of_ne same]
      exact ⟨Iff.rfl, Iff.rfl⟩
    · have elsewhere : (stats.stripedIrobs.insert id).contains other =
          stats.stripedIrobs.contains other := by
        rw [IntSet.contains_insert, decide_eq_false same, Bool.false_or]
      change ((stats.stripedIrobs.insert id).contains other = true ∨
          0 < ((stats.setRecord id record).record other).totalBytes ↔ _) ∧
        ((stats.stripedIrobs.insert id).contains other = false ∧ ((stats.setRecord id
          record).record other).totalBytes ≤ ((stats.setRecord id record).record other).bytes
            network ↔ _)
      rw [elsewhere, record_setRecord_of_ne same]
      exact ⟨Iff.rfl, Iff.rfl⟩

end TransferStats

/-! ### Outgoing IROBs -/

namespace Outgoing

open OutgoingIrob

variable {outgoing after : Outgoing} {id other : IrobId}

/-- The IROB is past, or a sending IROB is here. -/
def Answers (outgoing : Outgoing) (id : IrobId) : Prop :=
  outgoing.Known id ∧ ∀ pirob ∈ outgoing.irobs.find id, (asSender pirob).isSome = true

theorem withSender_isSome_iff {act : SenderIrob → Option Outgoing} :
    (outgoing.withSender id act).isSome = true ↔ ∀ pirob ∈ outgoing.irobs.find id,
      ∃ psirob, asSender pirob = some psirob ∧ (act psirob).isSome = true := by
  unfold withSender
  cases outgoing.irobs.find id with
  | none => exact iff_of_true rfl nofun
  | some pirob =>
      dsimp only
      constructor
      · rintro some' other same
        cases same
        obtain ⟨result, acted⟩ := Option.isSome_iff_exists.mp some'
        obtain ⟨psirob, cast, acting⟩ := Option.bind_eq_some_iff.mp acted
        exact ⟨psirob, cast, Option.isSome_of_eq_some acting⟩
      · intro each
        obtain ⟨psirob, cast, acted⟩ := each pirob rfl
        rw [cast]
        exact acted

/-- An acknowledgment leaves the same IROBs able to answer. -/
theorem answers_ackReceived (consistent : outgoing.Consistent) (otherRange : other.InRange)
    (acked : outgoing.ackReceived id = some after) :
    after.Answers other ↔ outgoing.Answers other := by
  have move : Move outgoing (.ackReceived id) after := step_move acked
  unfold Answers Known
  cases move with
  | idle follow refused thunks fired => exact Iff.rfl
  | @write _ _ psirob next found links _ _ _ _ _ _ =>
      obtain ⟨-, held⟩ := consistent.found found
      obtain ⟨-, finds⟩ := consistent.store found links
      change (outgoing.irobs.pastIrobs.contains other = true ∨
        ((outgoing.store next).irobs.find other).isSome = true) ∧
          (∀ pirob ∈ (outgoing.store next).irobs.find other, _) ↔ _
      rw [finds other otherRange]
      split_ifs with same
      · subst same
        rw [held]
        refine iff_of_true ⟨.inr rfl, ?_⟩ ⟨.inr rfl, ?_⟩ <;>
        · intro pirob stored
          cases stored
          rfl
      · exact Iff.rfl
  | @ack _ psirob found complete =>
      have removed := consistent.ack found
      obtain ⟨inRange, held⟩ := consistent.found found
      change (((outgoing.store psirob.ack).irobs.erase psirob.id false).1.pastIrobs.contains other =
        true ∨ (((outgoing.store psirob.ack).irobs.erase psirob.id false).1.find other).isSome =
          true) ∧ (∀ pirob ∈ ((outgoing.store psirob.ack).irobs.erase psirob.id false).1.find other,
            _) ↔ _
      rw [removed.find other otherRange, removed.past other]
      simp only [List.mem_singleton]
      split_ifs with same
      · subst same
        rw [held]
        refine iff_of_true ⟨.inl (.inl rfl), nofun⟩ ⟨.inr rfl, ?_⟩
        intro pirob stored
        cases stored
        rfl
      · rw [or_iff_right same]
  | fail found fails follow => cases fails

theorem ackReceived_isSome_iff : (outgoing.ackReceived id).isSome = true ↔
    ∀ pirob ∈ outgoing.irobs.find id, (asSender pirob).isSome = true := by
  rw [ackReceived, withSender_isSome_iff]
  refine forall₂_congr fun pirob _ => ?_
  rw [Option.isSome_iff_exists]
  exact exists_congr fun psirob => and_iff_left rfl

theorem resendRequestReceived_isSome_iff {request : ResendRequest} :
    (outgoing.resendRequestReceived request).isSome = true ↔
      ∀ pirob ∈ outgoing.irobs.find request.id, ∃ psirob, asSender pirob = some psirob ∧
        ¬(request.request.data = true ∧ request.seqno = psirob.own.sentChunks.length) := by
  rw [resendRequestReceived, withSender_isSome_iff]
  refine forall₂_congr fun pirob _ => exists_congr fun psirob => and_congr_right fun _ => ?_
  rw [Option.isSome_map, SenderIrob.resend_isSome_iff]

/-- A data check of all IROBs meets no placeholder. -/
theorem dataCheckAllIrobs_isSome_iff : outgoing.dataCheckAllIrobs.isSome = true ↔
    outgoing.irobs.Every fun pirob => (asSender pirob).isSome = true := by
  unfold dataCheckAllIrobs
  have all : (outgoing.irobs.pendingIrobs.slots.all fun slot =>
      slot.all fun pirob => (asSender pirob).isSome) = true ↔
        outgoing.irobs.Every fun pirob => (asSender pirob).isSome = true := by
    rw [List.all_eq_true]
    constructor
    · intro each key pirob used
      exact each (some pirob) (Window.mem_of_get used)
    · intro every slot member
      cases slot with
      | none => rfl
      | some pirob =>
          obtain ⟨key, used⟩ := Window.exists_get_of_mem member
          exact every key pirob used
  rw [← all]
  split_ifs with senders
  · exact iff_of_true rfl senders
  · exact iff_of_false Bool.false_ne_true senders

end Outgoing

/-! ### The host -/

/-- What a header can meet. `measures` says of an `Ack` with these times whether `report_ack` makes
a new measurement of an IROB, after some others, and has an estimate then. -/
structure Host where
  incoming : ReceiverLattice
  outgoing : Outgoing
  mapping : CsockMapping
  stats : TransferStats
  measures : WireTime → WireTime → List IrobId → IrobId → Bool
  shuttingDown : Bool

/-- A header arrives on some connection, the application reads or something happens to
`outgoing_irobs`, or other threads change the rest. -/
inductive PeerEvent where
  | header (csock : Nat) (hdr : ControlHdr)
  | recv (len : Nat) (flags : RecvFlags)
  | outgoing (event : OutgoingEvent)
  | elsewhere (mapping : CsockMapping) (stats : TransferStats)
      (measures : WireTime → WireTime → List IrobId → IrobId → Bool) (shuttingDown : Bool)

namespace Host

open CsockMapping

/-- A multisocket to which nothing has happened. -/
def initial : Host where
  incoming := .empty
  outgoing := .empty
  mapping := ⟨fun _ => ⟨(⟨0, 0, 0, 0, 0⟩, ⟨0, 0, 0, 0, 0⟩), false⟩, ∅, [], [], false⟩
  stats := .initial
  measures _ _ _ _ := false
  shuttingDown := false

variable (platform : Platform) (host : Host) (csock : Nat) (hdr : ControlHdr)

/-- `CSocketReceiver::dispatch`, for the messages that carry an IROB. -/
def receive (message : Message) : Option (Host × Verdict) :=
  (host.incoming.dispatchReceived message).map fun handled =>
    ({ host with incoming := handled.after }, handled.verdict)

/-- `CMMSocketImpl::data_check_all_irobs`. -/
def dataCheckAllIrobs : Option Host :=
  host.outgoing.dataCheckAllIrobs.map fun outgoing => { host with outgoing := outgoing }

/-- `CSocketReceiver::do_new_interface`. -/
def doNewInterface : Option Host :=
  (host.mapping.setupRemote platform hdr.iface).map fun mapping => { host with mapping := mapping }

/-- `CSocketReceiver::do_down_interface`. -/
def doDownInterface : Option Host :=
  if host.mapping.isLoopbackOnly platform then some host
  else ({ host with mapping := host.mapping.teardownRemote hdr.iface } : Host).dataCheckAllIrobs

/-- `CSocketReceiver::report_ack`, after some IROBs of the same header. -/
def reportAck (before : List IrobId) (id : IrobId) : Option Host :=
  let pair := host.mapping.ifacePair csock
  (host.stats.reportAck id (addresses pair) hdr.srvTime.timeval).bind fun reported =>
    -- network_type, where there are a measurement and an estimate to report
    if reported.1 && host.measures hdr.srvTime hdr.qdelay before id &&
        (networkType pair).isNone then none
    else some { host with stats := reported.2 }

/-- `CMMSocketImpl::ack_received`. -/
def ackReceived (id : IrobId) : Option Host :=
  -- throw CMMException()
  if (host.outgoing.irobs.find id).isNone && !host.outgoing.irobs.pastIrobExists id then none
  else (host.outgoing.ackReceived id).map fun outgoing => { host with outgoing := outgoing }

/-- The loop of `CSocketReceiver::do_ack`, with its first turn. -/
def doAck (csock : Nat) (hdr : ControlHdr) : List IrobId → List IrobId → Host → Option Host
  | _, [], host => some host
  | before, id :: rest, host =>
      (host.reportAck csock hdr before id).bind fun reported =>
        (reported.ackReceived id).bind (doAck csock hdr (before ++ [id]) rest)

/-- `CSocketReceiver::do_goodbye`, as far as it looks at the IROBs. -/
def doGoodbye : Option Host :=
  -- throw CMMThreadFinish()
  if host.shuttingDown then none
  else ({ host with shuttingDown := true } : Host).dataCheckAllIrobs

/-- `CSocketReceiver::do_request_resend`. -/
def doRequestResend : Option Host :=
  -- throw CMMException()
  if (host.outgoing.irobs.find hdr.id).isNone && !host.outgoing.irobs.pastIrobExists hdr.id then
    none
  else (host.outgoing.resendRequestReceived hdr.resendRequest).map fun outgoing =>
    { host with outgoing := outgoing }

/-- A handler. None stands for a failed assertion, an access that is out of bounds, and an
exception that is neither a `CMMControlException` nor a `CMMFatalError`. -/
def handle : Handler → Option (Host × Verdict)
  | .unrecognizedControlMsg => some (host, .controlException)
  | .doBeginIrob => host.receive hdr.beginIrob
  | .doEndIrob => host.receive hdr.endIrob
  | .doIrobChunk => host.receive hdr.irobChunk
  | .doNewInterface => (host.doNewInterface platform hdr).map (·, .taken)
  | .doDownInterface => (host.doDownInterface platform hdr).map (·, .taken)
  | .doAck => (doAck csock hdr [] hdr.acks host).map (·, .taken)
  | .doGoodbye => host.doGoodbye.map (·, .taken)
  | .doRequestResend => (host.doRequestResend hdr).map (·, .taken)
  -- data_check_requested only schedules an answer
  | .doDataCheck => some (host, .taken)

/-- One turn of `CSocketReceiver::Run`: the header is dispatched. -/
def process : Option (Host × Verdict) :=
  (dispatchType hdr.type).bind (host.handle platform csock hdr)

/-- Any peer, and an application and other threads that do whatever they can. -/
def machine : Machine Host PeerEvent where
  initial host := host = initial
  permitted host event := match event with
    | .header _ hdr => hdr.InRange
    | .outgoing event => Outgoing.machine.permitted host.outgoing event
    | .recv _ _ | .elsewhere _ _ _ _ => True
  step host event := match event with
    | .header csock hdr => (host.process platform csock hdr).map Prod.fst
    | .recv len flags => (host.incoming.recv len flags).map fun result =>
        { host with incoming := result.1 }
    | .outgoing event => (host.outgoing.step event).map fun outgoing =>
        { host with outgoing := outgoing }
    | .elsewhere mapping stats measures shuttingDown => some { host with
        mapping := mapping, stats := stats, measures := measures, shuttingDown := shuttingDown }

instance : ∀ host event, Decidable ((machine platform).permitted host event)
  | _, .header _ hdr => inferInstanceAs (Decidable hdr.InRange)
  | host, .outgoing event =>
      inferInstanceAs (Decidable (Outgoing.machine.permitted host.outgoing event))
  | _, .recv _ _ | _, .elsewhere _ _ _ _ => .isTrue trivial

/-! ### Which headers go wrong -/

/-- An `Ack` is for IROBs that can answer and whose bytes are counted; and if the connection has no
type, it measures none of those that went over one network. -/
def FitsAck : Prop :=
  (∀ id ∈ hdr.acks, host.stats.Counted id ∧ host.outgoing.Answers id) ∧
  (¬HasType (host.mapping.ifacePair csock) → ∀ before id after, hdr.acks = before ++ id :: after →
    host.stats.Unstriped (addresses (host.mapping.ifacePair csock)) id →
      host.measures hdr.srvTime hdr.qdelay before id = false)

/-- The message agrees with what was received and announced of its IROB, and what it inserts has
room. -/
def FitsMessage (message : Message) : Prop :=
  host.incoming.Fits message ∧ host.incoming.HasRoom message

/-- Where a handler does not go wrong. -/
def FitsHandler : Handler → Prop
  | .unrecognizedControlMsg | .doDataCheck => True
  | .doBeginIrob => host.FitsMessage hdr.beginIrob
  | .doEndIrob => host.FitsMessage hdr.endIrob
  | .doIrobChunk => host.FitsMessage hdr.irobChunk
  | .doNewInterface => host.mapping.isLoopbackOnly platform = false →
      host.mapping.Typed hdr.iface
  | .doDownInterface => host.mapping.isLoopbackOnly platform = false →
      host.outgoing.irobs.Every fun pirob => (OutgoingIrob.asSender pirob).isSome = true
  | .doAck => host.FitsAck csock hdr
  | .doGoodbye => host.shuttingDown = false ∧
      host.outgoing.irobs.Every fun pirob => (OutgoingIrob.asSender pirob).isSome = true
  | .doRequestResend => host.outgoing.Answers hdr.id ∧
      ∀ pirob ∈ host.outgoing.irobs.find hdr.id, ∀ psirob ∈ OutgoingIrob.asSender pirob,
        ¬(hdr.resendRequest.request.data = true ∧
          hdr.seqno.toNat = psirob.own.sentChunks.length)

/-- The type is not one beyond the end of the table, and the handler does not go wrong. -/
structure Fits : Prop where
  type : ¬((handlers.length : Int) ≤ hdr.type.toInt ∧ hdr.type.toInt < sizeofHandlers)
  handler : ∀ handler ∈ dispatchType hdr.type, host.FitsHandler platform csock hdr handler

/-! ### What the handlers do -/

/-- What every run keeps. -/
structure Ordered (host : Host) : Prop where
  incoming : host.incoming.Bounded
  outgoing : host.outgoing.Consistent

/-- A handler ends as it should where a condition holds, and leaves the host ordered. -/
def Decides (handling : Option Host) (fits : Prop) : Prop :=
  (handling.isSome = true ↔ fits) ∧ ∀ after ∈ handling, after.Ordered

variable {platform host csock hdr} {after : Host} {id : IrobId} {message : Message}

/-- A handler that fails. -/
theorem Decides.fails {fits : Prop} (unfit : ¬fits) : Decides none fits :=
  ⟨iff_of_false Bool.false_ne_true unfit, fun _ moved => (Option.not_mem_none _ moved).elim⟩

theorem Ordered.initial : Host.initial.Ordered := ⟨.empty, .empty⟩

/-- Something happens to `outgoing_irobs`. -/
theorem Ordered.step (ordered : host.Ordered) {event : OutgoingEvent}
    (permitted : Outgoing.machine.permitted host.outgoing event) {outgoing : Outgoing}
    (moved : host.outgoing.step event = some outgoing) :
    ({ host with outgoing := outgoing } : Host).Ordered :=
  ⟨ordered.incoming, ordered.outgoing.step permitted moved⟩

/-- An event of `outgoing_irobs` that does not fail under a condition. -/
theorem Ordered.decides (ordered : host.Ordered) (event : OutgoingEvent)
    (permitted : Outgoing.machine.permitted host.outgoing event) {fits : Prop}
    (steps : (host.outgoing.step event).isSome = true ↔ fits) :
    Decides ((host.outgoing.step event).map fun outgoing => { host with outgoing := outgoing })
      fits := by
  refine ⟨by rw [Option.isSome_map, steps], fun after moved => ?_⟩
  obtain ⟨outgoing, stepped, rfl⟩ := Option.map_eq_some_iff.mp moved
  exact ordered.step permitted stepped

theorem Ordered.dataCheckAllIrobs (ordered : host.Ordered) :
    Decides host.dataCheckAllIrobs
      (host.outgoing.irobs.Every fun pirob => (OutgoingIrob.asSender pirob).isSome = true) :=
  ordered.decides .dataCheckAllIrobs trivial Outgoing.dataCheckAllIrobs_isSome_iff

theorem Ordered.doNewInterface (ordered : host.Ordered) :
    Decides (host.doNewInterface platform hdr)
      (host.mapping.isLoopbackOnly platform = false → host.mapping.Typed hdr.iface) := by
  unfold Host.doNewInterface
  refine ⟨by rw [Option.isSome_map, setupRemote_isSome_iff], fun after moved => ?_⟩
  obtain ⟨mapping, -, rfl⟩ := Option.map_eq_some_iff.mp moved
  exact ⟨ordered.incoming, ordered.outgoing⟩

theorem Ordered.doDownInterface (ordered : host.Ordered) :
    Decides (host.doDownInterface platform hdr)
      (host.mapping.isLoopbackOnly platform = false →
        host.outgoing.irobs.Every fun pirob => (OutgoingIrob.asSender pirob).isSome = true) := by
  unfold Host.doDownInterface
  cases host.mapping.isLoopbackOnly platform with
  | true =>
      refine ⟨iff_of_true rfl nofun, fun after same => ?_⟩
      cases same
      exact ordered
  | false =>
      rw [if_neg Bool.false_ne_true, forall_prop_of_true rfl]
      have torn : ({ host with mapping := host.mapping.teardownRemote hdr.iface } : Host).Ordered :=
        ⟨ordered.incoming, ordered.outgoing⟩
      exact torn.dataCheckAllIrobs

theorem Ordered.doGoodbye (ordered : host.Ordered) : Decides host.doGoodbye
    (host.shuttingDown = false ∧
      host.outgoing.irobs.Every fun pirob => (OutgoingIrob.asSender pirob).isSome = true) := by
  unfold Host.doGoodbye
  cases host.shuttingDown with
  | true =>
      rw [if_pos rfl]
      exact .fails fun both => Bool.false_ne_true both.1.symm
  | false =>
      rw [if_neg Bool.false_ne_true, eq_self, true_and]
      have leaving : ({ host with shuttingDown := true } : Host).Ordered :=
        ⟨ordered.incoming, ordered.outgoing⟩
      exact leaving.dataCheckAllIrobs

/-- The test for an IROB that is not here nor past. -/
theorem unknown_iff : ((host.outgoing.irobs.find id).isNone &&
    !host.outgoing.irobs.pastIrobExists id) = true ↔ ¬host.outgoing.Known id := by
  unfold Outgoing.Known IrobLattice.pastIrobExists
  cases host.outgoing.irobs.find id <;> cases host.outgoing.irobs.pastIrobs.contains id <;> simp

theorem Ordered.doRequestResend (ordered : host.Ordered) (inRange : hdr.InRange) :
    Decides (host.doRequestResend hdr)
      (host.outgoing.Answers hdr.id ∧
        ∀ pirob ∈ host.outgoing.irobs.find hdr.id, ∀ psirob ∈ OutgoingIrob.asSender pirob,
          ¬(hdr.resendRequest.request.data = true ∧
            hdr.seqno.toNat = psirob.own.sentChunks.length)) := by
  unfold Host.doRequestResend
  by_cases known : host.outgoing.Known hdr.id
  · rw [if_neg fun unknown => unknown_iff.mp unknown known]
    refine ordered.decides (.resendRequestReceived hdr.resendRequest) inRange.1 ?_
    refine Outgoing.resendRequestReceived_isSome_iff.trans ⟨fun each => ⟨⟨known, ?_⟩, ?_⟩, ?_⟩
    · intro pirob found
      obtain ⟨psirob, cast, -⟩ := each pirob found
      exact Option.isSome_of_eq_some cast
    · intro pirob found psirob cast
      obtain ⟨same, castSame, inBounds⟩ := each pirob found
      cases castSame.symm.trans cast
      exact inBounds
    · rintro ⟨⟨-, senders⟩, each⟩ pirob found
      obtain ⟨psirob, cast⟩ := Option.isSome_iff_exists.mp (senders pirob found)
      exact ⟨psirob, cast, each pirob found psirob cast⟩
  · rw [if_pos (unknown_iff.mpr known)]
    exact .fails fun both => known both.1.1

theorem Ordered.receive (ordered : host.Ordered) (ranged : message.Ranged) :
    ((host.receive message).isSome = true ↔ host.FitsMessage message) ∧
      ∀ result ∈ host.receive message, result.1.Ordered := by
  unfold Host.receive
  obtain ⟨fitting, unfitting⟩ := ReceiverLattice.dispatchReceived_decides ordered.incoming ranged
  constructor
  · rw [Option.isSome_map]
    by_cases fits : host.FitsMessage message
    · obtain ⟨handled, handling, -⟩ := fitting fits
      exact iff_of_true (Option.isSome_of_eq_some handling) fits
    · rw [unfitting fits]
      exact iff_of_false Bool.false_ne_true fits
  · intro result received
    obtain ⟨handled, handling, rfl⟩ := Option.map_eq_some_iff.mp received
    by_cases fits : host.FitsMessage message
    · obtain ⟨same, handlingSame, bounded⟩ := fitting fits
      cases handling.symm.trans handlingSame
      exact ⟨bounded, ordered.outgoing⟩
    · cases (unfitting fits).symm.trans handling

/-! ### Acknowledgments -/

/-- The handlers read no negative number of microseconds. -/
theorem timeval_valid (time : WireTime) : time.timeval.tvUsec ≠ -1 := by
  have nonneg : (0 : Int) ≤ time.timeval.tvUsec := Int.natCast_nonneg _
  omega

variable (host csock hdr) in
/-- An acknowledgment that is reported changes nothing but the statistics, and they say the same
of every IROB. -/
theorem reportAck_decides (before : List IrobId) (id : IrobId) :
    ((host.reportAck csock hdr before id).isSome = true ↔ host.stats.Counted id ∧
      (¬HasType (host.mapping.ifacePair csock) →
        host.stats.Unstriped (addresses (host.mapping.ifacePair csock)) id →
          host.measures hdr.srvTime hdr.qdelay before id = false)) ∧
    ∀ after ∈ host.reportAck csock hdr before id, ∃ stats : TransferStats,
      after = { host with stats := stats } ∧ ∀ other, (stats.Counted other ↔
        host.stats.Counted other) ∧
        (stats.Unstriped (addresses (host.mapping.ifacePair csock)) other ↔
          host.stats.Unstriped (addresses (host.mapping.ifacePair csock)) other) := by
  unfold Host.reportAck
  dsimp only
  have counted : (host.stats.reportAck id (addresses (host.mapping.ifacePair csock))
      hdr.srvTime.timeval).isSome = true ↔ host.stats.Counted id :=
    TransferStats.reportAck_isSome_iff (timeval_valid hdr.srvTime)
  cases reported : host.stats.reportAck id (addresses (host.mapping.ifacePair csock))
      hdr.srvTime.timeval with
  | none =>
      rw [reported] at counted
      exact ⟨iff_of_false Bool.false_ne_true fun both => Bool.false_ne_true (counted.mpr both.1),
        fun _ moved => (Option.not_mem_none _ moved).elim⟩
  | some result =>
      obtain ⟨passes, stats⟩ := result
      have passing := TransferStats.passes_iff (timeval_valid hdr.srvTime) reported
      have same : ∀ other, (stats.Counted other ↔ host.stats.Counted other) ∧ _ := fun other =>
        TransferStats.reportAck_same (timeval_valid hdr.srvTime) reported
      rw [reported] at counted
      rw [Option.bind_some, ← passing, ← networkType_isSome_iff]
      dsimp only
      split_ifs with unfit
      · refine ⟨iff_of_false Bool.false_ne_true fun both => ?_,
          fun _ moved => (Option.not_mem_none _ moved).elim⟩
        rw [Bool.and_eq_true, Bool.and_eq_true, Option.isNone_iff_eq_none] at unfit
        obtain ⟨⟨passed, measured⟩, untyped⟩ := unfit
        rw [untyped] at both
        exact Bool.false_ne_true ((both.2 Bool.false_ne_true passed).symm.trans measured)
      · refine ⟨iff_of_true rfl ⟨counted.mp rfl, fun untyped passed => ?_⟩, fun after moved => ?_⟩
        · by_contra measured
          refine unfit ?_
          rw [passed, Bool.eq_true_of_not_eq_false measured]
          cases typed : networkType (host.mapping.ifacePair csock) with
          | none => rfl
          | some type => exact (untyped (by rw [typed]; rfl)).elim
        · cases moved
          exact ⟨stats, rfl, same⟩

theorem ackReceived_decides (ordered : host.Ordered) (inRange : id.InRange) :
    Decides (host.ackReceived id) (host.outgoing.Answers id) := by
  unfold Host.ackReceived
  by_cases known : host.outgoing.Known id
  · rw [if_neg fun unknown => unknown_iff.mp unknown known]
    refine ordered.decides (.ackReceived id) inRange ?_
    exact Outgoing.ackReceived_isSome_iff.trans (and_iff_right known).symm
  · rw [if_pos (unknown_iff.mpr known)]
    exact .fails fun both => known both.1

/-- An acknowledgment that is received changes nothing but `outgoing_irobs`, where the same IROBs
can answer. -/
theorem ackReceived_same (ordered : host.Ordered) (acked : host.ackReceived id = some after) :
    ∃ outgoing : Outgoing, after = { host with outgoing := outgoing } ∧
      ∀ other : IrobId, other.InRange → (outgoing.Answers other ↔ host.outgoing.Answers other) := by
  unfold Host.ackReceived at acked
  split_ifs at acked
  obtain ⟨outgoing, moved, rfl⟩ := Option.map_eq_some_iff.mp acked
  exact ⟨outgoing, rfl, fun other otherRange =>
    Outgoing.answers_ackReceived ordered.outgoing otherRange moved⟩

/-- An element of a list is the head, or one of the tail. -/
theorem forall_append_cons {α : Type} {head : α} {tail : List α} {property : List α → α → Prop} :
    (∀ earlier element later, head :: tail = earlier ++ element :: later →
      property earlier element) ↔
    property [] head ∧ ∀ earlier element later, tail = earlier ++ element :: later →
      property (head :: earlier) element := by
  constructor
  · refine fun each => ⟨each [] head tail rfl, fun earlier element later shape => ?_⟩
    exact each (head :: earlier) element later (by rw [shape, List.cons_append])
  · rintro ⟨first, next⟩ earlier element later shape
    cases earlier with
    | nil =>
        cases shape
        exact first
    | cons other earlier =>
        cases shape
        exact next earlier element later rfl

/-- The loop of `do_ack` after some IROBs: each one is judged by the state before the loop. -/
theorem doAck_decides (ordered : host.Ordered) {ids : List IrobId}
    (ranged : ∀ id ∈ ids, id.InRange) (before : List IrobId) :
    Decides (doAck csock hdr before ids host)
      ((∀ id ∈ ids, host.stats.Counted id ∧ host.outgoing.Answers id) ∧
        (¬HasType (host.mapping.ifacePair csock) → ∀ earlier id later, ids = earlier ++ id :: later →
          host.stats.Unstriped (addresses (host.mapping.ifacePair csock)) id →
            host.measures hdr.srvTime hdr.qdelay (before ++ earlier) id = false)) := by
  induction ids generalizing host before with
  | nil =>
      refine ⟨iff_of_true rfl ⟨nofun, fun _ earlier id later shape => ?_⟩, fun after same => ?_⟩
      · exact absurd (congrArg List.length shape) (by simp)
      · cases same
        exact ordered
  | cons id rest ih =>
      obtain ⟨reportFits, reportSame⟩ :=
        reportAck_decides host csock hdr before id
      simp only [List.forall_mem_cons, forall_append_cons, List.append_nil]
      rw [doAck]
      cases reported : host.reportAck csock hdr before id with
      | none =>
          refine .fails fun both => ?_
          rw [reported] at reportFits
          exact Bool.false_ne_true (reportFits.mpr
            ⟨both.1.1.1, fun untyped => (both.2 untyped).1⟩)
      | some middle =>
          obtain ⟨stats, rfl, sameStats⟩ := reportSame middle reported
          rw [reported] at reportFits
          have counted := reportFits.mp rfl
          have middleOrdered : ({ host with stats := stats } : Host).Ordered :=
            ⟨ordered.incoming, ordered.outgoing⟩
          obtain ⟨ackFits, ackOrdered⟩ :=
            ackReceived_decides middleOrdered (ranged id List.mem_cons_self)
          rw [Option.bind_some]
          cases acked : ({ host with stats := stats } : Host).ackReceived id with
          | none =>
              refine .fails fun both => ?_
              rw [acked] at ackFits
              exact Bool.false_ne_true (ackFits.mpr both.1.1.2)
          | some after =>
              obtain ⟨outgoing, rfl, sameOutgoing⟩ := ackReceived_same middleOrdered acked
              rw [acked] at ackFits
              obtain ⟨restFits, restOrdered⟩ := ih (ackOrdered _ acked)
                (fun other member => ranged other (List.mem_cons_of_mem _ member)) (before ++ [id])
              simp only [List.append_assoc, List.singleton_append] at restFits
              refine ⟨?_, restOrdered⟩
              rw [Option.bind_some, restFits]
              have same : ∀ other ∈ rest, (stats.Counted other ∧ outgoing.Answers other ↔
                  host.stats.Counted other ∧ host.outgoing.Answers other) := fun other member =>
                and_congr (sameStats other).1
                  (sameOutgoing other (ranged other (List.mem_cons_of_mem _ member)))
              have unstriped : ∀ other, stats.Unstriped
                  (addresses (host.mapping.ifacePair csock)) other ↔ _ :=
                fun other => (sameStats other).2
              simp only [unstriped]
              rw [forall₂_congr same]
              constructor
              · exact fun both => ⟨⟨⟨counted.1, ackFits.mp rfl⟩, both.1⟩,
                  fun untyped => ⟨counted.2 untyped, both.2 untyped⟩⟩
              · exact fun both => ⟨both.1.2, fun untyped => (both.2 untyped).2⟩

theorem Ordered.doAck (ordered : host.Ordered) (inRange : hdr.InRange) :
    Decides (Host.doAck csock hdr [] hdr.acks host) (host.FitsAck csock hdr) := by
  have ranged : ∀ id ∈ hdr.acks, id.InRange := by
    intro id member
    rcases List.mem_cons.mp member with rfl | other
    · exact inRange.1
    · exact inRange.2.2 id other
  exact doAck_decides ordered ranged []

/-! ### Runs -/

theorem Decides.taken {handling : Option Host} {fits : Prop} (decides : Decides handling fits) :
    ((handling.map fun after => (after, Verdict.taken)).isSome = true ↔ fits) ∧
      ∀ result ∈ handling.map fun after => (after, Verdict.taken), result.1.Ordered := by
  refine ⟨by rw [Option.isSome_map]; exact decides.1, fun result ended => ?_⟩
  obtain ⟨after, moved, rfl⟩ := Option.map_eq_some_iff.mp ended
  exact decides.2 after moved

theorem handle_decides (ordered : host.Ordered) (inRange : hdr.InRange) (handler : Handler) :
    ((host.handle platform csock hdr handler).isSome = true ↔
      host.FitsHandler platform csock hdr handler) ∧
      ∀ result ∈ host.handle platform csock hdr handler, result.1.Ordered := by
  cases handler with
  | unrecognizedControlMsg | doDataCheck =>
      refine ⟨iff_of_true rfl trivial, fun result same => ?_⟩
      cases same
      exact ordered
  | doBeginIrob => exact ordered.receive ⟨inRange.1, inRange.2.1⟩
  | doEndIrob => exact ordered.receive ⟨inRange.1, Int.natCast_nonneg _⟩
  | doIrobChunk => exact ordered.receive inRange.1
  | doNewInterface => exact ordered.doNewInterface.taken
  | doDownInterface => exact ordered.doDownInterface.taken
  | doAck => exact (ordered.doAck inRange).taken
  | doGoodbye => exact ordered.doGoodbye.taken
  | doRequestResend => exact (ordered.doRequestResend inRange).taken

/-- A header is processed where it fits, and leaves the host ordered. -/
theorem process_decides (ordered : host.Ordered) (inRange : hdr.InRange) :
    ((∃ result, host.process platform csock hdr = some result) ↔
        host.Fits platform csock hdr) ∧
      ∀ result ∈ host.process platform csock hdr, result.1.Ordered := by
  rw [← Option.isSome_iff_exists]
  unfold process
  cases chosen : dispatchType hdr.type with
  | none =>
      refine ⟨iff_of_false Bool.false_ne_true fun fits => ?_,
        fun _ moved => (Option.not_mem_none _ moved).elim⟩
      exact fits.type (dispatchType_eq_none_iff.mp chosen)
  | some handler =>
      obtain ⟨fitting, after⟩ := handle_decides ordered inRange handler
      refine ⟨fitting.trans ⟨fun fits => ⟨?_, ?_⟩, fun fits => fits.handler handler chosen⟩, after⟩
      · rw [← dispatchType_eq_none_iff, chosen]
        exact nofun
      · intro other same
        cases chosen.symm.trans same
        exact fits

theorem ordered_of_reachable (reached : (machine platform).Reachable host) : host.Ordered := by
  apply reached.induct
  · rintro first rfl
    exact .initial
  · intro before next event _ ordered permitted moved
    cases event with
    | header csock hdr =>
        obtain ⟨result, processed, rfl⟩ := Option.map_eq_some_iff.mp moved
        exact (process_decides ordered permitted).2 result processed
    | recv len flags =>
        obtain ⟨result, reading, rfl⟩ := Option.map_eq_some_iff.mp moved
        exact ⟨ReceiverLattice.recv_bounded ordered.incoming reading, ordered.outgoing⟩
    | outgoing event =>
        obtain ⟨outgoing, stepped, rfl⟩ := Option.map_eq_some_iff.mp moved
        exact ordered.step permitted stepped
    | elsewhere mapping stats measures shuttingDown =>
        cases moved
        exact ⟨ordered.incoming, ordered.outgoing⟩

end Host

end Libcmm
