import Libcmm.Agreement

/-! # Acknowledgments

An acknowledgment lets the sender forget an IROB. The handlers of `Begin_IROB`,
`IROB_Chunk` and `End_IROB` acknowledge only what is complete, and what is complete
stays so until it is delivered. A data check tests `seen_end` the wrong way round. It
acknowledges an IROB that is begun, has no gaps and lacks its end, and no other pending
one. In runs in which no data check meets such an IROB every acknowledgment is sound.
-/

namespace Libcmm

open Lib

/-- The identifiers acknowledged so far. -/
def acknowledgedIds : List Observation → List IrobId
  | [] => []
  | .acknowledged id :: older => id :: acknowledgedIds older
  | .begun _ _ :: older => acknowledgedIds older
  | .delivered _ :: older => acknowledgedIds older

/-- What is handed over is not acknowledged by it. -/
theorem acknowledgedIds_handed (flags : RecvFlags) (deliveries : List Delivery)
    (history : List Observation) :
    acknowledgedIds (Receiver.handed flags deliveries ++ history) = acknowledgedIds history := by
  have silent : ∀ seen : List Delivery, acknowledgedIds (seen.map Observation.delivered ++ history) =
      acknowledgedIds history := by
    intro seen
    induction seen with
    | nil => rfl
    | cons delivery rest ih => exact ih
  unfold Receiver.handed
  split_ifs
  · rfl
  · rw [← List.map_reverse]
    exact silent _

/-- A handled message acknowledges at most its own IROB. -/
theorem mem_acknowledgedIds_observed {message : Message} {handled : Handled}
    {history : List Observation} {id : IrobId}
    (member : id ∈ acknowledgedIds (Receiver.observed message handled ++ history)) :
    (id = message.id ∧ handled.ack.isSome = true) ∨ id ∈ acknowledgedIds history := by
  have ahead : ∀ rest : List Observation, id ∈ acknowledgedIds (.acknowledged message.id :: rest) →
      id = message.id ∨ id ∈ acknowledgedIds rest := fun _ => List.mem_cons.mp
  unfold Receiver.observed at member
  split_ifs at member with acked
  · apply (ahead _ member).imp (⟨·, acked⟩)
    intro earlier
    split at earlier
    · exact earlier
    · exact earlier
  · split at member
    · exact .inr member
    · exact .inr member

namespace ReceiverLattice

open ReceiverIrob

/-- The IROB is begun, has no gaps, and its end has not been seen: the one pending
IROB that a data check acknowledges. -/
def openEnded (state : ReceiverLattice) (id : IrobId) : Bool :=
  match state.irobs.find id with
  | none => false
  | some irob => !irob.placeholder && (getMissingChunks irob).isEmpty && !seenEnd irob

/-- A data check of any other IROB acknowledges it only if it was delivered. -/
theorem past_of_dataCheck {state : ReceiverLattice} {id : IrobId}
    (closed : state.openEnded id = false) (acked : state.dataCheckRequested id = .ack) :
    state.irobs.pastIrobs.contains id = true := by
  unfold dataCheckRequested at acked
  unfold openEnded at closed
  cases found : state.irobs.find id with
  | none =>
      simp only [found] at acked
      split_ifs at acked with past
      exact past
  | some irob =>
      simp only [found] at acked closed
      split_ifs at acked with nothing
      obtain ⟨deps, data, ends⟩ := ResendRequestType.mk.inj nothing
      rw [deps, ends, Bool.not_eq_eq_eq_not.mp data] at closed
      cases closed

theorem Sound.holds_iff {state : ReceiverLattice} {id : IrobId} :
    Sound.Holds state id ↔ Known True state.irobs id := by
  apply or_congr_right
  constructor
  · rintro ⟨irob, found, complete, real⟩
    exact ⟨irob, found, real, fun _ => complete⟩
  · rintro ⟨irob, found, real, complete⟩
    exact ⟨irob, found, complete trivial, real⟩

end ReceiverLattice

namespace Receiver

open ReceiverLattice ReceiverIrob

/-- The receiver has delivered all of `data` under an identifier, or holds what it has
not delivered. -/
def HasAll (receiver : Receiver) (id : IrobId) (data : List Byte) : Prop :=
  deliveredBytes receiver.history id = data ∨
    ∃ irob, receiver.lattice.irobs.find id = some irob ∧
      deliveredBytes receiver.history id ++ unread irob = data

/-- Everything acknowledged is past, or begun and complete. -/
def Acknowledges (receiver : Receiver) : Prop :=
  ∀ id ∈ acknowledgedIds receiver.history,
    id.InRange ∧ Known True receiver.lattice.irobs id

/-- What a receiver holds of an IROB is all there is. -/
theorem Sound.hasAll {contents : Contents} {receiver : Receiver} {id : IrobId}
    (sound : receiver.Sound contents) (inRange : id.InRange)
    (known : Known True receiver.lattice.irobs id) :
    (contents id).final = true ∧ receiver.HasAll id (contents id).bytes := by
  rcases known with past | ⟨irob, found, -, complete⟩
  · obtain ⟨final, delivered⟩ := ReceiverLattice.Sound.past sound id past
    exact ⟨final, .inl delivered⟩
  · have pending := (ReceiverLattice.Sound.pending sound id irob inRange found).2
    obtain ⟨reading, -⟩ := pending.phase.toReading (complete trivial)
    exact ⟨reading.final, .inr ⟨irob, found, reading.bytes⟩⟩

end Receiver

namespace Connection

open SenderIrob ReceiverLattice OutgoingIrob

/-- Acknowledgments come from the receiver. -/
def Scheduled (connection : Connection) : ConnectionEvent → Prop
  | .ack id => id ∈ acknowledgedIds connection.receiver.history
  | _ => True

/-- A data check does not meet an IROB that is begun, without gaps and without its
end. -/
def InTime (connection : Connection) : ConnectionEvent → Prop
  | .dataCheck id => connection.receiver.lattice.openEnded id = false
  | _ => True

instance (connection : Connection) : DecidablePred connection.Scheduled
  | .ack id => inferInstanceAs (Decidable (id ∈ acknowledgedIds connection.receiver.history))
  | .openIrob _ _ _ _ | .call _ _ | .sendBegin _ | .sendEnd _ | .sendDataCheck _ | .arrive _
  | .recv _ _ | .dataCheck _ | .sendRequest _ _ | .resendRequest _ => .isTrue trivial

instance (connection : Connection) : DecidablePred connection.InTime
  | .dataCheck id => inferInstanceAs (Decidable (connection.receiver.lattice.openEnded id = false))
  | .openIrob _ _ _ _ | .call _ _ | .sendBegin _ | .sendEnd _ | .sendDataCheck _ | .arrive _
  | .recv _ _ | .ack _ | .sendRequest _ _ | .resendRequest _ => .isTrue trivial

variable {connection after : Connection}

namespace Agrees

variable {contents : Contents}

/-- Every event keeps acknowledgments sound, unless a data check comes too early. -/
theorem acknowledges (agrees : Agrees contents connection)
    (sound : connection.receiver.Acknowledges) {event : ConnectionEvent}
    (permitted : ((machine.restrict Scheduled).restrict InTime).permitted connection event)
    (moved : connection.step event = some after) : after.receiver.Acknowledges := by
  obtain ⟨⟨permitted, -⟩, inTime⟩ := permitted
  have wf := ReceiverLattice.Sound.wf agrees.receiver
  cases here : event.atReceiver with
  | false =>
      rw [step_receiver here moved]
      exact sound
  | true =>
      cases event with
      | arrive message =>
          obtain ⟨handled, handling, handles, rfl, -⟩ := agrees.arrive permitted moved
          obtain ⟨known, conforms⟩ := agrees.wire message permitted
          have inRange := agrees.openedRange known
          have keeps : Keeps connection.receiver.lattice.irobs handled.after.irobs := by
            apply Keeps.dispatch wf inRange _ handling
            rintro id deps sendLabels rfl dep member
            rw [conforms.1] at member
            exact agrees.valid.deps id dep member
          intro id member
          rcases mem_acknowledgedIds_observed member with ⟨rfl, acked⟩ | earlier
          · exact ⟨inRange, Sound.holds_iff.mp (handles.ack acked)⟩
          · obtain ⟨idRange, before⟩ := sound id earlier
            exact ⟨idRange, keeps.known True id idRange before⟩
      | recv len flags =>
          obtain ⟨receiver, reading, rfl, -⟩ := agrees.recv moved
          obtain ⟨⟨lattice, deliveries⟩, looping, rfl⟩ := Option.map_eq_some_iff.mp reading
          have keeps := Keeps.recv wf looping
          intro id member
          rw [acknowledgedIds_handed] at member
          obtain ⟨idRange, before⟩ := sound id member
          exact ⟨idRange, keeps.known True id idRange before⟩
      | dataCheck id =>
          cases moved
          unfold Connection.dataCheckRequested
          split
          · rename_i acked
            have past := past_of_dataCheck inTime acked
            obtain ⟨final, -⟩ := ReceiverLattice.Sound.past agrees.receiver id past
            intro query member
            rcases List.mem_cons.mp member with rfl | earlier
            · exact ⟨agrees.openedRange (agrees.openedOfFinal final), .inl past⟩
            · exact sound query earlier
          · exact sound
      | _ => cases here

/-- An acknowledgment erases no IROB but the acknowledged one. -/
theorem erased_of_ack (agrees : Agrees contents connection) {id query : IrobId}
    (inRange : id.InRange) (queryRange : query.InRange)
    (moved : connection.ackReceived id = some after) {pirob : OutgoingIrob}
    (found : connection.outgoing.find query = some pirob)
    (gone : after.outgoing.find query = none) : query = id := by
  rcases agrees.ackReceived moved with rfl | ⟨psirob, held, replaces, changes⟩
  · cases found.symm.trans gone
  have named : psirob.id = id := agrees.wf.find_id inRange held
  subst named
  by_contra other
  have stored : (connection.store psirob.ack).outgoing.find query = some pirob := by
    rw [agrees.find_store replaces queryRange, if_neg other, found]
  rcases changes with ⟨-, rfl⟩ | ⟨-, rfl⟩
  · cases stored.symm.trans gone
  · have kept := agrees.found_store replaces
    obtain ⟨-, -, -, finds⟩ := (agrees.store replaces).1.wf.find_erase
      (agrees.openedRange replaces.listed) kept.found false
    have still : ((connection.store psirob.ack).outgoing.erase psirob.id false).1.find query =
        some pirob := by
      simp only [finds query queryRange, other, ↓reduceIte, Bool.false_eq_true, false_and, stored]
    cases still.symm.trans gone

end Agrees

/-- Acknowledgments are sound in runs without early data checks. The receiver has the
begin, the end and every chunk of an acknowledged IROB or has delivered it, and when an
acknowledgment erases an IROB at the sender, the receiver has delivered or holds all of
its bytes. -/
theorem acknowledged_received
    (reached : ((machine.restrict Scheduled).restrict InTime).Reachable connection) :
    (∀ id ∈ acknowledgedIds connection.receiver.history,
      Sound.Holds connection.receiver.lattice id) ∧
    ∀ id query psirob after, id ∈ acknowledgedIds connection.receiver.history → query.InRange →
      connection.outgoing.find query = some (toOutgoing psirob) →
      connection.step (.ack id) = some after → after.outgoing.find query = none →
        connection.receiver.HasAll query psirob.appData := by
  obtain ⟨contents, agrees⟩ := agrees_of_reachable reached.of_restrict.of_restrict
  have sound : connection.receiver.Acknowledges := by
    apply reached.induct (motive := fun connection => connection.receiver.Acknowledges)
    · rintro first rfl id member
      cases member
    · intro before after event reachable held permitted moved
      obtain ⟨contents, agrees⟩ := agrees_of_reachable reachable.of_restrict.of_restrict
      exact agrees.acknowledges held permitted moved
  refine ⟨fun id member => Sound.holds_iff.mpr (sound id member).2, ?_⟩
  intro id query psirob after member queryRange found moved gone
  obtain ⟨inRange, known⟩ := sound id member
  have same := agrees.erased_of_ack inRange queryRange moved found gone
  subst same
  obtain ⟨final, all⟩ := Receiver.Sound.hasAll agrees.receiver inRange known
  have held := agrees.found found (asSender_toOutgoing psirob)
  have named : psirob.id = query := agrees.wf.find_id inRange found
  have offers := held.offers
  rw [named] at offers
  rw [← offers.bytes_of_final final]
  exact all

/-- Two bytes are sent as one chunk, and everything arrives. -/
def wholeEvents : List ConnectionEvent :=
  [.openIrob 0 [] [1, 2] 0, .sendBegin 0, .call 0 (.getReadyBytes 0 0), .sendEnd 0,
    .arrive (.beginIrob 0 [] 0), .arrive (.endIrob 0 2 1), .arrive (.irobChunk 0 0 0 [1, 2])]

theorem acknowledged_received_whole : ∃ connection psirob after,
    ((machine.restrict Scheduled).restrict InTime).Reachable connection ∧
    connection.outgoing.find 0 = some (toOutgoing psirob) ∧ psirob.appData = [1, 2] ∧
    connection.step (.ack 0) = some after ∧ after.outgoing.find 0 = none ∧
    connection.receiver.HasAll 0 [1, 2] := by
  have ran : ∃ connection psirob after,
      ((machine.restrict Scheduled).restrict InTime).run empty wholeEvents = some connection ∧
      (0 : IrobId) ∈ acknowledgedIds connection.receiver.history ∧
      connection.outgoing.find 0 = some (toOutgoing psirob) ∧ psirob.appData = [1, 2] ∧
      connection.step (.ack 0) = some after ∧ after.outgoing.find 0 = none :=
    ⟨_, _, _, rfl, List.mem_cons_self, rfl, rfl, rfl, rfl⟩
  obtain ⟨connection, psirob, after, ran, acked, found, data, moved, gone⟩ := ran
  have reached := Machine.Reachable.run (.initial rfl) ran
  have all := (acknowledged_received reached).2 0 0 psirob after acked (by decide) found moved gone
  exact ⟨connection, psirob, after, reached, found, data, moved, gone, data ▸ all⟩

/-- Two bytes are sent as two chunks. The second one is lost with the end, and then
comes a data check. -/
def lostEvents : List ConnectionEvent :=
  [.openIrob 0 [] [1, 2] 0, .sendBegin 0, .call 0 (.getReadyBytes 0 1),
    .call 0 (.getReadyBytes 0 1), .sendEnd 0, .arrive (.beginIrob 0 [] 0),
    .arrive (.irobChunk 0 0 0 [1]), .sendDataCheck 0, .dataCheck 0]

/-- The IROB is acknowledged and erased at the sender, but its second byte has not
arrived. -/
theorem lost_acknowledged : ∃ connection psirob after,
    (machine.restrict Scheduled).Reachable connection ∧
    (0 : IrobId) ∈ acknowledgedIds connection.receiver.history ∧
    ¬Sound.Holds connection.receiver.lattice 0 ∧
    connection.outgoing.find 0 = some (toOutgoing psirob) ∧
    connection.step (.ack 0) = some after ∧ after.outgoing.find 0 = none ∧
    ¬connection.receiver.HasAll 0 psirob.appData := by
  have ran : ∃ connection psirob after irob,
      (machine.restrict Scheduled).run empty lostEvents = some connection ∧
      (0 : IrobId) ∈ acknowledgedIds connection.receiver.history ∧
      connection.outgoing.find 0 = some (toOutgoing psirob) ∧ psirob.appData = [1, 2] ∧
      connection.step (.ack 0) = some after ∧ after.outgoing.find 0 = none ∧
      connection.receiver.lattice.irobs.pastIrobs.contains 0 = false ∧
      connection.receiver.lattice.irobs.find 0 = some irob ∧
      ReceiverIrob.isComplete irob = some false ∧ ReceiverIrob.unread irob = [1] ∧
      deliveredBytes connection.receiver.history 0 = [] :=
    ⟨_, _, _, _, rfl, List.mem_cons_self, rfl, rfl, rfl, rfl, rfl, rfl, rfl, rfl, rfl⟩
  obtain ⟨connection, psirob, after, irob, ran, acked, found, data, moved, gone, fresh, pending,
    incomplete, unread, delivered⟩ := ran
  refine ⟨connection, psirob, after, Machine.Reachable.run (.initial rfl) ran, acked, ?_, found,
    moved, gone, ?_⟩
  · rintro (past | ⟨other, held, complete, -⟩)
    · cases past.symm.trans fresh
    · cases pending.symm.trans held
      cases complete.symm.trans incomplete
  · rw [data]
    rintro (all | ⟨other, held, all⟩)
    · rw [delivered] at all
      cases all
    · cases pending.symm.trans held
      rw [delivered, unread] at all
      cases all

end Connection

end Libcmm
