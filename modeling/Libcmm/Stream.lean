import Libcmm.Agreement

/-! # The ordered bytestream

A sender that makes anonymous sends only gives every IROB a dependency, if indirect, on
all those sent before. The receiver hands over the bytes of an IROB only when what it
depends on has been delivered. So nothing of a later buffer is handed over before all of
the earlier ones, and what `recv` has returned is the beginning of what was sent.
-/

namespace Libcmm

open Lib

/-- All bytes that `recv` has returned, in order. -/
def streamBytes : List Observation → List Byte
  | [] => []
  | .delivered delivery :: older => streamBytes older ++ delivery.bytes
  | .begun _ _ :: older => streamBytes older
  | .acknowledged _ :: older => streamBytes older

/-- The bytes the application has put into an IROB. -/
def OutgoingIrob.appData (irob : OutgoingIrob) : List Byte := irob.chunks.flatMap IrobChunk.bytes

theorem exists_delivered {history : List Observation} {id : IrobId}
    (some' : deliveredBytes history id ≠ []) :
    ∃ delivery, .delivered delivery ∈ history ∧ delivery.id = id := by
  induction history with
  | nil => exact (some' rfl).elim
  | cons first older ih =>
      by_cases now : ∃ delivery, first = .delivered delivery ∧ delivery.id = id
      · obtain ⟨delivery, rfl, named⟩ := now
        exact ⟨delivery, List.mem_cons_self, named⟩
      · have before : deliveredBytes older id ≠ [] := by
          cases first with
          | delivered delivery =>
              have other : delivery.id ≠ id := fun same => now ⟨delivery, rfl, same⟩
              rwa [deliveredBytes, if_neg other] at some'
          | begun _ _ => exact some'
          | acknowledged _ => exact some'
        obtain ⟨delivery, member, named⟩ := ih before
        exact ⟨delivery, List.mem_cons_of_mem _ member, named⟩

/-! ### Deliveries follow dependencies -/

/-- A `Begin_IROB` was accepted for opened IROBs only and with their dependencies, and
nothing of an IROB is delivered once it is past. -/
structure Sequenced (opened : List OutgoingIrob) (history : List Observation) : Prop where
  begun : ∀ id deps, .begun id deps ∈ history → (∃ irob ∈ opened, irob.id = id) ∧
    ∀ irob ∈ opened, irob.id = id → irob.deps.toList = deps
  fresh : ∀ delivery, .delivered delivery ∈ history → delivery.past.contains delivery.id = false

namespace Sequenced

variable {opened : List OutgoingIrob} {irobs : IrobLattice ReceiverPart} {history : List Observation}

/-- Whatever an IROB depends on is past when bytes of it are handed over. -/
theorem past_of_depends (sequenced : Sequenced opened history) (ordered : Ordered irobs history)
    {newer older : List Observation} {delivery : Delivery} {query : IrobId}
    (shape : history = newer ++ .delivered delivery :: older)
    (depends : Depends opened delivery.id query) : delivery.past.contains query = true := by
  -- the dependencies an IROB is sent with are past at any delivery of its bytes
  have direct : ∀ {newer older : List Observation} {delivery : Delivery} {irob : OutgoingIrob}
      {dep : IrobId}, history = newer ++ .delivered delivery :: older → irob ∈ opened →
      irob.id = delivery.id → dep ∈ irob.deps → delivery.past.contains dep = true := by
    intro newer older delivery irob dep shape member named listed
    obtain ⟨deps, begun, past⟩ := (ordered.inOrder newer delivery older shape).begun
    have seen : .begun delivery.id deps ∈ history := by
      rw [shape]
      exact List.mem_append_right _ (List.mem_cons_of_mem _ begun)
    apply past
    rw [← (sequenced.begun delivery.id deps seen).2 irob member named]
    exact OrderedSet.mem_toList.mpr listed
  induction depends with
  | single edge =>
      obtain ⟨irob, member, named, listed⟩ := edge
      exact direct shape member named listed
  | tail _ edge middlePast =>
      obtain ⟨irob, member, named, listed⟩ := edge
      have now := ordered.inOrder newer delivery older shape
      obtain ⟨earlier, delivered, same, -⟩ := now.finished _ middlePast
      obtain ⟨between, oldest, split⟩ := List.append_of_mem delivered
      have earlierShape : history = (newer ++ .delivered delivery :: between) ++
          .delivered earlier :: oldest := by
        rw [shape, split, List.append_assoc, List.cons_append]
      exact now.grows earlier delivered _
        (direct earlierShape member (named.trans same.symm) listed)

/-- Nothing of an IROB was handed over before something it depends on. -/
theorem undelivered (sequenced : Sequenced opened history) (ordered : Ordered irobs history)
    {newer older : List Observation} {delivery : Delivery} {later : IrobId}
    (shape : history = newer ++ .delivered delivery :: older)
    (depends : Depends opened later delivery.id) : deliveredBytes older later = [] := by
  by_contra some'
  obtain ⟨early, delivered, named⟩ := exists_delivered some'
  obtain ⟨between, oldest, split⟩ := List.append_of_mem delivered
  have earlyShape : history = (newer ++ .delivered delivery :: between) ++
      .delivered early :: oldest := by
    rw [shape, split, List.append_assoc, List.cons_append]
  have past := sequenced.past_of_depends ordered earlyShape (named.symm ▸ depends)
  have again := (ordered.inOrder newer delivery older shape).grows early delivered _ past
  have member : .delivered delivery ∈ history := by
    rw [shape]
    exact List.mem_append_right _ List.mem_cons_self
  cases (sequenced.fresh delivery member).symm.trans again

/-- Where every IROB depends on those sent before, what was handed over is what was
handed over of each IROB, in the order in which they were sent. -/
theorem streamBytes_eq (sequenced : Sequenced opened history) (ordered : Ordered irobs history)
    (increasing : opened.Pairwise fun newer older => older.id < newer.id)
    (chained : opened.Pairwise fun newer older => Depends opened newer.id older.id)
    {newer suffix : List Observation} (shape : history = newer ++ suffix) :
    streamBytes suffix = opened.reverse.flatMap fun irob => deliveredBytes suffix irob.id := by
  induction suffix generalizing newer with
  | nil => exact (List.flatMap_eq_nil_iff.mpr fun _ _ => rfl).symm
  | cons first older ih =>
      have before := ih (shape.trans (List.append_cons newer first older))
      cases first with
      | begun _ _ => exact before
      | acknowledged _ => exact before
      | delivered delivery =>
          obtain ⟨deps, begun, -⟩ := (ordered.inOrder newer delivery older shape).begun
          obtain ⟨⟨irob, member, named⟩, -⟩ := sequenced.begun delivery.id deps (by
            rw [shape]
            exact List.mem_append_right _ (List.mem_cons_of_mem _ begun))
          have distinct : (opened.map (·.id)).Nodup :=
            List.pairwise_map.mpr (increasing.imp fun below => (ne_of_lt below).symm)
          rw [streamBytes, before]
          symm
          apply Assembly.flatMap_append_last
            (List.nodup_reverse.mpr (List.Nodup.of_map _ distinct)) (List.mem_reverse.mpr member)
          · intro other listed different
            rw [deliveredBytes, if_neg]
            rw [← named]
            intro same
            exact different (List.inj_on_of_nodup_map distinct (List.mem_reverse.mp listed) member
              same.symm)
          · rw [deliveredBytes, if_pos named.symm]
          · apply List.pairwise_reverse.mpr (chained.imp _)
            rintro later earlier depends rfl
            exact sequenced.undelivered ordered shape (named ▸ depends)

/-- An IROB with a new identifier is opened. -/
theorem openIrob (sequenced : Sequenced opened history) {kept : OutgoingIrob}
    (fresh : kept.id ∉ opened.map (·.id)) : Sequenced (kept :: opened) history := by
  refine ⟨fun id deps begun => ?_, sequenced.fresh⟩
  obtain ⟨⟨irob, member, named⟩, same⟩ := sequenced.begun id deps begun
  refine ⟨⟨irob, List.mem_cons_of_mem _ member, named⟩, fun other listed sameId => ?_⟩
  rcases List.mem_cons.mp listed with rfl | old
  · exact (fresh (List.mem_map.mpr ⟨irob, member, named.trans sameId.symm⟩)).elim
  · exact same other old sameId

/-- An acknowledgment is scheduled. -/
theorem acknowledge (sequenced : Sequenced opened history) (id : IrobId) :
    Sequenced opened (.acknowledged id :: history) := by
  refine ⟨fun query deps begun => ?_, fun delivery delivered => ?_⟩
  · rcases List.mem_cons.mp begun with now | earlier
    · cases now
    · exact sequenced.begun query deps earlier
  · rcases List.mem_cons.mp delivered with now | earlier
    · cases now
    · exact sequenced.fresh delivery earlier

end Sequenced

/-! ### The sender -/

/-- All IROBs were sent anonymously and in the order of their identifiers, each depends
on those before, and what has been announced is the beginning of what was sent. -/
structure SendsInOrder (contents : Contents) (outgoing : IrobLattice (Option SenderPart))
    (opened : List OutgoingIrob) : Prop where
  inferred : InferenceRun.Sound ⟨outgoing, opened⟩
  increasing : opened.Pairwise fun newer older => older.id < newer.id
  anonymous : ∀ irob ∈ opened, irob.anonymous = true ∧ OutgoingIrob.appData irob ≠ []
  told : ∀ irob ∈ opened, (contents irob.id).bytes <+: OutgoingIrob.appData irob ∧
    ((contents irob.id).final = true → (contents irob.id).bytes = OutgoingIrob.appData irob)
  held : ∀ irob ∈ opened, ∀ pirob : OutgoingIrob, outgoing.find irob.id = some pirob →
    pirob.own ≠ none → OutgoingIrob.appData pirob = OutgoingIrob.appData irob

namespace SendsInOrder

variable {contents : Contents} {outgoing : IrobLattice (Option SenderPart)}
  {opened : List OutgoingIrob}

theorem initial (contents : Contents) : SendsInOrder contents .empty [] := by
  refine ⟨.initial, .nil, ?_, ?_, ?_⟩
  · exact fun _ member => (List.not_mem_nil member).elim
  · exact fun _ member => (List.not_mem_nil member).elim
  · exact fun _ member => (List.not_mem_nil member).elim

/-- Every IROB depends on all those sent before. -/
theorem chained (sends : SendsInOrder contents outgoing opened) :
    opened.Pairwise fun newer older => Depends opened newer.id older.id := by
  have inferred : ∀ newer irob older, opened = newer ++ irob :: older →
      ∀ other ∈ older, Depends opened irob.id other.id := by
    intro newer irob older shape other member
    have listed : irob ∈ opened := by
      rw [shape]
      exact List.mem_append_right _ List.mem_cons_self
    exact sends.inferred.inferred newer irob older shape other member
      (.inl (sends.anonymous irob listed).1)
  -- along the suffixes of the list of all IROBs, whose dependencies count
  suffices chain : ∀ newer suffix, opened = newer ++ suffix →
      suffix.Pairwise fun newer older => Depends opened newer.id older.id from chain [] opened rfl
  intro newer suffix
  induction suffix generalizing newer with
  | nil => exact fun _ => .nil
  | cons irob older ih =>
      intro shape
      exact .cons (inferred newer irob older shape)
        (ih _ (shape.trans (List.append_cons newer irob older)))

end SendsInOrder

/-- The buffer an event sends. -/
def ConnectionEvent.buffer : ConnectionEvent → List Byte
  | .openIrob _ _ data _ => data
  | _ => []

namespace Connection

open SenderIrob ReceiverLattice OutgoingIrob

variable {contents : Contents} {connection after : Connection}

/-- An IROB is replaced by one with the same data. -/
theorem sends_store (agrees : Agrees contents connection)
    (sends : SendsInOrder contents connection.outgoing connection.opened)
    {psirob changed : SenderIrob} {content : IrobContent}
    (replaces : Replaces contents connection psirob changed content)
    (data : changed.appData = psirob.appData) :
    SendsInOrder (Function.update contents psirob.id content)
      (connection.store changed).outgoing connection.opened := by
  have whole : ∀ irob ∈ connection.opened, irob.id = psirob.id →
      changed.appData = OutgoingIrob.appData irob := fun irob member same =>
    data.trans (sends.held irob member psirob.toOutgoing (same ▸ replaces.found) nofun)
  refine ⟨⟨sends.inferred.dominated.congr rfl rfl, sends.inferred.inferred⟩, sends.increasing,
    sends.anonymous, fun irob member => ?_, fun irob member pirob found real => ?_⟩
  · by_cases same : irob.id = psirob.id
    · rw [← whole irob member same, same, Function.update_self]
      exact ⟨replaces.offered.bytes_beginning, replaces.offered.bytes_of_final⟩
    · rw [Function.update_of_ne same]
      exact sends.told irob member
  · rw [agrees.find_store replaces (agrees.opened irob member).1] at found
    split_ifs at found with same
    · rw [← Option.some.inj found]
      exact whole irob member same
    · exact sends.held irob member pirob found real

/-- An IROB is erased. -/
theorem sends_erase (agrees : Agrees contents connection)
    (sends : SendsInOrder contents connection.outgoing connection.opened) {psirob : SenderIrob}
    (held : Found contents connection psirob) :
    SendsInOrder contents (connection.outgoing.erase psirob.id false).1 connection.opened := by
  obtain ⟨last, dominators⟩ := IrobLattice.erase_sender connection.outgoing psirob.id
  obtain ⟨-, -, -, finds⟩ :=
    agrees.wf.find_erase (agrees.openedRange held.listed) held.found false
  refine ⟨⟨sends.inferred.dominated.congr last dominators, sends.inferred.inferred⟩,
    sends.increasing, sends.anonymous, sends.told, fun irob member pirob found real => ?_⟩
  simp only [finds irob.id (agrees.opened irob member).1, Bool.false_eq_true, false_and,
    ↓reduceIte] at found
  split_ifs at found
  exact sends.held irob member pirob found real

/-- An opened IROB has the data it was opened with. -/
theorem Opens.appData_eq {id : IrobId} {deps : List IrobId} {data : List Byte} {sendLabels : Nat}
    {kept : OutgoingIrob} (opens : Opens connection after (.mk id deps data sendLabels) kept) :
    OutgoingIrob.appData kept = data := by
  rw [OutgoingIrob.appData, opens.data]
  exact (Chunked.initial id deps data sendLabels).appData_eq

/-- A buffer is sent. -/
theorem sends_open (agrees : Agrees contents connection)
    (sends : SendsInOrder contents connection.outgoing connection.opened) {id : IrobId}
    {data : List Byte} {sendLabels : Nat} {kept : OutgoingIrob} (inRange : id.InRange)
    (opens : Opens connection after (.mk id [] data sendLabels) kept) (some' : data ≠ [])
    (newest : ∀ irob ∈ connection.opened, irob.id < id) :
    SendsInOrder (Function.update contents id ⟨kept.deps.toList, sendLabels, [], false⟩)
      after.outgoing (kept :: connection.opened) := by
  have keptId : kept.id = id := opens.id
  have anonymous : kept.anonymous = true := by
    rw [opens.data]
    cases data with
    | nil => exact (some' rfl).elim
    | cons _ _ => rfl
  have sent := opens.appData_eq
  have others : ∀ irob ∈ connection.opened, irob.id ≠ id := fun irob member =>
    ne_of_lt (newest irob member)
  refine ⟨sends.inferred.insert (sends.inferred.dominated.insert inRange.1 rfl opens.inserting),
    .cons ?_ sends.increasing, ?_, ?_, ?_⟩
  · rw [keptId]
    exact newest
  · exact List.forall_mem_cons.mpr ⟨⟨anonymous, sent ▸ some'⟩, sends.anonymous⟩
  · intro irob member
    rcases List.mem_cons.mp member with rfl | old
    · rw [keptId, Function.update_self]
      exact ⟨List.nil_prefix, fun final => nomatch final⟩
    · rw [Function.update_of_ne (others irob old)]
      exact sends.told irob old
  · intro irob member pirob found real
    have irobRange : irob.id.InRange := by
      rcases List.mem_cons.mp member with rfl | old
      · exact keptId.symm ▸ inRange
      · exact (agrees.opened irob old).1
    cases opens.found irob.id pirob irobRange found with
    | itself same linked =>
        have itself : irob = kept := by
          rcases List.mem_cons.mp member with now | old
          · exact now
          · exact (others irob old (same.trans keptId)).elim
        rw [itself]
        rcases linked with rfl | rfl <;> rfl
    | other before different earlier linked =>
        rcases List.mem_cons.mp member with rfl | old
        · exact (different rfl).elim
        rcases linked with rfl | rfl
        · exact sends.held irob old pirob earlier real
        · exact sends.held irob old before earlier real
    | holder different shape =>
        rw [shape] at real
        exact (real rfl).elim

/-! ### The receiver -/

namespace Agrees

/-- What a message makes the receiver observe is in sequence. -/
theorem sequenced_arrive (agrees : Agrees contents connection) {message : Message}
    (sent : message ∈ connection.wire) {handled : Handled}
    (sequenced : Sequenced connection.opened connection.receiver.history) :
    Sequenced connection.opened
      (Receiver.observed message handled ++ connection.receiver.history) := by
  refine ⟨fun id deps member => ?_, fun delivery member => ?_⟩
  · rcases List.mem_append.mp member with new | old
    · rcases Receiver.mem_observed new with ⟨acked, -⟩ | ⟨_, _, _, rfl, -, begun⟩
      · cases acked
      cases begun
      obtain ⟨known, conforms⟩ := agrees.wire _ sent
      refine ⟨List.mem_map.mp known, fun irob listed same => ?_⟩
      rw [conforms.1]
      rw [← same, (agrees.opened irob listed).2.1]
    · exact sequenced.begun id deps old
  · rcases List.mem_append.mp member with new | old
    · rcases Receiver.mem_observed new with ⟨acked, -⟩ | ⟨_, _, _, -, -, begun⟩
      · cases acked
      · cases begun
    · exact sequenced.fresh delivery old

/-- Bytes handed over are in sequence. -/
theorem sequenced_recv (agrees : Agrees contents connection) {len : Nat} {flags : RecvFlags}
    {lattice : ReceiverLattice} {deliveries : List Delivery}
    (looping : connection.receiver.lattice.recv len flags = some (lattice, deliveries))
    (sequenced : Sequenced connection.opened connection.receiver.history) :
    Sequenced connection.opened
      (Receiver.handed flags deliveries ++ connection.receiver.history) := by
  have delivered : ∀ seen ∈ Receiver.handed flags deliveries,
      ∃ delivery ∈ deliveries, seen = .delivered delivery := by
    intro seen member
    unfold Receiver.handed at member
    split_ifs at member
    · cases member
    · obtain ⟨delivery, listed, rfl⟩ := List.mem_map.mp (List.mem_reverse.mp member)
      exact ⟨delivery, listed, rfl⟩
  refine ⟨fun id deps member => ?_, fun delivery member => ?_⟩
  · rcases List.mem_append.mp member with new | old
    · obtain ⟨delivery, -, other⟩ := delivered _ new
      cases other
    · exact sequenced.begun id deps old
  · rcases List.mem_append.mp member with new | old
    · obtain ⟨other, listed, same⟩ := delivered _ new
      cases same
      rcases ReceiverLattice.Sound.recvLoop agrees.receiver flags (le_refl len) with
        ⟨-, trapped⟩ | ⟨next, others, ran, fresh, -⟩
      · cases trapped.symm.trans looping
      · cases ran.symm.trans looping
        exact fresh delivery listed
    · exact sequenced.fresh delivery old

end Agrees

/-- Both ends of an ordered bytestream. -/
structure Streaming (contents : Contents) (connection : Connection) : Prop where
  agrees : Agrees contents connection
  sends : SendsInOrder contents connection.outgoing connection.opened
  ordered : Ordered connection.receiver.lattice.irobs connection.receiver.history
  sequenced : Sequenced connection.opened connection.receiver.history

/-- Buffers are sent anonymously, under increasing identifiers, and never peeked at. -/
def Streams (connection : Connection) : ConnectionEvent → Prop
  | .openIrob id deps data _ => deps = [] ∧ data ≠ [] ∧ ∀ irob ∈ connection.opened, irob.id < id
  | .call _ calling => calling.adds = false
  | .recv _ flags => flags.peek = false
  | _ => True

/-- All bytes sent, in order. -/
def sentBytes (connection : Connection) : List Byte :=
  connection.opened.reverse.flatMap OutgoingIrob.appData

namespace Streaming

/-- The bytes received are the beginning of those sent. -/
theorem beginning (streaming : Streaming contents connection) :
    streamBytes connection.receiver.history <+: connection.sentBytes := by
  obtain ⟨agrees, sends, ordered, sequenced⟩ := streaming
  rw [sequenced.streamBytes_eq ordered sends.increasing sends.chained (List.nil_append _).symm]
  apply Assembly.flatMap_beginning
  · intro irob member
    exact (Receiver.Sound.delivered_beginning agrees.receiver irob.id).trans
      (sends.told irob (List.mem_reverse.mp member)).1
  · apply List.pairwise_reverse.mpr (List.Pairwise.imp_of_mem _ sends.chained)
    intro later earlier _ member depends some'
    obtain ⟨delivery, delivered, named⟩ := exists_delivered some'
    obtain ⟨newer, older, shape⟩ := List.append_of_mem delivered
    have past := ordered.grows delivery delivered _
      (sequenced.past_of_depends ordered shape (named.symm ▸ depends))
    obtain ⟨final, whole⟩ := ReceiverLattice.Sound.past agrees.receiver earlier.id past
    rw [whole]
    exact (sends.told earlier member).2 final

/-- An IROB that has ended has bytes. -/
theorem nonempty (streaming : Streaming contents connection) : contents.Nonempty := by
  intro id final none
  obtain ⟨irob, member, rfl⟩ := List.mem_map.mp (streaming.agrees.openedOfFinal final)
  apply (streaming.sends.anonymous irob member).2
  rw [← (streaming.sends.told irob member).2 final, IrobContent.bytes, none]
  rfl

theorem initial : Streaming (fun _ => ⟨[], 0, [], false⟩) empty := by
  refine ⟨.initial, .initial _, ⟨.empty, ?_, ?_, ?_⟩, ⟨?_, ?_⟩⟩
  · intro id contained
    cases contained.symm.trans (IntSet.contains_empty id)
  · exact fun _ member => (List.not_mem_nil member).elim
  · intro newer delivery older shape
    cases newer <;> cases shape
  · exact fun _ _ member => (List.not_mem_nil member).elim
  · exact fun _ member => (List.not_mem_nil member).elim

/-- Every event keeps the bytestream in order. -/
theorem step (streaming : Streaming contents connection) {event : ConnectionEvent}
    (permitted : (machine.restrict Streams).permitted connection event)
    (moved : connection.step event = some after) :
    ∃ later, Streaming later after ∧ after.sentBytes = connection.sentBytes ++ event.buffer := by
  obtain ⟨agrees, sends, ordered, sequenced⟩ := streaming
  obtain ⟨permitted, promised⟩ := permitted
  cases event with
  | openIrob id deps data sendLabels =>
      obtain ⟨rfl, some', newest⟩ := promised
      obtain ⟨kept, opens⟩ := agrees.opens permitted.1 permitted.2 moved
      have next := sends_open agrees sends permitted.1 opens some' newest
      have fresh : kept.id ∉ connection.openedIds := opens.id.symm ▸ opens.fresh
      have agreesNext := (agrees.openIrob opens permitted.1).1
      rw [opens.shape] at agreesNext ⊢
      refine ⟨_, ⟨agreesNext, next, ordered, sequenced.openIrob fresh⟩, ?_⟩
      rw [sentBytes, List.reverse_cons, List.flatMap_append, List.flatMap_singleton,
        opens.appData_eq]
      rfl
  | call id calling =>
      rcases agrees.call permitted moved with
        rfl | ⟨psirob, changed, content, wire, replaces, data, rfl, next⟩
      · exact ⟨contents, ⟨agrees, sends, ordered, sequenced⟩, (List.append_nil _).symm⟩
      · exact ⟨_, ⟨next, sends_store agrees sends replaces (data promised), ordered, sequenced⟩,
          (List.append_nil _).symm⟩
  | sendBegin id =>
      obtain ⟨next, wire, rfl⟩ := agrees.sendBegin moved
      exact ⟨contents, ⟨next, sends, ordered, sequenced⟩, (List.append_nil _).symm⟩
  | sendEnd id =>
      obtain ⟨next, wire, rfl⟩ := agrees.sendEnd moved
      exact ⟨contents, ⟨next, sends, ordered, sequenced⟩, (List.append_nil _).symm⟩
  | sendDataCheck id =>
      cases moved
      exact ⟨contents, ⟨agrees.queue _ _ _, sends, ordered, sequenced⟩, (List.append_nil _).symm⟩
  | arrive message =>
      obtain ⟨handled, handling, -, rfl, next⟩ := agrees.arrive permitted moved
      have inRange := agrees.openedRange (agrees.wire message permitted).1
      exact ⟨contents, ⟨next, sends, ordered.dispatch inRange handling,
        agrees.sequenced_arrive permitted sequenced⟩, (List.append_nil _).symm⟩
  | recv len flags =>
      obtain ⟨receiver, reading, rfl, next⟩ := agrees.recv moved
      obtain ⟨⟨lattice, deliveries⟩, looping, rfl⟩ := Option.map_eq_some_iff.mp reading
      have orderedNext := ReceiverLattice.recvLoop_keeps (fun _ _ _ _ _ _ _ _ held found passing =>
        Ordered.passBytes promised held found passing) _ looping ordered
      exact ⟨contents, ⟨next, sends, orderedNext, agrees.sequenced_recv looping sequenced⟩,
        (List.append_nil _).symm⟩
  | dataCheck id =>
      cases moved
      have next := agrees.dataCheck id
      unfold Connection.dataCheckRequested at next ⊢
      split at next
      · exact ⟨contents, ⟨next, sends, ordered.observe [.acknowledged id] nofun,
          sequenced.acknowledge id⟩, (List.append_nil _).symm⟩
      · exact ⟨contents, ⟨next, sends, ordered, sequenced⟩, (List.append_nil _).symm⟩
  | sendRequest id request =>
      cases moved
      exact ⟨contents, ⟨agrees.queue _ _ _, sends, ordered, sequenced⟩, (List.append_nil _).symm⟩
  | resendRequest request =>
      rcases agrees.resendRequest moved with rfl | ⟨psirob, changed, replaces, data, rfl⟩
      · exact ⟨contents, ⟨agrees, sends, ordered, sequenced⟩, (List.append_nil _).symm⟩
      · exact ⟨_, ⟨(agrees.store replaces).1, sends_store agrees sends replaces data, ordered,
          sequenced⟩, (List.append_nil _).symm⟩
  | ack id =>
      rcases agrees.ackReceived moved with rfl | ⟨psirob, -, replaces, changes⟩
      · exact ⟨contents, ⟨agrees, sends, ordered, sequenced⟩, (List.append_nil _).symm⟩
      have agreesStored := (agrees.store replaces).1
      have stored := sends_store agrees sends replaces rfl
      rcases changes with ⟨-, rfl⟩ | ⟨-, rfl⟩
      · exact ⟨_, ⟨agreesStored, stored, ordered, sequenced⟩, (List.append_nil _).symm⟩
      · have kept := agrees.found_store replaces
        have erased := agreesStored.erase kept
        have last := sends_erase agreesStored stored kept
        exact ⟨_, ⟨erased, last, ordered, sequenced⟩, (List.append_nil _).symm⟩

end Streaming

theorem streaming_of_reachable (reached : (machine.restrict Streams).Reachable connection) :
    ∃ contents, Streaming contents connection := by
  apply reached.induct
  · rintro first rfl
    exact ⟨_, .initial⟩
  · rintro before after event - ⟨contents, streaming⟩ permitted moved
    obtain ⟨later, next, -⟩ := streaming.step permitted moved
    exact ⟨later, next⟩

/-- An ordered bytestream end to end: whatever was sent, arrived, lost, duplicated,
acknowledged and read, the bytes that `recv` has returned are the beginning of the
concatenation of all buffers sent. A message that arrives is taken and every `recv`
returns. -/
theorem received_in_order (reached : (machine.restrict Streams).Reachable connection) :
    streamBytes connection.receiver.history <+: connection.sentBytes ∧
    (∀ event after, (machine.restrict Streams).permitted connection event →
      connection.step event = some after →
        after.sentBytes = connection.sentBytes ++ event.buffer) ∧
    (∀ message ∈ connection.wire, ∃ after, connection.step (.arrive message) = some after) ∧
    ∀ len flags, ∃ after, connection.step (.recv len flags) = some after := by
  obtain ⟨contents, streaming⟩ := streaming_of_reachable reached
  refine ⟨streaming.beginning, fun event after permitted moved => ?_, fun message sent => ?_,
    fun len flags => ?_⟩
  · obtain ⟨later, -, grown⟩ := streaming.step permitted moved
    exact grown
  · obtain ⟨known, conforms⟩ := streaming.agrees.wire message sent
    obtain ⟨next, verdict, receiving, -⟩ := Receiver.Sound.receive streaming.agrees.receiver
      streaming.agrees.valid (streaming.agrees.openedRange known) conforms
    exact ⟨_, Option.map_eq_some_iff.mpr ⟨(next, verdict), receiving, rfl⟩⟩
  · obtain ⟨next, reading⟩ := Receiver.Sound.read streaming.agrees.receiver
      streaming.agrees.valid streaming.nonempty len flags
    exact ⟨_, Option.map_eq_some_iff.mpr ⟨next, reading, rfl⟩⟩

instance (connection : Connection) : DecidablePred connection.Streams
  | .openIrob id deps data _ => inferInstanceAs (Decidable
      (deps = [] ∧ data ≠ [] ∧ ∀ irob ∈ connection.opened, irob.id < id))
  | .call _ calling => inferInstanceAs (Decidable (calling.adds = false))
  | .recv _ flags => inferInstanceAs (Decidable (flags.peek = false))
  | .sendBegin _ | .sendEnd _ | .sendDataCheck _ | .arrive _ | .dataCheck _ | .sendRequest _ _
  | .resendRequest _ | .ack _ => .isTrue trivial

/-- Two buffers over two csockets. The second one is here first, and the first one is
acknowledged before it is read. -/
def overtakenEvents : List ConnectionEvent :=
  [.openIrob 0 [] [1, 2] 0, .openIrob 1 [] [3] 0, .sendBegin 0, .call 0 (.getReadyBytes 0 0),
    .sendEnd 0, .sendBegin 1, .call 1 (.getReadyBytes 1 0), .sendEnd 1,
    .arrive (.irobChunk 1 0 0 [3]), .arrive (.beginIrob 1 [0] 0), .arrive (.endIrob 1 1 1),
    .recv 4 ⟨false, false⟩, .arrive (.endIrob 0 2 1), .arrive (.irobChunk 0 0 0 [1, 2]),
    .arrive (.beginIrob 0 [] 0), .ack 0, .recv 1 ⟨false, false⟩, .recv 4 ⟨true, false⟩]

theorem received_in_order_overtaken : ∃ connection,
    (machine.restrict Streams).Reachable connection ∧
    streamBytes connection.receiver.history = [1, 2, 3] ∧ [1, 2, 3] <+: connection.sentBytes := by
  have ran : ∃ connection, (machine.restrict Streams).run empty overtakenEvents = some connection ∧
      streamBytes connection.receiver.history = [1, 2, 3] := ⟨_, rfl, rfl⟩
  obtain ⟨connection, ran, received⟩ := ran
  have reached := Machine.Reachable.run (.initial rfl) ran
  exact ⟨connection, reached, received, received ▸ (received_in_order reached).1⟩

end Connection

end Libcmm
