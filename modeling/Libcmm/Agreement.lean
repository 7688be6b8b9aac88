import Libcmm.Connection

/-! # Agreement of the two ends

The two ends are related through the contents of all IROBs, as announced so far.
`Agrees contents connection` says that every IROB at the sender stands by its content,
that everything on the wire conforms to the contents, and that the receiver is sound
for them. Every event keeps it, with contents that only grow (`Grows`).
-/

namespace Libcmm

open Lib

namespace OutgoingIrob

/-- An entry of `outgoing_irobs`: an IROB that stands by its content, or a placeholder,
which never gets any data. -/
inductive Entry (content : IrobContent) (pirob : OutgoingIrob) : Prop where
  | sender (psirob : SenderIrob) : pirob = psirob.toOutgoing → psirob.placeholder = false →
      psirob.Offers content → Entry content pirob
  | holder : pirob.own = none → pirob.placeholder = true → pirob.chunks = [] →
      pirob.complete = false → Entry content pirob

namespace Entry

variable {content : IrobContent} {pirob : OutgoingIrob}

theorem of_asSender (entry : Entry content pirob) {psirob : SenderIrob}
    (same : asSender pirob = some psirob) :
    psirob.placeholder = false ∧ psirob.Offers content := by
  cases entry with
  | sender other shape real offers =>
      rw [shape, asSender_toOutgoing] at same
      cases same
      exact ⟨real, offers⟩
  | holder none _ _ _ =>
      rw [asSender, none] at same
      cases same

/-- Dependents do not matter. -/
theorem addDependent (entry : Entry content pirob) (dependent : IrobId) :
    Entry content (pirob.addDependent dependent) := by
  cases entry with
  | sender psirob shape real offers =>
      refine .sender (psirob.addDependent dependent) (by rw [shape]; rfl) real
        ⟨?_, offers.deps, offers.sendLabels, offers.final⟩
      exact offers.chunked.congr rfl rfl ⟨_, _, _, rfl⟩
  | holder none holder noChunks opened => exact .holder none holder noChunks opened

/-- A new IROB in the place it is given by the lattice, with other links and perhaps
opened again by a placeholder. -/
theorem fresh {irob : SenderIrob} {id : IrobId} {depsArray : List IrobId} {data : List Byte}
    {sendLabels : Nat} (made : irob = .mk id depsArray data sendLabels)
    (shape : pirob = { irob.toOutgoing with
      deps := pirob.deps, dependents := pirob.dependents, complete := pirob.complete })
    (closed : pirob.complete = true → irob.complete = true) :
    Entry ⟨pirob.deps.toList, sendLabels, [], false⟩ pirob := by
  have offers := SenderIrob.Offers.initial id depsArray data sendLabels
  rw [← made] at offers
  refine .sender { irob with
    deps := pirob.deps, dependents := pirob.dependents, complete := pirob.complete } shape ?_
    ⟨offers.chunked.congr rfl rfl ⟨_, _, _, rfl⟩, rfl, offers.sendLabels, ?_⟩
  · rw [made]
    rfl
  · have initial := offers.final
    cases complete : pirob.complete with
    | false => rfl
    | true =>
        rw [SenderIrob.ends, closed complete] at initial
        rw [SenderIrob.ends]
        exact initial

end Entry

end OutgoingIrob

/-- What `place` makes of a new IROB at the sender. -/
theorem place_toOutgoing {lattice : IrobLattice (Option SenderPart)} {irob : SenderIrob}
    {placed : IrobLattice (Option SenderPart) × OutgoingIrob}
    (holders : ∀ pirob : OutgoingIrob, lattice.find irob.id = some pirob → pirob.placeholder = true →
      pirob.chunks = [] ∧ pirob.complete = false)
    (placing : lattice.place irob.toOutgoing = some placed) :
    placed.2 = { irob.toOutgoing with
      dependents := placed.2.dependents, complete := placed.2.complete } ∧
    (placed.2.complete = true → irob.complete = true) := by
  rcases (IrobLattice.place_cases placing).2 with ⟨-, same⟩ | ⟨present, found, holder, -, merged⟩
  · rw [same]
    exact ⟨rfl, id⟩
  · obtain ⟨noChunks, opened⟩ := holders present found holder
    obtain ⟨filled, folding, result⟩ := Option.bind_eq_some_iff.mp merged
    rw [noChunks] at folding
    cases folding
    rw [← Option.some.inj result]
    refine ⟨rfl, fun complete => ?_⟩
    cases opened.symm.trans complete

namespace Connection

open SenderIrob ReceiverLattice OutgoingIrob

/-- The identifiers of the IROBs that were opened. -/
def openedIds (connection : Connection) : List IrobId := connection.opened.map (·.id)

/-- Both ends and everything between them agree on the contents of all IROBs. -/
structure Agrees (contents : Contents) (connection : Connection) : Prop where
  wf : connection.outgoing.WellFormed
  entries : ∀ id pirob, id.InRange → connection.outgoing.find id = some pirob →
    Entry (contents id) pirob ∧ (pirob.placeholder = false → id ∈ connection.openedIds)
  dominators : ((0 : Int) ≤ connection.outgoing.lastAnonIrobId →
      connection.outgoing.lastAnonIrobId.InRange) ∧
    ∀ dominator ∈ connection.outgoing.minDominatorSet, dominator.InRange
  opened : ∀ irob ∈ connection.opened, irob.id.InRange ∧
    (contents irob.id).deps = irob.deps.toList ∧
    (connection.outgoing.pastIrobs.contains irob.id = true ∨
      ∃ pirob, connection.outgoing.find irob.id = some pirob ∧ pirob.placeholder = false)
  blank : ∀ id, id ∉ connection.openedIds →
    (contents id).blocks = [] ∧ (contents id).final = false
  valid : contents.Valid
  wire : ∀ message ∈ connection.wire, message.id ∈ connection.openedIds ∧
    contents.Conforms message
  receiver : connection.receiver.Sound contents

/-- Contents that have been added to. -/
structure Grows (contents later : Contents) (connection : Connection) : Prop where
  extends' : ∀ id, (later id).Extends (contents id)
  deps : ∀ id ∈ connection.openedIds, (later id).deps = (contents id).deps

/-- An IROB of the sender that stands by its content. -/
structure Found (contents : Contents) (connection : Connection) (psirob : SenderIrob) : Prop where
  listed : psirob.id ∈ connection.openedIds
  found : connection.outgoing.find psirob.id = some psirob.toOutgoing
  real : psirob.placeholder = false
  offers : psirob.Offers (contents psirob.id)

/-- An IROB of the sender can be replaced by one that stands by an extended content. -/
structure Replaces (contents : Contents) (connection : Connection) (psirob changed : SenderIrob)
    (content : IrobContent) : Prop extends Found contents connection psirob where
  links : PendingIrob.SameLinks changed psirob
  offered : changed.Offers content
  extends' : content.Extends (contents psirob.id)

namespace Agrees

variable {contents : Contents} {connection after : Connection} {id : IrobId}

theorem initial : Agrees (fun _ => ⟨[], 0, [], false⟩) empty := by
  refine ⟨.empty, ?_, ?_, ?_, fun _ _ => ⟨rfl, rfl⟩, ⟨?_, ?_⟩, ?_, ReceiverLattice.Sound.empty _⟩
  · intro id pirob _ found
    cases found.symm.trans (IrobLattice.find_empty id)
  · refine ⟨fun nonneg => ?_, fun dominator member => (OrderedSet.not_mem_empty _ member).elim⟩
    cases nonneg
  · exact fun _ member => (List.not_mem_nil member).elim
  · exact fun _ _ member => (List.not_mem_nil member).elim
  · exact fun _ _ member => (List.not_mem_nil member).elim
  · exact fun _ member => (List.not_mem_nil member).elim

theorem openedRange (agrees : Agrees contents connection) (member : id ∈ connection.openedIds) :
    id.InRange := by
  obtain ⟨irob, listed, rfl⟩ := List.mem_map.mp member
  exact (agrees.opened irob listed).1

/-- Only opened IROBs have an end. -/
theorem openedOfFinal (agrees : Agrees contents connection)
    (final : (contents id).final = true) : id ∈ connection.openedIds := by
  by_contra unopened
  cases (agrees.blank id unopened).2.symm.trans final

/-! ### At the sender -/

/-- An IROB found under some identifier is found under its own and stands by its
content. -/
theorem found (agrees : Agrees contents connection) {pirob : OutgoingIrob}
    {psirob : SenderIrob} (found : connection.outgoing.find id = some pirob)
    (same : asSender pirob = some psirob) : Found contents connection psirob := by
  have shape := eq_of_asSender same
  subst shape
  obtain ⟨inRange, findable⟩ := agrees.wf.find_of_get found
  obtain ⟨entry, listed⟩ := agrees.entries _ _ inRange findable
  obtain ⟨real, offers⟩ := entry.of_asSender same
  exact ⟨listed real, findable, real, offers⟩

/-- What is found once an IROB was replaced. -/
theorem find_store (agrees : Agrees contents connection) {psirob changed : SenderIrob}
    {content : IrobContent} (replaces : Replaces contents connection psirob changed content)
    {query : IrobId} (queryRange : query.InRange) :
    (connection.store changed).outgoing.find query =
      if query = psirob.id then some changed.toOutgoing else connection.outgoing.find query := by
  have inRange := agrees.openedRange replaces.listed
  change (connection.outgoing.update changed.id fun _ => changed.toOutgoing).find query = _
  rw [replaces.links.id]
  exact agrees.wf.find_write inRange replaces.found _ queryRange

/-- The IROB that replaces another is found in its place. -/
theorem found_store (agrees : Agrees contents connection) {psirob changed : SenderIrob}
    {content : IrobContent} (replaces : Replaces contents connection psirob changed content) :
    Found (Function.update contents psirob.id content) (connection.store changed) changed := by
  have inRange := agrees.openedRange replaces.listed
  refine ⟨?_, ?_, replaces.links.placeholder.trans replaces.real, ?_⟩
  · rw [replaces.links.id]
    exact replaces.listed
  · rw [replaces.links.id, agrees.find_store replaces inRange, if_pos rfl]
  · rw [replaces.links.id, Function.update_self]
    exact replaces.offered

/-- An IROB is replaced by one that stands by an extended content. -/
theorem store (agrees : Agrees contents connection) {psirob changed : SenderIrob}
    {content : IrobContent} (replaces : Replaces contents connection psirob changed content) :
    Agrees (Function.update contents psirob.id content) (connection.store changed) ∧
      Grows contents (Function.update contents psirob.id content) connection := by
  have finds : ∀ query : IrobId, query.InRange → _ :=
    fun _ queryRange => agrees.find_store replaces queryRange
  obtain ⟨⟨listed, found, real, offered⟩, links, offers, extends'⟩ := replaces
  have inRange := agrees.openedRange listed
  have sameDeps : content.deps = (contents psirob.id).deps := by
    rw [offers.deps, offered.deps, links.deps]
  have sameLabels : content.sendLabels = (contents psirob.id).sendLabels := by
    rw [offers.sendLabels, offered.sendLabels, links.sendLabels]
  have grows : ∀ query, (Function.update contents psirob.id content query).Extends
        (contents query) ∧
      (Function.update contents psirob.id content query).deps = (contents query).deps ∧
      (Function.update contents psirob.id content query).sendLabels =
        (contents query).sendLabels := by
    intro query
    by_cases same : query = psirob.id
    · subst same
      rw [Function.update_self]
      exact ⟨extends', sameDeps, sameLabels⟩
    · rw [Function.update_of_ne same]
      exact ⟨.refl _, rfl, rfl⟩
  refine ⟨⟨?_, ?_, agrees.dominators, ?_, ?_, ⟨?_, ?_⟩, ?_, ?_⟩,
    fun query => (grows query).1, fun query _ => (grows query).2.1⟩
  · change (connection.outgoing.update changed.id fun _ => changed.toOutgoing).WellFormed
    rw [links.id]
    exact agrees.wf.write found
      ⟨links.id, links.sendLabels, links.deps, links.dependents, links.anonymous, links.placeholder⟩
  · intro query pirob queryRange held
    rw [finds query queryRange] at held
    split_ifs at held with same
    · cases held
      subst same
      rw [Function.update_self]
      exact ⟨.sender changed rfl (links.placeholder.trans real) offers, fun _ => listed⟩
    · rw [Function.update_of_ne same]
      exact agrees.entries query pirob queryRange held
  · intro irob member
    obtain ⟨irobRange, deps, known⟩ := agrees.opened irob member
    refine ⟨irobRange, (grows irob.id).2.1.trans deps, known.imp_right ?_⟩
    rintro ⟨pirob, held, begun⟩
    rw [finds irob.id irobRange]
    split_ifs
    · exact ⟨_, rfl, links.placeholder.trans real⟩
    · exact ⟨pirob, held, begun⟩
  · intro query unopened
    have other : query ≠ psirob.id := by
      rintro rfl
      exact unopened listed
    rw [Function.update_of_ne other]
    exact agrees.blank query unopened
  · intro query block member
    by_cases same : query = psirob.id
    · subst same
      rw [Function.update_self] at member
      exact offers.chunked.nonempty block member
    · rw [Function.update_of_ne same] at member
      exact agrees.valid.blocks query block member
  · intro query
    rw [(grows query).2.1]
    exact agrees.valid.deps query
  · intro message sent
    obtain ⟨known, conforms⟩ := agrees.wire message sent
    obtain ⟨extended, depsKept, labelsKept⟩ := grows message.id
    exact ⟨known, conforms.extend extended depsKept labelsKept⟩
  · exact ReceiverLattice.Sound.extend agrees.receiver fun query => (grows query).1

/-- Checks and requests are no part of it. -/
theorem queue (agrees : Agrees contents connection) (checks : List IrobId)
    (scheduled : List (IrobId × ResendRequestType)) (requests : List ResendRequest) :
    Agrees contents { connection with
      checks := checks, scheduled := scheduled, requests := requests } :=
  ⟨agrees.wf, agrees.entries, agrees.dominators, agrees.opened, agrees.blank, agrees.valid,
    agrees.wire, agrees.receiver⟩

/-- Messages are written. -/
theorem write (agrees : Agrees contents connection) (messages : List Message)
    (sent : ∀ message ∈ messages, message.id ∈ connection.openedIds ∧
      contents.Conforms message) :
    Agrees contents { connection with wire := messages ++ connection.wire } := by
  refine ⟨agrees.wf, agrees.entries, agrees.dominators, agrees.opened, agrees.blank, agrees.valid,
    fun message member => ?_, agrees.receiver⟩
  exact (List.mem_append.mp member).elim (sent message) (agrees.wire message)

/-- A call on an IROB. -/
theorem call (agrees : Agrees contents connection) {calling : SenderCall}
    (permitted : machine.permitted connection (.call id calling))
    (moved : connection.step (.call id calling) = some after) :
    after = connection ∨ ∃ psirob changed content wire,
      Replaces contents connection psirob changed content ∧
      (calling.adds = false → changed.appData = psirob.appData) ∧
      after = { connection.store changed with wire := wire } ∧
      Agrees (Function.update contents psirob.id content) after := by
  rcases withSender_cases moved with same | ⟨pirob, psirob, found, same, acted⟩
  · exact .inl same
  have held := agrees.found found same
  have allowed : psirob.Allows calling := by
    apply permitted psirob
    rw [found]
    exact same
  obtain ⟨changed, sent, content, called, offers, extends', links, data, carries⟩ :=
    held.offers.call allowed
  rw [called] at acted
  cases acted
  have replaces : Replaces contents connection psirob changed content :=
    ⟨held, links, offers, extends'⟩
  refine .inr ⟨psirob, changed, content, _, replaces, fun unchanged => data (.inr unchanged), rfl,
    ?_⟩
  apply (agrees.store replaces).1.write _
  intro message member
  obtain ⟨transmission, returned, rfl⟩ := List.mem_map.mp member
  refine ⟨held.listed, Offers.chunkMessage_conforms ?_⟩
  rw [Function.update_self]
  exact carries transmission (Option.mem_toList.mp returned)

/-- The `Begin_IROB` or the `End_IROB` of an IROB is written. -/
theorem sendBegin (agrees : Agrees contents connection)
    (moved : connection.step (.sendBegin id) = some after) :
    Agrees contents after ∧ ∃ wire, after = { connection with wire := wire } := by
  rcases withSender_cases moved with rfl | ⟨pirob, psirob, found, same, acted⟩
  · exact ⟨agrees, _, rfl⟩
  have held := agrees.found found same
  cases acted
  refine ⟨agrees.write [psirob.beginMessage] fun message member => ?_, _, rfl⟩
  rw [List.mem_singleton.mp member]
  exact ⟨held.listed, held.offers.beginMessage_conforms⟩

theorem sendEnd (agrees : Agrees contents connection)
    (moved : connection.step (.sendEnd id) = some after) :
    Agrees contents after ∧ ∃ wire, after = { connection with wire := wire } := by
  rcases withSender_cases moved with rfl | ⟨pirob, psirob, found, same, acted⟩
  · exact ⟨agrees, _, rfl⟩
  have held := agrees.found found same
  simp only [Option.some.injEq] at acted
  split_ifs at acted with ends
  · rw [← acted]
    refine ⟨agrees.write [psirob.endMessage] fun message member => ?_, _, rfl⟩
    rw [List.mem_singleton.mp member]
    exact ⟨held.listed, held.offers.endMessage_conforms ends⟩
  · rw [← acted]
    exact ⟨agrees, _, rfl⟩

/-- A resend request is handled. -/
theorem resendRequest (agrees : Agrees contents connection) {request : ResendRequest}
    (moved : connection.resendRequestReceived request = some after) :
    after = connection ∨ ∃ psirob changed,
      Replaces contents connection psirob changed (contents psirob.id) ∧
      changed.appData = psirob.appData ∧ after = connection.store changed := by
  rcases withSender_cases moved with same | ⟨pirob, psirob, found, same, acted⟩
  · exact .inl same
  have held := agrees.found found same
  obtain ⟨⟨changed, scheduled⟩, resent, rfl⟩ := Option.map_eq_some_iff.mp acted
  obtain ⟨offers, links, sameData⟩ := held.offers.resend resent
  exact .inr ⟨psirob, changed, ⟨held, links, offers, .refl _⟩, sameData, rfl⟩

/-- An acknowledgment is handled: the IROB is marked, and erased if it is complete. -/
theorem ackReceived (agrees : Agrees contents connection)
    (moved : connection.ackReceived id = some after) :
    after = connection ∨ ∃ psirob, connection.outgoing.find id = some psirob.toOutgoing ∧
      Replaces contents connection psirob psirob.ack (contents psirob.id) ∧
      ((psirob.complete = false ∧ after = connection.store psirob.ack) ∨
        (psirob.complete = true ∧ after = { connection.store psirob.ack with
          outgoing := ((connection.store psirob.ack).outgoing.erase psirob.id false).1 })) := by
  rcases withSender_cases moved with same | ⟨pirob, psirob, found, same, acted⟩
  · exact .inl same
  have held := agrees.found found same
  have links : PendingIrob.SameLinks psirob.ack psirob := ⟨rfl, rfl, rfl, rfl, rfl, rfl⟩
  have chunked : Chunked psirob.appData (contents psirob.id).blocks psirob.ack :=
    held.offers.chunked.congr rfl rfl ⟨_, _, _, rfl⟩
  obtain ⟨offers, -⟩ := held.offers.of_chunked chunked links rfl
  refine .inr ⟨psirob, (eq_of_asSender same) ▸ found, ⟨held, links, offers, .refl _⟩, ?_⟩
  have result := (Option.some.inj acted).symm
  cases complete : psirob.complete with
  | false =>
      refine .inl ⟨rfl, ?_⟩
      rw [result, if_neg]
      simp [SenderIrob.ack, complete]
  | true =>
      refine .inr ⟨rfl, ?_⟩
      rw [result, if_pos]
      simp [SenderIrob.ack, complete]

/-- An IROB is erased. -/
theorem erase (agrees : Agrees contents connection) {psirob : SenderIrob}
    (held : Found contents connection psirob) :
    Agrees contents { connection with
      outgoing := (connection.outgoing.erase psirob.id false).1 } := by
  have inRange := agrees.openedRange held.listed
  obtain ⟨-, wf, past, finds⟩ := agrees.wf.find_erase inRange held.found false
  obtain ⟨last, dominators⟩ := IrobLattice.erase_sender connection.outgoing psirob.id
  refine ⟨wf, ?_, ?_, ?_, agrees.blank, agrees.valid, agrees.wire, agrees.receiver⟩
  · intro query pirob queryRange found
    simp only [finds query queryRange, Bool.false_eq_true, false_and, ↓reduceIte] at found
    split_ifs at found
    exact agrees.entries query pirob queryRange found
  · simp only [last, dominators]
    exact agrees.dominators
  · intro irob member
    obtain ⟨irobRange, deps, known⟩ := agrees.opened irob member
    refine ⟨irobRange, deps, ?_⟩
    simp only [past, IntSet.contains_insert, finds irob.id irobRange, Bool.false_eq_true, false_and,
      ↓reduceIte]
    by_cases same : irob.id = psirob.id
    · exact .inl (by rw [decide_eq_true same, Bool.true_or])
    · simp only [same, decide_false, Bool.false_or, ↓reduceIte]
      exact known

end Agrees

/-! ### Opening an IROB -/

/-- What is found under an identifier once an IROB was opened: the IROB, what was found
before, or a placeholder for a dependency, perhaps with one more dependent. -/
inductive Opened (connection : Connection) (kept : OutgoingIrob) (query : IrobId)
    (pirob : OutgoingIrob) : Prop where
  | itself : query = kept.id → pirob = kept ∨ pirob = kept.addDependent kept.id →
      Opened connection kept query pirob
  | other (before : OutgoingIrob) : query ≠ kept.id → connection.outgoing.find query = some before →
      pirob = before ∨ pirob = before.addDependent kept.id → Opened connection kept query pirob
  | holder : query ≠ kept.id → pirob = PendingIrob.addDependent (makePlaceholder query) kept.id →
      Opened connection kept query pirob

/-- An IROB was opened and is kept with the dependencies inferred for it. -/
structure Opens (connection after : Connection) (irob : SenderIrob) (kept : OutgoingIrob) :
    Prop where
  inserting : connection.outgoing.insert irob.toOutgoing true = some (after.outgoing, some kept)
  shape : after = { connection with
    outgoing := after.outgoing, opened := kept :: connection.opened }
  id : kept.id = irob.id
  fresh : irob.id ∉ connection.openedIds
  data : kept = { irob.toOutgoing with
    deps := kept.deps, dependents := kept.dependents, complete := kept.complete }
  closed : kept.complete = true → irob.complete = true
  deps : ∀ dep ∈ kept.deps, dep.InRange
  wf : after.outgoing.WellFormed
  past : after.outgoing.pastIrobs = connection.outgoing.pastIrobs
  dominators : ((0 : Int) ≤ after.outgoing.lastAnonIrobId →
      after.outgoing.lastAnonIrobId.InRange) ∧
    ∀ dominator ∈ after.outgoing.minDominatorSet, dominator.InRange
  found : ∀ query pirob, query.InRange → after.outgoing.find query = some pirob →
    Opened connection kept query pirob
  finds : ∀ query pirob, query.InRange → query = kept.id ∧ pirob = kept ∨
    query ≠ kept.id ∧ connection.outgoing.find query = some pirob →
    ∃ later, after.outgoing.find query = some later ∧ later.placeholder = pirob.placeholder

namespace Agrees

variable {contents : Contents} {connection after : Connection} {id : IrobId}

/-- An IROB that was opened is not inserted again. -/
theorem fresh (agrees : Agrees contents connection) {pirob : OutgoingIrob}
    (accepted : connection.outgoing.rejects pirob = false) : pirob.id ∉ connection.openedIds := by
  intro member
  obtain ⟨irob, listed, same⟩ := List.mem_map.mp member
  obtain ⟨fresh, free⟩ := Bool.or_eq_false_iff.mp accepted
  obtain ⟨-, -, past | ⟨present, found, real⟩⟩ := agrees.opened irob listed
  · rw [same] at past
    cases past.symm.trans fresh
  · rw [same] at found
    rw [found] at free
    simp only [real] at free
    cases free

/-- What `begin_irob` and `default_irob` do. -/
theorem opens (agrees : Agrees contents connection) {deps : List IrobId} {data : List Byte}
    {sendLabels : Nat} (inRange : id.InRange) (ranged : ∀ dep ∈ deps, dep.InRange)
    (moved : connection.openIrob (.mk id deps data sendLabels) = some after) :
    ∃ kept, Opens connection after (.mk id deps data sendLabels) kept := by
  generalize made : SenderIrob.mk id deps data sendLabels = irob at moved
  have named : irob.id = id := by rw [← made]; rfl
  have real : irob.placeholder = false := by rw [← made]; rfl
  have irobRange : irob.id.InRange := named.symm ▸ inRange
  obtain ⟨⟨outgoing, kept⟩, inserting, storing⟩ := Option.bind_eq_some_iff.mp moved
  obtain ⟨kept, same, rfl⟩ := Option.map_eq_some_iff.mp storing
  simp only at same
  subst same
  rcases IrobLattice.insert_cases inserting with ⟨-, refused⟩ |
    ⟨placed, accepted, placing, ⟨holder, -⟩ | ⟨-, result, -⟩⟩
  · cases refused
  · cases real.symm.trans holder
  have rest := IrobLattice.place_rest placing
  obtain ⟨placedShape, placedClosed⟩ := place_toOutgoing (fun pirob found holder => by
    obtain ⟨entry, -⟩ := agrees.entries _ pirob irobRange found
    cases entry with
    | sender psirob shape begun _ =>
        rw [shape] at holder
        cases begun.symm.trans holder
    | holder _ _ noChunks opened => exact ⟨noChunks, opened⟩) placing
  obtain ⟨sameId, -, sameDeps, -, -, -⟩ := IrobLattice.place_links placing
  obtain ⟨keptDeps, shape⟩ := IrobLattice.correctDeps_kept placed.1 placed.2 true
  have listedRange : ∀ dep ∈ placed.2.deps, dep.InRange := by
    intro dep member
    rw [sameDeps, ← made] at member
    exact ranged dep (OrderedSet.mem_ofList.mp member)
  obtain ⟨depsRange, last, dominators⟩ := IrobLattice.correctDeps_forall
    (show IrobId.InRange placed.2.id from sameId.symm ▸ irobRange) listedRange
    (rest.lastAnon ▸ agrees.dominators.1) (rest.dominators ▸ agrees.dominators.2)
  have keptShape : kept = (placed.1.correctDeps placed.2 true).2 := Option.some.inj result
  obtain ⟨linked, insertedSo, wf, linkedRest, finds⟩ := agrees.wf.insert_placed irobRange
    (fun other member => by
      rw [← made] at member
      exact (OrderedSet.not_mem_empty other member).elim) real accepted true placing depsRange
  obtain ⟨rfl, -⟩ := Prod.mk.inj (Option.some.inj (inserting.symm.trans insertedSo))
  rw [← keptShape] at finds depsRange shape
  have keptId : kept.id = irob.toOutgoing.id := by rw [shape]; exact sameId
  rw [← keptId] at finds
  have keptData : kept = { irob.toOutgoing with
      deps := kept.deps, dependents := kept.dependents, complete := kept.complete } := by
    rw [shape, placedShape]
  refine ⟨kept, inserting, rfl, keptId, agrees.fresh accepted, keptData, ?_, depsRange, wf,
    IrobLattice.insert_past inserting, ⟨?_, ?_⟩, ?_, ?_⟩
  · rw [shape]
    exact placedClosed
  · rw [linkedRest.lastAnon]
    exact last
  · rw [linkedRest.dominators]
    exact dominators
  · intro query pirob queryRange held
    rw [finds query queryRange] at held
    by_cases same : query = kept.id
    · simp only [same, ↓reduceIte, Option.getD_some] at held
      split_ifs at held
      · exact .itself same (.inr (Option.some.inj held).symm)
      · exact .itself same (.inl (Option.some.inj held).symm)
    · simp only [same, ↓reduceIte] at held
      cases before : connection.outgoing.find query with
      | none =>
          simp only [before, Option.getD_none] at held
          split_ifs at held
          exact .holder same (Option.some.inj held).symm
      | some present =>
          simp only [before, Option.getD_some] at held
          split_ifs at held
          · exact .other present same before (.inr (Option.some.inj held).symm)
          · exact .other present same before (.inl (Option.some.inj held).symm)
  · intro query pirob queryRange present
    have before : (if query = kept.id then some kept else connection.outgoing.find query) =
        some pirob := by
      rcases present with ⟨same, rfl⟩ | ⟨other, found⟩
      · rw [if_pos same]
      · rw [if_neg other, found]
    simp only [finds query queryRange, before, Option.getD_some]
    split_ifs
    · exact ⟨_, rfl, rfl⟩
    · exact ⟨_, rfl, rfl⟩

section

variable {deps : List IrobId} {data : List Byte} {sendLabels : Nat} {kept : OutgoingIrob}

/-- The content of a new IROB extends what was known of its identifier, which is nothing. -/
theorem opening_extends (agrees : Agrees contents connection) (unopened : id ∉ connection.openedIds)
    (listed : List IrobId) (sendLabels : Nat) (query : IrobId) :
    (Function.update contents id ⟨listed, sendLabels, [], false⟩ query).Extends
      (contents query) := by
  obtain ⟨noBlocks, noEnd⟩ := agrees.blank id unopened
  by_cases same : query = id
  · subst same
    rw [Function.update_self]
    refine ⟨?_, fun final => ?_⟩
    · exact noBlocks ▸ List.nil_prefix
    · cases noEnd.symm.trans final
  · rw [Function.update_of_ne same]
    exact .refl _

theorem opening_valid (valid : contents.Valid) {listed : List IrobId}
    (ranged : ∀ dep ∈ listed, dep.InRange) :
    Contents.Valid (Function.update contents id ⟨listed, sendLabels, [], false⟩) := by
  refine ⟨fun query block member => ?_, fun query dep member => ?_⟩
  · by_cases same : query = id
    · subst same
      rw [Function.update_self] at member
      cases member
    · rw [Function.update_of_ne same] at member
      exact valid.blocks query block member
  · by_cases same : query = id
    · subst same
      rw [Function.update_self] at member
      exact ranged dep member
    · rw [Function.update_of_ne same] at member
      exact valid.deps query dep member

/-- Each IROB stands by its content after another was opened, and so does the new one. -/
theorem opening_entries (agrees : Agrees contents connection)
    (opens : Opens connection after (.mk id deps data sendLabels) kept) {query : IrobId}
    {pirob : OutgoingIrob} (queryRange : query.InRange)
    (held : after.outgoing.find query = some pirob) :
    Entry (Function.update contents id ⟨kept.deps.toList, sendLabels, [], false⟩ query) pirob ∧
      (pirob.placeholder = false → query ∈ id :: connection.openedIds) := by
  have keptId : kept.id = id := opens.id
  cases opens.found query pirob queryRange held with
  | itself same linked =>
      rw [same, keptId, Function.update_self]
      have entry := Entry.fresh rfl opens.data opens.closed
      refine ⟨?_, fun _ => List.mem_cons_self⟩
      rcases linked with rfl | rfl
      · exact entry
      · exact entry.addDependent _
  | other before other found linked =>
      rw [keptId] at other
      rw [Function.update_of_ne other]
      obtain ⟨entry, known⟩ := agrees.entries query before queryRange found
      rcases linked with rfl | rfl
      · exact ⟨entry, fun begun => List.mem_cons_of_mem _ (known begun)⟩
      · exact ⟨entry.addDependent _, fun begun => List.mem_cons_of_mem _ (known begun)⟩
  | holder other shape =>
      rw [shape]
      exact ⟨.holder rfl rfl rfl rfl, fun begun => nomatch begun⟩

/-- An IROB opened before is still in the lattice or past, with the same dependencies. -/
theorem opening_opened (agrees : Agrees contents connection)
    (opens : Opens connection after (.mk id deps data sendLabels) kept) (inRange : id.InRange)
    {irob : OutgoingIrob} (member : irob ∈ kept :: connection.opened) :
    irob.id.InRange ∧ (Function.update contents id ⟨kept.deps.toList, sendLabels, [], false⟩
        irob.id).deps = irob.deps.toList ∧
      (after.outgoing.pastIrobs.contains irob.id = true ∨
        ∃ pirob, after.outgoing.find irob.id = some pirob ∧ pirob.placeholder = false) := by
  have keptId : kept.id = id := opens.id
  rcases List.mem_cons.mp member with rfl | old
  · rw [keptId, Function.update_self]
    obtain ⟨later, found, kind⟩ := opens.finds id irob inRange (.inl ⟨keptId.symm, rfl⟩)
    have real : irob.placeholder = false := by
      rw [opens.data]
      rfl
    exact ⟨inRange, rfl, .inr ⟨later, found, kind.trans real⟩⟩
  · obtain ⟨irobRange, sameDeps, known⟩ := agrees.opened irob old
    have other : irob.id ≠ id := fun same => opens.fresh (same ▸ List.mem_map_of_mem old)
    rw [Function.update_of_ne other]
    refine ⟨irobRange, sameDeps, ?_⟩
    rcases known with past | ⟨pirob, found, begun⟩
    · exact .inl (opens.past ▸ past)
    · obtain ⟨later, held, kind⟩ := opens.finds irob.id pirob irobRange
        (.inr ⟨keptId.symm ▸ other, found⟩)
      exact .inr ⟨later, held, kind.trans begun⟩

/-- A new IROB has announced nothing but its dependencies. -/
theorem openIrob (agrees : Agrees contents connection)
    (opens : Opens connection after (.mk id deps data sendLabels) kept) (inRange : id.InRange) :
    Agrees (Function.update contents id ⟨kept.deps.toList, sendLabels, [], false⟩) after ∧
      Grows contents (Function.update contents id ⟨kept.deps.toList, sendLabels, [], false⟩)
        connection := by
  have keptId : kept.id = id := opens.id
  have unopened : id ∉ connection.openedIds := opens.fresh
  have others : ∀ {query}, query ∈ connection.openedIds → query ≠ id := by
    rintro query member rfl
    exact unopened member
  have extends' := agrees.opening_extends unopened kept.deps.toList sendLabels
  have grows : Grows contents (Function.update contents id
      ⟨kept.deps.toList, sendLabels, [], false⟩) connection := by
    refine ⟨extends', fun query member => ?_⟩
    rw [Function.update_of_ne (others member)]
  have listed : after.openedIds = id :: connection.openedIds := by
    rw [openedIds, opens.shape, List.map_cons, keptId]
    rfl
  refine ⟨⟨opens.wf, ?_, opens.dominators, ?_, ?_, opening_valid agrees.valid ?_, ?_, ?_⟩, grows⟩
  · intro query pirob queryRange held
    rw [listed]
    exact agrees.opening_entries opens queryRange held
  · intro irob member
    rw [opens.shape] at member
    exact agrees.opening_opened opens inRange member
  · intro query absent
    rw [listed, List.mem_cons, not_or] at absent
    rw [Function.update_of_ne absent.1]
    exact agrees.blank query absent.2
  · exact fun dep member => opens.deps dep (OrderedSet.mem_toList.mp member)
  · intro message sent
    rw [opens.shape] at sent
    obtain ⟨known, conforms⟩ := agrees.wire message sent
    rw [listed]
    refine ⟨List.mem_cons_of_mem _ known, conforms.extend (extends' message.id) ?_ ?_⟩
    · rw [Function.update_of_ne (others known)]
    · rw [Function.update_of_ne (others known)]
  · rw [opens.shape]
    exact ReceiverLattice.Sound.extend agrees.receiver extends'

end

/-! ### At the receiver -/

/-- The receiver has moved on. -/
theorem withReceiver (agrees : Agrees contents connection) {receiver : Receiver}
    (sound : receiver.Sound contents) : Agrees contents { connection with receiver := receiver } :=
  ⟨agrees.wf, agrees.entries, agrees.dominators, agrees.opened, agrees.blank, agrees.valid,
    agrees.wire, sound⟩

/-- A message arrives. -/
theorem arrive (agrees : Agrees contents connection) {message : Message}
    (sent : message ∈ connection.wire)
    (moved : connection.step (.arrive message) = some after) :
    ∃ handled, connection.receiver.lattice.dispatch message = some handled ∧
      ReceiverLattice.Sound.Handles contents none connection.receiver.history message.id handled ∧
      after = { connection with receiver :=
        ⟨handled.after, Receiver.observed message handled ++ connection.receiver.history⟩ } ∧
      Agrees contents after := by
  obtain ⟨known, conforms⟩ := agrees.wire message sent
  obtain ⟨handled, handling, handles⟩ := ReceiverLattice.Sound.dispatch agrees.receiver
    agrees.valid (agrees.openedRange known) conforms
  obtain ⟨⟨receiver, verdict⟩, receiving, rfl⟩ := Option.map_eq_some_iff.mp moved
  obtain ⟨other, same, shape⟩ := Option.map_eq_some_iff.mp receiving
  cases handling.symm.trans same
  cases shape
  refine ⟨handled, handling, handles, rfl, agrees.withReceiver ?_⟩
  exact handles.sound.history_congr (deliveredBytes_observed message handled _)

/-- The application reads. -/
theorem recv (agrees : Agrees contents connection) {len : Nat} {flags : RecvFlags}
    (moved : connection.step (.recv len flags) = some after) :
    ∃ receiver, connection.receiver.read len flags = some receiver ∧
      after = { connection with receiver := receiver } ∧ Agrees contents after := by
  obtain ⟨receiver, reading, rfl⟩ := Option.map_eq_some_iff.mp moved
  exact ⟨receiver, reading, rfl, agrees.withReceiver (Receiver.Sound.of_read agrees.receiver reading)⟩

/-- A data check is answered. -/
theorem dataCheck (agrees : Agrees contents connection) (id : IrobId) :
    Agrees contents (connection.dataCheckRequested id) := by
  unfold Connection.dataCheckRequested
  split
  · exact agrees.withReceiver (ReceiverLattice.Sound.history_congr agrees.receiver rfl)
  · exact agrees.queue _ _ _

/-- Every event keeps the two ends in agreement, on contents that have grown. -/
theorem step (agrees : Agrees contents connection) {event : ConnectionEvent}
    (permitted : machine.permitted connection event) (moved : connection.step event = some after) :
    ∃ later, Agrees later after := by
  cases event with
  | openIrob id deps data sendLabels =>
      obtain ⟨kept, opens⟩ := agrees.opens permitted.1 permitted.2 moved
      exact ⟨_, (agrees.openIrob opens permitted.1).1⟩
  | call id calling =>
      rcases agrees.call permitted moved with rfl | ⟨psirob, changed, sent, content, -, -, -, next⟩
      · exact ⟨contents, agrees⟩
      · exact ⟨_, next⟩
  | sendBegin id => exact ⟨contents, (agrees.sendBegin moved).1⟩
  | sendEnd id => exact ⟨contents, (agrees.sendEnd moved).1⟩
  | sendDataCheck id =>
      cases moved
      exact ⟨contents, agrees.queue _ _ _⟩
  | arrive message =>
      obtain ⟨handled, -, -, -, next⟩ := agrees.arrive permitted moved
      exact ⟨contents, next⟩
  | recv len flags =>
      obtain ⟨receiver, -, -, next⟩ := agrees.recv moved
      exact ⟨contents, next⟩
  | dataCheck id =>
      cases moved
      exact ⟨contents, agrees.dataCheck id⟩
  | sendRequest id request =>
      cases moved
      exact ⟨contents, agrees.queue _ _ _⟩
  | resendRequest request =>
      rcases agrees.resendRequest moved with rfl | ⟨psirob, changed, replaces, -, rfl⟩
      · exact ⟨contents, agrees⟩
      · exact ⟨_, (agrees.store replaces).1⟩
  | ack id =>
      rcases agrees.ackReceived moved with rfl | ⟨psirob, -, replaces, ⟨-, rfl⟩ | ⟨-, rfl⟩⟩
      · exact ⟨contents, agrees⟩
      · exact ⟨_, (agrees.store replaces).1⟩
      · have erased := (agrees.store replaces).1.erase (agrees.found_store replaces)
        exact ⟨_, erased⟩

end Agrees

/-- The two ends agree in every reachable state. -/
theorem agrees_of_reachable {connection : Connection} (reached : machine.Reachable connection) :
    ∃ contents, Agrees contents connection := by
  apply reached.induct
  · rintro first rfl
    exact ⟨_, .initial⟩
  · rintro before after event - ⟨contents, agrees⟩ permitted moved
    exact agrees.step permitted moved

end Connection

end Libcmm
