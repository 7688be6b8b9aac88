import Libcmm.SenderRuns
import Libcmm.Incoming

/-! # Transfer of one IROB

The two ends of one IROB: a `PendingSenderIROB` under any calls, the messages it has
given rise to, and a receiver to which these come in any order, any number of times
or never. `Offers` says what the sender has committed itself to so far, as a content
that only grows. The messages conform to it, so the receiver's invariant applies and
the bytes it has when the IROB is complete are those of the application.
-/

namespace Libcmm

open Lib

namespace SenderIrob

/-- The `Begin_IROB` of an IROB. -/
def beginMessage (irob : SenderIrob) : Message :=
  .beginIrob irob.id irob.deps.toList irob.sendLabels

/-- The `IROB_Chunk` that carries a transmission. -/
def chunkMessage (irob : SenderIrob) (transmission : Transmission) : Message :=
  .irobChunk irob.id transmission.seqno transmission.offset transmission.bytes

/-- The `End_IROB` of an IROB. -/
def endMessage (irob : SenderIrob) : Message :=
  .endIrob irob.id irob.expectedBytes irob.numSenderChunks

/-- The condition for an `End_IROB` to be sent. -/
def ends (irob : SenderIrob) : Bool := irob.complete && irob.allBytesChunked

/-- The bytes the application has put into an IROB. -/
def appData (irob : SenderIrob) : List Byte := irob.chunks.flatMap IrobChunk.bytes

/-- An IROB stands by a content: it would announce its dependencies, its blocks and
its end in this way. -/
structure Offers (content : IrobContent) (irob : SenderIrob) : Prop where
  chunked : Chunked irob.appData content.blocks irob
  deps : content.deps = irob.deps.toList
  sendLabels : content.sendLabels = irob.sendLabels
  final : content.final = irob.ends

/-- The application's data is what the chunking says it is. -/
theorem Chunked.appData_eq {data : List Byte} {blocks : List (List Byte)} {irob : SenderIrob}
    (chunked : Chunked data blocks irob) : irob.appData = data := by
  obtain ⟨pieces, shape, whole⟩ := chunked.app
  rw [appData, shape, List.flatMap_def, map_bytes_tile, whole]

theorem Chunked.allBytesChunked_iff {data : List Byte} {blocks : List (List Byte)}
    {irob : SenderIrob} (chunked : Chunked data blocks irob) :
    irob.allBytesChunked = true ↔ blocks.flatten = data := by
  have sent := chunked.sumChunks_take blocks.length
  rw [List.take_of_length_le (by rw [chunked.length_sent]), List.take_length] at sent
  rw [allBytesChunked, sent, chunked.expectedBytes_eq, beq_iff_eq]
  constructor
  · exact chunked.within.eq_of_length
  · rintro rfl
    rfl

namespace Offers

variable {content : IrobContent} {irob : SenderIrob}

/-- A content with its end is all of the application's data. -/
theorem bytes_of_final (offers : Offers content irob) (final : content.final = true) :
    content.bytes = irob.appData := by
  rw [offers.final] at final
  exact offers.chunked.allBytesChunked_iff.mp (Bool.and_eq_true_iff.mp final).2

/-- A content is the beginning of the application's data. -/
theorem bytes_beginning (offers : Offers content irob) : content.bytes <+: irob.appData :=
  offers.chunked.within

/-- A fresh IROB has announced nothing yet. -/
theorem initial (id : IrobId) (deps : List IrobId) (data : List Byte) (sendLabels : Nat) :
    Offers ⟨(OrderedSet.ofList deps).toList, sendLabels, [], false⟩
      (SenderIrob.mk id deps data sendLabels) := by
  have chunked := Chunked.initial id deps data sendLabels
  refine ⟨?_, rfl, rfl, ?_⟩
  · rw [chunked.appData_eq]
    exact chunked
  · cases data <;> rfl

/-- An IROB that is chunked in the same way and as complete as before stands by the
same content. -/
theorem of_chunked {changed : SenderIrob} (offers : Offers content irob)
    (chunked : Chunked irob.appData content.blocks changed)
    (links : PendingIrob.SameLinks changed irob) (complete : changed.complete = irob.complete) :
    Offers content changed ∧ changed.appData = irob.appData := by
  have same := chunked.appData_eq
  refine ⟨⟨same ▸ chunked, ?_, ?_, ?_⟩, same⟩
  · rw [offers.deps, links.deps]
  · rw [offers.sendLabels, links.sendLabels]
  · rw [offers.final, ends, ends, complete]
    congr 1
    apply Bool.eq_iff_iff.mpr
    rw [offers.chunked.allBytesChunked_iff, chunked.allBytesChunked_iff]

/-- A call only adds to what an IROB has announced. What it returns is announced
then. -/
theorem call (offers : Offers content irob) {calling : SenderCall}
    (allowed : irob.Allows calling) :
    ∃ after sent later, irob.call calling = some (after, sent) ∧ Offers later after ∧
      later.Extends content ∧ PendingIrob.SameLinks after irob ∧
      (irob.complete = true ∨ calling.adds = false → after.appData = irob.appData) ∧
      ∀ transmission, sent = some transmission → transmission.Carries later.blocks := by
  obtain ⟨after, sent, data, blocks, called, result⟩ := offers.chunked.call allowed
  refine ⟨after, sent, ⟨after.deps.toList, after.sendLabels, blocks, after.ends⟩, called,
    ⟨result.chunked.appData_eq ▸ result.chunked, rfl, rfl, rfl⟩, ⟨result.blocks, fun final => ?_⟩,
    result.links, fun unchanged => ?_, result.carries⟩
  · have whole := offers.bytes_of_final final
    rw [offers.final] at final
    have closed := (Bool.and_eq_true_iff.mp final).1
    have complete := result.closed closed
    have chunked := result.chunked
    rw [result.data (.inl closed)] at chunked
    have same := chunked.blocks_final result.blocks whole
    refine ⟨Bool.and_eq_true_iff.mpr ⟨complete, chunked.allBytesChunked_iff.mpr ?_⟩, same⟩
    rw [same]
    exact whole
  · exact result.chunked.appData_eq.trans (result.data unchanged)

/-! ### What is announced conforms -/

section Conforms

variable {contents : Contents}

theorem beginMessage_conforms (offers : Offers (contents irob.id) irob) :
    contents.Conforms irob.beginMessage :=
  ⟨offers.deps.symm, offers.sendLabels.symm⟩

theorem chunkMessage_conforms {transmission : Transmission}
    (carries : transmission.Carries (contents irob.id).blocks) :
    contents.Conforms (irob.chunkMessage transmission) := carries

theorem endMessage_conforms (offers : Offers (contents irob.id) irob)
    (final : irob.ends = true) : contents.Conforms irob.endMessage := by
  have ended := offers.final.trans final
  refine ⟨ended, ?_, ?_⟩
  · rw [offers.bytes_of_final ended, ← offers.chunked.expectedBytes_eq]
  · rw [numSenderChunks, offers.chunked.length_sent]

end Conforms

end Offers

end SenderIrob

/-- What a message says stays true of a content that only adds to it. -/
theorem Contents.Conforms.extend {contents later : Contents} {message : Message}
    (conforms : contents.Conforms message)
    (extends' : (later message.id).Extends (contents message.id))
    (deps : (later message.id).deps = (contents message.id).deps)
    (sendLabels : (later message.id).sendLabels = (contents message.id).sendLabels) :
    later.Conforms message := by
  cases message with
  | beginIrob id announced labels =>
      exact ⟨conforms.1.trans deps.symm, conforms.2.trans sendLabels.symm⟩
  | irobChunk id seqno offset data =>
      exact block_of_longer conforms.1 conforms.2 extends'.blocks
  | endIrob id expectedBytes expectedChunks =>
      obtain ⟨ended, allBytes, allChunks⟩ := conforms
      obtain ⟨final, same⟩ := extends'.final ended
      change (later id).final = true ∧ expectedBytes = (later id).bytes.length ∧
        expectedChunks = (later id).blocks.length
      rw [IrobContent.bytes, show (later id).blocks = (contents id).blocks from same]
      exact ⟨final, allBytes, allChunks⟩

/-- One IROB on its way: the sender's, the messages it has given rise to, and the
receiver. -/
structure Transfer where
  sender : SenderIrob
  wire : List Message
  receiver : ReceiverLattice

/-- A call at the sender, a `Begin_IROB` or an `End_IROB` sent, or the arrival of a
message. Messages stay on the wire, so they arrive in any order and any number of
times, or never. -/
inductive TransferEvent where
  | call (calling : SenderCall)
  | sendBegin
  | sendEnd
  | arrive (message : Message)

namespace Transfer

open SenderIrob ReceiverLattice ReceiverIrob

/-- One event. -/
def step (transfer : Transfer) : TransferEvent → Option Transfer
  | .call calling => (transfer.sender.call calling).map fun result =>
      { transfer with
        sender := result.1
        wire := result.2.toList.map result.1.chunkMessage ++ transfer.wire }
  | .sendBegin => some { transfer with wire := transfer.sender.beginMessage :: transfer.wire }
  | .sendEnd => some (if transfer.sender.ends then
      { transfer with wire := transfer.sender.endMessage :: transfer.wire } else transfer)
  | .arrive message => (transfer.receiver.dispatch message).map fun handled =>
      { transfer with receiver := handled.after }

/-- Any IROB, calls that ask for resends of sent chunks only, and arrivals of what
was sent. -/
def machine : Machine Transfer TransferEvent where
  initial transfer := ∃ id deps data sendLabels, IrobId.InRange id ∧
    (∀ dep ∈ deps, IrobId.InRange dep) ∧ transfer = ⟨.mk id deps data sendLabels, [], .empty⟩
  permitted transfer event := match event with
    | .call calling => transfer.sender.Allows calling
    | .arrive message => message ∈ transfer.wire
    | _ => True
  step := step

instance : ∀ transfer event, Decidable (machine.permitted transfer event)
  | transfer, .call calling => inferInstanceAs (Decidable (transfer.sender.Allows calling))
  | transfer, .arrive message => inferInstanceAs (Decidable (message ∈ transfer.wire))
  | _, .sendBegin => .isTrue trivial
  | _, .sendEnd => .isTrue trivial

/-- The content of one IROB among others of which nothing is said. -/
def alone (id : IrobId) (content : IrobContent) : Contents :=
  fun query => if query = id then content else ⟨[], 0, [], false⟩

theorem alone_self (id : IrobId) (content : IrobContent) : alone id content id = content :=
  if_pos rfl

theorem alone_extends {id : IrobId} {content later : IrobContent}
    (extends' : later.Extends content) (query : IrobId) :
    (alone id later query).Extends (alone id content query) := by
  unfold alone
  split_ifs
  · exact extends'
  · exact .refl _

/-- Sender, wire and receiver agree on a content. -/
structure Agrees (content : IrobContent) (transfer : Transfer) : Prop where
  inRange : transfer.sender.id.InRange
  deps : ∀ dep ∈ content.deps, dep.InRange
  offers : Offers content transfer.sender
  wire : ∀ message ∈ transfer.wire, message.id = transfer.sender.id ∧
    (alone transfer.sender.id content).Conforms message
  receiver : ReceiverLattice.Sound (alone transfer.sender.id content) (fun _ => False) none
    transfer.receiver []

namespace Agrees

variable {content : IrobContent} {transfer : Transfer}

theorem valid (agrees : Agrees content transfer) :
    (alone transfer.sender.id content).Valid := by
  constructor <;> intro id <;> unfold alone <;> split_ifs
  · exact agrees.offers.chunked.nonempty
  · exact fun _ member => (List.not_mem_nil member).elim
  · exact agrees.deps
  · exact fun _ member => (List.not_mem_nil member).elim

theorem initial {id : IrobId} {deps : List IrobId} (inRange : id.InRange)
    (ranged : ∀ dep ∈ deps, dep.InRange) (data : List Byte) (sendLabels : Nat) :
    Agrees ⟨(OrderedSet.ofList deps).toList, sendLabels, [], false⟩
      ⟨.mk id deps data sendLabels, [], .empty⟩ := by
  refine ⟨inRange, fun dep member => ranged dep (OrderedSet.mem_ofList.mp member),
    .initial id deps data sendLabels, fun _ member => (List.not_mem_nil member).elim, .empty _⟩

/-- A call at the sender. -/
theorem call (agrees : Agrees content transfer) {calling : SenderCall}
    (allowed : transfer.sender.Allows calling) :
    ∃ after later, transfer.step (.call calling) = some after ∧ Agrees later after := by
  obtain ⟨sender, sent, later, called, offers, extends', links, -, carries⟩ :=
    agrees.offers.call allowed
  have sameDeps : later.deps = content.deps := by
    rw [offers.deps, agrees.offers.deps, links.deps]
  have sameLabels : later.sendLabels = content.sendLabels := by
    rw [offers.sendLabels, agrees.offers.sendLabels, links.sendLabels]
  refine ⟨⟨sender, sent.toList.map sender.chunkMessage ++ transfer.wire, transfer.receiver⟩, later,
    ?_, ?_, ?_, offers, ?_, ?_⟩
  · rw [step, called]
    rfl
  · rw [links.id]
    exact agrees.inRange
  · rw [sameDeps]
    exact agrees.deps
  · intro message member
    rw [links.id]
    rcases List.mem_append.mp member with new | old
    · obtain ⟨transmission, returned, rfl⟩ := List.mem_map.mp new
      refine ⟨links.id, ?_⟩
      apply Offers.chunkMessage_conforms
      rw [links.id, alone_self]
      exact carries transmission (Option.mem_toList.mp returned)
    · obtain ⟨named, conforms⟩ := agrees.wire message old
      refine ⟨named, conforms.extend (alone_extends extends' _) ?_ ?_⟩
      · rw [named, alone_self, alone_self, sameDeps]
      · rw [named, alone_self, alone_self, sameLabels]
  · rw [links.id]
    exact agrees.receiver.extend (alone_extends extends')

/-- A message is sent. -/
theorem send (agrees : Agrees content transfer) {message : Message}
    (named : message.id = transfer.sender.id)
    (conforms : (alone transfer.sender.id content).Conforms message) :
    Agrees content { transfer with wire := message :: transfer.wire } := by
  refine ⟨agrees.inRange, agrees.deps, agrees.offers, fun other member => ?_, agrees.receiver⟩
  rcases List.mem_cons.mp member with rfl | old
  · exact ⟨named, conforms⟩
  · exact agrees.wire other old

/-- A message arrives and is handled without an exception. -/
theorem arrive (agrees : Agrees content transfer) {message : Message}
    (sent : message ∈ transfer.wire) :
    ∃ handled, transfer.receiver.dispatch message = some handled ∧
      Agrees content { transfer with receiver := handled.after } ∧
      (handled.verdict = .taken ∨ handled.verdict = .duplicate) := by
  obtain ⟨named, conforms⟩ := agrees.wire message sent
  obtain ⟨handled, handling, handles⟩ := agrees.receiver.dispatch agrees.valid
    (named ▸ agrees.inRange) conforms
  exact ⟨handled, handling, ⟨agrees.inRange, agrees.deps, agrees.offers, agrees.wire,
    handles.sound⟩, handles.clean⟩

/-- Every event keeps the agreement and fails no `ASSERT`. -/
theorem step (agrees : Agrees content transfer) {event : TransferEvent}
    (permitted : machine.permitted transfer event) :
    ∃ after later, transfer.step event = some after ∧ Agrees later after := by
  have offers : Offers (alone transfer.sender.id content transfer.sender.id) transfer.sender := by
    rw [alone_self]
    exact agrees.offers
  cases event with
  | call calling => exact agrees.call permitted
  | sendBegin => exact ⟨_, content, rfl, agrees.send rfl offers.beginMessage_conforms⟩
  | sendEnd =>
      refine ⟨_, content, rfl, ?_⟩
      split_ifs with ends
      · exact agrees.send rfl (offers.endMessage_conforms ends)
      · exact agrees
  | arrive message =>
      obtain ⟨handled, handling, next, -⟩ := agrees.arrive permitted
      refine ⟨_, content, ?_, next⟩
      rw [Transfer.step, handling]
      rfl

end Agrees

theorem agrees_of_reachable {transfer : Transfer} (reached : machine.Reachable transfer) :
    ∃ content, Agrees content transfer := by
  apply reached.induct
  · rintro first ⟨id, deps, data, sendLabels, inRange, ranged, rfl⟩
    exact ⟨_, .initial inRange ranged data sendLabels⟩
  · rintro before after event - ⟨content, agrees⟩ permitted moved
    obtain ⟨next, later, stepped, kept⟩ := agrees.step permitted
    cases stepped.symm.trans moved
    exact ⟨later, kept⟩

/-- Reassembly of one IROB, end to end: whenever the receiver finds the IROB
complete, its chunks in order are the application's data. No event fails an
`ASSERT`, no message raises an exception, and no chunk of an incomplete IROB is
rejected. -/
theorem reassembled {transfer : Transfer} (reached : machine.Reachable transfer) :
    (∀ irob, transfer.receiver.irobs.find transfer.sender.id = some irob →
      isComplete irob = some true →
        irob.chunks.flatMap IrobChunk.bytes = transfer.sender.appData) ∧
    (∀ message ∈ transfer.wire, ∃ handled, transfer.receiver.dispatch message = some handled ∧
      (handled.verdict = .taken ∨ handled.verdict = .duplicate)) ∧
    (∀ seqno offset data, .irobChunk transfer.sender.id seqno offset data ∈ transfer.wire →
      ∀ irob, transfer.receiver.irobs.find transfer.sender.id = some irob →
        isComplete irob = some true ∨ ∃ added, ReceiverIrob.addChunk irob
          ⟨transfer.sender.id, seqno, offset, data.length, some data⟩ = some (added, true)) ∧
    ∀ event, machine.permitted transfer event →
      ∃ after, machine.step transfer event = some after := by
  obtain ⟨content, agrees⟩ := agrees_of_reachable reached
  have receiving : ∀ irob, transfer.receiver.irobs.find transfer.sender.id = some irob →
      irob.id = transfer.sender.id ∧ Receiving content irob := by
    intro irob found
    obtain ⟨-, pending⟩ := agrees.receiver.pending _ irob agrees.inRange found
    have phase := pending.phase.of_undelivered
    rw [alone_self] at phase
    exact ⟨agrees.receiver.wf.find_id agrees.inRange found, phase⟩
  refine ⟨fun irob found complete => ?_, fun message sent => ?_,
    fun seqno offset data sent irob found => ?_, fun event permitted => ?_⟩
  · obtain ⟨-, phase⟩ := receiving irob found
    have reading := phase.reading complete
    obtain ⟨whole, same, exactly⟩ := phase.isComplete_eq
    rw [complete] at same
    cases same
    obtain ⟨-, arrived⟩ := exactly.mp rfl
    calc irob.chunks.flatMap IrobChunk.bytes
        = content.bytes := by
          rw [arrived, List.flatMap_def, IrobContent.chunks, map_bytes_tile]
          rfl
      _ = transfer.sender.appData := agrees.offers.bytes_of_final reading.final
  · obtain ⟨handled, handling, -, clean⟩ := agrees.arrive sent
    exact ⟨handled, handling, clean⟩
  · obtain ⟨named, phase⟩ := receiving irob found
    obtain ⟨-, conforms⟩ := agrees.wire _ sent
    obtain ⟨listed, placed⟩ := conforms
    rw [alone_self] at listed placed
    obtain ⟨whole, complete, -⟩ := phase.isComplete_eq
    cases whole with
    | true => exact .inl complete
    | false =>
        refine .inr ?_
        obtain ⟨added, adding, -⟩ := phase.addChunk complete
          ⟨transfer.sender.id, seqno, offset, data.length, some data⟩ (by
            rw [IrobContent.chunks, getElem?_tile, listed, named, placed]
            simp only [Option.map_some, Nat.zero_add])
        exact ⟨added, adding⟩
  · obtain ⟨after, -, stepped, -⟩ := agrees.step permitted
    exact ⟨after, stepped⟩

/-- Three bytes sent in two chunks, one of them twice, that arrive in another order. -/
def scatteredEvents : List TransferEvent :=
  [.call (.addChunk [1, 2]), .call (.addChunk [3]), .call (.getReadyBytes 0 2),
    .arrive (.irobChunk 4 0 0 [1, 2]), .call .finish, .call (.getReadyBytes 1 0), .sendEnd,
    .sendBegin, .arrive (.endIrob 4 3 2), .call (.markNotReceived 0), .call (.getReadyBytes 1 9),
    .arrive (.irobChunk 4 1 2 [3]), .arrive (.irobChunk 4 0 0 [1, 2]), .arrive (.beginIrob 4 [] 0)]

theorem reassembled_scattered : ∃ transfer irob, machine.Reachable transfer ∧
    transfer.receiver.irobs.find transfer.sender.id = some irob ∧ isComplete irob = some true ∧
    irob.chunks.flatMap IrobChunk.bytes = transfer.sender.appData := by
  have ran : ∃ transfer irob,
      machine.run ⟨.mk 4 [] [] 0, [], .empty⟩ scatteredEvents = some transfer ∧
      transfer.receiver.irobs.find transfer.sender.id = some irob ∧
      isComplete irob = some true := ⟨_, _, rfl, rfl, rfl⟩
  obtain ⟨transfer, irob, ran, found, complete⟩ := ran
  have start : machine.initial ⟨.mk 4 [] [] 0, [], .empty⟩ :=
    ⟨4, [], [], 0, by decide, by decide, rfl⟩
  have reached := Machine.Reachable.run (.initial start) ran
  exact ⟨transfer, irob, reached, found, complete, (reassembled reached).1 irob found complete⟩

end Transfer

end Libcmm
