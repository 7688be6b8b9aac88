import Libcmm.Connecting
import Libcmm.Lib.Simulation

/-! # What is read over a csocket is what is written

Of the bytes towards the acceptor the listener takes the announcement, and of those towards
the opener its `phys_connect` takes the HELLO. Each is written before anything else in its
direction (`Outward`, `Inward`), and nobody but the listener, and nobody but `phys_connect`,
reads before that.
-/

namespace Libcmm

open Lib

namespace Platform.Carries

variable {platform : Platform} {stream : List Byte} {whole : Bool} {messages : List WireMessage}

theorem weaken (carries : platform.Carries stream whole messages) {less : Bool}
    (weaker : less = true → whole = true) : platform.Carries stream less messages := by
  obtain ⟨missing, reads, complete⟩ := carries
  exact ⟨missing, reads, fun more => complete (weaker more)⟩

/-- The bytes under way are lost. -/
theorem lose (carries : platform.Carries stream whole messages) :
    platform.Carries [] false messages := by
  obtain ⟨missing, reads, -⟩ := carries
  exact ⟨stream ++ missing, reads, Bool.noConfusion⟩

/-- A write fails altogether. -/
theorem fail (carries : platform.Carries stream whole messages) {bytes : List Byte}
    {sent : List WireMessage} (reads : platform.Reads bytes sent) :
    platform.Carries stream false (messages ++ sent) := by
  obtain ⟨missing, before, -⟩ := carries
  refine ⟨missing ++ bytes, ?_, Bool.noConfusion⟩
  rw [← List.append_assoc]
  exact before.append reads

end Platform.Carries

namespace CsockEnd

variable (csock : CsockEnd)

/-- An opener that has not received the HELLO. -/
structure Quiet : Prop where
  unconfirmed : csock.sender ≠ .confirmed
  idle : csock.sender ≠ .works
  unread : csock.receiver ≠ .reads
  unconnected : csock.connected = false
  unwritten : csock.written = []
  undispatched : csock.dispatched = []

/-- An opener that has received it. -/
structure Greeted : Prop where
  past : csock.sender ≠ .awaitsHello
  heard : csock.sender = .confirmed ∨ csock.connected = true

/-- An acceptor that has not sent the HELLO in full. -/
structure Unhailed : Prop where
  unconfirmed : csock.receiver ≠ .confirmed
  idle : csock.sender ≠ .works
  unconnected : csock.connected = false
  unwritten : csock.written = []

/-- An acceptor that has sent it. -/
structure Hailed : Prop where
  past : csock.receiver ≠ .confirms
  said : csock.receiver = .confirmed ∨ csock.connected = true

/-- A csocket with a receiver thread is there. -/
theorem present_of_receiver {csock : CsockEnd} {stage : ReceiverStage}
    (here : csock.receiver = stage) (there : stage ≠ .absent) : csock ≠ .absent :=
  fun absent => there (here.symm.trans (congrArg CsockEnd.receiver absent))

theorem present_of_sender {csock : CsockEnd} {stage : SenderStage}
    (here : csock.sender = stage) (there : stage ≠ .absent) : csock ≠ .absent :=
  fun absent => there (here.symm.trans (congrArg CsockEnd.sender absent))

theorem Hailed.present {acceptor : CsockEnd} (hailed : acceptor.Hailed) : acceptor ≠ .absent := by
  rintro rfl
  rcases hailed.said with confirmed | connected
  · cases confirmed
  · cases connected

theorem wakeSender_cases {csock : CsockEnd}
    (woken : (csock.connected || csock.connectionFailed) = true) :
    csock.wakeSender = { csock with sender := .ended } ∨
      csock.connected = true ∧ csock.wakeSender = { csock with sender := .works } := by
  cases failed : csock.connectionFailed with
  | true => exact .inl (by rw [wakeSender, failed, if_pos rfl])
  | false =>
      rw [failed, Bool.or_false] at woken
      exact .inr ⟨woken, by rw [wakeSender, failed, if_neg Bool.false_ne_true]⟩

theorem wakeReceiver_cases {csock : CsockEnd}
    (woken : (csock.connected || csock.connectionFailed) = true) :
    csock.wakeReceiver = { csock with receiver := .ended } ∨
      csock.connected = true ∧ csock.wakeReceiver = { csock with receiver := .reads } := by
  cases failed : csock.connectionFailed with
  | true => exact .inl (by rw [wakeReceiver, failed, if_pos rfl])
  | false =>
      rw [failed, Bool.or_false] at woken
      exact .inr ⟨woken, by rw [wakeReceiver, failed, if_neg Bool.false_ne_true]⟩

theorem update_ipAddr (csock : CsockEnd) (isLocal : Bool) (iface : NetInterface) :
    ∃ ifacePair, csock.update isLocal iface = { csock with ifacePair := ifacePair } ∧
      ifacePair.1.ipAddr = csock.ifacePair.1.ipAddr ∧
        ifacePair.2.ipAddr = csock.ifacePair.2.ipAddr := by
  unfold update
  split_ifs with kind same same
  · exact ⟨_, rfl, same.symm, rfl⟩
  · exact ⟨_, rfl, rfl, rfl⟩
  · exact ⟨_, rfl, rfl, same.symm⟩
  · exact ⟨_, rfl, rfl, rfl⟩

/-- The messages that the sender was to write. -/
def messages : List WireMessage := csock.written.flatMap Composite.messages

end CsockEnd

namespace CsockLink

variable {platform : Platform} {link after : CsockLink} {event : LinkEvent}
  {opener acceptor writer reader : CsockEnd} {bytes toOpener toAcceptor : List Byte}
  {established : Bool}

variable (platform) in
/-- What is under way to a reader is what its peer has written and it has not read. What a
sender that is still there writes arrives as long as the connection is not lost. -/
def Flows (writer reader : CsockEnd) (bytes : List Byte) (established : Bool) : Prop :=
  ∃ pending, writer.messages = reader.dispatched ++ pending ∧
    platform.Carries bytes (established && writer.sender != .ended) pending

variable (platform) in
/-- The direction to the acceptor, until the listener has read the announcement and then. -/
inductive Outward (opener acceptor : CsockEnd) (toAcceptor : List Byte) (established : Bool) :
    Prop where
  | waiting (absent : acceptor = .absent)
      (unsent : opener.sender = .connects ∨ opener.sender = .announces → toAcceptor = [])
      (announced : ∃ iface, iface.ipAddr = opener.ifacePair.1.ipAddr ∧
        toAcceptor <+: announcement platform iface)
  | running (present : acceptor.sender ≠ .absent)
      (connects : opener.sender ≠ .connects) (announces : opener.sender ≠ .announces)
      (address : acceptor.ifacePair.2.ipAddr = opener.ifacePair.1.ipAddr)
      (flows : Flows platform opener acceptor toAcceptor established)

variable (platform) in
/-- The direction to the opener, until the HELLO is sent, until it is read, and then. -/
inductive Inward (opener acceptor : CsockEnd) (toOpener : List Byte) (established : Bool) :
    Prop where
  | before (quiet : opener.Quiet) (unhailed : acceptor.Unhailed)
      (short : toOpener.length < platform.hdrSize)
      (fresh : acceptor.receiver = .confirms ∨ acceptor.receiver = .absent → toOpener = [])
  | hailed (quiet : opener.Quiet) (hailed : acceptor.Hailed)
      (arriving : opener.sender = .awaitsHello → established = true →
        ∃ later, toOpener = hello platform ++ later ∧
          platform.Carries later (established && acceptor.sender != .ended) acceptor.messages)
      (lost : established = false → toOpener = [])
  | greeted (greeted : opener.Greeted) (hailed : acceptor.Hailed)
      (flows : Flows platform acceptor opener toOpener established)

variable (platform link) in
/-- What holds while a csocket is connected by the multisocket that connects. -/
structure Sound : Prop where
  openerReceiver : link.opener.receiver ≠ .confirms ∧ link.opener.receiver ≠ .confirmed
  acceptorSender : link.acceptor.sender ≠ .confirmed
  unserved : link.listener ≠ .done → link.acceptor = .absent
  outward : Outward platform link.opener link.acceptor link.toAcceptor link.established
  inward : Inward platform link.opener link.acceptor link.toOpener link.established

/-! ### Bytes under way -/

theorem length_hello : (hello platform).length = platform.hdrSize := List.length_replicate

theorem load_announcement (iface : NetInterface) :
    platform.load (announcement platform iface) = .known ⟨0, .newInterface iface.ipAddr
      (platform.net iface.bandwidthDown) (platform.net iface.bandwidthUp) (platform.net iface.rtt)
      (platform.net iface.type)⟩ :=
  platform.load_store _

namespace Flows

/-- A write of a sender that works, in full, in part or not at all. -/
theorem write (flows : Flows platform writer reader bytes established)
    (works : writer.sender = .works) {composite : Composite} {usable : Bool} (accepted : Nat)
    (reads : platform.Reads (platform.written composite) composite.messages)
    (connected : usable = true → established = true) :
    Flows platform
      { writer with
        written := writer.written ++ [composite]
        sender := if usable && decide ((platform.written composite).length ≤ accepted) then .works
          else .ended }
      reader (if usable then bytes ++ (platform.written composite).take accepted else bytes)
      established := by
  obtain ⟨pending, split, carries⟩ := flows
  refine ⟨pending ++ composite.messages, ?_, ?_⟩
  · rw [← List.append_assoc, ← split]
    simp only [CsockEnd.messages, List.flatMap_append, List.flatMap_singleton]
  · cases usable with
    | false => exact (carries.fail reads).weaken fun more => by simp at more
    | true =>
        rw [connected rfl, works] at carries
        by_cases whole : (platform.written composite).length ≤ accepted
        · simp only [whole, decide_true, Bool.and_self, if_true, List.take_of_length_le whole]
          exact (carries.write reads).weaken fun _ => rfl
        · exact (carries.cut reads accepted).weaken fun more => by simp [whole] at more

/-- The reader takes a message. -/
theorem receive (flows : Flows platform writer reader bytes established) {message : WireMessage}
    {later : List Byte} (taken : platform.receiveOne bytes = .ok (message, later)) :
    Flows platform writer { reader with dispatched := reader.dispatched ++ [message] } later
      established := by
  obtain ⟨pending, split, carries⟩ := flows
  obtain ⟨others, rfl, onward⟩ := carries.receiveOne taken
  exact ⟨others, by rw [split, List.append_assoc]; rfl, onward⟩

/-- Nothing is written, and the writer may have ended. -/
theorem of_writer (flows : Flows platform writer reader bytes established) {next : CsockEnd}
    (written : next.written = writer.written)
    (stays : next.sender ≠ .ended → writer.sender ≠ .ended) :
    Flows platform next reader bytes established := by
  obtain ⟨pending, split, carries⟩ := flows
  refine ⟨pending, ?_, carries.weaken fun more => ?_⟩
  · rw [← split, CsockEnd.messages, written, CsockEnd.messages]
  · obtain ⟨still, going⟩ := Bool.and_eq_true_iff.mp more
    exact Bool.and_eq_true_iff.mpr ⟨still, bne_iff_ne.mpr (stays (bne_iff_ne.mp going))⟩

/-- Nothing is read. -/
theorem of_reader (flows : Flows platform writer reader bytes established) {next : CsockEnd}
    (dispatched : next.dispatched = reader.dispatched) :
    Flows platform writer next bytes established := by
  obtain ⟨pending, split, carries⟩ := flows
  exact ⟨pending, by rw [split, dispatched], carries⟩

theorem lose (flows : Flows platform writer reader bytes established) :
    Flows platform writer reader [] false := by
  obtain ⟨pending, split, carries⟩ := flows
  exact ⟨pending, split, carries.lose⟩

end Flows

/-! ### The directions -/

namespace Outward

variable (outward : Outward platform opener acceptor toAcceptor established)
include outward

theorem running_of_present (present : acceptor ≠ .absent) :
    opener.sender ≠ .connects ∧ opener.sender ≠ .announces ∧
      acceptor.ifacePair.2.ipAddr = opener.ifacePair.1.ipAddr ∧
        Flows platform opener acceptor toAcceptor established := by
  cases outward with
  | waiting absent => exact (present absent).elim
  | running _ connects announces address flows => exact ⟨connects, announces, address, flows⟩

/-- The opener goes on, when it has sent the announcement, or ends. -/
theorem of_opener {next : CsockEnd} (address : next.ifacePair.1.ipAddr = opener.ifacePair.1.ipAddr)
    (written : next.written = opener.written)
    (connects : next.sender = .connects → opener.sender = .connects)
    (announces : next.sender = .announces → opener.sender = .announces)
    (stays : next.sender ≠ .ended → opener.sender ≠ .ended) :
    Outward platform next acceptor toAcceptor established := by
  cases outward with
  | waiting absent unsent announced =>
      exact .waiting absent (fun early => unsent (early.imp connects announces)) (by rwa [address])
  | running present past sent same flows =>
      exact .running present (past ∘ connects) (sent ∘ announces) (same.trans address.symm)
        (flows.of_writer written stays)

/-- The acceptor goes on. -/
theorem of_acceptor (present : acceptor ≠ .absent) {next : CsockEnd}
    (address : next.ifacePair.2.ipAddr = acceptor.ifacePair.2.ipAddr)
    (dispatched : next.dispatched = acceptor.dispatched)
    (still : next.sender = .absent → acceptor.sender = .absent) :
    Outward platform opener next toAcceptor established := by
  cases outward with
  | waiting absent => exact (present absent).elim
  | running there connects announces same flows =>
      exact .running (there ∘ still) connects announces (address.trans same)
        (flows.of_reader dispatched)

theorem lose : Outward platform opener acceptor [] false := by
  cases outward with
  | waiting absent _ announced =>
      obtain ⟨iface, same, -⟩ := announced
      exact .waiting absent (fun _ => rfl) ⟨iface, same, List.nil_prefix⟩
  | running present connects announces address flows =>
      exact .running present connects announces address flows.lose

end Outward

namespace Inward

variable (inward : Inward platform opener acceptor toOpener established)

include inward in
/-- Nothing has come back from an acceptor that is not there. -/
theorem quiet_of_absent (absent : acceptor = .absent) : opener.Quiet ∧ toOpener = [] := by
  subst absent
  cases inward with
  | before quiet _ _ fresh => exact ⟨quiet, fresh (.inr rfl)⟩
  | hailed _ hailed => exact (hailed.present rfl).elim
  | greeted _ hailed => exact (hailed.present rfl).elim

theorem of_absent (quiet : opener.Quiet) : Inward platform opener .absent [] established :=
  .before quiet ⟨ReceiverStage.noConfusion, SenderStage.noConfusion, rfl, rfl⟩ platform.hdrSize_pos
    fun _ => rfl

include inward

/-- The opener goes on. -/
theorem of_opener {next : CsockEnd} (quiet : opener.Quiet → next.Quiet)
    (waits : next.sender = .awaitsHello → opener.sender = .awaitsHello)
    (heard : opener.sender = .confirmed ∨ opener.connected = true →
      next.sender = .confirmed ∨ next.connected = true)
    (dispatched : next.dispatched = opener.dispatched) :
    Inward platform next acceptor toOpener established := by
  cases inward with
  | before silent unhailed short fresh => exact .before (quiet silent) unhailed short fresh
  | hailed silent hailed arriving lost =>
      exact .hailed (quiet silent) hailed (fun stage => arriving (waits stage)) lost
  | greeted greeted hailed flows =>
      exact .greeted ⟨fun stage => greeted.past (waits stage), heard greeted.heard⟩ hailed
        (flows.of_reader dispatched)

/-- The acceptor goes on. -/
theorem of_acceptor {next : CsockEnd} (unhailed : acceptor.Unhailed → next.Unhailed)
    (hailed : acceptor.Hailed → next.Hailed)
    (fresh : next.receiver = .confirms ∨ next.receiver = .absent →
      next.receiver = acceptor.receiver)
    (written : next.written = acceptor.written)
    (stays : next.sender ≠ .ended → acceptor.sender ≠ .ended) :
    Inward platform opener next toOpener established := by
  cases inward with
  | before quiet unsaid short empty =>
      refine .before quiet (unhailed unsaid) short fun stage => empty ?_
      rwa [← fresh stage]
  | hailed quiet said arriving lost =>
      refine .hailed quiet (hailed said) (fun stage still => ?_) lost
      obtain ⟨later, rfl, carries⟩ := arriving stage still
      refine ⟨later, rfl, ?_⟩
      rw [CsockEnd.messages, written, ← CsockEnd.messages]
      refine carries.weaken fun more => ?_
      obtain ⟨going, more⟩ := Bool.and_eq_true_iff.mp more
      exact Bool.and_eq_true_iff.mpr ⟨going, bne_iff_ne.mpr (stays (bne_iff_ne.mp more))⟩
  | greeted greeted said flows =>
      exact .greeted greeted (hailed said) (flows.of_writer written stays)

theorem lose : Inward platform opener acceptor [] false := by
  cases inward with
  | before quiet unhailed short fresh =>
      exact .before quiet unhailed platform.hdrSize_pos fun _ => rfl
  | hailed quiet hailed => exact .hailed quiet hailed (fun _ => Bool.noConfusion) fun _ => rfl
  | greeted greeted hailed flows => exact .greeted greeted hailed flows.lose

end Inward

/-! ### One event -/

namespace Sound

variable (sound : link.Sound platform)
include sound

theorem lose : link.lose.Sound platform :=
  ⟨sound.openerReceiver, sound.acceptorSender, sound.unserved, sound.outward.lose,
    sound.inward.lose⟩

/-- The acceptor is not there before the opener has announced itself. -/
theorem absent_of_early (early : link.opener.sender = .connects ∨ link.opener.sender = .announces) :
    link.acceptor = .absent ∧ link.toAcceptor = [] ∧ link.opener.Quiet ∧ link.toOpener = [] := by
  cases sound.outward with
  | running _ connects announces => exact (early.elim connects announces).elim
  | waiting absent unsent announced =>
      exact ⟨absent, unsent early, sound.inward.quiet_of_absent absent⟩

theorem connect {ok : Bool} (moved : link.step platform false (.connect ok) = some after) :
    after.Sound platform := by
  simp only [step] at moved
  split_ifs at moved with connects success
  all_goals
    cases moved
    obtain ⟨absent, unsent, quiet, empty⟩ := sound.absent_of_early (.inl connects)
    refine ⟨sound.openerReceiver, sound.acceptorSender, sound.unserved,
      .waiting absent (fun _ => unsent)
        ⟨link.opener.ifacePair.1, rfl, unsent ▸ List.nil_prefix⟩, ?_⟩
    dsimp only
    rw [absent, empty]
  · exact .of_absent ⟨nofun, nofun, quiet.unread, quiet.unconnected, quiet.unwritten,
      quiet.undispatched⟩
  · exact .of_absent ⟨nofun, nofun, quiet.unread, quiet.unconnected, quiet.unwritten,
      quiet.undispatched⟩

theorem announce {accepted : Nat}
    (moved : link.step platform false (.announce accepted) = some after) :
    after.Sound platform := by
  have onward : link.opener.sender = .announces → ∀ next : CsockEnd,
      next.receiver = link.opener.receiver → next.ifacePair = link.opener.ifacePair →
      next.sender ≠ .connects → next.sender ≠ .announces → (link.opener.Quiet → next.Quiet) →
      Sound platform { (link.transmit false (announcement platform link.opener.ifacePair.1)
        accepted).1 with opener := next } := by
    intro announces next receiver pair connects early quiet'
    obtain ⟨absent, unsent, quiet, empty⟩ := sound.absent_of_early (.inr announces)
    refine ⟨receiver ▸ sound.openerReceiver, sound.acceptorSender, sound.unserved,
      .waiting absent (fun stage => (stage.elim connects early).elim)
        ⟨link.opener.ifacePair.1, pair ▸ rfl, ?_⟩, ?_⟩
    · change (if _ then link.toAcceptor ++ _ else link.toAcceptor) <+: _
      rw [unsent]
      split_ifs
      · exact List.take_prefix _ _
      · exact List.nil_prefix
    · change Inward platform next link.acceptor link.toOpener link.established
      rw [absent, empty]
      exact .of_absent (quiet' quiet)
  simp only [step] at moved
  split_ifs at moved with announces done
  · cases moved
    exact onward announces _ rfl rfl nofun nofun fun quiet => ⟨nofun, nofun, quiet.unread,
      quiet.unconnected, quiet.unwritten, quiet.undispatched⟩
  · cases moved
    exact onward announces _ rfl rfl nofun nofun fun quiet => ⟨nofun, nofun, quiet.unread,
      quiet.unconnected, quiet.unwritten, quiet.undispatched⟩

theorem recvHello {got : Nat} (moved : link.step platform false (.recvHello got) = some after) :
    after.Sound platform := by
  simp only [step] at moved
  split_ifs at moved with enabled full
  · obtain ⟨awaits, -, there⟩ := enabled
    obtain ⟨rfl, -⟩ := full
    cases moved
    refine ⟨sound.openerReceiver, sound.acceptorSender, sound.unserved,
      sound.outward.of_opener rfl rfl nofun nofun
        fun _ ended => SenderStage.noConfusion (awaits.symm.trans ended), ?_⟩
    cases sound.inward with
    | before _ _ short => exact absurd there (Nat.not_le.mpr short)
    | hailed quiet hailed arriving lost =>
        cases established : link.established with
        | false =>
            rw [lost established] at there
            exact absurd there (Nat.not_le.mpr platform.hdrSize_pos)
        | true =>
            obtain ⟨later, under, carries⟩ := arriving awaits established
            refine .greeted ⟨nofun, .inl rfl⟩ hailed ⟨link.acceptor.messages, ?_, ?_⟩
            · dsimp only
              rw [quiet.undispatched, List.nil_append]
            · dsimp only
              rw [under, List.drop_left' length_hello, ← established]
              exact carries
    | greeted greeted => exact (greeted.past awaits).elim
  · obtain ⟨awaits, -, there⟩ := enabled
    cases moved
    refine ⟨sound.openerReceiver, sound.acceptorSender, sound.unserved,
      sound.outward.of_opener rfl rfl nofun nofun
        fun _ ended => SenderStage.noConfusion (awaits.symm.trans ended), ?_⟩
    cases sound.inward with
    | before quiet unhailed short fresh =>
        refine .before ⟨nofun, nofun, quiet.unread, quiet.unconnected, quiet.unwritten,
          quiet.undispatched⟩ unhailed ?_ fun stage => ?_
        · dsimp only
          rw [List.length_drop]
          exact Nat.lt_of_le_of_lt (Nat.sub_le _ _) short
        · dsimp only
          rw [fresh stage, List.drop_nil]
    | hailed quiet hailed _ lost =>
        refine .hailed ⟨nofun, nofun, quiet.unread, quiet.unconnected, quiet.unwritten,
          quiet.undispatched⟩ hailed nofun fun away => ?_
        dsimp only
        rw [lost away, List.drop_nil]
    | greeted greeted => exact (greeted.past awaits).elim

theorem accept {known : Bool} (moved : link.step platform false (.accept known) = some after) :
    after.Sound platform := by
  simp only [step] at moved
  split_ifs at moved with enabled usable
  · cases moved
    have absent : link.acceptor = .absent :=
      sound.unserved fun done => ListenerStage.noConfusion (enabled.2.symm.trans done)
    exact ⟨sound.openerReceiver, sound.acceptorSender, fun _ => absent, sound.outward, sound.inward⟩
  · cases moved
    exact ⟨sound.openerReceiver, sound.acceptorSender, fun more => (more rfl).elim,
      sound.outward.lose, sound.inward.lose⟩

/-- What the listener finds is an announcement. -/
theorem announcement_of_length (absent : link.acceptor = .absent)
    (enough : platform.hdrSize ≤ link.toAcceptor.length) :
    ∃ iface, iface.ipAddr = link.opener.ifacePair.1.ipAddr ∧
      link.toAcceptor = announcement platform iface ∧
      (announcement platform iface).length = platform.hdrSize ∧
      link.opener.sender ≠ .connects ∧ link.opener.sender ≠ .announces := by
  cases sound.outward with
  | running present => exact (present (absent ▸ rfl)).elim
  | waiting _ unsent announced =>
      obtain ⟨iface, same, announced⟩ := announced
      have length : (announcement platform iface).length = platform.hdrSize :=
        platform.length_store _
      refine ⟨iface, same,
        announced.eq_of_length (le_antisymm announced.length_le (length ▸ enough)), length,
        not_or.mp fun early => ?_⟩
      rw [unsent early] at enough
      exact absurd enough (Nat.not_le.mpr platform.hdrSize_pos)

/-- What the opener finds is a HELLO. -/
theorem hello_of_length (awaits : link.opener.sender = .awaitsHello)
    (enough : platform.hdrSize ≤ link.toOpener.length) :
    link.toOpener.take platform.hdrSize = hello platform := by
  cases sound.inward with
  | before _ _ short => exact absurd enough (Nat.not_le.mpr short)
  | hailed _ _ arriving lost =>
      cases established : link.established with
      | false =>
          rw [lost established] at enough
          exact absurd enough (Nat.not_le.mpr platform.hdrSize_pos)
      | true =>
          obtain ⟨later, under, -⟩ := arriving awaits established
          rw [under, List.take_left' length_hello]
  | greeted greeted => exact (greeted.past awaits).elim

theorem addConnection {localIface : Option NetInterface}
    (moved : link.step platform false (.addConnection localIface) = some after) :
    after.Sound platform := by
  have refused : Sound platform { link.lose with listener := .done } :=
    ⟨sound.openerReceiver, sound.acceptorSender, fun more => (more rfl).elim, sound.outward.lose,
      sound.inward.lose⟩
  cases localIface with
  | none =>
      simp only [step] at moved
      split_ifs at moved
      cases moved
      exact refused
  | some localIface =>
      simp only [step] at moved
      split_ifs at moved with accepted enough
      have absent : link.acceptor = .absent :=
        sound.unserved fun done => ListenerStage.noConfusion (accepted.symm.trans done)
      obtain ⟨quiet, empty⟩ := sound.inward.quiet_of_absent absent
      obtain ⟨iface, same, whole, length, early⟩ := sound.announcement_of_length absent enough
      rw [whole, List.take_of_length_le length.le, load_announcement,
        List.drop_of_length_le length.le] at moved
      cases moved
      refine ⟨sound.openerReceiver, nofun, fun more => (more rfl).elim,
        .running nofun early.1 early.2 same ⟨[], ?_, .nil platform _⟩,
        .before quiet ⟨nofun, nofun, rfl, rfl⟩ ?_ fun _ => empty⟩
      · dsimp only
        rw [CsockEnd.messages, quiet.unwritten]
        rfl
      · dsimp only
        rw [empty]
        exact platform.hdrSize_pos

/-- The opener goes on; nothing is written or read. -/
theorem of_opener {next : CsockEnd}
    (receiver : next.receiver ≠ .confirms ∧ next.receiver ≠ .confirmed)
    (address : next.ifacePair.1.ipAddr = link.opener.ifacePair.1.ipAddr)
    (written : next.written = link.opener.written)
    (dispatched : next.dispatched = link.opener.dispatched)
    (connects : next.sender = .connects → link.opener.sender = .connects)
    (announces : next.sender = .announces → link.opener.sender = .announces)
    (waits : next.sender = .awaitsHello → link.opener.sender = .awaitsHello)
    (stays : next.sender ≠ .ended → link.opener.sender ≠ .ended)
    (quiet : link.opener.Quiet → next.Quiet)
    (heard : link.opener.sender = .confirmed ∨ link.opener.connected = true →
      next.sender = .confirmed ∨ next.connected = true) :
    Sound platform { link with opener := next } :=
  ⟨receiver, sound.acceptorSender, sound.unserved,
    sound.outward.of_opener address written connects announces stays,
    sound.inward.of_opener quiet waits heard dispatched⟩

/-- The acceptor goes on; nothing is written or read. -/
theorem of_acceptor (present : link.acceptor ≠ .absent) {next : CsockEnd}
    (sender : next.sender ≠ .confirmed)
    (address : next.ifacePair.2.ipAddr = link.acceptor.ifacePair.2.ipAddr)
    (written : next.written = link.acceptor.written)
    (dispatched : next.dispatched = link.acceptor.dispatched)
    (still : next.sender = .absent → link.acceptor.sender = .absent)
    (stays : next.sender ≠ .ended → link.acceptor.sender ≠ .ended)
    (fresh : next.receiver = .confirms ∨ next.receiver = .absent →
      next.receiver = link.acceptor.receiver)
    (unhailed : link.acceptor.Unhailed → next.Unhailed)
    (hailed : link.acceptor.Hailed → next.Hailed) :
    Sound platform { link with acceptor := next } :=
  ⟨sound.openerReceiver, sender, fun more => (present (sound.unserved more)).elim,
    sound.outward.of_acceptor present address dispatched still,
    sound.inward.of_acceptor unhailed hailed fresh written stays⟩

theorem confirm {side : Bool} {accepted : Nat}
    (moved : link.step platform false (.confirm side accepted) = some after) :
    after.Sound platform := by
  simp only [step] at moved
  split_ifs at moved with confirms done
  · cases moved
    cases side with
    | false => exact (sound.openerReceiver.1 confirms).elim
    | true =>
        have present : link.acceptor ≠ .absent := CsockEnd.present_of_receiver confirms nofun
        obtain ⟨usable, enough⟩ := Bool.and_eq_true_iff.mp done
        refine ⟨sound.openerReceiver, sound.acceptorSender,
          fun more => (present (sound.unserved more)).elim,
          sound.outward.of_acceptor present rfl rfl id, ?_⟩
        cases sound.inward with
        | hailed _ hailed => exact (hailed.past confirms).elim
        | greeted _ hailed => exact (hailed.past confirms).elim
        | before quiet unhailed _ fresh =>
            have sent : (if link.established && (link.csock true).isOpen then
                link.toOpener ++ (hello platform).take accepted else link.toOpener) =
                hello platform := by
              rw [if_pos usable, fresh (.inl confirms), List.nil_append,
                List.take_of_length_le (of_decide_eq_true enough)]
            refine .hailed quiet ⟨nofun, .inl rfl⟩ (fun _ _ => ⟨[], ?_, ?_⟩) fun away => ?_
            · exact sent.trans (List.append_nil _).symm
            · rw [CsockEnd.messages]
              change platform.Carries [] _ (link.acceptor.written.flatMap _)
              rw [unhailed.unwritten]
              exact .nil platform _
            · change link.established = false at away
              rw [away] at usable
              cases usable
  · cases moved
    cases side with
    | false => exact (sound.openerReceiver.1 confirms).elim
    | true =>
        have present : link.acceptor ≠ .absent := CsockEnd.present_of_receiver confirms nofun
        refine ⟨sound.openerReceiver, sound.acceptorSender,
          fun more => (present (sound.unserved more)).elim,
          sound.outward.of_acceptor present rfl rfl id, ?_⟩
        cases sound.inward with
        | hailed _ hailed => exact (hailed.past confirms).elim
        | greeted _ hailed => exact (hailed.past confirms).elim
        | before quiet unhailed _ fresh =>
            refine .before quiet ⟨nofun, unhailed.idle, unhailed.unconnected, unhailed.unwritten⟩ ?_
              fun stage => stage.elim nofun nofun
            change (if link.established && (link.csock true).isOpen then
              link.toOpener ++ (hello platform).take accepted else link.toOpener).length < _
            rw [fresh (.inl confirms)]
            split_ifs with usable
            · have short : ¬(hello platform).length ≤ accepted := fun enough =>
                done (Bool.and_eq_true_iff.mpr ⟨usable, decide_eq_true enough⟩)
              rw [List.nil_append, List.length_take]
              rw [length_hello] at short ⊢
              exact Nat.lt_of_le_of_lt (Nat.min_le_left _ _) (Nat.lt_of_not_le short)
            · exact platform.hdrSize_pos

theorem setConnected {side ofSender : Bool}
    (moved : link.step platform false (.setConnected side ofSender) = some after) :
    after.Sound platform := by
  simp only [step] at moved
  split_ifs at moved with thread confirmed confirmed
  · cases moved
    cases side with
    | true => exact (sound.acceptorSender confirmed).elim
    | false =>
        exact sound.of_opener sound.openerReceiver rfl rfl rfl nofun nofun nofun
          (fun _ ended => SenderStage.noConfusion (Eq.trans (Eq.symm confirmed) ended))
          (fun quiet => (quiet.unconfirmed confirmed).elim) fun _ => .inr rfl
  · cases moved
    cases side with
    | false => exact (sound.openerReceiver.2 confirmed).elim
    | true =>
        exact sound.of_acceptor (CsockEnd.present_of_receiver confirmed nofun) sound.acceptorSender
          rfl rfl rfl id id nofun (fun unhailed => (unhailed.unconfirmed confirmed).elim)
          fun hailed => ⟨nofun, .inr rfl⟩

theorem wake {side ofSender : Bool}
    (moved : link.step platform false (.wake side ofSender) = some after) :
    after.Sound platform := by
  simp only [step] at moved
  split_ifs at moved with woken thread waits waits
  · cases moved
    cases side with
    | false =>
        have heard : link.opener.sender = .confirmed ∨ link.opener.connected = true →
            link.opener.connected = true := fun heard =>
          heard.resolve_left fun confirmed => nomatch waits.symm.trans confirmed
        rcases CsockEnd.wakeSender_cases woken with ended | ⟨connected, works⟩
        · rw [ended]
          exact sound.of_opener sound.openerReceiver rfl rfl rfl nofun nofun nofun
            (fun more => (more rfl).elim) (fun quiet => ⟨nofun, nofun, quiet.unread,
              quiet.unconnected, quiet.unwritten, quiet.undispatched⟩) fun more => .inr (heard more)
        · rw [works]
          exact sound.of_opener sound.openerReceiver rfl rfl rfl nofun nofun nofun
            (fun _ ended => nomatch waits.symm.trans ended)
            (fun quiet => nomatch quiet.unconnected.symm.trans connected) fun more => .inr (heard more)
    | true =>
        have present : link.acceptor ≠ .absent := CsockEnd.present_of_sender waits nofun
        rcases CsockEnd.wakeSender_cases woken with ended | ⟨connected, works⟩
        · rw [ended]
          exact sound.of_acceptor present nofun rfl rfl rfl nofun (fun more => (more rfl).elim)
            (fun _ => rfl) (fun unhailed => ⟨unhailed.unconfirmed, nofun, unhailed.unconnected,
              unhailed.unwritten⟩) fun hailed => ⟨hailed.past, hailed.said⟩
        · rw [works]
          exact sound.of_acceptor present nofun rfl rfl rfl nofun
            (fun _ ended => nomatch waits.symm.trans ended) (fun _ => rfl)
            (fun unhailed => nomatch unhailed.unconnected.symm.trans connected)
            fun hailed => ⟨hailed.past, hailed.said⟩
  · cases moved
    cases side with
    | false =>
        rcases CsockEnd.wakeReceiver_cases woken with ended | ⟨connected, reads⟩
        · rw [ended]
          exact sound.of_opener ⟨nofun, nofun⟩ rfl rfl rfl id id id id
            (fun quiet => ⟨quiet.unconfirmed, quiet.idle, nofun, quiet.unconnected,
              quiet.unwritten, quiet.undispatched⟩) id
        · rw [reads]
          exact sound.of_opener ⟨nofun, nofun⟩ rfl rfl rfl id id id id
            (fun quiet => nomatch quiet.unconnected.symm.trans connected) id
    | true =>
        have present : link.acceptor ≠ .absent := CsockEnd.present_of_receiver waits nofun
        have said : link.acceptor.Hailed → link.acceptor.connected = true := fun hailed =>
          hailed.said.resolve_left fun confirmed => nomatch waits.symm.trans confirmed
        rcases CsockEnd.wakeReceiver_cases woken with ended | ⟨connected, reads⟩
        · rw [ended]
          exact sound.of_acceptor present sound.acceptorSender rfl rfl rfl id id nofun
            (fun unhailed => ⟨nofun, unhailed.idle, unhailed.unconnected, unhailed.unwritten⟩)
            fun hailed => ⟨nofun, .inr (said hailed)⟩
        · rw [reads]
          exact sound.of_acceptor present sound.acceptorSender rfl rfl rfl id id nofun
            (fun unhailed => nomatch unhailed.unconnected.symm.trans connected)
            fun hailed => ⟨nofun, .inr (said hailed)⟩

theorem finish {side ofSender : Bool}
    (moved : link.step platform false (.finish side ofSender) = some after) :
    after.Sound platform := by
  simp only [step] at moved
  split_ifs at moved with thread works reads
  · cases moved
    cases side with
    | false =>
        exact sound.of_opener sound.openerReceiver rfl rfl rfl nofun nofun nofun
          (fun more => (more rfl).elim) (fun quiet => (quiet.idle works).elim)
          fun heard => .inr (heard.resolve_left fun confirmed => nomatch works.symm.trans confirmed)
    | true =>
        exact sound.of_acceptor (CsockEnd.present_of_sender works nofun) nofun rfl rfl rfl nofun
          (fun more => (more rfl).elim) (fun _ => rfl) (fun unhailed => (unhailed.idle works).elim)
          fun hailed => ⟨hailed.past, hailed.said⟩
  · cases moved
    cases side with
    | false =>
        exact sound.of_opener ⟨nofun, nofun⟩ rfl rfl rfl id id id id
          (fun quiet => (quiet.unread reads).elim) id
    | true =>
        exact sound.of_acceptor (CsockEnd.present_of_receiver reads nofun) sound.acceptorSender
          rfl rfl rfl id id nofun
          (fun unhailed => ⟨nofun, unhailed.idle, unhailed.unconnected, unhailed.unwritten⟩)
          fun hailed => ⟨nofun, .inr (hailed.said.resolve_left fun confirmed =>
            nomatch reads.symm.trans confirmed)⟩

theorem update {side isLocal : Bool} {iface : NetInterface}
    (moved : link.step platform false (.update side isLocal iface) = some after) :
    after.Sound platform := by
  simp only [step] at moved
  split_ifs at moved with absent
  cases moved
  obtain ⟨ifacePair, replaced, localAddr, remoteAddr⟩ := (link.csock side).update_ipAddr isLocal iface
  rw [replaced]
  cases side with
  | false =>
      exact sound.of_opener sound.openerReceiver localAddr rfl rfl id id id id
        (fun quiet => ⟨quiet.unconfirmed, quiet.idle, quiet.unread, quiet.unconnected,
          quiet.unwritten, quiet.undispatched⟩) id
  | true =>
      exact sound.of_acceptor (fun none' => absent (congrArg CsockEnd.sender none'))
        sound.acceptorSender remoteAddr rfl rfl id id (fun _ => rfl)
        (fun unhailed => ⟨unhailed.unconfirmed, unhailed.idle, unhailed.unconnected,
          unhailed.unwritten⟩) fun hailed => ⟨hailed.past, hailed.said⟩

theorem write {side : Bool} {composite : Composite} {accepted : Nat}
    (reads : platform.Reads (platform.written composite) composite.messages)
    (moved : link.step platform false (.write side composite accepted) = some after) :
    after.Sound platform := by
  simp only [step] at moved
  by_cases works : (link.csock side).sender = .works
  · rw [if_pos works] at moved
    cases moved
    have connected : (link.established && (link.csock side).isOpen) = true →
        link.established = true := fun usable => (Bool.and_eq_true_iff.mp usable).1
    have stage : ∀ {done : Bool} {stage : SenderStage}, stage ≠ .works → stage ≠ .ended →
        (if done then SenderStage.works else .ended) ≠ stage := fun {done} _ working ended => by
      cases done with
      | false => exact ended.symm
      | true => exact working.symm
    cases side with
    | false =>
        cases sound.inward with
        | before quiet => exact (quiet.idle works).elim
        | hailed quiet => exact (quiet.idle works).elim
        | greeted greeted hailed flows =>
            cases sound.outward with
            | waiting absent => exact (hailed.present absent).elim
            | running there _ _ address onward =>
                exact ⟨sound.openerReceiver, sound.acceptorSender, sound.unserved,
                  .running there (stage nofun nofun) (stage nofun nofun) address
                    (onward.write works accepted reads connected),
                  .greeted ⟨stage nofun nofun, .inr (greeted.heard.resolve_left fun confirmed =>
                    nomatch works.symm.trans confirmed)⟩ hailed (flows.of_reader rfl)⟩
    | true =>
        have present : link.acceptor ≠ .absent := CsockEnd.present_of_sender works nofun
        refine ⟨sound.openerReceiver, stage nofun nofun,
          fun more => (present (sound.unserved more)).elim,
          sound.outward.of_acceptor present rfl rfl fun gone => absurd gone (stage nofun nofun), ?_⟩
        cases sound.inward with
        | before _ unhailed => exact (unhailed.idle works).elim
        | hailed quiet hailed arriving lost =>
            refine .hailed quiet ⟨hailed.past, hailed.said⟩ (fun awaits still => ?_) fun away => ?_
            · obtain ⟨later, under, carries⟩ := arriving awaits still
              have flows : Flows platform link.acceptor link.opener later link.established :=
                ⟨link.acceptor.messages, by rw [quiet.undispatched, List.nil_append], carries⟩
              obtain ⟨pending, split, onward⟩ := flows.write works accepted reads connected
              rw [quiet.undispatched, List.nil_append] at split
              refine ⟨_, ?_, split ▸ onward⟩
              change (if _ then link.toOpener ++ _ else link.toOpener) = _
              rw [under]
              split_ifs
              · exact List.append_assoc _ _ _
              · rfl
            · change link.established = false at away
              change (if _ then link.toOpener ++ _ else link.toOpener) = []
              rw [if_neg fun usable => Bool.noConfusion (away.symm.trans (connected usable)), lost away]
        | greeted greeted hailed flows =>
            exact .greeted greeted ⟨hailed.past, hailed.said⟩
              (flows.write works accepted reads connected)
  · rw [if_neg works] at moved
    cases moved

theorem receive {side : Bool}
    (moved : link.step platform false (.receive side) = some after) : after.Sound platform := by
  simp only [step] at moved
  split_ifs at moved with reads
  split at moved
  · next message later taken =>
    cases moved
    cases side with
    | false =>
        refine ⟨sound.openerReceiver, sound.acceptorSender, sound.unserved,
          sound.outward.of_opener rfl rfl id id id, ?_⟩
        cases sound.inward with
        | before quiet => exact (quiet.unread reads).elim
        | hailed quiet => exact (quiet.unread reads).elim
        | greeted greeted hailed flows =>
            exact .greeted ⟨greeted.past, greeted.heard⟩ hailed (flows.receive taken)
    | true =>
        have present : link.acceptor ≠ .absent := CsockEnd.present_of_receiver reads nofun
        refine ⟨sound.openerReceiver, sound.acceptorSender,
          fun more => (present (sound.unserved more)).elim, ?_,
          sound.inward.of_acceptor
            (fun unhailed => ⟨unhailed.unconfirmed, unhailed.idle, unhailed.unconnected,
              unhailed.unwritten⟩)
            (fun hailed => ⟨hailed.past, hailed.said⟩) (fun _ => rfl) rfl id⟩
        cases sound.outward with
        | waiting absent => exact (present absent).elim
        | running there connects announces address flows =>
            exact .running there connects announces address (flows.receive taken)
  · cases moved

end Sound

theorem sound_step (sound : link.Sound platform) (permitted : (machine platform false).permitted link event)
    (moved : (machine platform false).step link event = some after) : after.Sound platform := by
  change link.step platform false event = some after at moved
  cases event with
  | connect ok => exact sound.connect moved
  | announce accepted => exact sound.announce moved
  | recvHello got => exact sound.recvHello moved
  | accept known => exact sound.accept moved
  | addConnection localIface => exact sound.addConnection moved
  | confirm side accepted => exact sound.confirm moved
  | setConnected side ofSender => exact sound.setConnected moved
  | wake side ofSender => exact sound.wake moved
  | write side composite accepted =>
      exact sound.write (Platform.reads_written permitted.1 permitted.2) moved
  | receive side => exact sound.receive moved
  | finish side ofSender => exact sound.finish moved
  | update side isLocal iface => exact sound.update moved
  | cut =>
      cases moved
      exact sound.lose

theorem sound_opening (ifacePair : IfacePair) : (opening ifacePair false).Sound platform :=
  ⟨⟨nofun, nofun⟩, nofun, fun _ => rfl,
    .waiting rfl (fun _ => rfl) ⟨ifacePair.1, rfl, List.nil_prefix⟩,
    .of_absent ⟨nofun, nofun, nofun, rfl, rfl, rfl⟩⟩

theorem sound_of_reachable (reached : (machine platform false).Reachable link) :
    link.Sound platform :=
  reached.induct (fun _ ⟨ifacePair, start⟩ => start ▸ sound_opening ifacePair)
    fun _ _ _ _ sound permitted moved => sound_step sound permitted moved

/-- The messages that are read at one end are the beginning of those that the sender at the
other end was to write. If the opener is connected, a csocket at the other end knows its
address and has confirmed the connection. -/
theorem messages_in_order (reached : (machine platform false).Reachable link) :
    (∀ side, (link.csock side).dispatched <+: (link.csock (!side)).messages) ∧
      (link.opener.connected = true →
        link.acceptor.ifacePair.2.ipAddr = link.opener.ifacePair.1.ipAddr ∧
          (link.acceptor.receiver = .confirmed ∨ link.acceptor.connected = true)) := by
  have sound : link.Sound platform := sound_of_reachable reached
  refine ⟨fun side => ?_, fun connected => ?_⟩
  · cases side with
    | false =>
        cases sound.inward with
        | before quiet => exact quiet.undispatched ▸ List.nil_prefix
        | hailed quiet => exact quiet.undispatched ▸ List.nil_prefix
        | greeted _ _ flows =>
            obtain ⟨pending, split, -⟩ := flows
            exact ⟨pending, split.symm⟩
    | true =>
        cases sound.outward with
        | waiting absent =>
            change link.acceptor.dispatched <+: _
            rw [absent]
            exact List.nil_prefix
        | running _ _ _ _ flows =>
            obtain ⟨pending, split, -⟩ := flows
            exact ⟨pending, split.symm⟩
  · cases sound.inward with
    | before quiet => cases quiet.unconnected.symm.trans connected
    | hailed quiet => cases quiet.unconnected.symm.trans connected
    | greeted _ hailed =>
        obtain ⟨-, -, address, -⟩ := sound.outward.running_of_present hailed.present
        exact ⟨address, hailed.said⟩

/-- The acceptor uses the connection before the opener has read the HELLO. -/
theorem messages_in_order_overlapping : ∃ link : CsockLink,
    (link.csock false).dispatched = [⟨0, .goodbye⟩] ∧
      (link.csock true).dispatched = [⟨0, .downInterface 7⟩] ∧
      (∀ side, (link.csock side).dispatched <+: (link.csock (!side)).messages) := by
  obtain ⟨link, run, known⟩ := (Option.any_eq_true _ _).mp (show
    (((machine .lp64 false).run (opening (⟨3, 0, 0, 0, 0⟩, ⟨4, 0, 0, 0, 0⟩) false)
      [.connect true, .announce 64, .accept true, .addConnection (some ⟨4, 0, 0, 0, 0⟩),
        .confirm true 64, .setConnected true false, .wake true true, .write true .goodbye 70,
        .recvHello 64, .setConnected false true, .wake false false, .receive false,
        .write false (.downInterface ⟨7, 0, 0, 0, 0⟩) 64, .receive true]).any fun link => decide
      ((link.csock false).dispatched = [⟨0, .goodbye⟩] ∧
        (link.csock true).dispatched = [⟨0, .downInterface 7⟩])) = true by decide +kernel)
  have reached : (machine .lp64 false).Reachable link := .run (.initial ⟨_, rfl⟩) run
  have both := of_decide_eq_true known
  exact ⟨link, both.1, both.2, (messages_in_order reached).1⟩

/-! ### A csocket that the accepting side opens -/

variable (link) in
/-- The listener's end has nobody who sends the HELLO. -/
structure Futile : Prop where
  silent : link.toOpener = []
  opener : link.opener.sender = .connects ∨ link.opener.sender = .announces ∨
    link.opener.sender = .awaitsHello ∨ link.opener.sender = .ended
  unwritten : ∀ side, (link.csock side).written = []
  undispatched : ∀ side, (link.csock side).dispatched = []
  acceptor : link.acceptor.sender = .absent ∧ link.acceptor.receiver = .absent ∨
    link.acceptor.sender = .waits ∧ link.acceptor.receiver = .waits
  unconnected : link.acceptor.connected = false
  unfailed : link.acceptor.connectionFailed = false

theorem receiveOne_nil : platform.receiveOne [] = .error (.noHeader []) :=
  if_neg (Nat.not_le.mpr platform.hdrSize_pos)

namespace Futile

variable (futile : link.Futile)
include futile

/-- The opener goes on. -/
theorem of_opener {next : CsockLink} (silent : next.toOpener = [])
    (sender : next.opener.sender = .connects ∨ next.opener.sender = .announces ∨
      next.opener.sender = .awaitsHello ∨ next.opener.sender = .ended)
    (written : next.opener.written = link.opener.written)
    (dispatched : next.opener.dispatched = link.opener.dispatched)
    (acceptor : next.acceptor = link.acceptor) : next.Futile where
  silent := silent
  opener := sender
  unwritten side := by
    cases side with
    | false => exact written.trans (futile.unwritten false)
    | true => exact (congrArg CsockEnd.written acceptor).trans (futile.unwritten true)
  undispatched side := by
    cases side with
    | false => exact dispatched.trans (futile.undispatched false)
    | true => exact (congrArg CsockEnd.dispatched acceptor).trans (futile.undispatched true)
  acceptor := acceptor ▸ futile.acceptor
  unconnected := acceptor ▸ futile.unconnected
  unfailed := acceptor ▸ futile.unfailed

theorem lose {listener : ListenerStage} : Futile { link.lose with listener := listener } :=
  futile.of_opener rfl futile.opener rfl rfl rfl

/-- A sender that is further than `phys_connect` is not there. -/
theorem sender_ne (side : Bool) :
    (link.csock side).sender ≠ .confirmed ∧ (link.csock side).sender ≠ .works := by
  cases side with
  | false =>
      rcases futile.opener with stage | stage | stage | stage
      all_goals exact stage ▸ ⟨nofun, nofun⟩
  | true =>
      rcases futile.acceptor with stage | stage
      all_goals exact stage.1 ▸ ⟨nofun, nofun⟩

theorem acceptor_receiver : (link.csock true).receiver ≠ .confirms ∧
    (link.csock true).receiver ≠ .confirmed ∧ (link.csock true).receiver ≠ .reads := by
  rcases futile.acceptor with stage | stage
  all_goals exact stage.2 ▸ ⟨nofun, nofun, nofun⟩

theorem addConnection {localIface : Option NetInterface}
    (moved : link.step platform true (.addConnection localIface) = some after) : after.Futile := by
  cases localIface with
  | none =>
      simp only [step] at moved
      split_ifs at moved
      cases moved
      exact futile.lose
  | some localIface =>
      simp only [step] at moved
      split_ifs at moved with accepted enough
      split at moved
      · cases moved
        exact ⟨futile.silent, futile.opener,
          fun side => by
            cases side with
            | false => exact futile.unwritten false
            | true => rfl,
          fun side => by
            cases side with
            | false => exact futile.undispatched false
            | true => rfl, .inr ⟨rfl, rfl⟩, rfl, rfl⟩
      · cases moved
        exact futile.lose

end Futile

theorem futile_step (futile : link.Futile) (moved : link.step platform true event = some after) :
    after.Futile := by
  cases event with
  | connect ok =>
      simp only [step] at moved
      split_ifs at moved
      · cases moved
        exact futile.of_opener futile.silent (.inr (.inl rfl)) rfl rfl rfl
      · cases moved
        exact futile.of_opener futile.silent (.inr (.inr (.inr rfl))) rfl rfl rfl
  | announce accepted =>
      simp only [step] at moved
      split_ifs at moved
      · cases moved
        exact futile.of_opener futile.silent (.inr (.inr (.inl rfl))) rfl rfl rfl
      · cases moved
        exact futile.of_opener futile.silent (.inr (.inr (.inr rfl))) rfl rfl rfl
  | recvHello got =>
      simp only [step] at moved
      split_ifs at moved with enabled full
      · have none' : got = 0 := Nat.le_zero.mp (enabled.2.2.trans_eq (congrArg _ futile.silent))
        exact absurd platform.hdrSize_pos (by rw [← full.1, none']; exact Nat.lt_irrefl 0)
      · cases moved
        refine futile.of_opener ?_ (.inr (.inr (.inr rfl))) rfl rfl rfl
        dsimp only
        rw [futile.silent, List.drop_nil]
  | accept known =>
      simp only [step] at moved
      split_ifs at moved
      · cases moved
        exact futile.of_opener futile.silent futile.opener rfl rfl rfl
      · cases moved
        exact futile.lose
  | addConnection localIface => exact futile.addConnection moved
  | confirm side accepted =>
      simp only [step] at moved
      cases side with
      | false =>
          split_ifs at moved
          · cases moved
            exact futile.of_opener futile.silent futile.opener rfl rfl rfl
          · cases moved
            exact futile.of_opener futile.silent futile.opener rfl rfl rfl
      | true =>
          rw [if_neg futile.acceptor_receiver.1] at moved
          cases moved
  | setConnected side ofSender =>
      simp only [step] at moved
      split_ifs at moved with thread confirmed confirmed
      · exact ((futile.sender_ne side).1 confirmed).elim
      · cases side with
        | false =>
            cases moved
            exact futile.of_opener futile.silent futile.opener rfl rfl rfl
        | true => exact (futile.acceptor_receiver.2.1 confirmed).elim
  | wake side ofSender =>
      simp only [step] at moved
      cases side with
      | false =>
          split_ifs at moved with woken thread waits
          · change link.opener.sender = .waits at waits
            rcases futile.opener with stage | stage | stage | stage
            all_goals cases stage.symm.trans waits
          · cases moved
            exact futile.of_opener futile.silent futile.opener rfl rfl rfl
      | true =>
          have asleep : ¬((link.csock true).connected || (link.csock true).connectionFailed) = true :=
            fun woken => by
              rw [csock, futile.unconnected, futile.unfailed] at woken
              cases woken
          rw [if_neg asleep] at moved
          cases moved
  | write side composite accepted =>
      simp only [step] at moved
      rw [if_neg (futile.sender_ne side).2] at moved
      cases moved
  | receive side =>
      simp only [step] at moved
      cases side with
      | false =>
          rw [bytes, futile.silent, receiveOne_nil] at moved
          split_ifs at moved
      | true =>
          rw [if_neg futile.acceptor_receiver.2.2] at moved
          cases moved
  | finish side ofSender =>
      simp only [step] at moved
      split_ifs at moved with thread works reads
      · exact ((futile.sender_ne side).2 works).elim
      · cases side with
        | false =>
            cases moved
            exact futile.of_opener futile.silent futile.opener rfl rfl rfl
        | true => exact (futile.acceptor_receiver.2.2 reads).elim
  | update side isLocal iface =>
      simp only [step] at moved
      split_ifs at moved
      cases moved
      obtain ⟨ifacePair, replaced, -⟩ := (link.csock side).update_ipAddr isLocal iface
      rw [replaced]
      cases side with
      | false => exact futile.of_opener futile.silent futile.opener rfl rfl rfl
      | true =>
          exact ⟨futile.silent, futile.opener,
            fun side => by
              cases side with
              | false => exact futile.unwritten false
              | true => exact futile.unwritten true,
            fun side => by
              cases side with
              | false => exact futile.undispatched false
              | true => exact futile.undispatched true,
            futile.acceptor, futile.unconnected, futile.unfailed⟩
  | cut =>
      cases moved
      exact futile.lose

/-- When the accepting side opens a csocket, no message is ever written or read over it, and its
sender never comes to its loop. The workers of the csocket that the listener makes wait forever. -/
theorem opened_in_vain (reached : (machine platform true).Reachable link) :
    (∀ side, (link.csock side).messages = [] ∧ (link.csock side).dispatched = []) ∧
      link.opener.sender ≠ .works ∧ link.acceptor.connected = false ∧
      (link.acceptor.sender = .absent ∧ link.acceptor.receiver = .absent ∨
        link.acceptor.sender = .waits ∧ link.acceptor.receiver = .waits) := by
  have futile : link.Futile :=
    reached.induct (fun _ ⟨_, start⟩ => start ▸ ⟨rfl, .inl rfl, fun side => by cases side <;> rfl,
      fun side => by cases side <;> rfl, .inl ⟨rfl, rfl⟩, rfl, rfl⟩)
      fun _ _ _ _ futile _ moved => futile_step futile moved
  refine ⟨fun side => ⟨?_, futile.undispatched side⟩, ?_, futile.unconnected, futile.acceptor⟩
  · rw [CsockEnd.messages, futile.unwritten side]
    rfl
  · intro works
    have stages := futile.opener
    rw [works] at stages
    rcases stages with connects | announces | awaits | ended
    · cases connects
    · cases announces
    · cases awaits
    · cases ended

/-- The opener takes itself for connected. -/
theorem opened_in_vain_waiting : ∃ link : CsockLink, link.opener.connected = true ∧
    link.acceptor.sender = .waits ∧ link.acceptor.connected = false := by
  obtain ⟨link, run, known⟩ := (Option.any_eq_true _ _).mp (show
    (((machine .lp64 true).run (opening (⟨3, 0, 0, 0, 0⟩, ⟨4, 0, 0, 0, 0⟩) true)
      [.connect true, .announce 64, .confirm false 64, .setConnected false false, .accept true,
        .addConnection (some ⟨4, 0, 0, 0, 0⟩)]).any fun link => decide
      (link.opener.connected = true ∧ link.acceptor.sender = .waits)) = true by decide +kernel)
  have reached : (machine .lp64 true).Reachable link := .run (.initial ⟨_, rfl⟩) run
  obtain ⟨connected, waits⟩ := of_decide_eq_true known
  exact ⟨link, connected, waits, (opened_in_vain reached).2.2.1⟩

end CsockLink

end Libcmm
