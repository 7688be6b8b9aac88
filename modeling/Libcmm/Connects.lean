import Libcmm.Connected

/-! # The handshake of a csocket comes to its end

As long as no call fails and the connection is not cut, there is always a thread that can go
on, until the workers of both csockets are in their loops.
-/

namespace Libcmm

open Lib

namespace CsockLink

variable {platform : Platform} {link after : CsockLink} {event : LinkEvent}

variable (platform) in
/-- Calls that send are done in full, no call fails, and no worker ends. -/
def Unfailing (_ : CsockLink) : LinkEvent → Prop
  | .connect ok => ok = true
  | .announce accepted | .confirm _ accepted => platform.hdrSize ≤ accepted
  | .recvHello got => got = platform.hdrSize
  | .accept known => known = true
  | .addConnection localIface => localIface.isSome = true
  | .write _ composite accepted => (platform.written composite).length ≤ accepted
  | .finish _ _ | .cut => False
  | .setConnected _ _ | .wake _ _ | .receive _ | .update _ _ _ => True

instance : ∀ link event, Decidable (Unfailing platform link event)
  | _, .connect ok => inferInstanceAs (Decidable (ok = true))
  | _, .announce accepted | _, .confirm _ accepted =>
      inferInstanceAs (Decidable (platform.hdrSize ≤ accepted))
  | _, .recvHello got => inferInstanceAs (Decidable (got = platform.hdrSize))
  | _, .accept known => inferInstanceAs (Decidable (known = true))
  | _, .addConnection localIface => inferInstanceAs (Decidable (localIface.isSome = true))
  | _, .write _ composite accepted =>
      inferInstanceAs (Decidable ((platform.written composite).length ≤ accepted))
  | _, .finish _ _ | _, .cut => .isFalse id
  | _, .setConnected _ _ | _, .wake _ _ | _, .receive _ | _, .update _ _ _ => .isTrue trivial

variable (platform) in
/-- The machine in which nothing fails. -/
abbrev unfailing : Machine CsockLink LinkEvent :=
  (machine platform false).restrict (Unfailing platform)

/-- An opener that has not failed. -/
structure SmoothOpener (csock : CsockEnd) : Prop where
  isOpen : csock.isOpen = true
  unfailed : csock.connectionFailed = false
  sender : csock.sender = .connects ∨ csock.sender = .announces ∨ csock.sender = .awaitsHello ∨
    csock.sender = .confirmed ∨ csock.sender = .works ∧ csock.connected = true
  receiver : csock.receiver = .waits ∨ csock.receiver = .reads

/-- An acceptor that has not failed. -/
structure SmoothAcceptor (csock : CsockEnd) : Prop where
  isOpen : csock.isOpen = true
  unfailed : csock.connectionFailed = false
  sender : csock.sender = .waits ∨ csock.sender = .works
  receiver : csock.receiver = .confirms ∨ csock.receiver = .confirmed ∨
    csock.receiver = .reads ∧ csock.connected = true

variable (platform link) in
/-- What holds as long as nothing fails. -/
structure Smooth : Prop where
  opener : SmoothOpener link.opener
  acceptor : link.listener = .done → SmoothAcceptor link.acceptor
  established : link.opener.sender ≠ .connects → link.established = true
  announced : link.opener.sender ≠ .connects → link.opener.sender ≠ .announces →
    link.listener ≠ .done → platform.hdrSize ≤ link.toAcceptor.length

theorem transmit_whole (side : Bool) {bytes : List Byte} {accepted : Nat}
    (established : link.established = true) (isOpen : (link.csock side).isOpen = true)
    (enough : bytes.length ≤ accepted) :
    link.transmit side bytes accepted =
      (link.setBytes (link.bytes (!side) ++ bytes) (!side), true) := by
  rw [transmit, established, isOpen, List.take_of_length_le enough, decide_eq_true enough]
  rfl

namespace Smooth

variable (smooth : link.Smooth platform) (sound : link.Sound platform)
include smooth

/-- The opener goes on, and takes nothing from the listener. -/
theorem of_opener {next : CsockLink} (opener : SmoothOpener next.opener)
    (acceptor : next.acceptor = link.acceptor) (listener : next.listener = link.listener)
    (established : next.opener.sender ≠ .connects → next.established = true)
    (announced : next.opener.sender ≠ .connects → next.opener.sender ≠ .announces →
      next.listener ≠ .done → platform.hdrSize ≤ next.toAcceptor.length) : next.Smooth platform :=
  ⟨opener, fun done => acceptor ▸ smooth.acceptor (listener ▸ done), established, announced⟩

theorem connect (moved : link.step platform false (.connect true) = some after) :
    after.Smooth platform := by
  simp only [step] at moved
  split_ifs at moved with connects success
  · cases moved
    exact smooth.of_opener ⟨smooth.opener.isOpen, smooth.opener.unfailed, .inr (.inl rfl),
      smooth.opener.receiver⟩ rfl rfl (fun _ => rfl) fun _ more => (more rfl).elim
  · rw [Bool.true_and] at success
    exact (success smooth.opener.isOpen).elim

theorem announce {accepted : Nat} (enough : platform.hdrSize ≤ accepted)
    (moved : link.step platform false (.announce accepted) = some after) :
    after.Smooth platform := by
  have length : (announcement platform link.opener.ifacePair.1).length = platform.hdrSize :=
    platform.length_store _
  simp only [step] at moved
  by_cases announces : link.opener.sender = .announces
  · have established : link.established = true :=
      smooth.established fun connects => SenderStage.noConfusion (announces.symm.trans connects)
    rw [if_pos announces, transmit_whole false established smooth.opener.isOpen (length ▸ enough)] at moved
    cases moved
    refine smooth.of_opener ⟨smooth.opener.isOpen, smooth.opener.unfailed, .inr (.inr (.inl rfl)),
      smooth.opener.receiver⟩ rfl rfl (fun _ => established) fun _ _ _ => ?_
    change _ ≤ (link.toAcceptor ++ _).length
    rw [List.length_append, length]
    exact Nat.le_add_left _ _
  · rw [if_neg announces] at moved
    cases moved

theorem accept (moved : link.step platform false (.accept true) = some after) :
    after.Smooth platform := by
  simp only [step] at moved
  split_ifs at moved with enabled
  cases moved
  exact ⟨smooth.opener, fun done => ListenerStage.noConfusion done, smooth.established,
    fun connects announces _ => smooth.announced connects announces
      fun done => ListenerStage.noConfusion (enabled.2.symm.trans done)⟩

include sound

/-- The csocket that the listener has made is there. -/
theorem done_of_present (present : link.acceptor ≠ .absent) :
    link.listener = .done ∧ SmoothAcceptor link.acceptor ∧ link.opener.sender ≠ .connects := by
  have done : link.listener = .done := by
    by_contra more
    exact present (sound.unserved more)
  exact ⟨done, smooth.acceptor done, (sound.outward.running_of_present present).1⟩

/-- The acceptor goes on. -/
theorem of_acceptor (present : link.acceptor ≠ .absent) {next : CsockLink}
    (acceptor : SmoothAcceptor next.acceptor) (opener : next.opener = link.opener)
    (listener : next.listener = link.listener) (established : next.established = link.established) :
    next.Smooth platform := by
  obtain ⟨done, -, connects⟩ := smooth.done_of_present sound present
  exact ⟨opener ▸ smooth.opener, fun _ => acceptor, fun _ => established ▸ smooth.established connects,
    fun _ _ more => (more (listener ▸ done)).elim⟩

theorem recvHello (zero : platform.load (hello platform) = .other 0)
    (moved : link.step platform false (.recvHello platform.hdrSize) = some after) :
    after.Smooth platform := by
  simp only [step] at moved
  split_ifs at moved with enabled full
  · have connects : link.opener.sender ≠ .connects := fun connects =>
      SenderStage.noConfusion (enabled.1.symm.trans connects)
    cases moved
    exact smooth.of_opener ⟨smooth.opener.isOpen, smooth.opener.unfailed,
      .inr (.inr (.inr (.inl rfl))), smooth.opener.receiver⟩ rfl rfl
      (fun _ => smooth.established connects) fun _ _ => smooth.announced connects
        fun announces => SenderStage.noConfusion (enabled.1.symm.trans announces)
  · refine absurd ⟨trivial, ?_⟩ full
    rw [sound.hello_of_length enabled.1 enabled.2.2]
    exact zero

theorem addConnection {localIface : NetInterface}
    (moved : link.step platform false (.addConnection (some localIface)) = some after) :
    after.Smooth platform := by
  simp only [step] at moved
  split_ifs at moved with accepted enough
  have absent : link.acceptor = .absent :=
    sound.unserved fun done => ListenerStage.noConfusion (accepted.symm.trans done)
  obtain ⟨iface, -, whole, length, -⟩ := sound.announcement_of_length absent enough
  rw [whole, List.take_of_length_le length.le, load_announcement] at moved
  cases moved
  exact ⟨smooth.opener, fun _ => ⟨rfl, rfl, .inl rfl, .inl rfl⟩, smooth.established,
    fun _ _ more => (more rfl).elim⟩

theorem confirm {side : Bool} {accepted : Nat} (enough : platform.hdrSize ≤ accepted)
    (moved : link.step platform false (.confirm side accepted) = some after) :
    after.Smooth platform := by
  simp only [step] at moved
  by_cases confirms : (link.csock side).receiver = .confirms
  · rw [if_pos confirms] at moved
    cases side with
    | false => exact (sound.openerReceiver.1 confirms).elim
    | true =>
        have present : link.acceptor ≠ .absent :=
          CsockEnd.present_of_receiver confirms ReceiverStage.noConfusion
        obtain ⟨-, there, connects⟩ := smooth.done_of_present sound present
        rw [transmit_whole true (smooth.established connects) there.isOpen (length_hello ▸ enough)] at moved
        cases moved
        exact smooth.of_acceptor sound present
          ⟨there.isOpen, there.unfailed, there.sender, .inr (.inl rfl)⟩ rfl rfl rfl
  · rw [if_neg confirms] at moved
    cases moved

theorem setConnected {side ofSender : Bool}
    (moved : link.step platform false (.setConnected side ofSender) = some after) :
    after.Smooth platform := by
  simp only [step] at moved
  split_ifs at moved with thread confirmed confirmed
  · cases moved
    cases side with
    | true => exact (sound.acceptorSender confirmed).elim
    | false =>
        have connects : link.opener.sender ≠ .connects := fun connects =>
          SenderStage.noConfusion (confirmed.symm.trans connects)
        exact smooth.of_opener ⟨smooth.opener.isOpen, smooth.opener.unfailed,
          .inr (.inr (.inr (.inr ⟨rfl, rfl⟩))), smooth.opener.receiver⟩ rfl rfl
          (fun _ => smooth.established connects) fun _ _ => smooth.announced connects
            fun announces => SenderStage.noConfusion (confirmed.symm.trans announces)
  · cases moved
    cases side with
    | false => exact (sound.openerReceiver.2 confirmed).elim
    | true =>
        have present : link.acceptor ≠ .absent :=
          CsockEnd.present_of_receiver confirmed ReceiverStage.noConfusion
        obtain ⟨-, there, -⟩ := smooth.done_of_present sound present
        exact smooth.of_acceptor sound present
          ⟨there.isOpen, there.unfailed, there.sender, .inr (.inr ⟨rfl, rfl⟩)⟩ rfl rfl rfl

theorem wake {side ofSender : Bool}
    (moved : link.step platform false (.wake side ofSender) = some after) :
    after.Smooth platform := by
  simp only [step] at moved
  split_ifs at moved with woken thread waits waits
  · cases moved
    cases side with
    | false =>
        change link.opener.sender = .waits at waits
        rcases smooth.opener.sender with stage | stage | stage | stage | ⟨stage, -⟩
        all_goals cases stage.symm.trans waits
    | true =>
        have present : link.acceptor ≠ .absent :=
          CsockEnd.present_of_sender waits SenderStage.noConfusion
        obtain ⟨-, there, -⟩ := smooth.done_of_present sound present
        refine smooth.of_acceptor sound present ⟨there.isOpen, there.unfailed, .inr ?_,
          there.receiver⟩ rfl rfl rfl
        exact if_neg fun failed => Bool.noConfusion (there.unfailed.symm.trans failed)
  · cases moved
    cases side with
    | false =>
        refine smooth.of_opener ⟨smooth.opener.isOpen, smooth.opener.unfailed,
          smooth.opener.sender, .inr ?_⟩ rfl rfl smooth.established smooth.announced
        exact if_neg fun failed => Bool.noConfusion (smooth.opener.unfailed.symm.trans failed)
    | true =>
        change link.acceptor.receiver = .waits at waits
        have present : link.acceptor ≠ .absent :=
          CsockEnd.present_of_receiver waits ReceiverStage.noConfusion
        obtain ⟨-, there, -⟩ := smooth.done_of_present sound present
        rcases there.receiver with stage | stage | ⟨stage, -⟩
        all_goals cases stage.symm.trans waits

theorem write {side : Bool} {composite : Composite} {accepted : Nat}
    (enough : (platform.written composite).length ≤ accepted)
    (moved : link.step platform false (.write side composite accepted) = some after) :
    after.Smooth platform := by
  simp only [step] at moved
  by_cases works : (link.csock side).sender = .works
  · rw [if_pos works] at moved
    cases side with
    | false =>
        have connects : link.opener.sender ≠ .connects := fun connects =>
          SenderStage.noConfusion (works.symm.trans connects)
        have connected : link.opener.connected = true := by
          rcases smooth.opener.sender with stage | stage | stage | stage | ⟨-, connected⟩
          any_goals cases stage.symm.trans works
          exact connected
        rw [transmit_whole false (smooth.established connects) smooth.opener.isOpen enough] at moved
        cases moved
        refine smooth.of_opener ⟨smooth.opener.isOpen, smooth.opener.unfailed,
          .inr (.inr (.inr (.inr ⟨rfl, connected⟩))), smooth.opener.receiver⟩ rfl rfl
          (fun _ => smooth.established connects) fun _ _ more => ?_
        change _ ≤ (link.toAcceptor ++ _).length
        rw [List.length_append]
        exact Nat.le_add_right_of_le (smooth.announced connects
          (fun announces => SenderStage.noConfusion (works.symm.trans announces)) more)
    | true =>
        have present : link.acceptor ≠ .absent :=
          CsockEnd.present_of_sender works SenderStage.noConfusion
        obtain ⟨-, there, connects⟩ := smooth.done_of_present sound present
        rw [transmit_whole true (smooth.established connects) there.isOpen enough] at moved
        cases moved
        exact smooth.of_acceptor sound present
          ⟨there.isOpen, there.unfailed, .inr rfl, there.receiver⟩ rfl rfl rfl
  · rw [if_neg works] at moved
    cases moved

theorem receive {side : Bool}
    (moved : link.step platform false (.receive side) = some after) : after.Smooth platform := by
  simp only [step] at moved
  split_ifs at moved with reads
  split at moved
  · cases moved
    cases side with
    | false =>
        exact smooth.of_opener ⟨smooth.opener.isOpen, smooth.opener.unfailed,
          smooth.opener.sender, smooth.opener.receiver⟩ rfl rfl smooth.established smooth.announced
    | true =>
        have present : link.acceptor ≠ .absent :=
          CsockEnd.present_of_receiver reads ReceiverStage.noConfusion
        obtain ⟨-, there, -⟩ := smooth.done_of_present sound present
        exact smooth.of_acceptor sound present
          ⟨there.isOpen, there.unfailed, there.sender, there.receiver⟩ rfl rfl rfl
  · cases moved

theorem update {side isLocal : Bool} {iface : NetInterface}
    (moved : link.step platform false (.update side isLocal iface) = some after) :
    after.Smooth platform := by
  simp only [step] at moved
  split_ifs at moved with absent
  cases moved
  obtain ⟨ifacePair, replaced, -⟩ := (link.csock side).update_ipAddr isLocal iface
  rw [replaced]
  cases side with
  | false =>
      exact smooth.of_opener ⟨smooth.opener.isOpen, smooth.opener.unfailed,
        smooth.opener.sender, smooth.opener.receiver⟩ rfl rfl smooth.established smooth.announced
  | true =>
      have present : link.acceptor ≠ .absent := fun none' => absent (congrArg CsockEnd.sender none')
      obtain ⟨-, there, -⟩ := smooth.done_of_present sound present
      exact smooth.of_acceptor sound present
        ⟨there.isOpen, there.unfailed, there.sender, there.receiver⟩ rfl rfl rfl

theorem step (zero : platform.load (hello platform) = .other 0)
    (unfailing : Unfailing platform link event)
    (moved : link.step platform false event = some after) : after.Smooth platform := by
  cases event with
  | connect ok => exact smooth.connect (unfailing ▸ moved)
  | announce accepted => exact smooth.announce unfailing moved
  | recvHello got => exact smooth.recvHello sound zero (unfailing ▸ moved)
  | accept known => exact smooth.accept (unfailing ▸ moved)
  | addConnection localIface =>
      obtain ⟨localIface, rfl⟩ := Option.isSome_iff_exists.mp unfailing
      exact smooth.addConnection sound moved
  | confirm side accepted => exact smooth.confirm sound unfailing moved
  | setConnected side ofSender => exact smooth.setConnected sound moved
  | wake side ofSender => exact smooth.wake sound moved
  | write side composite accepted => exact smooth.write sound unfailing moved
  | receive side => exact smooth.receive sound moved
  | finish side ofSender => exact unfailing.elim
  | update side isLocal iface => exact smooth.update sound moved
  | cut => exact unfailing.elim

end Smooth

/-! ### How far the handshake is from its end -/

end CsockLink

/-- The steps a sender thread is away from its loop. -/
def SenderStage.left : SenderStage → Nat
  | connects => 4
  | announces => 3
  | awaitsHello | absent => 2
  | confirmed | waits => 1
  | works | ended => 0

/-- The steps a receiver thread is away from its loop. -/
def ReceiverStage.left : ReceiverStage → Nat
  | absent => 3
  | confirms => 2
  | confirmed | waits => 1
  | reads | ended => 0

def ListenerStage.left : ListenerStage → Nat
  | listens => 2
  | accepted => 1
  | done => 0

namespace CsockLink

variable {platform : Platform} {link after : CsockLink} {event : LinkEvent}

/-- The steps that all threads are away from their loops. -/
def work (link : CsockLink) : Nat :=
  link.opener.sender.left + link.opener.receiver.left + link.acceptor.sender.left +
    link.acceptor.receiver.left + link.listener.left

variable (platform link) in
/-- A thread can go on. -/
def Goes : Prop :=
  ∃ event, (unfailing platform).permitted link event ∧
    ∃ next, link.step platform false event = some next ∧ next.work < link.work

namespace Smooth

variable (smooth : link.Smooth platform) (sound : link.Sound platform)

theorem goes_of_confirmed (confirmed : link.opener.sender = .confirmed) : link.Goes platform := by
  refine ⟨.setConnected false true, ⟨trivial, trivial⟩, _, if_pos confirmed, ?_⟩
  simp only [work, setCsock, csock, confirmed, SenderStage.left]
  omega

theorem goes_of_saying (confirmed : link.acceptor.receiver = .confirmed) : link.Goes platform := by
  refine ⟨.setConnected true false, ⟨trivial, trivial⟩, ?_⟩
  rw [CsockLink.step, if_neg Bool.false_ne_true, csock, if_pos confirmed]
  refine ⟨_, rfl, ?_⟩
  simp only [work, setCsock, confirmed, ReceiverStage.left]
  omega

include smooth

theorem goes_of_connects (connects : link.opener.sender = .connects) : link.Goes platform := by
  refine ⟨.connect true, ⟨trivial, rfl⟩, _, (if_pos connects).trans
    (congrArg some (if_pos smooth.opener.isOpen)), ?_⟩
  simp only [work, connects, SenderStage.left]
  omega

theorem goes_of_announces (announces : link.opener.sender = .announces) : link.Goes platform := by
  have length : (announcement platform link.opener.ifacePair.1).length = platform.hdrSize :=
    platform.length_store _
  have established : link.established = true :=
    smooth.established fun connects => nomatch announces.symm.trans connects
  refine ⟨.announce platform.hdrSize, ⟨trivial, le_rfl⟩, ?_⟩
  rw [CsockLink.step, if_pos announces,
    transmit_whole false established smooth.opener.isOpen length.le]
  refine ⟨_, rfl, ?_⟩
  simp only [work, announces, SenderStage.left, setBytes, Bool.not_false, if_true]
  omega

include sound

/-- The opener waits for the HELLO, and the listener has made a csocket. -/
theorem goes_of_done (zero : platform.load (hello platform) = .other 0)
    (awaits : link.opener.sender = .awaitsHello)
    (connects : link.opener.sender ≠ .connects)
    (done : link.listener = .done) : link.Goes platform := by
  have there := smooth.acceptor done
  rcases there.receiver with confirms | confirmed | ⟨-, connected⟩
  · refine ⟨.confirm true platform.hdrSize, ⟨trivial, le_rfl⟩, ?_⟩
    rw [CsockLink.step, csock, if_pos confirms,
      transmit_whole true (smooth.established connects) there.isOpen length_hello.le]
    refine ⟨_, rfl, ?_⟩
    simp only [work, setBytes, setCsock, Bool.not_true, if_true, confirms, ReceiverStage.left]
    omega
  · exact goes_of_saying confirmed
  · have enough : platform.hdrSize ≤ link.toOpener.length := by
      cases sound.inward with
      | before _ unhailed => cases unhailed.unconnected.symm.trans connected
      | hailed _ _ arriving =>
          obtain ⟨later, under, -⟩ := arriving awaits (smooth.established connects)
          rw [under, List.length_append, length_hello]
          exact Nat.le_add_right _ _
      | greeted greeted => exact (greeted.past awaits).elim
    refine ⟨.recvHello platform.hdrSize, ⟨trivial, rfl⟩, ?_⟩
    rw [CsockLink.step, if_pos ⟨awaits, le_rfl, enough⟩, sound.hello_of_length awaits enough,
      if_pos ⟨rfl, zero⟩]
    refine ⟨_, rfl, ?_⟩
    simp only [work, awaits, SenderStage.left]
    omega

/-- The opener waits for the HELLO: the listener, the receiver at the other end, or the opener
itself goes on. -/
theorem goes_of_awaitsHello (zero : platform.load (hello platform) = .other 0)
    (awaits : link.opener.sender = .awaitsHello) : link.Goes platform := by
  have connects : link.opener.sender ≠ .connects := fun connects => nomatch awaits.symm.trans connects
  have announces : link.opener.sender ≠ .announces := fun early => nomatch awaits.symm.trans early
  cases listener : link.listener with
  | listens =>
      refine ⟨.accept true, ⟨trivial, rfl⟩, _,
        if_pos ⟨smooth.established connects, listener⟩, ?_⟩
      simp only [work, listener, ListenerStage.left, if_true]
      omega
  | accepted =>
      have unserved : link.listener ≠ .done := fun done => nomatch listener.symm.trans done
      have enough := smooth.announced connects announces unserved
      obtain ⟨iface, -, whole, length, -⟩ :=
        sound.announcement_of_length (sound.unserved unserved) enough
      refine ⟨.addConnection (some sentinel), ⟨trivial, rfl⟩, ?_⟩
      simp only [CsockLink.step]
      rw [if_pos listener, if_pos enough, whole, List.take_of_length_le length.le, load_announcement]
      refine ⟨_, rfl, ?_⟩
      simp only [work, listener, sound.unserved unserved, CsockEnd.absent, CsockEnd.create,
        SenderStage.left, ReceiverStage.left, ListenerStage.left, Bool.not_false, if_true]
      omega
  | done => exact smooth.goes_of_done sound zero awaits connects listener

/-- The opener has its HELLO: the workers wake up, unless all are in their loops. -/
theorem goes_of_works (works : link.opener.sender = .works) (connected : link.opener.connected = true)
    (unfinished : ¬∀ side, (link.csock side).sender = .works ∧ (link.csock side).receiver = .reads) :
    link.Goes platform := by
  have hailed : link.acceptor.Hailed := by
    cases sound.inward with
    | before quiet => cases quiet.unconnected.symm.trans connected
    | hailed quiet => cases quiet.unconnected.symm.trans connected
    | greeted _ hailed => exact hailed
  obtain ⟨-, there, -⟩ := smooth.done_of_present sound hailed.present
  rcases smooth.opener.receiver with waits | reads
  · refine ⟨.wake false false, ⟨trivial, trivial⟩, ?_⟩
    rw [CsockLink.step, csock, connected, Bool.true_or, if_pos rfl, if_neg Bool.false_ne_true,
      if_pos waits]
    refine ⟨_, rfl, ?_⟩
    simp only [work, setCsock, CsockEnd.wakeReceiver, smooth.opener.unfailed, waits,
      ReceiverStage.left, Bool.false_eq_true, if_false]
    omega
  · rcases there.receiver with confirms | confirmed | ⟨reads', connected'⟩
    · exact (hailed.past confirms).elim
    · exact goes_of_saying confirmed
    · rcases there.sender with waits | works'
      · refine ⟨.wake true true, ⟨trivial, trivial⟩, ?_⟩
        rw [CsockLink.step, csock, connected', Bool.true_or, if_pos rfl, if_pos rfl, if_pos waits]
        refine ⟨_, rfl, ?_⟩
        simp only [work, setCsock, CsockEnd.wakeSender, there.unfailed, waits, SenderStage.left,
          Bool.false_eq_true, if_false]
        omega
      · refine (unfinished fun side => ?_).elim
        cases side with
        | false => exact ⟨works, reads⟩
        | true => exact ⟨works', reads'⟩

theorem goes (zero : platform.load (hello platform) = .other 0)
    (unfinished : ¬∀ side, (link.csock side).sender = .works ∧ (link.csock side).receiver = .reads) :
    link.Goes platform := by
  rcases smooth.opener.sender with connects | announces | awaits | confirmed | ⟨works, connected⟩
  · exact smooth.goes_of_connects connects
  · exact smooth.goes_of_announces announces
  · exact smooth.goes_of_awaitsHello sound zero awaits
  · exact goes_of_confirmed confirmed
  · exact smooth.goes_of_works sound works connected unfinished

end Smooth

theorem smooth_opening (ifacePair : IfacePair) : (opening ifacePair false).Smooth platform :=
  ⟨⟨rfl, rfl, .inl rfl, .inl rfl⟩, nofun, fun more => (more rfl).elim, fun more => (more rfl).elim⟩

theorem smooth_of_reachable (zero : platform.load (hello platform) = .other 0)
    (reached : (unfailing platform).Reachable link) : link.Smooth platform :=
  reached.induct (fun _ ⟨ifacePair, start⟩ => start ▸ smooth_opening ifacePair)
    fun _ _ _ earlier smooth permitted moved =>
      smooth.step (sound_of_reachable earlier.of_restrict) zero permitted.2 moved

/-- From every state of a handshake in which nothing has failed, the workers of both csockets
can come to their loops without a failure. -/
theorem workers_start (zero : platform.load (hello platform) = .other 0)
    (reached : (unfailing platform).Reachable link) :
    ∃ last, (unfailing platform).Leads link last ∧
      ∀ side, (last.csock side).sender = .works ∧ (last.csock side).receiver = .reads := by
  induction left : link.work using Nat.strong_induction_on generalizing link with
  | _ left' ih =>
      by_cases finished : ∀ side, (link.csock side).sender = .works ∧ (link.csock side).receiver = .reads
      · exact ⟨link, .refl link, finished⟩
      · obtain ⟨event, permitted, next, moved, less⟩ := (smooth_of_reachable zero reached).goes
          (sound_of_reachable reached.of_restrict) zero finished
        obtain ⟨last, onward, done⟩ := ih next.work (left ▸ less) (reached.step permitted moved) rfl
        exact ⟨last, (Machine.Leads.one permitted moved).trans onward, done⟩

/-- The listener has the connection, and has not read the announcement. -/
theorem workers_start_accepted : ∃ first last : CsockLink, first.listener = .accepted ∧
    (unfailing .lp64).Leads first last ∧
      ∀ side, (last.csock side).sender = .works ∧ (last.csock side).receiver = .reads := by
  obtain ⟨first, run, known⟩ := (Option.any_eq_true _ _).mp (show
    (((unfailing .lp64).run (opening (⟨3, 0, 0, 0, 0⟩, ⟨4, 0, 0, 0, 0⟩) false)
      [.connect true, .announce 64, .accept true]).any fun link => decide
        (link.listener = .accepted)) = true by decide +kernel)
  have reached : (unfailing .lp64).Reachable first := .run (.initial ⟨_, rfl⟩) run
  obtain ⟨last, leads, done⟩ := workers_start (by decide +kernel) reached
  exact ⟨first, last, of_decide_eq_true known, leads, done⟩

end CsockLink

end Libcmm
