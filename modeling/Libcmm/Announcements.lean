import Libcmm.Updates

/-! # Announcing interfaces (`cmm_socket_impl.cpp`, `csocket_sender.cpp`)

A multisocket announces to its peer that an interface went down, or that the figures of an
interface changed. A sender takes an announcement out of the set, and puts it back if the
write fails. So the multisocket owes the announcement until it was written
(`Updates.announcement_kept`), whatever the scout, the process and other senders do.
-/

namespace Libcmm

open Lib IfaceUpdate

namespace SocketIfaces

variable {platform : Platform} {sk after : SocketIfaces} {iface : NetInterface}
  {down taken written : Bool} {index query : Nat}

/-- What is to be announced. -/
def announcements (sk : SocketIfaces) (down : Bool) : NetInterfaceSet :=
  if down then sk.downLocalIfaces else sk.changedLocalIfaces

/-- The announcement of an interface waits for a sender, or a sender has taken it. -/
def Owes (sk : SocketIfaces) (query : Nat) (down : Bool) : Prop :=
  (sk.announcements down).has query = true ∨
    ∃ update ∈ sk.hands, update.down = down ∧ update.key = query

/-- More updates add announcements. -/
theorem Owes.setup (owes : sk.Owes query down) : (sk.setup platform iface).Owes query down := by
  unfold SocketIfaces.setup
  split_ifs
  · exact owes
  · refine owes.imp_left fun waits => ?_
    cases down with
    | true => exact waits
    | false =>
        refine KeyedSet.has_insert.mpr ?_
        by_cases same : query = iface.ipAddr.toNat
        · exact .inl same
        · exact .inr (KeyedSet.has_erase.mpr ⟨same, waits⟩)
  · exact owes

theorem Owes.teardown (owes : sk.Owes query down)
    (torn : sk.teardown platform iface = some after) : after.Owes query down := by
  unfold SocketIfaces.teardown at torn
  split_ifs at torn
  · cases torn
    exact owes
  · cases torn
    refine owes.imp_left fun waits => ?_
    cases down with
    | true => exact KeyedSet.has_insert.mpr (.inr waits)
    | false => exact waits

theorem Owes.bootstrap {ifaces : NetInterfaceSet} {address : UInt32} (owes : sk.Owes query down) :
    (sk.bootstrap platform ifaces address).Owes query down := by
  unfold SocketIfaces.bootstrap
  split_ifs <;> exact owes

/-- A sender takes an announcement. -/
theorem pop_eq (popped : sk.pop taken = some after) : ∃ iface,
    after.hands = ⟨iface, taken⟩ :: sk.hands ∧ ∀ down, after.announcements down =
      if down = taken then (sk.announcements down).erase iface.ipAddr.toNat
      else sk.announcements down := by
  unfold pop at popped
  split_ifs at popped with kind
  all_goals
    obtain ⟨⟨iface, rest⟩, first, rfl⟩ := Option.map_eq_some_iff.mp popped
    obtain ⟨-, rfl⟩ := KeyedSet.pop_eq_some first
    refine ⟨iface, ?_, fun down => ?_⟩
  · rw [kind]
  · rw [kind]
    cases down <;> rfl
  · rw [Bool.eq_false_iff.mpr kind]
  · rw [Bool.eq_false_iff.mpr kind]
    cases down <;> rfl

theorem Owes.pop (owes : sk.Owes query down) (popped : sk.pop taken = some after) :
    after.Owes query down := by
  obtain ⟨iface, hands, rest⟩ := pop_eq popped
  unfold Owes
  rw [hands, rest]
  rcases owes with waits | ⟨update, member, named⟩
  · split_ifs with kind
    · by_cases same : query = iface.ipAddr.toNat
      · exact .inr ⟨_, List.mem_cons_self, kind.symm, same.symm⟩
      · exact .inl (KeyedSet.has_erase.mpr ⟨same, waits⟩)
    · exact .inl waits
  · exact .inr ⟨update, List.mem_cons_of_mem _ member, named⟩

/-- The announcement is put back if the write fails. -/
theorem Owes.wrote (owes : sk.Owes query down) (wrote : sk.wrote index written = some after)
    (other : written = true →
      ∀ update ∈ sk.hands[index]?, update.down = down → update.key ≠ query) :
    after.Owes query down := by
  obtain ⟨update, found, rfl⟩ := Option.map_eq_some_iff.mp wrote
  -- either another sender has it, or this one
  have cases' : (sk.announcements down).has query = true ∨
      (∃ held ∈ sk.hands.eraseIdx index, held.down = down ∧ held.key = query) ∨
        update.down = down ∧ update.key = query := by
    refine owes.imp_right fun ⟨held, member, named⟩ => ?_
    obtain ⟨place, at'⟩ := List.mem_iff_getElem?.mp member
    by_cases same : place = index
    · subst same
      cases found.symm.trans at'
      exact .inr named
    · exact .inl ⟨held, List.mem_eraseIdx_iff_getElem?.mpr ⟨place, same, at'⟩, named⟩
  dsimp only
  split_ifs with done kind
  · rcases cases' with waits | held | ⟨kind, named⟩
    · exact .inl waits
    · exact .inr held
    · exact absurd named (other done update found kind)
  · rcases cases' with waits | held | ⟨same, named⟩
    · refine .inl ?_
      cases down with
      | true => exact KeyedSet.has_insert.mpr (.inr waits)
      | false => exact waits
    · exact .inr held
    · rw [← same, kind]
      exact .inl (KeyedSet.has_insert.mpr (.inl named.symm))
  · rcases cases' with waits | held | ⟨same, named⟩
    · refine .inl ?_
      cases down with
      | true => exact waits
      | false => exact KeyedSet.has_insert.mpr (.inr waits)
    · exact .inr held
    · rw [← same, Bool.eq_false_iff.mpr kind]
      exact .inl (KeyedSet.has_insert.mpr (.inl named.symm))

end SocketIfaces

namespace Updates

variable {platform : Platform} {before after first last : Updates} {event : UpdateEvent}
  {sock : Descriptor} {query : Nat} {down : Bool}

/-- A multisocket is there and owes an announcement. -/
def Owes (state : Updates) (sock : Descriptor) (query : Nat) (down : Bool) : Prop :=
  ∃ sk, state.cmmSockHash sock = some sk ∧ sk.Owes query down

theorem Owes.setSocket {changed : Descriptor} {sk next : SocketIfaces}
    (owes : before.Owes sock query down) (found : before.cmmSockHash changed = some sk)
    (kept : changed = sock → sk.Owes query down → next.Owes query down) :
    (before.setSocket changed (some next)).Owes sock query down := by
  obtain ⟨held, there, owed⟩ := owes
  unfold Owes Updates.setSocket
  dsimp only [SocketHash.set]
  by_cases same : sock = changed
  · subst same
    cases there.symm.trans found
    exact ⟨next, Function.update_self _ _ _, kept rfl owed⟩
  · exact ⟨held, (Function.update_of_ne same _ _).trans there, owed⟩

/-- More updates add announcements. -/
theorem Owes.process {update : IfaceUpdate} (owes : before.Owes sock query down)
    (processed : before.processInterfaceUpdate platform update = some after) :
    after.Owes sock query down := by
  obtain ⟨hash, changed, rfl⟩ := Option.map_eq_some_iff.mp processed
  obtain ⟨sk, found, owed⟩ := owes
  obtain ⟨next, made, there⟩ := SocketHash.forEach_found changed found
  refine ⟨next, there, ?_⟩
  split_ifs at made
  · exact owed.teardown made
  · cases made
    exact owed.setup

end Updates

end Libcmm
