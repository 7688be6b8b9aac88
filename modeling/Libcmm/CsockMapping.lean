import Libcmm.NetworkChooser
import Libcmm.Lib.OrderedSet
import Mathlib.Data.List.Pairwise

/-! # The sockets of a multisocket (`csocket_mapping.cpp`)

A multisocket keeps the set of its connections, by pointer, and asks its network chooser which of
them suits some labels: `connected_csock_with_labels` offers the chooser the connected ones,
`get_iface_pair_locked_internal` offers it every pair of a local and a remote interface whose type
the labels allow.
-/

namespace Libcmm

open Lib NetworkChooserImpl

/-- What the mapping reads of a `class CSocket`: its two interfaces and `is_connected`. -/
structure CSocket where
  ifacePair : IfacePair
  connected : Bool
  deriving DecidableEq

/-- `class CSockMapping`, with what it reads of its multisocket; `csocks` is what the pointers
lead to. -/
structure CsockMapping where
  csocks : Nat → CSocket
  availableCsocks : OrderedSet Nat
  localIfaces : List NetInterface
  remoteIfaces : List NetInterface
  acceptingSide : Bool

/-- The assertions of `connected_csock_with_labels`. -/
inductive LookupAssertion where
  /-- `ASSERT(lookup.count(key) == 0)` -/
  | keyAbsent
  /-- `ASSERT(lookup.count(iface_pair) > 0)` -/
  | pairPresent
  deriving DecidableEq

/-- What the local map `lookup` holds for a pair of interfaces, which it compares by address. -/
def lookupCsock (lookup : List (IfacePair × Nat)) (pair : IfacePair) : Option Nat :=
  (lookup.find? fun entry => addresses entry.1 == addresses pair).map Prod.snd

/-- `INADDR_LOOPBACK`. -/
def inaddrLoopback : Int := 0x7f000001

namespace CsockMapping

variable {σ : Type} (platform : Platform) (impl : NetworkChooserImpl σ)
  (estimate : IfacePair → Estimates) (mapping : CsockMapping)

/-- `CMMSocketImpl::isLoopbackOnly`. -/
def isLoopbackOnly : Bool :=
  match mapping.localIfaces with
  | [iface] => iface.ipAddr == platform.net inaddrLoopback
  | _ => false

/-- The pair of interfaces of a connection. -/
def ifacePair (csock : Nat) : IfacePair := (mapping.csocks csock).ifacePair

/-- The connected ones of some connections. -/
def connected (csocks : List Nat) : List Nat :=
  csocks.filter fun csock => (mapping.csocks csock).connected

/-- The pairs that a chooser considers for connections. -/
def offers (csocks : List Nat) : List (IfacePair × Estimates) :=
  (mapping.connected csocks).map fun csock =>
    (mapping.ifacePair csock, estimate (mapping.ifacePair csock))

/-- The loop of `connected_csock_with_labels` over the available connections. -/
def considerConnected :
    List Nat → σ → List (IfacePair × Nat) → Except LookupAssertion (σ × List (IfacePair × Nat))
  | [], chooser, lookup => .ok (chooser, lookup)
  | csock :: rest, chooser, lookup =>
      if (mapping.csocks csock).connected then
        let key := mapping.ifacePair csock
        let chooser := impl.consider chooser key (estimate key)
        if (lookupCsock lookup key).isNone then
          considerConnected rest chooser (lookup ++ [(key, csock)])
        else .error .keyAbsent
      else considerConnected rest chooser lookup

/-- `CSockMapping::connected_csock_with_labels`: the connection, if any, and the chooser
afterwards. -/
def connectedCsockWithLabels (chooser : σ) (sendLabel : Nat) :
    Except LookupAssertion (Option Nat × σ) :=
  if mapping.isLoopbackOnly platform then .ok (mapping.availableCsocks.toList.head?, chooser)
  else if mapping.availableCsocks.isEmpty then .ok (none, chooser)
  else
    match mapping.considerConnected impl estimate mapping.availableCsocks.toList
        (impl.reset chooser) [] with
    | .error assertion => .error assertion
    | .ok (chooser, lookup) =>
        if lookup.isEmpty then .ok (none, chooser)
        else
          match impl.chooseNetworks chooser sendLabel with
          | none => .ok (none, chooser)
          | some pair =>
              match lookupCsock lookup pair with
              | none => .error .pairPresent
              | some csock => .ok (some csock, chooser)

/-- The pairs of interfaces that `get_iface_pair_locked_internal` lets the chooser consider. -/
def fittingPairs (sendLabel : Nat) : List IfacePair :=
  (mapping.localIfaces ×ˢ mapping.remoteIfaces).filter fun pair =>
    typeFitsRestriction (getNetworkType pair) sendLabel

/-- `CSockMapping::get_iface_pair_locked_internal`. Neither set of interfaces is empty on a
multisocket that is loopback only. -/
def getIfacePairLockedInternal (chooser : σ) (sendLabel : Nat) : Option IfacePair × σ :=
  if mapping.isLoopbackOnly platform then
    (mapping.localIfaces.head?.bind fun localIface =>
      mapping.remoteIfaces.head?.map fun remoteIface => (localIface, remoteIface), chooser)
  else
    let considered := (mapping.fittingPairs sendLabel).map fun pair => (pair, estimate pair)
    let chooser := impl.round chooser considered
    if considered.isEmpty then (none, chooser)
    else (impl.chooseNetworks chooser sendLabel, chooser)

/-! ### Offering the connections -/

/-- No two available connections are between the same addresses. -/
def OnePerPair : Prop :=
  ∀ first ∈ mapping.availableCsocks, ∀ second ∈ mapping.availableCsocks,
    addresses (mapping.ifacePair first) = addresses (mapping.ifacePair second) → first = second

variable {platform impl estimate mapping} {csocks : List Nat} {chooser : σ} {labels : Nat}
  {lookup : List (IfacePair × Nat)} {pair : IfacePair}

theorem lookupCsock_eq_none_iff :
    lookupCsock lookup pair = none ↔ ∀ entry ∈ lookup, addresses entry.1 ≠ addresses pair := by
  simp only [lookupCsock, Option.map_eq_none_iff, List.find?_eq_none, beq_iff_eq, ne_eq]

/-- With one connection for each pair the loop reaches its end. -/
theorem considerConnected_eq
    (distinct : (mapping.connected csocks).Pairwise fun first second =>
      addresses (mapping.ifacePair first) ≠ addresses (mapping.ifacePair second))
    (fresh : ∀ csock ∈ mapping.connected csocks,
      lookupCsock lookup (mapping.ifacePair csock) = none) :
    mapping.considerConnected impl estimate csocks chooser lookup =
      .ok ((mapping.offers estimate csocks).foldl
          (fun chooser offer => impl.consider chooser offer.1 offer.2) chooser,
        lookup ++ (mapping.connected csocks).map fun csock => (mapping.ifacePair csock, csock)) := by
  induction csocks generalizing chooser lookup with
  | nil =>
      rw [show mapping.connected [] = [] from rfl, List.map_nil, List.append_nil]
      rfl
  | cons csock rest ih =>
      unfold considerConnected
      by_cases isConnected : (mapping.csocks csock).connected = true
      · have next : mapping.connected (csock :: rest) = csock :: mapping.connected rest :=
          List.filter_cons_of_pos isConnected
        rw [next] at distinct fresh
        obtain ⟨apart, distinctRest⟩ := List.pairwise_cons.mp distinct
        have absent := fresh csock List.mem_cons_self
        simp only [isConnected, absent, Option.isNone_none, ↓reduceIte]
        rw [ih distinctRest]
        · simp only [offers, next, List.map_cons, List.foldl_cons, List.append_assoc,
            List.cons_append, List.nil_append]
        · intro other member
          rw [lookupCsock_eq_none_iff]
          intro entry listed
          rcases List.mem_append.mp listed with old | new
          · exact lookupCsock_eq_none_iff.mp
              (fresh other (List.mem_cons_of_mem _ member)) entry old
          · rw [List.mem_singleton.mp new]
            exact apart other member
      · have next : mapping.connected (csock :: rest) = mapping.connected rest :=
          List.filter_cons_of_neg isConnected
        rw [if_neg isConnected, ih (next ▸ distinct) (next ▸ fresh), offers, offers, next]

/-- The set lists its connections in order, so no two of them share a pair. -/
theorem OnePerPair.pairwise (onePerPair : mapping.OnePerPair) :
    (mapping.connected mapping.availableCsocks.toList).Pairwise fun first second =>
      addresses (mapping.ifacePair first) ≠ addresses (mapping.ifacePair second) := by
  have sorted := mapping.availableCsocks.sorted.filter fun csock => (mapping.csocks csock).connected
  refine List.Pairwise.imp_of_mem ?_ sorted
  intro first second firstMember secondMember less same
  exact absurd (onePerPair first (List.mem_filter.mp firstMember).1 second
    (List.mem_filter.mp secondMember).1 same) (ne_of_lt less)

/-- With one connection for each pair no pair is met twice. -/
theorem OnePerPair.keyAbsent (onePerPair : mapping.OnePerPair) :
    mapping.connectedCsockWithLabels platform impl estimate chooser labels ≠ .error .keyAbsent := by
  unfold connectedCsockWithLabels
  split_ifs with loopback empty
  · exact fun failed => by cases failed
  · exact fun failed => by cases failed
  · rw [considerConnected_eq onePerPair.pairwise fun csock _ =>
      lookupCsock_eq_none_iff.mpr fun entry member => (List.not_mem_nil member).elim]
    dsimp only
    split_ifs
    · exact fun failed => by cases failed
    · rcases impl.chooseNetworks _ labels with _ | pair
      · exact fun failed => by cases failed
      · dsimp only
        rcases lookupCsock _ pair with _ | found
        · exact fun failed => by cases failed
        · exact fun failed => by cases failed

/-- With one connection for each pair the assertion on the chosen pair holds if and only if the
chooser picks one that it was offered. -/
theorem OnePerPair.pairPresent_iff (onePerPair : mapping.OnePerPair)
    (notLoopback : mapping.isLoopbackOnly platform = false) :
    mapping.connectedCsockWithLabels platform impl estimate chooser labels ≠ .error .pairPresent ↔
      (mapping.offers estimate mapping.availableCsocks.toList ≠ [] →
        impl.PicksOffered chooser (mapping.offers estimate mapping.availableCsocks.toList)
          labels) := by
  have offered : ∀ pair, lookupCsock
      ((mapping.connected mapping.availableCsocks.toList).map fun csock =>
        (mapping.ifacePair csock, csock)) pair ≠ none ↔
      Offered (mapping.offers estimate mapping.availableCsocks.toList) pair := by
    intro pair
    rw [ne_eq, lookupCsock_eq_none_iff]
    unfold Offered offers
    simp only [List.mem_map, forall_exists_index, and_imp, forall_apply_eq_imp_iff₂, ne_eq,
      not_forall, not_not, exists_prop, exists_exists_and_eq_and]
  unfold connectedCsockWithLabels
  rw [notLoopback, if_neg Bool.false_ne_true]
  split_ifs with empty
  · have nothing : mapping.availableCsocks.toList = [] := List.isEmpty_iff.mp empty
    rw [nothing]
    exact ⟨fun _ some' => absurd rfl some', fun _ failed => by cases failed⟩
  rw [considerConnected_eq onePerPair.pairwise fun csock _ =>
    lookupCsock_eq_none_iff.mpr fun entry member => (List.not_mem_nil member).elim, List.nil_append]
  rcases listed : mapping.connected mapping.availableCsocks.toList with _ | ⟨csock, rest⟩
  · have none' : mapping.offers estimate mapping.availableCsocks.toList = [] := by
      rw [offers, listed, List.map_nil]
    rw [none']
    exact ⟨fun _ some' => absurd rfl some', fun _ failed => by cases failed⟩
  · have some' : mapping.offers estimate mapping.availableCsocks.toList ≠ [] := by
      rw [offers, listed, List.map_cons]
      exact List.cons_ne_nil _ _
    rw [listed] at offered
    simp only [List.map_cons, List.isEmpty_cons, Bool.false_eq_true, ↓reduceIte]
    have picks : impl.PicksOffered chooser (mapping.offers estimate mapping.availableCsocks.toList)
        labels ↔ ∀ pair, impl.chooseNetworks (impl.round chooser
          (mapping.offers estimate mapping.availableCsocks.toList)) labels = some pair →
            lookupCsock ((mapping.ifacePair csock, csock) ::
              rest.map fun csock => (mapping.ifacePair csock, csock)) pair ≠ none :=
      forall₂_congr fun pair _ => (offered pair).symm
    rw [picks]
    unfold NetworkChooserImpl.round
    generalize List.foldl _ _ _ = considered
    rcases impl.chooseNetworks considered labels with _ | pair
    · exact ⟨fun _ _ pair chosen => (Option.some_ne_none pair chosen.symm).elim,
        fun _ failed => by cases failed⟩
    · simp only [Option.some.injEq, forall_eq']
      rcases lookupCsock _ pair with _ | found
      · exact ⟨fun holds _ _ => holds rfl, fun holds _ => holds some' rfl⟩
      · exact ⟨fun _ _ absent => (Option.some_ne_none found absent).elim,
          fun _ failed => by cases failed⟩

end CsockMapping

namespace LabelMatcher

variable (matcher : LabelMatcher) (offers : List (IfacePair × Estimates)) (labels : Nat)

/-- If the labels choose by bandwidth and every bandwidth considered is zero, then the pair
remembered from before the round is considered in it. -/
def WidestConsidered : Prop :=
  wantsBandwidth labels = true → offers ≠ [] → (∀ offer ∈ offers, bw offer.1 offer.2 = 0) →
    Offered offers matcher.maxBwIfacePair

instance : Decidable (matcher.WidestConsidered offers labels) :=
  inferInstanceAs (Decidable (_ → _ → _ → _))

/-- A `PreferredNetwork` returns one of the pairs considered; a `LabelMatcher` does so if and only
if it does not fall back on a pair from before the round that is not considered in it. The
assertion on the pair in `connected_csock_with_labels` holds in the same cases. -/
theorem picks_considered_iff (preferred : PreferredNetwork)
    (rtts : ∀ offer ∈ offers, rtt offer.1 offer.2 < ulongMax) :
    PreferredNetwork.impl.PicksOffered preferred offers labels ∧
    (impl.PicksOffered matcher offers labels ↔ matcher.WidestConsidered offers labels) ∧
    ∀ (platform : Platform) (mapping : CsockMapping) (estimate : IfacePair → Estimates),
      mapping.OnePerPair → mapping.isLoopbackOnly platform = false →
      mapping.offers estimate mapping.availableCsocks.toList = offers →
      mapping.connectedCsockWithLabels platform PreferredNetwork.impl estimate preferred labels ≠
        .error .pairPresent ∧
      (mapping.connectedCsockWithLabels platform impl estimate matcher labels ≠
          .error .pairPresent ↔
        matcher.WidestConsidered offers labels) := by
  have preferredPicks := preferred.picksOffered offers labels
  have matcherPicks := picksOffered_iff matcher offers labels rtts
  refine ⟨preferredPicks, matcherPicks, ?_⟩
  intro platform mapping estimate onePerPair notLoopback considered
  rw [onePerPair.pairPresent_iff notLoopback, onePerPair.pairPresent_iff notLoopback, considered]
  constructor
  · exact fun _ => preferredPicks
  · rw [matcherPicks]
    exact ⟨fun holds wants some' => holds some' wants some', fun holds _ => holds⟩

/-- A WiFi network. -/
def wifiOffer : IfacePair × Estimates :=
  ((⟨1, 10, 10, 0, 1⟩, ⟨2, 10, 10, 0, 1⟩), ⟨none, some 5⟩)

/-- A 3G network without bandwidth. -/
def deadOffer : IfacePair × Estimates :=
  ((⟨3, 0, 0, 0, 2⟩, ⟨4, 0, 0, 0, 2⟩), ⟨some 7, some 9⟩)

/-- A matcher that has considered nothing yet. -/
def fresh : LabelMatcher :=
  ⟨false, 0, 0, false, false, deadOffer.1, deadOffer.1, deadOffer.1, deadOffer.1⟩

/-- A multisocket connected on the 3G network only. -/
def oneConnection : CsockMapping where
  csocks _ := ⟨deadOffer.1, true⟩
  availableCsocks := .ofList [0]
  localIfaces := [deadOffer.1.1]
  remoteIfaces := [deadOffer.1.2]
  acceptingSide := false

theorem oneConnection_onePerPair : oneConnection.OnePerPair := by
  unfold CsockMapping.OnePerPair
  intro first firstMember second secondMember _
  rw [show first = 0 from List.mem_singleton.mp firstMember,
    show second = 0 from List.mem_singleton.mp secondMember]

/-- When the WiFi network is gone, its pair is still chosen, and the assertion fails. -/
theorem stale_pair_chosen :
    ¬impl.PicksOffered (impl.round fresh [wifiOffer]) [deadOffer] labelLarge ∧
    oneConnection.connectedCsockWithLabels .lp64 impl (fun _ => deadOffer.2)
      (impl.round fresh [wifiOffer]) labelLarge = .error .pairPresent := by
  constructor
  · intro picks
    have offered := picks wifiOffer.1 (by decide)
    revert offered
    decide
  · decide

theorem picks_considered_iff_labels :
    impl.PicksOffered (impl.round fresh [wifiOffer]) [deadOffer] labelSmall ∧
    oneConnection.connectedCsockWithLabels .lp64 impl (fun _ => deadOffer.2)
      (impl.round fresh [wifiOffer]) labelSmall ≠ .error .pairPresent := by
  obtain ⟨-, picks, lookup⟩ := picks_considered_iff (impl.round fresh [wifiOffer]) [deadOffer]
    labelSmall ⟨1, false, deadOffer.1⟩ (by decide)
  obtain ⟨-, found⟩ := lookup .lp64 oneConnection (fun _ => deadOffer.2) oneConnection_onePerPair
    (by decide) (by decide)
  exact ⟨picks.mpr (by decide), found.mpr (by decide)⟩

end LabelMatcher

end Libcmm
