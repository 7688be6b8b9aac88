import Libcmm.NetInterface
import Libcmm.Lib.Best
import Mathlib.Order.Basic
import Mathlib.Data.List.Induction

/-! # Network choosers (`network_chooser_impl.cpp`)

A chooser is reset, is offered pairs of interfaces one after another, and is then asked for a
pair that suits some labels. `LabelMatcher` remembers the pair with the greatest bandwidth, the
one with the smallest round trip, and the last ones of type WiFi and 3G. Its `reset` forgets the
figures, but not the pairs that came with them.
-/

namespace Libcmm

open Lib

/-- What `NetStats::get_estimate` returns for a pair: `NET_STATS_BW_UP` and
`NET_STATS_LATENCY`, where there is an estimate. -/
structure Estimates where
  bwUp : Option Nat
  latency : Option Nat
  deriving DecidableEq

/-- The virtual methods of `class NetworkChooserImpl` by which a pair is chosen. None of them
reads the number of bytes it is given. -/
structure NetworkChooserImpl (σ : Type) where
  reset : σ → σ
  consider : σ → IfacePair → Estimates → σ
  chooseNetworks : σ → Nat → Option IfacePair

/-- `ULONG_MAX`. -/
def ulongMax : Nat := 2 ^ 64 - 1

/-- `CMM_LABEL_SMALL`. -/
def labelSmall : Nat := 0x10

/-- `CMM_LABEL_LARGE`. -/
def labelLarge : Nat := 0x20

namespace NetworkChooserImpl

variable {σ : Type}

/-- A `reset`, and then a `consider` for each pair. -/
def round (impl : NetworkChooserImpl σ) (chooser : σ) (offers : List (IfacePair × Estimates)) : σ :=
  offers.foldl (fun chooser offer => impl.consider chooser offer.1 offer.2) (impl.reset chooser)

/-- A pair with these addresses was considered. -/
def Offered (offers : List (IfacePair × Estimates)) (pair : IfacePair) : Prop :=
  ∃ offer ∈ offers, addresses offer.1 = addresses pair

instance (offers : List (IfacePair × Estimates)) (pair : IfacePair) :
    Decidable (Offered offers pair) :=
  inferInstanceAs (Decidable (∃ offer ∈ offers, addresses offer.1 = addresses pair))

/-- Whatever is chosen after a round was considered in it. -/
def PicksOffered (impl : NetworkChooserImpl σ) (chooser : σ)
    (offers : List (IfacePair × Estimates)) (labels : Nat) : Prop :=
  ∀ pair, impl.chooseNetworks (impl.round chooser offers) labels = some pair → Offered offers pair

theorem round_concat (impl : NetworkChooserImpl σ) (chooser : σ)
    (offers : List (IfacePair × Estimates)) (offer : IfacePair × Estimates) :
    impl.round chooser (offers ++ [offer]) =
      impl.consider (impl.round chooser offers) offer.1 offer.2 :=
  List.foldl_concat _ _ _ _

end NetworkChooserImpl

open NetworkChooserImpl

/-! ### `PreferredNetwork` -/

/-- `class PreferredNetwork`. -/
structure PreferredNetwork where
  preferredType : Int
  hasMatch : Bool
  pair : IfacePair
  deriving DecidableEq

namespace PreferredNetwork

/-- `NetworkChooserImpl::reset`. -/
def reset (chooser : PreferredNetwork) : PreferredNetwork := { chooser with hasMatch := false }

/-- `PreferredNetwork::consider`. -/
def consider (chooser : PreferredNetwork) (pair : IfacePair) (_ : Estimates) : PreferredNetwork :=
  if !chooser.hasMatch || matchesType chooser.preferredType pair then
    { chooser with hasMatch := true, pair := pair }
  else chooser

/-- `PreferredNetwork::choose_networks`. -/
def chooseNetworks (chooser : PreferredNetwork) (_ : Nat) : Option IfacePair :=
  if !chooser.hasMatch then none else some chooser.pair

/-- The methods of a `PreferredNetwork`. -/
def impl : NetworkChooserImpl PreferredNetwork := ⟨reset, consider, chooseNetworks⟩

/-- Once something matches, the pair is one of those considered. -/
theorem round_pair (chooser : PreferredNetwork) (offers : List (IfacePair × Estimates)) :
    (impl.round chooser offers).hasMatch = true →
      ∃ offer ∈ offers, offer.1 = (impl.round chooser offers).pair := by
  induction offers using List.reverseRecOn with
  | nil => exact fun matched => nomatch matched
  | append_singleton offers offer ih =>
      rw [round_concat]
      intro matched
      have new : offer ∈ offers ++ [offer] :=
        List.mem_append_right _ (List.mem_singleton_self offer)
      change (consider _ offer.1 offer.2).hasMatch = true at matched
      change ∃ found ∈ offers ++ [offer], found.1 = (consider _ offer.1 offer.2).pair
      unfold consider at matched ⊢
      split_ifs at matched ⊢
      · exact ⟨offer, new, rfl⟩
      · obtain ⟨found, member, same⟩ := ih matched
        exact ⟨found, List.mem_append_left _ member, same⟩

theorem picksOffered (chooser : PreferredNetwork) (offers : List (IfacePair × Estimates))
    (labels : Nat) : impl.PicksOffered chooser offers labels := by
  intro pair chosen
  change chooseNetworks _ labels = some pair at chosen
  unfold chooseNetworks at chosen
  split_ifs at chosen with none
  rw [Bool.not_eq_true, Bool.not_eq_false'] at none
  obtain ⟨offer, member, same⟩ := round_pair chooser offers none
  exact ⟨offer, member, by rw [same, Option.some.inj chosen]⟩

end PreferredNetwork

/-! ### `LabelMatcher` -/

/-- `class LabelMatcher`. -/
structure LabelMatcher where
  hasMatch : Bool
  maxBw : Nat
  minRtt : Nat
  hasWifiMatch : Bool
  hasThreegMatch : Bool
  maxBwIfacePair : IfacePair
  minRttIfacePair : IfacePair
  wifiPair : IfacePair
  threegPair : IfacePair
  deriving DecidableEq

namespace LabelMatcher

/-- `LabelMatcher::reset`. -/
def reset (matcher : LabelMatcher) : LabelMatcher :=
  { matcher with
    maxBw := 0
    minRtt := ulongMax
    hasMatch := false
    hasWifiMatch := false
    hasThreegMatch := false }

/-- The bandwidth of a pair in `consider`. -/
def bw (pair : IfacePair) (estimates : Estimates) : Nat :=
  -- the estimate won't ever reflect when the bandwidth is zero
  if ifaceBandwidth pair = 0 then 0 else estimates.bwUp.getD (ifaceBandwidth pair)

/-- The round trip of a pair in `consider`. -/
def rtt (pair : IfacePair) (estimates : Estimates) : Nat :=
  match estimates.latency with
  | none => ifaceRtt pair
  | some latency => latency * 2 % 2 ^ 64

/-- `LabelMatcher::consider`. -/
def consider (matcher : LabelMatcher) (pair : IfacePair) (estimates : Estimates) : LabelMatcher :=
  let bw := bw pair estimates
  let rtt := rtt pair estimates
  let widest := if matcher.maxBw < bw then { matcher with maxBw := bw, maxBwIfacePair := pair }
    else matcher
  let nearest := if rtt < widest.minRtt then { widest with minRtt := rtt, minRttIfacePair := pair }
    else widest
  let matched := { nearest with hasMatch := true }
  let wifi := if matchesType netTypeWifi pair then
    { matched with wifiPair := pair, hasWifiMatch := true } else matched
  if matchesType netTypeThreeg pair then
    { wifi with threegPair := pair, hasThreegMatch := true } else wifi

/-- `LabelMatcher::choose_networks`. -/
def chooseNetworks (matcher : LabelMatcher) (sendLabel : Nat) : Option IfacePair :=
  if !matcher.hasMatch then none
  -- net type restriction labels take precedence
  else if hasLabel sendLabel labelWifiOnly then
    if !matcher.hasWifiMatch then
      if fallbackAllowed sendLabel && matcher.hasThreegMatch then some matcher.threegPair else none
    else some matcher.wifiPair
  else if hasLabel sendLabel labelThreegOnly then
    if !matcher.hasThreegMatch then
      if fallbackAllowed sendLabel && matcher.hasWifiMatch then some matcher.wifiPair else none
    else some matcher.threegPair
  else if hasLabel sendLabel labelSmall && decide (matcher.minRtt < ulongMax) then
    some matcher.minRttIfacePair
  else if hasLabel sendLabel labelLarge then some matcher.maxBwIfacePair
  else if hasLabel sendLabel labelOndemand ||
      !hasLabel sendLabel (labelOndemand ||| labelBackground) then
    some matcher.minRttIfacePair
  else if hasLabel sendLabel labelBackground || sendLabel == 0 then some matcher.maxBwIfacePair
  else some matcher.maxBwIfacePair

/-- The methods of a `LabelMatcher`. -/
def impl : NetworkChooserImpl LabelMatcher := ⟨reset, consider, chooseNetworks⟩

/-- What a `LabelMatcher` remembers of a round. -/
structure Remembers (start : LabelMatcher) (offers : List (IfacePair × Estimates))
    (matcher : LabelMatcher) : Prop where
  hasMatch : matcher.hasMatch = !offers.isEmpty
  widest : Best (fun offer : IfacePair × Estimates => bw offer.1 offer.2) Prod.fst
    (0, start.maxBwIfacePair) offers (matcher.maxBw, matcher.maxBwIfacePair)
  nearest : Best (fun offer : IfacePair × Estimates => OrderDual.toDual (rtt offer.1 offer.2))
    Prod.fst (OrderDual.toDual ulongMax, start.minRttIfacePair) offers
      (OrderDual.toDual matcher.minRtt, matcher.minRttIfacePair)
  hasWifiMatch : matcher.hasWifiMatch = offers.any fun offer => matchesType netTypeWifi offer.1
  wifi : matcher.hasWifiMatch = true → matchesType netTypeWifi matcher.wifiPair = true ∧
    ∃ offer ∈ offers, offer.1 = matcher.wifiPair
  hasThreegMatch : matcher.hasThreegMatch =
    offers.any fun offer => matchesType netTypeThreeg offer.1
  threeg : matcher.hasThreegMatch = true → matchesType netTypeThreeg matcher.threegPair = true ∧
    ∃ offer ∈ offers, offer.1 = matcher.threegPair

variable {start matcher : LabelMatcher} {offers : List (IfacePair × Estimates)} {labels : Nat}

/-- What `consider` does with the pair of the greatest bandwidth. -/
theorem consider_widest (matcher : LabelMatcher) (pair : IfacePair) (estimates : Estimates) :
    ((matcher.consider pair estimates).maxBw, (matcher.consider pair estimates).maxBwIfacePair) =
      if matcher.maxBw < bw pair estimates then (bw pair estimates, pair)
      else (matcher.maxBw, matcher.maxBwIfacePair) := by
  dsimp only [consider]
  split_ifs <;> rfl

/-- What `consider` does with the pair of the smallest round trip. -/
theorem consider_nearest (matcher : LabelMatcher) (pair : IfacePair) (estimates : Estimates) :
    ((matcher.consider pair estimates).minRtt, (matcher.consider pair estimates).minRttIfacePair) =
      if rtt pair estimates < matcher.minRtt then (rtt pair estimates, pair)
      else (matcher.minRtt, matcher.minRttIfacePair) := by
  by_cases wider : matcher.maxBw < bw pair estimates
  · simp only [consider, wider, ↓reduceIte]
    split_ifs <;> rfl
  · simp only [consider, wider, ↓reduceIte]
    split_ifs <;> rfl

/-- What `consider` does with the last pair of each type. -/
theorem consider_types (matcher : LabelMatcher) (pair : IfacePair) (estimates : Estimates) :
    ((matcher.consider pair estimates).hasWifiMatch, (matcher.consider pair estimates).wifiPair) =
      (if matchesType netTypeWifi pair then (true, pair)
      else (matcher.hasWifiMatch, matcher.wifiPair)) ∧
    ((matcher.consider pair estimates).hasThreegMatch,
        (matcher.consider pair estimates).threegPair) =
      (if matchesType netTypeThreeg pair then (true, pair)
      else (matcher.hasThreegMatch, matcher.threegPair)) := by
  dsimp only [consider]
  split_ifs <;> exact ⟨rfl, rfl⟩

theorem consider_hasMatch (matcher : LabelMatcher) (pair : IfacePair) (estimates : Estimates) :
    (matcher.consider pair estimates).hasMatch = true := by
  dsimp only [consider]
  split_ifs <;> rfl

/-- The last pair of a type, after one more offer. -/
theorem matched_next {type : Nat} {flag : Bool} {pair : IfacePair}
    (known : flag = offers.any fun offer => matchesType type offer.1)
    (found : flag = true → matchesType type pair = true ∧ ∃ offer ∈ offers, offer.1 = pair)
    (offer : IfacePair × Estimates) {next : Bool × IfacePair}
    (shape : next = if matchesType type offer.1 then (true, offer.1) else (flag, pair)) :
    (next.1 = (offers ++ [offer]).any fun offer => matchesType type offer.1) ∧
    (next.1 = true → matchesType type next.2 = true ∧
      ∃ found ∈ offers ++ [offer], found.1 = next.2) := by
  rw [List.any_append, List.any_cons, List.any_nil, Bool.or_false, ← known, shape]
  split_ifs with fits
  · exact ⟨by rw [fits, Bool.or_true], fun _ => ⟨fits, offer,
      List.mem_append_right _ (List.mem_singleton_self offer), rfl⟩⟩
  · refine ⟨by rw [Bool.eq_false_iff.mpr fits, Bool.or_false], fun matched => ?_⟩
    obtain ⟨still, other, member, same⟩ := found matched
    exact ⟨still, other, List.mem_append_left _ member, same⟩

/-- One more offer. -/
theorem Remembers.consider (remembers : Remembers start offers matcher)
    (offer : IfacePair × Estimates) :
    Remembers start (offers ++ [offer]) (matcher.consider offer.1 offer.2) := by
  obtain ⟨wifi, threeg⟩ := consider_types matcher offer.1 offer.2
  obtain ⟨hasWifi, isWifi⟩ := matched_next remembers.hasWifiMatch remembers.wifi offer wifi
  obtain ⟨hasThreeg, isThreeg⟩ := matched_next remembers.hasThreegMatch remembers.threeg offer threeg
  refine ⟨?_, ?_, ?_, hasWifi, isWifi, hasThreeg, isThreeg⟩
  · rw [consider_hasMatch]
    cases offers <;> rfl
  · rw [consider_widest]
    split_ifs with wider
    · exact remembers.widest.replaced wider
    · exact remembers.widest.stays wider
  · have nearest := consider_nearest matcher offer.1 offer.2
    by_cases nearer : rtt offer.1 offer.2 < matcher.minRtt
    · rw [if_pos nearer] at nearest
      obtain ⟨least, pair⟩ := Prod.mk.inj nearest
      rw [least, pair]
      exact remembers.nearest.replaced nearer
    · rw [if_neg nearer] at nearest
      obtain ⟨least, pair⟩ := Prod.mk.inj nearest
      rw [least, pair]
      exact remembers.nearest.stays nearer

theorem remembers_round (start : LabelMatcher) (offers : List (IfacePair × Estimates)) :
    Remembers start offers (impl.round start offers) := by
  induction offers using List.reverseRecOn with
  | nil =>
      exact ⟨rfl, .nil, .nil, rfl, (fun matched => nomatch matched), rfl,
        (fun matched => nomatch matched)⟩
  | append_singleton offers offer ih =>
      rw [round_concat]
      exact ih.consider offer

/-- These labels choose by bandwidth. -/
def wantsBandwidth (labels : Nat) : Bool :=
  !hasLabel labels labelWifiOnly && !hasLabel labels labelThreegOnly && !hasLabel labels labelSmall &&
    (hasLabel labels labelLarge ||
      (hasLabel labels labelBackground && !hasLabel labels labelOndemand))

/-- A label word has a bit of a mask of two if it has one of them. -/
theorem hasLabel_or (labels first second : Nat) :
    hasLabel labels (first ||| second) = (hasLabel labels first || hasLabel labels second) := by
  unfold hasLabel
  rw [Nat.and_or_distrib_left, Bool.eq_iff_iff]
  simp only [bne_iff_ne, ne_eq, Bool.or_eq_true, Nat.or_eq_zero_iff, not_and_or]

/-- What a matcher with a known round trip chooses without restriction to a type. -/
theorem chooseNetworks_unrestricted (some' : matcher.hasMatch = true)
    (measured : matcher.minRtt < ulongMax) (noWifi : hasLabel labels labelWifiOnly = false)
    (noThreeg : hasLabel labels labelThreegOnly = false) :
    matcher.chooseNetworks labels =
      some (if wantsBandwidth labels then matcher.maxBwIfacePair else matcher.minRttIfacePair) := by
  unfold chooseNetworks wantsBandwidth
  rw [some', noWifi, noThreeg, hasLabel_or]
  simp only [measured, decide_true, Bool.not_true, Bool.not_false, Bool.false_eq_true, ↓reduceIte,
    Bool.true_and, Bool.and_true]
  cases hasLabel labels labelSmall <;> cases hasLabel labels labelLarge <;>
    cases hasLabel labels labelOndemand <;> cases hasLabel labels labelBackground <;>
    simp

/-- The offers that a matcher chooses among by type were considered. -/
theorem Remembers.restricted (remembers : Remembers start offers matcher) {pair : IfacePair}
    (typed : hasLabel labels labelWifiOnly = true ∨ hasLabel labels labelThreegOnly = true)
    (chosen : matcher.chooseNetworks labels = some pair) : Offered offers pair := by
  have wifi : matcher.hasWifiMatch = true → Offered offers matcher.wifiPair := by
    intro found
    obtain ⟨offer, member, same⟩ := (remembers.wifi found).2
    exact ⟨offer, member, congrArg addresses same⟩
  have threeg : matcher.hasThreegMatch = true → Offered offers matcher.threegPair := by
    intro found
    obtain ⟨offer, member, same⟩ := (remembers.threeg found).2
    exact ⟨offer, member, congrArg addresses same⟩
  unfold chooseNetworks at chosen
  split_ifs at chosen with none wifiOnly noWifi falls threegOnly noThreeg falls'
  · rw [← Option.some.inj chosen]
    exact threeg (Bool.and_eq_true_iff.mp falls).2
  · rw [← Option.some.inj chosen]
    exact wifi (by rwa [Bool.not_eq_true, Bool.not_eq_false'] at noWifi)
  · rw [← Option.some.inj chosen]
    exact wifi (Bool.and_eq_true_iff.mp falls').2
  · rw [← Option.some.inj chosen]
    exact threeg (by rwa [Bool.not_eq_true, Bool.not_eq_false'] at noThreeg)
  all_goals exact absurd typed (not_or.mpr ⟨wifiOnly, threegOnly⟩)

/-- The nearest pair was considered in the round. -/
theorem Remembers.nearest_offered (remembers : Remembers start offers matcher)
    {offer : IfacePair × Estimates} (member : offer ∈ offers)
    (measured : rtt offer.1 offer.2 < ulongMax) : Offered offers matcher.minRttIfacePair := by
  obtain ⟨found, listed, same⟩ := remembers.nearest.exists_offer member
    (OrderDual.toDual_lt_toDual.mpr measured)
  exact ⟨found, listed, congrArg addresses same.symm⟩

/-- The widest pair was considered in the round, unless every bandwidth considered was zero: then
it is the pair remembered from before. -/
theorem Remembers.widest_offered_iff (remembers : Remembers start offers matcher) :
    Offered offers matcher.maxBwIfacePair ↔
      ((∀ offer ∈ offers, bw offer.1 offer.2 = 0) → Offered offers start.maxBwIfacePair) := by
  by_cases flat : ∀ offer ∈ offers, bw offer.1 offer.2 = 0
  · have kept := remembers.widest.eq_start fun offer member => (flat offer member).le
    rw [show matcher.maxBwIfacePair = start.maxBwIfacePair from congrArg Prod.snd kept]
    exact ⟨fun offered _ => offered, fun offered => offered flat⟩
  · refine ⟨fun _ all => absurd all flat, fun _ => ?_⟩
    push Not at flat
    obtain ⟨offer, member, positive⟩ := flat
    obtain ⟨found, listed, same⟩ := remembers.widest.exists_offer member
      (Nat.pos_of_ne_zero positive)
    exact ⟨found, listed, congrArg addresses same.symm⟩

/-- The pair that labels for bandwidth choose was considered in the round, unless every
bandwidth considered was zero and the pair remembered from before was not considered. -/
theorem picksOffered_iff (start : LabelMatcher) (offers : List (IfacePair × Estimates))
    (labels : Nat) (rtts : ∀ offer ∈ offers, rtt offer.1 offer.2 < ulongMax) :
    impl.PicksOffered start offers labels ↔
      (wantsBandwidth labels = true → offers ≠ [] → (∀ offer ∈ offers, bw offer.1 offer.2 = 0) →
        Offered offers start.maxBwIfacePair) := by
  have remembers := remembers_round start offers
  unfold PicksOffered
  generalize impl.round start offers = matcher at remembers ⊢
  change (∀ pair, matcher.chooseNetworks labels = some pair → Offered offers pair) ↔ _
  rcases offers with _ | ⟨offer, later⟩
  · have nothing : matcher.chooseNetworks labels = none := by
      unfold chooseNetworks
      rw [remembers.hasMatch]
      rfl
    rw [nothing]
    exact ⟨fun _ _ absent => absurd rfl absent,
      fun _ pair chosen => (Option.some_ne_none pair chosen.symm).elim⟩
  have member : offer ∈ offer :: later := List.mem_cons_self
  by_cases typed : hasLabel labels labelWifiOnly = true ∨ hasLabel labels labelThreegOnly = true
  · have other : wantsBandwidth labels = false := by
      unfold wantsBandwidth
      rcases typed with wifi | threeg
      · rw [wifi]
        rfl
      · rw [threeg, Bool.not_true, Bool.and_false]
        rfl
    rw [other]
    exact ⟨fun _ wants => Bool.noConfusion wants,
      fun _ pair chosen => remembers.restricted typed chosen⟩
  · obtain ⟨noWifi, noThreeg⟩ := not_or.mp typed
    have chosen : matcher.chooseNetworks labels =
        some (if wantsBandwidth labels then matcher.maxBwIfacePair else matcher.minRttIfacePair) :=
      chooseNetworks_unrestricted (by rw [remembers.hasMatch]; rfl)
      ((OrderDual.toDual_le_toDual.mp (remembers.nearest.above offer member)).trans_lt
        (rtts offer member))
      (Bool.eq_false_iff.mpr noWifi) (Bool.eq_false_iff.mpr noThreeg)
    rw [chosen]
    cases wants : wantsBandwidth labels with
    | false =>
        refine ⟨fun _ absent => Bool.noConfusion absent, fun _ pair same => ?_⟩
        rw [← Option.some.inj same]
        exact remembers.nearest_offered member (rtts offer member)
    | true =>
        constructor
        · intro picks _ _
          exact remembers.widest_offered_iff.mp (picks _ rfl)
        · intro offered pair same
          rw [← Option.some.inj same]
          exact remembers.widest_offered_iff.mpr
            (offered rfl (List.cons_ne_nil _ _))

end LabelMatcher

end Libcmm
