import Libcmm.CsockMapping

/-! # Where restrictions are decided (`csocket_mapping.cpp`, `network_chooser_impl.cpp`)

Whether labels allow a pair of interfaces is decided three times: by the type of the pair before
the chooser considers it, by the chooser when it branches on the labels, and by
`network_fits_restriction` on the pair itself. They agree on labels for WiFi alone and on labels
without restriction. For 3G alone a pair of unknown types counts as WiFi in the first place and
as either in the last; with both labels the chooser looks for WiFi only; and a fallback finds
networks of the two types but not a mixed one.
-/

namespace Libcmm

open Lib NetworkChooserImpl

variable {labels : Nat} {pair : IfacePair} {pairs : List IfacePair}

/-- Neither interface has a known type. -/
def unknownTypes (pair : IfacePair) : Bool := pair.1.type == 0 && pair.2.type == 0

/-- Only a pair of unknown types is of both types. -/
theorem matchesType_both (pair : IfacePair) :
    (matchesType netTypeWifi pair && matchesType netTypeThreeg pair) = unknownTypes pair := by
  unfold matchesType unknownTypes netTypeWifi netTypeThreeg
  rw [Bool.eq_iff_iff]
  simp only [Bool.and_eq_true, Bool.or_eq_true, beq_iff_eq]
  omega

/-- A pair of unknown types is of both types. -/
theorem matchesType_of_unknown (unknown : unknownTypes pair = true) :
    matchesType netTypeWifi pair = true ∧ matchesType netTypeThreeg pair = true := by
  rw [← matchesType_both, Bool.and_eq_true] at unknown
  exact unknown

/-- What the filter by the type of a pair lets through. -/
theorem typeFitsRestriction_getNetworkType (labels : Nat) (pair : IfacePair) :
    typeFitsRestriction (getNetworkType pair) labels =
      if fallbackAllowed labels then true
      else match restrictions labels with
        | (false, false) => true
        | (true, false) => matchesType netTypeWifi pair
        | (false, true) => !unknownTypes pair && matchesType netTypeThreeg pair
        | (true, true) => matchesType netTypeWifi pair || matchesType netTypeThreeg pair := by
  obtain ⟨unknown, wifi, threeg⟩ := typeFitsRestriction_eq labels
  rw [getNetworkType_eq, ← matchesType_both]
  generalize restrictions labels = restricted at unknown wifi threeg ⊢
  obtain ⟨wifiOnly, threegOnly⟩ := restricted
  cases matchesType netTypeWifi pair <;> cases matchesType netTypeThreeg pair <;>
    simp only [↓reduceIte, Bool.false_eq_true, unknown, wifi, threeg] <;>
    cases fallbackAllowed labels <;> cases wifiOnly <;> cases threegOnly <;> rfl

namespace LabelMatcher

variable {start matcher : LabelMatcher} {offers : List (IfacePair × Estimates)}

/-- Something is chosen without restriction. -/
theorem chooseNetworks_isSome (some' : matcher.hasMatch = true)
    (free : restrictions labels = (false, false)) :
    (matcher.chooseNetworks labels).isSome = true := by
  obtain ⟨noWifi, noThreeg⟩ := Prod.mk.inj free
  unfold chooseNetworks
  rw [some', noWifi, noThreeg]
  simp only [Bool.not_true, Bool.false_eq_true, ↓reduceIte]
  split_ifs <;> rfl

/-- What is chosen under the WiFi label. -/
theorem chooseNetworks_wifiOnly (some' : matcher.hasMatch = true)
    (wifiOnly : hasLabel labels labelWifiOnly = true) :
    matcher.chooseNetworks labels =
      if matcher.hasWifiMatch then some matcher.wifiPair
      else if fallbackAllowed labels && matcher.hasThreegMatch then some matcher.threegPair
      else none := by
  unfold chooseNetworks
  rw [some', wifiOnly]
  cases matcher.hasWifiMatch <;> rfl

/-- What is chosen under the 3G label alone. -/
theorem chooseNetworks_threegOnly (some' : matcher.hasMatch = true)
    (noWifi : hasLabel labels labelWifiOnly = false)
    (threegOnly : hasLabel labels labelThreegOnly = true) :
    matcher.chooseNetworks labels =
      if matcher.hasThreegMatch then some matcher.threegPair
      else if fallbackAllowed labels && matcher.hasWifiMatch then some matcher.wifiPair
      else none := by
  unfold chooseNetworks
  rw [some', noWifi, threegOnly]
  cases matcher.hasThreegMatch <;> rfl

end LabelMatcher

/-- The result says whether a pair fits the labels, and fits them. -/
def DecidesRestriction (labels : Nat) (pairs : List IfacePair) (result : Option IfacePair) : Prop :=
  (result.isSome = true ↔ ∃ pair ∈ pairs, networkFitsRestriction labels pair = true) ∧
    ∀ pair, result = some pair → networkFitsRestriction labels pair = true

/-- The three decisions agree on these interfaces. -/
def RestrictionAgreed (labels : Nat) (pairs : List IfacePair) : Prop :=
  if fallbackAllowed labels then
    restrictions labels ≠ (false, false) → pairs ≠ [] →
      ∃ pair ∈ pairs, matchesType netTypeWifi pair = true ∨ matchesType netTypeThreeg pair = true
  else
    match restrictions labels with
    | (false, false) | (true, false) => True
    | (false, true) =>
        (∃ pair ∈ pairs, unknownTypes pair = true) →
          ∃ pair ∈ pairs, matchesType netTypeThreeg pair = true ∧ unknownTypes pair = false
    | (true, true) => pairs ≠ [] → ∃ pair ∈ pairs, matchesType netTypeWifi pair = true

/-- What the chooser knows of the types of the pairs it considered. -/
structure TypesKnown (considered : List IfacePair) (matcher : LabelMatcher) : Prop where
  hasMatch : matcher.hasMatch = true
  hasWifiMatch : matcher.hasWifiMatch = considered.any (matchesType netTypeWifi)
  hasThreegMatch : matcher.hasThreegMatch = considered.any (matchesType netTypeThreeg)
  wifi : matcher.hasWifiMatch = true → matchesType netTypeWifi matcher.wifiPair = true
  threeg : matcher.hasThreegMatch = true → matchesType netTypeThreeg matcher.threegPair = true

theorem typesKnown_round (start : LabelMatcher) (estimate : IfacePair → Estimates)
    {considered : List IfacePair} (some' : considered ≠ []) :
    TypesKnown considered
      (LabelMatcher.impl.round start (considered.map fun pair => (pair, estimate pair))) := by
  have remembers := LabelMatcher.remembers_round start
    (considered.map fun pair => (pair, estimate pair))
  constructor
  · rw [remembers.hasMatch, List.isEmpty_map, List.isEmpty_eq_false_iff.mpr some', Bool.not_false]
  · rw [remembers.hasWifiMatch, List.any_map]
    rfl
  · rw [remembers.hasThreegMatch, List.any_map]
    rfl
  · exact fun found => (remembers.wifi found).1
  · exact fun found => (remembers.threeg found).1

/-- What a `LabelMatcher` chooses among the pairs that it considers. -/
def chooseAmong (start : LabelMatcher) (estimate : IfacePair → Estimates) (labels : Nat)
    (considered : List IfacePair) : Option IfacePair :=
  if considered.isEmpty then none
  else LabelMatcher.impl.chooseNetworks
    (LabelMatcher.impl.round start (considered.map fun pair => (pair, estimate pair))) labels

section Choose

variable (start : LabelMatcher) (estimate : IfacePair → Estimates) (considered : List IfacePair)

theorem chooseAmong_free (free : restrictions labels = (false, false)) :
    (chooseAmong start estimate labels considered).isSome = true ↔ considered ≠ [] := by
  unfold chooseAmong
  rcases considered with _ | ⟨pair, rest⟩
  · exact ⟨fun found => Bool.noConfusion found, fun some' => absurd rfl some'⟩
  · have known := typesKnown_round start estimate (List.cons_ne_nil pair rest)
    exact ⟨fun _ => List.cons_ne_nil _ _,
      fun _ => LabelMatcher.chooseNetworks_isSome known.hasMatch free⟩

/-- A choice by type, with another type to fall back on. -/
theorem typed_choice {result : Option IfacePair} {type : Nat} {found other falls : Bool}
    {first second : IfacePair} (shape : result =
      if found then some first else if falls && other then some second else none)
    (fits : found = true → matchesType type first = true) :
    result.isSome = (found || (falls && other)) ∧
      (falls = false → ∀ pair, result = some pair → matchesType type pair = true) := by
  rw [shape]
  constructor
  · split_ifs with isFound isOther
    · rw [isFound]
      rfl
    · rw [isOther, Bool.or_true]
      rfl
    · rw [Bool.eq_false_iff.mpr isFound, Bool.eq_false_iff.mpr isOther]
      rfl
  · intro strict pair
    rw [strict, Bool.false_and, if_neg Bool.false_ne_true]
    split_ifs with isFound
    · intro same
      rw [← Option.some.inj same]
      exact fits isFound
    · exact False.elim

theorem chooseAmong_wifiOnly (wifiOnly : hasLabel labels labelWifiOnly = true) :
    (chooseAmong start estimate labels considered).isSome =
        (considered.any (matchesType netTypeWifi) ||
          (fallbackAllowed labels && considered.any (matchesType netTypeThreeg))) ∧
      (fallbackAllowed labels = false →
        ∀ pair, chooseAmong start estimate labels considered = some pair →
          matchesType netTypeWifi pair = true) := by
  rcases considered with _ | ⟨pair, rest⟩
  · exact ⟨by rw [List.any_nil, List.any_nil, Bool.and_false]; rfl,
      fun _ pair chosen => (Option.some_ne_none pair chosen.symm).elim⟩
  · have known := typesKnown_round start estimate (List.cons_ne_nil pair rest)
    rw [← known.hasWifiMatch, ← known.hasThreegMatch]
    exact typed_choice (LabelMatcher.chooseNetworks_wifiOnly known.hasMatch wifiOnly) known.wifi

theorem chooseAmong_threegOnly (noWifi : hasLabel labels labelWifiOnly = false)
    (threegOnly : hasLabel labels labelThreegOnly = true) :
    (chooseAmong start estimate labels considered).isSome =
        (considered.any (matchesType netTypeThreeg) ||
          (fallbackAllowed labels && considered.any (matchesType netTypeWifi))) ∧
      (fallbackAllowed labels = false →
        ∀ pair, chooseAmong start estimate labels considered = some pair →
          matchesType netTypeThreeg pair = true) := by
  rcases considered with _ | ⟨pair, rest⟩
  · exact ⟨by rw [List.any_nil, List.any_nil, Bool.and_false]; rfl,
      fun _ pair chosen => (Option.some_ne_none pair chosen.symm).elim⟩
  · have known := typesKnown_round start estimate (List.cons_ne_nil pair rest)
    rw [← known.hasWifiMatch, ← known.hasThreegMatch]
    exact typed_choice
      (LabelMatcher.chooseNetworks_threegOnly known.hasMatch noWifi threegOnly) known.threeg

end Choose

/-- Where every pair fits, only the choice of some pair matters. -/
theorem decidesRestriction_of_all (all : ∀ pair, networkFitsRestriction labels pair = true)
    {result : Option IfacePair} :
    DecidesRestriction labels pairs result ↔ (result.isSome = true ↔ pairs ≠ []) := by
  have exists_iff : (∃ pair ∈ pairs, networkFitsRestriction labels pair = true) ↔ pairs ≠ [] := by
    simp only [all, and_true, ne_eq, List.eq_nil_iff_forall_not_mem, not_forall, not_not]
  unfold DecidesRestriction
  rw [exists_iff]
  exact and_iff_left fun pair _ => all pair

/-- A choice that looks for pairs of a kind succeeds on every list with pairs if and only if
there is one of the kind wherever there is one at all. -/
theorem found_iff {kind : IfacePair → Prop} {found : Prop}
    (looks : found ↔ ∃ pair ∈ pairs, kind pair) :
    (found ↔ pairs ≠ []) ↔ (pairs ≠ [] → ∃ pair ∈ pairs, kind pair) := by
  rw [looks]
  constructor
  · exact fun same some' => same.mpr some'
  · exact fun holds => ⟨fun ⟨pair, member, _⟩ => List.ne_nil_of_mem member, holds⟩

theorem any_or_any {first second : IfacePair → Bool} :
    (pairs.any first || pairs.any second) = true ↔
      ∃ pair ∈ pairs, first pair = true ∨ second pair = true := by
  rw [Bool.or_eq_true, List.any_eq_true, List.any_eq_true, ← exists_or]
  exact exists_congr fun pair => and_or_left.symm

/-- With a fallback the chooser finds a network of either type. -/
theorem decidesRestriction_fallback (start : LabelMatcher) (estimate : IfacePair → Estimates)
    (pairs : List IfacePair) (falls : fallbackAllowed labels = true) :
    DecidesRestriction labels pairs (chooseAmong start estimate labels pairs) ↔
      (restrictions labels ≠ (false, false) → pairs ≠ [] → ∃ pair ∈ pairs,
        matchesType netTypeWifi pair = true ∨ matchesType netTypeThreeg pair = true) := by
  have all : ∀ pair, networkFitsRestriction labels pair = true := by
    intro pair
    rw [networkFitsRestriction_eq, falls, if_pos rfl]
  rw [decidesRestriction_of_all all]
  rcases restricted : restrictions labels with ⟨wifiOnly, threegOnly⟩
  obtain ⟨wifiLabel, threegLabel⟩ := Prod.mk.inj restricted
  cases wifiOnly with
  | true =>
      have looks := (chooseAmong_wifiOnly start estimate pairs wifiLabel).1
      rw [falls, Bool.true_and] at looks
      rw [looks, found_iff any_or_any]
      exact ⟨fun holds _ => holds, fun holds => holds (by simp)⟩
  | false =>
      cases threegOnly with
      | true =>
          have looks := (chooseAmong_threegOnly start estimate pairs wifiLabel threegLabel).1
          rw [falls, Bool.true_and, Bool.or_comm] at looks
          rw [looks, found_iff any_or_any]
          exact ⟨fun holds _ => holds, fun holds => holds (by simp)⟩
      | false =>
          exact iff_of_true (chooseAmong_free start estimate pairs restricted)
            fun other => absurd rfl other

/-- Under the WiFi label alone the chooser finds a network of the type. -/
theorem decidesRestriction_wifi (start : LabelMatcher) (estimate : IfacePair → Estimates)
    (pairs : List IfacePair) (strict : fallbackAllowed labels = false)
    (restricted : restrictions labels = (true, false)) :
    DecidesRestriction labels pairs
      (chooseAmong start estimate labels (pairs.filter (matchesType netTypeWifi))) := by
  have fits : ∀ pair, networkFitsRestriction labels pair = matchesType netTypeWifi pair := by
    intro pair
    rw [networkFitsRestriction_eq, strict, restricted]
    rfl
  obtain ⟨looks, typed⟩ := chooseAmong_wifiOnly start estimate
    (pairs.filter (matchesType netTypeWifi)) (Prod.mk.inj restricted).1
  rw [strict, Bool.false_and, Bool.or_false] at looks
  constructor
  · simp only [looks, List.any_filter, Bool.and_self, List.any_eq_true, fits]
  · intro pair chosen
    rw [fits]
    exact typed strict pair chosen

/-- Under the 3G label alone it finds none whose types are unknown. -/
theorem decidesRestriction_threeg (start : LabelMatcher) (estimate : IfacePair → Estimates)
    (pairs : List IfacePair) (strict : fallbackAllowed labels = false)
    (restricted : restrictions labels = (false, true)) :
    DecidesRestriction labels pairs (chooseAmong start estimate labels (pairs.filter fun pair =>
        !unknownTypes pair && matchesType netTypeThreeg pair)) ↔
      ((∃ pair ∈ pairs, unknownTypes pair = true) →
        ∃ pair ∈ pairs, matchesType netTypeThreeg pair = true ∧ unknownTypes pair = false) := by
  have fits : ∀ pair, networkFitsRestriction labels pair = matchesType netTypeThreeg pair := by
    intro pair
    rw [networkFitsRestriction_eq, strict, restricted]
    rfl
  obtain ⟨looks, typed⟩ := chooseAmong_threegOnly start estimate (pairs.filter fun pair =>
    !unknownTypes pair && matchesType netTypeThreeg pair) (Prod.mk.inj restricted).1
    (Prod.mk.inj restricted).2
  rw [strict, Bool.false_and, Bool.or_false] at looks
  have found : (chooseAmong start estimate labels (pairs.filter fun pair =>
      !unknownTypes pair && matchesType netTypeThreeg pair)).isSome = true ↔
      ∃ pair ∈ pairs, matchesType netTypeThreeg pair = true ∧ unknownTypes pair = false := by
    simp only [looks, List.any_filter, List.any_eq_true, Bool.and_eq_true, Bool.not_eq_true']
    exact exists_congr fun pair => and_congr_right fun _ =>
      ⟨fun both => ⟨both.2, both.1.1⟩, fun both => ⟨⟨both.2, both.1⟩, both.1⟩⟩
  unfold DecidesRestriction
  simp only [found, fits]
  constructor
  · rintro ⟨decided, -⟩ ⟨pair, member, unknown⟩
    exact decided.mpr ⟨pair, member, (matchesType_of_unknown unknown).2⟩
  · intro holds
    refine ⟨⟨fun ⟨pair, member, fit, _⟩ => ⟨pair, member, fit⟩, ?_⟩, typed strict⟩
    rintro ⟨pair, member, fit⟩
    cases unknown : unknownTypes pair with
    | true => exact holds ⟨pair, member, unknown⟩
    | false => exact ⟨pair, member, fit, unknown⟩

/-- Under both labels it finds a network of the first type only. -/
theorem decidesRestriction_both (start : LabelMatcher) (estimate : IfacePair → Estimates)
    (pairs : List IfacePair) (strict : fallbackAllowed labels = false)
    (restricted : restrictions labels = (true, true)) :
    DecidesRestriction labels pairs (chooseAmong start estimate labels (pairs.filter fun pair =>
        matchesType netTypeWifi pair || matchesType netTypeThreeg pair)) ↔
      (pairs ≠ [] → ∃ pair ∈ pairs, matchesType netTypeWifi pair = true) := by
  have all : ∀ pair, networkFitsRestriction labels pair = true := by
    intro pair
    rw [networkFitsRestriction_eq, strict, restricted]
    rfl
  have looks := (chooseAmong_wifiOnly start estimate (pairs.filter fun pair =>
    matchesType netTypeWifi pair || matchesType netTypeThreeg pair) (Prod.mk.inj restricted).1).1
  rw [strict, Bool.false_and, Bool.or_false, List.any_filter] at looks
  rw [decidesRestriction_of_all all, looks]
  apply found_iff
  simp only [List.any_eq_true, Bool.and_eq_true, Bool.or_eq_true]
  exact exists_congr fun pair => and_congr_right fun _ => ⟨And.right, fun wifi => ⟨.inl wifi, wifi⟩⟩

/-- What the chooser decides about the pairs that the filter by type lets through. -/
theorem decidesRestriction_iff (start : LabelMatcher) (estimate : IfacePair → Estimates)
    (labels : Nat) (pairs : List IfacePair) :
    DecidesRestriction labels pairs (chooseAmong start estimate labels
        (pairs.filter fun pair => typeFitsRestriction (getNetworkType pair) labels)) ↔
      RestrictionAgreed labels pairs := by
  unfold RestrictionAgreed
  simp only [typeFitsRestriction_getNetworkType]
  cases fallback : fallbackAllowed labels with
  | true =>
      simp only [↓reduceIte, List.filter_true]
      exact decidesRestriction_fallback start estimate pairs fallback
  | false =>
      simp only [Bool.false_eq_true, ↓reduceIte]
      rcases restricted : restrictions labels with ⟨_ | _, _ | _⟩
      · simp only [List.filter_true, iff_true]
        apply (decidesRestriction_of_all _).mpr (chooseAmong_free start estimate pairs restricted)
        intro pair
        rw [networkFitsRestriction_eq, fallback, restricted]
        rfl
      · exact decidesRestriction_threeg start estimate pairs fallback restricted
      · exact iff_true_intro (decidesRestriction_wifi start estimate pairs fallback restricted)
      · exact decidesRestriction_both start estimate pairs fallback restricted

namespace CsockMapping

/-- On every multisocket that is not loopback only, and for all labels: whether
`get_iface_pair_locked_internal` finds a pair, and which, agrees with the restriction on the pairs
themselves if and only if no pair is of a kind that the decisions treat differently. -/
theorem getIfacePair_decides_iff (platform : Platform) (estimate : IfacePair → Estimates)
    (mapping : CsockMapping) (chooser : LabelMatcher) (labels : Nat)
    (notLoopback : mapping.isLoopbackOnly platform = false) :
    DecidesRestriction labels (mapping.localIfaces ×ˢ mapping.remoteIfaces)
      (mapping.getIfacePairLockedInternal platform LabelMatcher.impl estimate chooser labels).1 ↔
      RestrictionAgreed labels (mapping.localIfaces ×ˢ mapping.remoteIfaces) := by
  have choice : (mapping.getIfacePairLockedInternal platform LabelMatcher.impl estimate chooser
      labels).1 = chooseAmong chooser estimate labels (mapping.fittingPairs labels) := by
    unfold getIfacePairLockedInternal chooseAmong
    rw [notLoopback, if_neg Bool.false_ne_true]
    simp only [List.isEmpty_map]
    split_ifs <;> rfl
  rw [choice]
  exact decidesRestriction_iff chooser estimate labels _

/-- A multisocket with one local interface, of an unknown type, and these remote ones. -/
def unknownLocal (remoteTypes : List Int) : CsockMapping where
  csocks _ := ⟨LabelMatcher.deadOffer.1, false⟩
  availableCsocks := .empty
  localIfaces := [⟨3, 10, 10, 0, 0⟩]
  remoteIfaces := remoteTypes.map fun type => ⟨4, 10, 10, 0, type⟩
  acceptingSide := false

/-- Under the 3G label a pair of unknown types fits, and is not found. -/
theorem fitting_pair_not_found :
    (∃ pair ∈ (unknownLocal [0]).localIfaces ×ˢ (unknownLocal [0]).remoteIfaces,
      networkFitsRestriction labelThreegOnly pair = true) ∧
    ((unknownLocal [0]).getIfacePairLockedInternal .lp64 LabelMatcher.impl (fun _ => ⟨none, some 5⟩)
      LabelMatcher.fresh labelThreegOnly).1 = none ∧
    ¬DecidesRestriction labelThreegOnly
      ((unknownLocal [0]).localIfaces ×ˢ (unknownLocal [0]).remoteIfaces)
      ((unknownLocal [0]).getIfacePairLockedInternal .lp64 LabelMatcher.impl
        (fun _ => ⟨none, some 5⟩) LabelMatcher.fresh labelThreegOnly).1 := by
  have fits : ∃ pair ∈ (unknownLocal [0]).localIfaces ×ˢ (unknownLocal [0]).remoteIfaces,
      networkFitsRestriction labelThreegOnly pair = true := by decide
  have nothing : ((unknownLocal [0]).getIfacePairLockedInternal .lp64 LabelMatcher.impl
      (fun _ => ⟨none, some 5⟩) LabelMatcher.fresh labelThreegOnly).1 = none := by decide
  refine ⟨fits, nothing, fun decides => ?_⟩
  rw [nothing] at decides
  exact Bool.noConfusion (decides.1.mpr fits)

theorem getIfacePair_decides_iff_threeg :
    DecidesRestriction labelThreegOnly
      ((unknownLocal [0, 2]).localIfaces ×ˢ (unknownLocal [0, 2]).remoteIfaces)
      ((unknownLocal [0, 2]).getIfacePairLockedInternal .lp64 LabelMatcher.impl
        (fun _ => ⟨none, some 5⟩) LabelMatcher.fresh labelThreegOnly).1 := by
  apply (getIfacePair_decides_iff .lp64 (fun _ => ⟨none, some 5⟩) (unknownLocal [0, 2])
    LabelMatcher.fresh labelThreegOnly (by decide)).mpr
  exact fun _ => ⟨_, List.mem_cons_of_mem _ List.mem_cons_self, by decide⟩

end CsockMapping

end Libcmm
