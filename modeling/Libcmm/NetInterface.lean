import Libcmm.Wire
import Mathlib.Data.Nat.Bitwise

/-! # Interfaces and network restrictions (`net_interface.cpp`, `libcmm_net_restriction.cpp`)

A connection is between a local and a remote interface, and its network is of the type the two
agree on, where an interface of type zero agrees with any. Labels may restrict an IROB to the
networks of one type, and may allow to fall back on another. Figures of the interfaces are
`u_long`s; the round trip is computed in `double`s.
-/

namespace Libcmm

/-- A local and a remote interface. -/
abbrev IfacePair := NetInterface × NetInterface

/-- The addresses that `net_interface::operator==` compares. -/
def addresses (pair : IfacePair) : UInt32 × UInt32 := (pair.1.ipAddr, pair.2.ipAddr)

/-- The nearest `double` to a whole number: 53 significant bits, ties to even. -/
def toDouble (number : Nat) : Nat :=
  let unit := 2 ^ (number.log2 - 52)
  let quotient := number / unit
  let rest := number % unit
  if 2 * rest < unit ∨ (2 * rest = unit ∧ quotient % 2 = 0) then quotient * unit
  else (quotient + 1) * unit

/-- `iface_bandwidth`, from the local sender's perspective. -/
def ifaceBandwidth (pair : IfacePair) : Nat :=
  min pair.1.bandwidthUp.toNat pair.2.bandwidthDown.toNat

/-- `iface_RTT`. Halving and doubling are exact; the conversion back to a `u_long` is defined
for sums below 2^64. -/
def ifaceRtt (pair : IfacePair) : Nat :=
  toDouble (toDouble pair.1.rtt.toNat + toDouble pair.2.rtt.toNat)

/-! ### Types -/

/-- `NET_TYPE_WIFI`. -/
def netTypeWifi : Nat := 0x1

/-- `NET_TYPE_THREEG`. -/
def netTypeThreeg : Nat := 0x2

/-- `NUM_NET_TYPES`. -/
def numNetTypes : Nat := 2

/-- `matches_type`. -/
def matchesType (type : Int) (pair : IfacePair) : Bool :=
  (pair.1.type == type && pair.2.type == type) ||
  (pair.1.type == type && pair.2.type == 0) ||
  (pair.1.type == 0 && pair.2.type == type) ||
  (pair.1.type == 0 && pair.2.type == 0)

/-- `get_network_type`. -/
def getNetworkType (pair : IfacePair) : Nat :=
  ([netTypeWifi, netTypeThreeg].find? fun type : Nat => matchesType type pair).getD 0

/-! ### Restrictions -/

/-- `NET_RESTRICTION_LABEL_SHIFT`. -/
def netRestrictionLabelShift : Nat := 16

/-- `CMM_LABEL_WIFI_ONLY`. -/
def labelWifiOnly : Nat := netTypeWifi <<< netRestrictionLabelShift

/-- `CMM_LABEL_THREEG_ONLY`. -/
def labelThreegOnly : Nat := netTypeThreeg <<< netRestrictionLabelShift

/-- `CMM_LABEL_FALLBACK_ALLOWED`. -/
def labelFallbackAllowed : Nat := 0x10 <<< netRestrictionLabelShift

/-- `ALL_NETWORK_RESTRICTIONS`. -/
def allNetworkRestrictions : Nat := labelWifiOnly ||| labelThreegOnly

/-- `has_network_restriction`. -/
def hasNetworkRestriction (labels : Nat) : Bool :=
  let restrictionLabels := labels &&& allNetworkRestrictions
  restrictionLabels != 0 && restrictionLabels != allNetworkRestrictions

/-- `fallback_allowed`. -/
def fallbackAllowed (labels : Nat) : Bool := hasLabel labels labelFallbackAllowed

/-- `network_fits_restriction` for a type. -/
def typeFitsRestriction (type labels : Nat) : Bool :=
  fallbackAllowed labels ||
    (let restrictionLabels := labels &&& allNetworkRestrictions
    let restrictionMask := type <<< netRestrictionLabelShift
    restrictionLabels == 0 || hasLabel restrictionMask restrictionLabels)

/-- `network_fits_restriction` for a pair of interfaces. -/
def networkFitsRestriction (labels : Nat) (pair : IfacePair) : Bool :=
  if !hasNetworkRestriction labels || fallbackAllowed labels then true
  else (List.range' netTypeWifi numNetTypes).any fun type =>
    typeFitsRestriction type labels && matchesType type pair

/-- The two labels that restrict. -/
def restrictions (labels : Nat) : Bool × Bool :=
  (hasLabel labels labelWifiOnly, hasLabel labels labelThreegOnly)

variable {labels type : Nat} {pair : IfacePair}

/-- A label word has a bit or the mask leaves nothing of it. -/
theorem and_eq_of_bit (labels bit : Nat) :
    labels &&& 2 ^ bit = if hasLabel labels (2 ^ bit) then 2 ^ bit else 0 := by
  unfold hasLabel
  rw [Nat.and_two_pow]
  cases labels.testBit bit <;> simp

/-- What the mask of all restrictions leaves of a label word. -/
theorem and_allNetworkRestrictions (labels : Nat) : labels &&& allNetworkRestrictions =
    (if (restrictions labels).1 then labelWifiOnly else 0) |||
      (if (restrictions labels).2 then labelThreegOnly else 0) := by
  have wifi := and_eq_of_bit labels 16
  have threeg := and_eq_of_bit labels 17
  rw [allNetworkRestrictions, Nat.and_or_distrib_left]
  exact congrArg₂ (· ||| ·) wifi threeg

theorem hasNetworkRestriction_eq (labels : Nat) : hasNetworkRestriction labels =
    ((restrictions labels).1 != (restrictions labels).2) := by
  unfold hasNetworkRestriction
  rw [and_allNetworkRestrictions]
  cases (restrictions labels).1 <;> cases (restrictions labels).2 <;> rfl

/-- A network type fits labels that allow to fall back, or do not restrict, or name it. -/
theorem typeFitsRestriction_eq (labels : Nat) :
    typeFitsRestriction 0 labels = (fallbackAllowed labels ||
      (!(restrictions labels).1 && !(restrictions labels).2)) ∧
    typeFitsRestriction netTypeWifi labels = (fallbackAllowed labels ||
      ((restrictions labels).1 || !(restrictions labels).2)) ∧
    typeFitsRestriction netTypeThreeg labels = (fallbackAllowed labels ||
      ((restrictions labels).2 || !(restrictions labels).1)) := by
  unfold typeFitsRestriction
  rw [and_allNetworkRestrictions]
  cases (restrictions labels).1 <;> cases (restrictions labels).2 <;>
    cases fallbackAllowed labels <;> exact ⟨rfl, rfl, rfl⟩

/-- A pair fits a restriction to one type if its interfaces agree on that type. -/
theorem networkFitsRestriction_eq (labels : Nat) (pair : IfacePair) :
    networkFitsRestriction labels pair =
      if fallbackAllowed labels then true
      else match restrictions labels with
        | (true, false) => matchesType netTypeWifi pair
        | (false, true) => matchesType netTypeThreeg pair
        | _ => true := by
  obtain ⟨-, wifi, threeg⟩ := typeFitsRestriction_eq labels
  unfold networkFitsRestriction
  rw [hasNetworkRestriction_eq, show List.range' netTypeWifi numNetTypes =
    [netTypeWifi, netTypeThreeg] from rfl, List.any_cons, List.any_cons, List.any_nil, wifi, threeg]
  obtain ⟨wifiOnly, threegOnly⟩ := restrictions labels
  cases fallbackAllowed labels <;> cases wifiOnly <;> cases threegOnly <;>
    simp only [bne_self_eq_false, Bool.false_bne, Bool.true_bne, Bool.not_false, Bool.not_true,
      Bool.or_true, Bool.or_false, Bool.false_or, Bool.true_and, Bool.false_and,
      ↓reduceIte, Bool.false_eq_true]

/-- The type of a pair is WiFi where its interfaces agree on that. -/
theorem getNetworkType_eq (pair : IfacePair) : getNetworkType pair =
    if matchesType netTypeWifi pair then netTypeWifi
    else if matchesType netTypeThreeg pair then netTypeThreeg else 0 := by
  unfold getNetworkType
  rw [List.find?_cons, List.find?_cons, List.find?_nil]
  cases matchesType netTypeWifi pair <;> cases matchesType netTypeThreeg pair <;> rfl

end Libcmm
