import Mathlib.Algebra.Order.Ring.Int
import Mathlib.Data.List.Basic

/-! # Sliding windows of slots

A deque of optional values addressed by an integer key minus the key of its
first slot, as used to hold the live entries of a growing numbering. Keys are
added at either end (`reach`), and clearing the entry at the front slides the
window past the empty slots there (`clear`). `get` is the finite map the window
stands for; each operation comes with its effect on `get`.
-/

namespace Libcmm.Lib

/-- Slots for the keys `base`, `base + 1`, and so on. -/
structure Window (β : Type*) where
  base : Int
  slots : List (Option β)

namespace Window

variable {β : Type*} (window : Window β)

/-- The value stored under a key. -/
def get (key : Int) : Option β :=
  if key < window.base then none else (window.slots[(key - window.base).toNat]?).join

/-- The key just past the last slot. -/
def stop : Int := window.base + window.slots.length

/-- Apply a function to the value under a key, if there is one. -/
def modify (key : Int) (change : β → β) : Window β :=
  if key < window.base then window
  else { window with
    slots := window.slots.modify (key - window.base).toNat (Option.map change) }

/-- Make a slot for a key. A window without slots moves to the key. -/
def reach (key : Int) : Window β :=
  if window.slots.isEmpty then ⟨key, [none]⟩
  else if key < window.base then
    ⟨key, List.replicate (window.base - key).toNat none ++ window.slots⟩
  else
    ⟨window.base, window.slots ++
      List.replicate ((key - window.base).toNat + 1 - window.slots.length) none⟩

/-- Store a value in an existing slot. -/
def put (key : Int) (value : β) : Window β :=
  { window with slots := window.slots.set (key - window.base).toNat (some value) }

/-- Empty a slot, then drop the empty slots at the front. -/
def clear (key : Int) : Window β :=
  let emptied := window.slots.set (key - window.base).toNat none
  let kept := emptied.dropWhile Option.isNone
  ⟨window.base + (emptied.length - kept.length : Nat), kept⟩

/-- The first slot, if there is one, is in use. -/
def Tight : Prop := window.slots.head? ≠ some none

variable {window}

theorem get_of_lt {key : Int} (below : key < window.base) : window.get key = none :=
  if_pos below

theorem get_of_le {key : Int} (above : window.base ≤ key) :
    window.get key = (window.slots[(key - window.base).toNat]?).join :=
  if_neg (not_lt.mpr above)

theorem get_of_stop_le {key : Int} (beyond : window.stop ≤ key) : window.get key = none := by
  unfold get
  split_ifs
  · rfl
  · unfold stop at beyond
    rw [List.getElem?_eq_none (by omega)]
    rfl

theorem get_of_empty (empty : window.slots = []) (key : Int) : window.get key = none := by
  unfold get
  rw [empty]
  simp only [List.getElem?_nil, Option.join_none, ite_self]

/-- A used key lies inside the window. -/
theorem bounds_of_get {key : Int} {value : β} (used : window.get key = some value) :
    window.base ≤ key ∧ key < window.stop := by
  constructor
  · by_contra below
    rw [get_of_lt (not_le.mp below)] at used
    cases used
  · by_contra beyond
    rw [get_of_stop_le (not_lt.mp beyond)] at used
    cases used

@[simp] theorem modify_base (window : Window β) (key : Int) (change : β → β) :
    (window.modify key change).base = window.base := by
  unfold modify
  split_ifs <;> rfl

@[simp] theorem modify_stop (window : Window β) (key : Int) (change : β → β) :
    (window.modify key change).stop = window.stop := by
  unfold modify stop
  split_ifs
  · rfl
  · simp only [List.length_modify]

/-- Modifying a key changes the value under that key only. -/
theorem get_modify (key query : Int) (change : β → β) :
    (window.modify key change).get query =
      if query = key then (window.get key).map change else window.get query := by
  by_cases low : key < window.base
  · have same : window.modify key change = window := if_pos low
    rw [same]
    split_ifs with equal
    · rw [equal, get_of_lt low]
      rfl
    · rfl
  · have moved : window.modify key change = { window with
        slots := window.slots.modify (key - window.base).toNat (Option.map change) } := if_neg low
    rw [moved]
    by_cases queryLow : query < window.base
    · have other : query ≠ key := by omega
      rw [if_neg other, get_of_lt queryLow]
      exact get_of_lt queryLow
    · have reads : ∀ slots : List (Option β), (Window.mk window.base slots).get query =
          (slots[(query - window.base).toNat]?).join := fun _ => if_neg queryLow
      rw [reads]
      split_ifs with equal
      · subst equal
        rw [get_of_le (not_lt.mp queryLow), List.getElem?_modify_eq]
        cases window.slots[(query - window.base).toNat]? <;> rfl
      · rw [get_of_le (not_lt.mp queryLow), List.getElem?_modify_ne _ _ (by omega)]

/-- Making room for a key stores nothing. -/
theorem get_reach (key query : Int) : (window.reach key).get query = window.get query := by
  unfold reach
  split_ifs with none low
  · rw [get_of_empty (List.isEmpty_iff.mp none)]
    unfold get
    split_ifs with before
    · rfl
    · cases position : (query - key).toNat <;> rfl
  · by_cases before : query < key
    · rw [get_of_lt (by omega), get_of_lt (by omega)]
    · rw [get_of_le (by simpa only using not_lt.mp before)]
      by_cases between : query < window.base
      · rw [get_of_lt between, List.getElem?_append_left (by
          rw [List.length_replicate]; simp only; omega)]
        rw [List.getElem?_replicate]
        split_ifs <;> rfl
      · rw [get_of_le (not_lt.mp between), List.getElem?_append_right (by
          rw [List.length_replicate]; simp only; omega), List.length_replicate]
        congr 2
        simp only
        omega
  · by_cases before : query < window.base
    · rw [get_of_lt (by simpa only using before), get_of_lt before]
    · rw [get_of_le (by simpa only using not_lt.mp before), get_of_le (not_lt.mp before)]
      by_cases inside : (query - window.base).toNat < window.slots.length
      · rw [List.getElem?_append_left inside]
      · rw [List.getElem?_append_right (not_lt.mp inside), List.getElem?_replicate,
          List.getElem?_eq_none (not_lt.mp inside)]
        split_ifs <;> rfl

/-- A window with slots reaches a key by moving one end, if any. -/
theorem reach_bounds (window : Window β) (key : Int) :
    (window.reach key).base ≤ key ∧ key < (window.reach key).stop ∧
      (window.slots = [] → (window.reach key).base = key ∧ (window.reach key).stop = key + 1) ∧
      (window.slots ≠ [] → (window.reach key).base = min window.base key ∧
        (window.reach key).stop = max window.stop (key + 1)) := by
  unfold reach stop
  split_ifs with none low
  · rw [List.isEmpty_iff] at none
    refine ⟨le_refl _, by simp, fun _ => ⟨rfl, by simp⟩, fun used => (used none).elim⟩
  · rw [List.isEmpty_iff] at none
    simp only [List.length_append, List.length_replicate]
    refine ⟨le_refl _, by omega, fun empty => (none empty).elim, fun _ => ⟨by omega, by omega⟩⟩
  · rw [List.isEmpty_iff] at none
    simp only [List.length_append, List.length_replicate]
    refine ⟨by omega, by omega, fun empty => (none empty).elim, fun _ => ⟨by omega, by omega⟩⟩

/-- Storing into an existing slot sets the value under its key only. -/
theorem get_put {key : Int} {value : β} (low : window.base ≤ key) (high : key < window.stop)
    (query : Int) :
    (window.put key value).get query = if query = key then some value else window.get query := by
  unfold stop at high
  by_cases before : query < window.base
  · have other : query ≠ key := by omega
    rw [if_neg other, get_of_lt before]
    exact get_of_lt before
  · change (if query < window.base then none else
      ((window.slots.set (key - window.base).toNat (some value))[(query - window.base).toNat]?).join)
        = _
    rw [if_neg before, List.getElem?_set]
    by_cases equal : query = key
    · subst equal
      simp only [↓reduceIte]
      rw [if_pos (by omega)]
      rfl
    · rw [if_neg (by omega), if_neg equal, get_of_le (not_lt.mp before)]

@[simp] theorem put_stop (key : Int) (value : β) : (window.put key value).stop = window.stop := by
  simp only [put, stop, List.length_set]

/-- Dropping leading empty slots keeps every value under its key. -/
theorem get_dropWhile (base : Int) (slots : List (Option β)) (query : Int) :
    (Window.mk (base + (slots.length - (slots.dropWhile Option.isNone).length : Nat))
      (slots.dropWhile Option.isNone)).get query = (Window.mk base slots).get query := by
  induction slots generalizing base with
  | nil => simp [get]
  | cons head rest ih =>
      cases head with
      | some value => simp [get]
      | none =>
          rw [List.dropWhile_cons_of_pos rfl]
          have shorter := (List.dropWhile_suffix (l := rest) (p := Option.isNone)).length_le
          have shift : base + ((none :: rest).length -
              (rest.dropWhile Option.isNone).length : Nat) =
              base + 1 + (rest.length - (rest.dropWhile Option.isNone).length : Nat) := by
            rw [List.length_cons]
            omega
          rw [shift, ih (base + 1)]
          unfold get
          simp only
          by_cases before : query < base
          · rw [if_pos (by omega), if_pos before]
          · rw [if_neg before]
            split_ifs with first
            · have zero : (query - base).toNat = 0 := by omega
              rw [zero]
              rfl
            · have next : (query - base).toNat = (query - (base + 1)).toNat + 1 := by omega
              rw [next, List.getElem?_cons_succ]

/-- Clearing a key removes the value under it only. -/
theorem get_clear {key : Int} (low : window.base ≤ key) (query : Int) :
    (window.clear key).get query = if query = key then none else window.get query := by
  unfold clear
  rw [get_dropWhile]
  by_cases before : query < window.base
  · rw [get_of_lt (by simpa only using before), get_of_lt before, ite_self]
  · rw [get_of_le (by simpa only using not_lt.mp before), List.getElem?_set]
    simp only
    by_cases equal : query = key
    · subst equal
      simp only [↓reduceIte]
      split_ifs <;> rfl
    · rw [if_neg (by omega), if_neg equal, get_of_le (not_lt.mp before)]

/-- Clearing only moves the base up. -/
theorem clear_bounds (window : Window β) (key : Int) :
    window.base ≤ (window.clear key).base ∧ (window.clear key).stop = window.stop := by
  have shorter := (List.dropWhile_suffix
    (l := window.slots.set (key - window.base).toNat none) (p := Option.isNone)).length_le
  unfold clear stop
  simp only [List.length_set] at shorter ⊢
  exact ⟨by omega, by omega⟩

theorem tight_clear (key : Int) : (window.clear key).Tight := by
  have head := List.head?_dropWhile_not Option.isNone
    (window.slots.set (key - window.base).toNat none)
  unfold Tight clear
  intro first
  rw [first] at head
  cases head

/-- Writing what is stored under a key changes nothing. -/
theorem modify_same {key : Int} {value : β} (used : window.get key = some value) :
    (window.modify key fun _ => value) = window := by
  unfold modify
  split_ifs with low
  · rfl
  · congr 1
    unfold get at used
    rw [if_neg low] at used
    refine List.ext_getElem? fun index => ?_
    rw [List.getElem?_modify]
    split_ifs with same
    · rw [same] at used
      cases slot : window.slots[index]? with
      | none => rfl
      | some stored =>
          rw [slot] at used
          cases used
          rfl
    · exact congrFun Option.map_id_fun' _

theorem tight_modify {key : Int} {change : β → β} (tight : window.Tight) :
    (window.modify key change).Tight := by
  unfold Tight modify at *
  split_ifs
  · exact tight
  · intro first
    rw [List.head?_eq_getElem?, List.getElem?_modify] at first
    rw [List.head?_eq_getElem?] at tight
    cases held : window.slots[0]? with
    | none => simp [held] at first
    | some entry =>
        cases entry with
        | none => exact tight held
        | some value =>
            rw [held] at first
            simp only [Option.map_eq_map, Option.map_some, Option.some.injEq] at first
            split_ifs at first

/-- Reaching a key and storing there leaves no empty slot in front. -/
theorem tight_put_reach {key : Int} {value : β} (tight : window.Tight) :
    ((window.reach key).put key value).Tight := by
  unfold Tight reach put at *
  split_ifs with none low
  · simp
  · obtain ⟨count, succ⟩ : ∃ count, (window.base - key).toNat = count + 1 :=
      ⟨(window.base - key).toNat - 1, by omega⟩
    simp [succ, List.replicate_succ]
  · obtain ⟨head, rest, shape⟩ := List.exists_cons_of_ne_nil
      (fun empty => none (List.isEmpty_iff.mpr empty))
    rw [shape] at tight ⊢
    cases position : (key - window.base).toNat with
    | zero => simp
    | succ next => simpa [position] using tight

/-- A tight window without slots is one without values. -/
theorem Tight.slots_eq_nil_iff (tight : window.Tight) :
    window.slots = [] ↔ ∀ key, window.get key = none := by
  constructor
  · intro empty key
    exact get_of_empty empty key
  · intro unused
    cases shape : window.slots with
    | nil => rfl
    | cons head rest =>
        have first := unused window.base
        rw [get_of_le (le_refl _), Int.sub_self, shape] at first
        cases head with
        | none => exact (tight (by rw [shape]; rfl)).elim
        | some value => cases first

/-- Every value in a slot is stored under some key. -/
theorem exists_get_of_mem {value : β} (member : some value ∈ window.slots) :
    ∃ key, window.get key = some value := by
  obtain ⟨position, used⟩ := List.mem_iff_getElem?.mp member
  refine ⟨window.base + position, ?_⟩
  have index : (window.base + position - window.base).toNat = position := by omega
  rw [get_of_le (by omega), index, used]
  rfl

theorem mem_of_get {key : Int} {value : β} (used : window.get key = some value) :
    some value ∈ window.slots := by
  unfold get at used
  split_ifs at used
  exact List.mem_of_getElem? (Option.join_eq_some_iff.mp used)

/-! ### Weights -/

/-- The sum of a weight over the values in a window. -/
def total (window : Window β) (weight : β → Nat) : Nat :=
  (window.slots.map fun slot => (slot.map weight).getD 0).sum

theorem sum_dropWhile (weight : β → Nat) (slots : List (Option β)) :
    ((slots.dropWhile Option.isNone).map fun slot => (slot.map weight).getD 0).sum =
      (slots.map fun slot => (slot.map weight).getD 0).sum := by
  induction slots with
  | nil => rfl
  | cons head rest ih =>
      cases head with
      | some value => rfl
      | none =>
          rw [List.dropWhile_cons_of_pos rfl, ih, List.map_cons, List.sum_cons]
          exact (Nat.zero_add _).symm

theorem sum_set_none (weight : β → Nat) {slots : List (Option β)} {position : Nat} {value : β}
    (used : slots[position]? = some (some value)) :
    ((slots.set position none).map fun slot => (slot.map weight).getD 0).sum + weight value =
      (slots.map fun slot => (slot.map weight).getD 0).sum := by
  induction slots generalizing position with
  | nil => cases used
  | cons head rest ih =>
      cases position with
      | zero =>
          cases used
          simp only [List.set_cons_zero, List.map_cons, List.sum_cons, Option.map_none,
            Option.getD_none, Option.map_some, Option.getD_some]
          omega
      | succ position =>
          have later := ih used
          simp only [List.set_cons_succ, List.map_cons, List.sum_cons]
          omega

/-- Clearing a key takes the weight of its value away. -/
theorem total_clear (weight : β → Nat) {key : Int} {value : β} (used : window.get key = some value) :
    (window.clear key).total weight + weight value = window.total weight := by
  obtain ⟨low, -⟩ := bounds_of_get used
  rw [get_of_le low] at used
  unfold total clear
  rw [sum_dropWhile]
  exact sum_set_none weight (Option.join_eq_some_iff.mp used)

end Window

end Libcmm.Lib
