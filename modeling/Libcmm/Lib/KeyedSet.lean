import Mathlib.Data.List.Induction
import Mathlib.Data.List.Sort

/-! # Sets of records, ordered by a key

A set of records that are compared by a key only: an ordered associative container whose
elements carry more than the comparison looks at. An element that is inserted does not
replace one of the same key. What a set is can be read off what is found under each key
(`KeyedSet.ext_find`), and each operation has one equation for that.
-/

namespace Libcmm.Lib

variable {α κ : Type*} [LinearOrder κ]

/-- Records listed by strictly increasing keys. -/
structure KeyedSet (key : α → κ) where
  toList : List α
  sorted : toList.Pairwise fun first second => key first < key second

namespace KeyedSet

variable {key : α → κ}

instance [DecidableEq α] : DecidableEq (KeyedSet key) := fun first second =>
  decidable_of_iff (first.toList = second.toList) ⟨by
    cases first
    cases second
    rintro rfl
    rfl, congrArg toList⟩

/-- The set without elements. -/
def empty : KeyedSet key := ⟨[], .nil⟩

/-- The element under a key. -/
def find (set : KeyedSet key) (query : κ) : Option α :=
  set.toList.find? fun element => key element = query

/-- Whether a key is taken. -/
def has (set : KeyedSet key) (query : κ) : Bool := (set.find query).isSome

/-- Place an element in a list ordered by keys, unless its key is taken. -/
def place (key : α → κ) (element : α) : List α → List α
  | [] => [element]
  | head :: rest =>
      if key element < key head then element :: head :: rest
      else if key head < key element then head :: place key element rest
      else head :: rest

theorem mem_of_mem_place {element query : α} {list : List α}
    (member : query ∈ place key element list) : query = element ∨ query ∈ list := by
  induction list with
  | nil => exact .inl (List.mem_singleton.mp member)
  | cons head rest ih =>
      unfold place at member
      split_ifs at member
      · exact List.mem_cons.mp member
      · rcases List.mem_cons.mp member with rfl | later
        · exact .inr List.mem_cons_self
        · exact (ih later).imp_right (List.mem_cons_of_mem _)
      · exact .inr member

theorem place_sorted {element : α} {list : List α}
    (sorted : list.Pairwise fun first second => key first < key second) :
    (place key element list).Pairwise fun first second => key first < key second := by
  induction list with
  | nil => exact List.pairwise_singleton _ _
  | cons head rest ih =>
      obtain ⟨above, restSorted⟩ := List.pairwise_cons.mp sorted
      unfold place
      split_ifs with before after
      · refine List.pairwise_cons.mpr ⟨fun query member => ?_, sorted⟩
        rcases List.mem_cons.mp member with rfl | later
        · exact before
        · exact before.trans (above query later)
      · refine List.pairwise_cons.mpr ⟨fun query member => ?_, ih restSorted⟩
        rcases mem_of_mem_place member with rfl | later
        · exact after
        · exact above query later
      · exact sorted

/-- Add an element, unless its key is taken. -/
def insert (set : KeyedSet key) (element : α) : KeyedSet key :=
  ⟨place key element set.toList, place_sorted set.sorted⟩

/-- Remove the element under a key. -/
def erase (set : KeyedSet key) (query : κ) : KeyedSet key :=
  ⟨set.toList.filter fun element => decide (key element ≠ query), set.sorted.filter _⟩

/-- Take the first element out. -/
def pop (set : KeyedSet key) : Option (α × KeyedSet key) :=
  match set with
  | ⟨[], _⟩ => none
  | ⟨head :: rest, sorted⟩ => some (head, ⟨rest, sorted.of_cons⟩)

variable {set : KeyedSet key} {element : α} {query : κ}

theorem find_eq_some_iff : set.find query = some element ↔ element ∈ set.toList ∧ key element = query := by
  obtain ⟨list, sorted⟩ := set
  unfold find
  dsimp only
  constructor
  · intro found
    have has := List.find?_some found
    exact ⟨List.mem_of_find?_eq_some found, of_decide_eq_true has⟩
  · rintro ⟨member, same⟩
    induction list with
    | nil => cases member
    | cons head rest ih =>
        obtain ⟨above, restSorted⟩ := List.pairwise_cons.mp sorted
        rw [List.find?_cons]
        rcases List.mem_cons.mp member with rfl | later
        · simp only [same, decide_true]
        · have different : ¬ key head = query := (same ▸ above element later).ne
          simp only [different, decide_false]
          exact ih restSorted later

theorem find_eq_none_iff : set.find query = none ↔ ∀ element ∈ set.toList, key element ≠ query := by
  unfold find
  rw [List.find?_eq_none]
  exact forall₂_congr fun element _ => not_congr decide_eq_true_iff

@[simp] theorem find_empty (query : κ) : (empty : KeyedSet key).find query = none := rfl

theorem place_find (element : α) (list : List α) (query : κ)
    (sorted : list.Pairwise fun first second => key first < key second) :
    (place key element list).find? (fun other => decide (key other = query)) =
      if query = key element then
        some ((list.find? fun other => decide (key other = query)).getD element)
      else list.find? fun other => decide (key other = query) := by
  induction list with
  | nil =>
      rw [place, List.find?_cons]
      by_cases same : query = key element
      · simp [same]
      · simp [same, Ne.symm same]
  | cons head rest ih =>
      obtain ⟨above, restSorted⟩ := List.pairwise_cons.mp sorted
      unfold place
      rcases lt_trichotomy (key element) (key head) with before | equal | after
      · -- nothing in the list has the key
        have none' : (head :: rest).find? (fun other => decide (key other = key element)) = none := by
          rw [List.find?_eq_none]
          intro other member taken
          have greater : key element < key other := by
            rcases List.mem_cons.mp member with rfl | later
            · exact before
            · exact before.trans (above other later)
          exact greater.ne' (of_decide_eq_true taken)
        rw [if_pos before, List.find?_cons]
        by_cases same : query = key element
        · simp [same, none']
        · simp [same, Ne.symm same]
      · rw [if_neg equal.not_lt, if_neg equal.not_gt, List.find?_cons]
        by_cases same : query = key element
        · simp [same, equal]
        · simp [same]
      · rw [if_neg after.not_gt, if_pos after, List.find?_cons, List.find?_cons, ih restSorted]
        by_cases same : query = key element
        · have different : ¬ key head = key element := after.ne
          simp [same, different]
        · simp only [if_neg same]

theorem find_insert (set : KeyedSet key) (element : α) (query : κ) :
    (set.insert element).find query =
      if query = key element then some ((set.find query).getD element) else set.find query :=
  place_find element set.toList query set.sorted

theorem find_erase (set : KeyedSet key) (erased query : κ) :
    (set.erase erased).find query = if query = erased then none else set.find query := by
  split_ifs with same
  · subst same
    rw [find_eq_none_iff]
    intro element member
    exact of_decide_eq_true (List.mem_filter.mp member).2
  · cases found : set.find query with
    | none =>
        rw [find_eq_none_iff] at found ⊢
        exact fun element member => found element (List.mem_filter.mp member).1
    | some element =>
        obtain ⟨member, has⟩ := find_eq_some_iff.mp found
        refine find_eq_some_iff.mpr ⟨List.mem_filter.mpr ⟨member, ?_⟩, has⟩
        rw [has]
        exact decide_eq_true same

theorem has_iff : set.has query = true ↔ ∃ element ∈ set.toList, key element = query := by
  unfold has
  rw [Option.isSome_iff_exists]
  exact exists_congr fun element => find_eq_some_iff

theorem has_insert : (set.insert element).has query = true ↔
    query = key element ∨ set.has query = true := by
  unfold has
  rw [find_insert]
  split_ifs with same
  · exact iff_of_true rfl (.inl same)
  · exact (or_iff_right same).symm

theorem has_erase {erased : κ} : (set.erase erased).has query = true ↔
    query ≠ erased ∧ set.has query = true := by
  unfold has
  rw [find_erase]
  split_ifs with same
  · exact iff_of_false Bool.false_ne_true fun kept => kept.1 same
  · exact (and_iff_right same).symm

/-- An element put in the place of the one that has its key. -/
theorem find_replace (set : KeyedSet key) (element : α) (query : κ) :
    ((set.erase (key element)).insert element).find query =
      if query = key element then some element else set.find query := by
  rw [find_insert, find_erase]
  split_ifs <;> rfl

/-- What is taken out is an element, and the others stay. -/
theorem pop_eq_some {rest : KeyedSet key} (popped : set.pop = some (element, rest)) :
    set.find (key element) = some element ∧ rest = set.erase (key element) := by
  obtain ⟨list, sorted⟩ := set
  cases list with
  | nil => cases popped
  | cons head others =>
      cases popped
      obtain ⟨above, -⟩ := List.pairwise_cons.mp sorted
      refine ⟨find_eq_some_iff.mpr ⟨List.mem_cons_self, rfl⟩, ?_⟩
      have kept : others.filter (fun other => decide (key other ≠ key element)) = others :=
        List.filter_eq_self.mpr fun other member => decide_eq_true (above other member).ne'
      unfold erase
      congr 1
      rw [List.filter_cons_of_neg (by simp), kept]

theorem pop_eq_none : set.pop = none ↔ set.toList = [] := by
  obtain ⟨list, sorted⟩ := set
  cases list with
  | nil => exact iff_of_true rfl rfl
  | cons head others => exact iff_of_false nofun nofun

/-- A set is what is found in it. -/
theorem ext_find {first second : KeyedSet key} (same : ∀ query, first.find query = second.find query) :
    first = second := by
  have mem : ∀ element, element ∈ first.toList ↔ element ∈ second.toList := by
    intro element
    have left := @find_eq_some_iff _ _ _ _ first element (key element)
    have right := @find_eq_some_iff _ _ _ _ second element (key element)
    simp only [and_true] at left right
    rw [← left, ← right, same]
  obtain ⟨left, leftSorted⟩ := first
  obtain ⟨right, rightSorted⟩ := second
  have lists : left = right := by
    apply List.Perm.eq_of_pairwise _ leftSorted rightSorted
    · refine (List.perm_ext_iff_of_nodup ?_ ?_).mpr mem
      · exact leftSorted.imp fun below same => (same ▸ below).false
      · exact rightSorted.imp fun below same => (same ▸ below).false
    · intro first second _ _ below above
      exact (below.asymm above).elim
  cases lists
  rfl

/-- Put elements in the places of those that have their keys, one after the other. -/
def replaceAll (set : KeyedSet key) (elements : List α) : KeyedSet key :=
  elements.foldl (fun set element => (set.erase (key element)).insert element) set

theorem replaceAll_concat (set : KeyedSet key) (elements : List α) (element : α) :
    set.replaceAll (elements ++ [element]) =
      ((set.replaceAll elements).erase (key element)).insert element := by
  unfold replaceAll
  rw [List.foldl_append]
  rfl

theorem has_replaceAll {elements : List α} : (set.replaceAll elements).has query = true ↔
    (∃ element ∈ elements, key element = query) ∨ set.has query = true := by
  induction elements using List.reverseRecOn with
  | nil => exact (or_iff_right fun none' => List.not_mem_nil none'.choose_spec.1).symm
  | append_singleton elements last ih =>
      rw [replaceAll_concat, has_insert, has_erase, ih]
      by_cases same : query = key last
      · exact iff_of_true (.inl same)
          (.inl ⟨last, List.mem_append_right _ (List.mem_singleton_self last), same.symm⟩)
      · rw [or_iff_right same, and_iff_right same]
        refine or_congr_left
          ⟨fun ⟨element, member, named⟩ => ?_, fun ⟨element, member, named⟩ => ?_⟩
        · exact ⟨element, List.mem_append_left _ member, named⟩
        · rcases List.mem_append.mp member with earlier | final
          · exact ⟨element, earlier, named⟩
          · rw [List.mem_singleton.mp final] at named
            exact absurd named.symm same

/-- An element that was put in is found; under another key the set is what it was. -/
theorem find_replaceAll (set : KeyedSet key) (elements : List α) (query : κ) :
    (set.replaceAll elements).find query =
      (((empty : KeyedSet key).replaceAll elements).find query).or (set.find query) := by
  induction elements using List.reverseRecOn with
  | nil => rfl
  | append_singleton elements last ih =>
      rw [replaceAll_concat, replaceAll_concat, find_replace, find_replace, ih]
      split_ifs <;> rfl

/-- Elements that a set holds already, and again one in the place of what has its key. -/
theorem replaceAll_concat_replace {elements : List α} {element : α}
    (kept : set.replaceAll elements = set) :
    ((set.erase (key element)).insert element).replaceAll (elements ++ [element]) =
      (set.erase (key element)).insert element := by
  apply ext_find
  intro query
  rw [replaceAll_concat, find_replace, find_replaceAll, find_replace]
  split_ifs with same
  · rfl
  · rw [← find_replaceAll, kept]

/-- A set that agrees with one that holds some elements, under the keys of these, holds them too. -/
theorem replaceAll_eq_of_agree {other : KeyedSet key} {elements : List α}
    (kept : set.replaceAll elements = set)
    (agree : ∀ element ∈ elements, other.find (key element) = set.find (key element)) :
    other.replaceAll elements = other := by
  apply ext_find
  intro query
  by_cases listed : ∃ element ∈ elements, key element = query
  · have taken : ((empty : KeyedSet key).replaceAll elements).has query = true :=
      has_replaceAll.mpr (.inl listed)
    obtain ⟨element, found⟩ := Option.isSome_iff_exists.mp taken
    obtain ⟨member, inList, rfl⟩ := listed
    rw [find_replaceAll, found, Option.some_or, agree member inList, ← kept, find_replaceAll, found,
      Option.some_or]
  · have free : ((empty : KeyedSet key).replaceAll elements).find query = none := by
      rw [← Option.not_isSome_iff_eq_none]
      intro taken
      rcases has_replaceAll.mp taken with found | found
      · exact listed found
      · exact Bool.false_ne_true found
    rw [find_replaceAll, free, Option.none_or]

/-- A set that holds some elements, and nothing under another key, holds these elements only. -/
theorem eq_replaceAll_empty {elements : List α} (kept : set.replaceAll elements = set)
    (inside : ∀ element ∈ set.toList, ∃ other ∈ elements, key other = key element) :
    set = empty.replaceAll elements := by
  apply ext_find
  intro query
  rw [← kept, find_replaceAll]
  cases taken : ((empty : KeyedSet key).replaceAll elements).find query with
  | some element => rfl
  | none =>
      rw [Option.none_or, find_eq_none_iff]
      intro element member same
      obtain ⟨other, inList, named⟩ := inside element member
      have found : ((empty : KeyedSet key).replaceAll elements).has query = true :=
        has_replaceAll.mpr (.inl ⟨other, inList, named.trans same⟩)
      rw [has, taken] at found
      cases found

/-- Remove the elements under some keys. -/
def eraseAll (set : KeyedSet key) (keys : List κ) : KeyedSet key := keys.foldl erase set

theorem has_eraseAll {keys : List κ} :
    (set.eraseAll keys).has query = true ↔ query ∉ keys ∧ set.has query = true := by
  induction keys generalizing set with
  | nil => exact (and_iff_right List.not_mem_nil).symm
  | cons first rest ih =>
      rw [show set.eraseAll (first :: rest) = (set.erase first).eraseAll rest from rfl, ih,
        has_erase, List.mem_cons, not_or, and_left_comm, and_assoc]

/-- A list that is ordered already becomes a set as it is. -/
theorem replaceAll_empty {elements : List α}
    (sorted : elements.Pairwise fun first second => key first < key second) :
    (empty : KeyedSet key).replaceAll elements = ⟨elements, sorted⟩ := by
  induction elements using List.reverseRecOn with
  | nil => rfl
  | append_singleton elements last ih =>
      obtain ⟨before, -, below⟩ := List.pairwise_append.mp sorted
      rw [replaceAll_concat, ih before]
      apply ext_find
      intro query
      rw [find_replace]
      split_ifs with same
      · exact (find_eq_some_iff.mpr
          ⟨List.mem_append_right _ (List.mem_singleton_self last), same.symm⟩).symm
      · unfold find
        dsimp only
        rw [List.find?_append, List.find?_singleton, if_neg, Option.or_none]
        exact fun found => same (of_decide_eq_true found).symm

end KeyedSet

end Libcmm.Lib
