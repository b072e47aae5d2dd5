import Mathlib.Algebra.GroupWithZero.Nat
import PartitionSnapshot.OrderedMap

/-!
# Lookups and rebuilding of ordered maps

What is found in a map after an insertion is the value put in, or what was found before; and a map
is decided by what is found in it. So values that are put under their own keys, one after the other,
override what was there, the last one of a key counts, and putting them again changes nothing.

A map is rebuilt by inserting its entries in ascending order: each one lands behind those that are
there already.

## Main statements

* `get?_insert`, `ext_get?`: maps by what is found in them.
* `get?_ofList`, `get?_putAll`, `putAll_putAll`: entries and values put in one after the other.
* `ofList_toList`, `toList_ofList_iff`: a map is rebuilt from its entries.
* `sum_ofList_le`: the map of some entries is not larger than these.
-/

namespace PartitionSnapshot.OrderedMap

variable {κ : Type u} {α : Type v} [Ord κ]

section
variable [Std.TransOrd κ]

/-- An entry with a key above all others is placed at the end. -/
theorem place_of_forall_lt {key : κ} {value : α} {list : List (κ × α)}
    (h : ∀ entry ∈ list, compare entry.1 key = .lt) :
    place key value list = list ++ [(key, value)] := by
  -- along the list, none of whose keys stops the new one
  induction list with
  | nil => rfl
  | cons head rest ih =>
    obtain ⟨k, v⟩ := head
    have hhead : compare key k = .gt := Std.OrientedCmp.gt_of_lt (h (k, v) List.mem_cons_self)
    have hrest := ih fun entry hentry => h entry (List.mem_cons_of_mem _ hentry)
    simp only [place, hhead, hrest, List.cons_append]

/-- Inserting ascending entries behind those of a map appends them. -/
theorem entries_foldl_insert (map : OrderedMap κ α) (list : List (κ × α))
    (h : (map.entries ++ list).Pairwise fun a b => compare a.1 b.1 = .lt) :
    (list.foldl (fun map entry => map.insert entry.1 entry.2) map).entries =
      map.entries ++ list := by
  -- each entry goes to the end, and the entries behind it are above the longer map
  induction list generalizing map with
  | nil => simp
  | cons head rest ih =>
    have hplace : (map.insert head.1 head.2).entries = map.entries ++ [head] :=
      place_of_forall_lt fun entry hentry =>
        (List.pairwise_append.1 h).2.2 entry hentry head List.mem_cons_self
    rw [List.foldl_cons, ih (map.insert head.1 head.2) (by rw [hplace]; simpa using h), hplace]
    simp

/-- The entries of a map are those it was made of just when these were ascending. -/
theorem toList_ofList_iff {list : List (κ × α)} : (ofList list).toList = list ↔
    list.Pairwise fun a b => compare a.1 b.1 = .lt := by
  constructor
  · intro h
    rw [← h]
    exact (ofList list).ascending
  · intro h
    -- all entries are inserted behind those of the empty map
    exact entries_foldl_insert empty list h

/-- A map is the map of its entries. -/
theorem ofList_toList (map : OrderedMap κ α) : ofList map.toList = map :=
  OrderedMap.ext (toList_ofList_iff.2 map.ascending)

end

/-! ## Sizes of maps -/

section

/-- Placing an entry adds no more than its weight. -/
theorem sum_place_le (weight : κ × α → Nat) (key : κ) (value : α) (list : List (κ × α)) :
    ((place key value list).map weight).sum ≤ weight (key, value) + (list.map weight).sum := by
  -- along the list, up to where the entry is placed
  induction list with
  | nil => simp [place]
  | cons head rest ih =>
    obtain ⟨k, v⟩ := head
    simp only [place]
    split
    · simp
    · -- the entry that is replaced no longer weighs
      simp only [List.map_cons, List.sum_cons]
      omega
    · simp only [List.map_cons, List.sum_cons]
      omega

variable [Std.TransOrd κ]

theorem sum_foldl_insert_le (weight : κ × α → Nat) (list : List (κ × α)) (map : OrderedMap κ α) :
    ((list.foldl (fun map entry => map.insert entry.1 entry.2) map).entries.map weight).sum ≤
      (map.entries.map weight).sum + (list.map weight).sum := by
  -- along the entries, each of which adds no more than its weight
  induction list generalizing map with
  | nil => simp
  | cons entry list ih =>
    have hinsert : ((map.insert entry.1 entry.2).entries.map weight).sum ≤
        weight entry + (map.entries.map weight).sum := sum_place_le weight _ _ _
    have hrest := ih (map.insert entry.1 entry.2)
    simp only [List.foldl_cons, List.map_cons, List.sum_cons]
    omega

/-- The map of some entries weighs no more than these. -/
theorem sum_ofList_le (weight : κ × α → Nat) (list : List (κ × α)) :
    ((ofList list).toList.map weight).sum ≤ (list.map weight).sum := by
  have h := sum_foldl_insert_le weight list empty
  have hempty : ((empty : OrderedMap κ α).entries.map weight).sum = 0 := rfl
  rw [hempty, Nat.zero_add] at h
  exact h

end

/-- What holds of the entry put in, and of all others, holds of all entries of the new map. -/
theorem forall_mem_insert [Std.TransOrd κ] {map : OrderedMap κ α} {key : κ} {value : α}
    {holds : κ × α → Prop} (hnew : holds (key, value)) (h : ∀ entry ∈ map.entries, holds entry) :
    ∀ entry ∈ (map.insert key value).entries, holds entry := by
  intro entry hentry
  -- an entry of the new map is the one put in or was there before
  rcases mem_place hentry with rfl | hentry
  · exact hnew
  · exact h entry hentry

/-- What holds of all entries put in holds of all entries of their map. -/
theorem forall_mem_ofList [Std.TransOrd κ] {list : List (κ × α)} {holds : κ × α → Prop}
    (h : ∀ entry ∈ list, holds entry) : ∀ entry ∈ (ofList list).toList, holds entry := by
  have hfold : ∀ map : OrderedMap κ α, (∀ entry ∈ map.entries, holds entry) →
      ∀ entry ∈ (list.foldl (fun map entry => map.insert entry.1 entry.2) map).entries,
        holds entry := by
    -- along the entries, each of which keeps this of the map so far
    induction list with
    | nil => exact fun _ hmap => hmap
    | cons entry list ih =>
      intro map hmap
      refine ih (fun other hother => h other (List.mem_cons_of_mem _ hother)) _ ?_
      exact forall_mem_insert (h entry List.mem_cons_self) hmap
  exact hfold empty nofun

/-! ## What is found in a map -/

theorem find?_cons_self [Std.ReflOrd κ] (key : κ) (value : α) (rest : List (κ × α)) :
    find? key ((key, value) :: rest) = some value :=
  if_pos Std.ReflOrd.compare_self

/-- Below all keys nothing is found. -/
theorem find?_of_forall_lt {key : κ} {list : List (κ × α)}
    (h : ∀ entry ∈ list, compare key entry.1 = .lt) : find? key list = none := by
  induction list with
  | nil => rfl
  | cons head rest ih =>
    have hhead := h head List.mem_cons_self
    rw [find?, if_neg (by rw [hhead]; exact nofun),
      ih fun entry hentry => h entry (List.mem_cons_of_mem _ hentry)]

/-- The least key of a list is found in no ascending list that begins above it. -/
theorem not_lt_of_find? [Std.TransOrd κ] {key key' : κ} {value value' : α}
    {rest rest' : List (κ × α)}
    (hbelow' : ∀ entry ∈ rest', compare key' entry.1 = .lt)
    (h : find? key ((key, value) :: rest) = find? key ((key', value') :: rest')) :
    compare key key' ≠ .lt := by
  intro hless
  rw [find?_cons_self, find?_of_forall_lt] at h
  · cases h
  · rw [List.forall_mem_cons]
    exact ⟨hless, fun entry hentry => Std.TransCmp.lt_trans hless (hbelow' entry hentry)⟩

section

open Std (LawfulEqCmp)

variable [Std.LawfulEqOrd κ] [DecidableEq κ]

theorem find?_place (key other : κ) (value : α) (list : List (κ × α)) :
    find? other (place key value list) = if other = key then some value else find? other list := by
  -- along the list, up to where the entry is placed
  induction list with
  | nil => simp only [place, find?, LawfulEqCmp.compare_eq_iff_eq]
  | cons head rest ih =>
    obtain ⟨k, v⟩ := head
    simp only [place]
    split
    · simp only [find?, LawfulEqCmp.compare_eq_iff_eq]
    · next heq =>
      obtain rfl := LawfulEqCmp.compare_eq_iff_eq.1 heq
      simp only [find?, LawfulEqCmp.compare_eq_iff_eq]
      split <;> rfl
    · next hgt =>
      have hne : k ≠ key := by
        rintro rfl
        rw [Std.ReflOrd.compare_self] at hgt
        cases hgt
      simp only [find?, LawfulEqCmp.compare_eq_iff_eq, ih]
      split
      · next hother => rw [if_neg (hother ▸ hne)]
      · rfl

variable [Std.TransOrd κ]

@[simp] theorem get?_insert (map : OrderedMap κ α) (key other : κ) (value : α) :
    (map.insert key value).get? other = if other = key then some value else map.get? other :=
  find?_place key other value map.entries

theorem contains_insert (map : OrderedMap κ α) (key other : κ) (value : α) :
    (map.insert key value).contains other = (decide (other = key) || map.contains other) := by
  rw [contains, get?_insert]
  split
  · next hsame => simp [hsame]
  · next hother => simp [hother, contains]

/-- Ascending lists in which the same is found are the same. -/
theorem eq_of_find? {list list' : List (κ × α)}
    (hlist : list.Pairwise fun a b => compare a.1 b.1 = .lt)
    (hlist' : list'.Pairwise fun a b => compare a.1 b.1 = .lt)
    (h : ∀ key, find? key list = find? key list') : list = list' := by
  induction list generalizing list' with
  | nil =>
    cases list' with
    | nil => rfl
    | cons head' rest' => cases (h head'.1).trans (find?_cons_self head'.1 head'.2 rest')
  | cons head rest ih =>
    cases list' with
    | nil => cases (h head.1).symm.trans (find?_cons_self head.1 head.2 rest)
    | cons head' rest' =>
      obtain ⟨k, v⟩ := head
      obtain ⟨k', v'⟩ := head'
      obtain ⟨hbelow, hrest⟩ := List.pairwise_cons.1 hlist
      obtain ⟨hbelow', hrest'⟩ := List.pairwise_cons.1 hlist'
      -- the least key of either list is found in the other one
      have hkeys : k = k' := by
        cases hcompare : compare k k' with
        | eq => exact LawfulEqCmp.compare_eq_iff_eq.1 hcompare
        | lt => exact absurd hcompare (not_lt_of_find? hbelow' (h k))
        | gt =>
          exact absurd (Std.OrientedCmp.lt_of_gt hcompare) (not_lt_of_find? hbelow (h k').symm)
      subst hkeys
      have hvalues := h k
      rw [find?_cons_self, find?_cons_self, Option.some.injEq] at hvalues
      rw [hvalues, ih hrest hrest']
      intro key
      by_cases hkey : key = k
      · rw [hkey, find?_of_forall_lt hbelow, find?_of_forall_lt hbelow']
      · have hothers := h key
        simpa only [find?, LawfulEqCmp.compare_eq_iff_eq, if_neg hkey] using hothers

/-- A map is decided by what is found in it. -/
theorem ext_get? {map map' : OrderedMap κ α} (h : ∀ key, map.get? key = map'.get? key) :
    map = map' :=
  OrderedMap.ext (eq_of_find? map.ascending map'.ascending h)

/-! ## Values put in one after the other -/

/-- Puts values under their own keys, one after the other. -/
def putAll (key : α → κ) (values : List α) (map : OrderedMap κ α) : OrderedMap κ α :=
  values.foldl (fun map value => map.insert (key value) value) map

/-- The last one of some values that has a key. -/
def last? (key : α → κ) (values : List α) (k : κ) : Option α :=
  values.reverse.find? fun value => key value = k

/-- **The last entry with a key overrides what was under it**, and other keys are left. -/
theorem get?_foldl_insert (list : List (κ × α)) (map : OrderedMap κ α) (k : κ) :
    (list.foldl (fun map entry => map.insert entry.1 entry.2) map).get? k =
      ((last? Prod.fst list k).map Prod.snd).or (map.get? k) := by
  -- along the entries, the first of which is put in before the others
  induction list generalizing map with
  | nil => rfl
  | cons entry list ih =>
    rw [List.foldl_cons, ih, get?_insert, last?, last?, List.reverse_cons, List.find?_append,
      List.find?_singleton, Option.map_or, Option.or_assoc]
    by_cases hkey : entry.1 = k
    · simp [hkey]
    · simp [hkey, Ne.symm hkey]

/-- In the map of some entries, the last entry with a key counts. -/
theorem get?_ofList (list : List (κ × α)) (k : κ) :
    (ofList list).get? k = (last? Prod.fst list k).map Prod.snd := by
  have hempty : (empty : OrderedMap κ α).get? k = none := rfl
  rw [ofList, get?_foldl_insert, hempty, Option.or_none]

/-- The last value of a key overrides what was under it, and keys without a value are left. -/
theorem get?_putAll (key : α → κ) (values : List α) (map : OrderedMap κ α) (k : κ) :
    (putAll key values map).get? k = (last? key values k).or (map.get? k) := by
  -- putting in values is inserting them as entries under their own keys
  have hput : putAll key values map = (values.map fun value => (key value, value)).foldl
      (fun map entry => map.insert entry.1 entry.2) map := by
    rw [putAll, List.foldl_map]
  have hlast : (last? Prod.fst (values.map fun value => (key value, value)) k).map Prod.snd =
      last? key values k := by
    simp only [last?, ← List.map_reverse, List.find?_map, Option.map_map, Function.comp_def,
      Option.map_id']
  rw [hput, get?_foldl_insert, hlast]

/-- Values that are put in again change nothing. -/
theorem putAll_putAll (key : α → κ) (values : List α) (map : OrderedMap κ α) :
    putAll key values (putAll key values map) = putAll key values map := by
  apply ext_get?
  intro k
  rw [get?_putAll, get?_putAll, ← Option.or_assoc, Option.or_self]

end

end PartitionSnapshot.OrderedMap
