/-!
# Ordered maps

A finite map as the list of its entries in strictly ascending order of keys. The order is part of
the type, so two maps with the same entries are the same list, and going through a map is going
through it by key.

`insert` puts an entry in its place and replaces the one with the same key; `get?` is the view by
which the map is described, and `toList` the view by which it is traversed.
-/

namespace PartitionSnapshot

/-- A finite map with its entries in strictly ascending order of keys. -/
@[ext] structure OrderedMap (κ : Type u) (α : Type v) [Ord κ] where
  entries : List (κ × α)
  ascending : entries.Pairwise fun a b => compare a.1 b.1 = .lt

namespace OrderedMap

variable {κ : Type u} {α : Type v} [Ord κ]

/-! ## Lists of entries -/

/-- The value that the first entry with the given key holds. -/
def find? (key : κ) : List (κ × α) → Option α
  | [] => none
  | (k, value) :: rest => if compare key k = .eq then some value else find? key rest

/-- Puts an entry before the first one with a greater key, in place of one with the same key. -/
def place (key : κ) (value : α) : List (κ × α) → List (κ × α)
  | [] => [(key, value)]
  | (k, v) :: rest =>
    match compare key k with
    | .lt => (key, value) :: (k, v) :: rest
    | .eq => (key, value) :: rest
    | .gt => (k, v) :: place key value rest

theorem mem_place {key : κ} {value : α} {list : List (κ × α)} {entry : κ × α}
    (h : entry ∈ place key value list) : entry = (key, value) ∨ entry ∈ list := by
  induction list with
  | nil => simpa [place] using h
  | cons head rest ih =>
    obtain ⟨k, v⟩ := head
    simp only [place] at h
    split at h
    · simpa using h
    · simp only [List.mem_cons] at h ⊢
      exact h.imp_right Or.inr
    · simp only [List.mem_cons] at h ⊢
      rcases h with h | h
      · exact .inr (.inl h)
      · exact (ih h).imp_right Or.inr

theorem pairwise_place [Std.TransOrd κ] (key : κ) (value : α) {list : List (κ × α)}
    (h : list.Pairwise fun a b => compare a.1 b.1 = .lt) :
    (place key value list).Pairwise fun a b => compare a.1 b.1 = .lt := by
  induction list with
  | nil => simp [place]
  | cons head rest ih =>
    obtain ⟨k, v⟩ := head
    obtain ⟨hhead, hrest⟩ := List.pairwise_cons.1 h
    simp only [place]
    split
    next hlt =>
      refine List.pairwise_cons.2 ⟨fun entry hentry => ?_, h⟩
      rcases List.mem_cons.1 hentry with rfl | hentry
      · exact hlt
      · exact Std.TransCmp.lt_trans hlt (hhead entry hentry)
    next heq =>
      refine List.pairwise_cons.2 ⟨fun entry hentry => ?_, hrest⟩
      rw [Std.TransCmp.congr_left heq]
      exact hhead entry hentry
    next hgt =>
      refine List.pairwise_cons.2 ⟨fun entry hentry => ?_, ih hrest⟩
      rcases mem_place hentry with rfl | hentry
      · exact Std.OrientedCmp.lt_of_gt hgt
      · exact hhead entry hentry

/-! ## The map -/

instance [DecidableEq κ] [DecidableEq α] : DecidableEq (OrderedMap κ α) := fun a b =>
  decidable_of_iff (a.entries = b.entries) OrderedMap.ext_iff.symm

/-- The map without entries. -/
def empty : OrderedMap κ α := ⟨[], .nil⟩

instance : Inhabited (OrderedMap κ α) := ⟨empty⟩

/-- The entries, by ascending key. -/
def toList (map : OrderedMap κ α) : List (κ × α) := map.entries

/-- The values, by ascending key. -/
def values (map : OrderedMap κ α) : List α := map.entries.map (·.2)

/-- The number of entries. -/
def size (map : OrderedMap κ α) : Nat := map.entries.length

/-- The value under a key. -/
def get? (map : OrderedMap κ α) (key : κ) : Option α := find? key map.entries

/-- Whether there is an entry under a key. -/
def contains (map : OrderedMap κ α) (key : κ) : Bool := (map.get? key).isSome

variable [Std.TransOrd κ]

/-- The map with the given value under the given key. -/
def insert (map : OrderedMap κ α) (key : κ) (value : α) : OrderedMap κ α :=
  ⟨place key value map.entries, pairwise_place key value map.ascending⟩

/-- The map of a list of entries; of two with one key, the later wins. -/
def ofList (list : List (κ × α)) : OrderedMap κ α :=
  list.foldl (fun map entry => map.insert entry.1 entry.2) empty

end OrderedMap

end PartitionSnapshot
