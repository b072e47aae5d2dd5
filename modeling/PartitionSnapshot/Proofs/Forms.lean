import Mathlib.Tactic.Ring
import PartitionSnapshot.Proofs.Strategies

/-!
# Forms of variable-length numbers

A number of 64 bits has many forms: its shortest one, and longer ones with groups of zeros at the
high end, up to ten groups in all. The last group, and it alone, is below `0x80`. Nine groups have
63 bits, so a tenth one can add a single bit.

The bytes in front of which a number is found are those that begin with a form. When there is none
they are too few, or ten of them at least are there and still no form.

## Main statements

* `Varint.decode?_eq_some_iff`: a number is found just where a form stands.
* `Varint.isCut_of_decode?_eq_none`: what is missing where none is found.
-/

namespace PartitionSnapshot.Varint

/-! ## Values -/

theorem value_lt (groups : Bytes) : value groups < 128 ^ groups.length := by
  induction groups with
  | nil => exact Nat.one_pos
  | cons group groups ih =>
    rw [value, List.length_cons, Nat.pow_succ]
    omega

theorem value_append (front back : Bytes) :
    value (front ++ back) = value front + 128 ^ front.length * value back := by
  -- along the groups in front, each of which shifts the others by seven bits
  induction front with
  | nil => simp [value]
  | cons group front ih =>
    rw [List.cons_append, value, value, ih, List.length_cons, Nat.pow_succ]
    ring

/-! ## Forms -/

/-- Groups of which the last is below `0x80`, and no other. -/
structure Ends (more : Bytes) (last : UInt8) : Prop where
  more : ∀ group ∈ more, 0x80 ≤ group
  last : last < 0x80

/-- The groups are a form of a 64-bit number: there are at most ten, the last one is below `0x80`
and no other, and if it is the tenth, it is at most 1. -/
def IsForm (groups : Bytes) : Prop :=
  ∃ more last, groups = more ++ [last] ∧ Ends more last ∧ more.length < maxGroups ∧
    (more.length = 9 → last ≤ 1)

/-- Groups are split off just up to the first one that ends a number. -/
theorem split?_eq_some_iff {limit : Nat} {bytes groups rest : Bytes} :
    split? limit bytes = some (groups, rest) ↔ bytes = groups ++ rest ∧
      ∃ more last, groups = more ++ [last] ∧ Ends more last ∧ more.length < limit := by
  constructor
  · intro h
    refine ⟨(split?_eq_some h).1, ?_⟩
    -- along the limit, one group at a time
    induction limit generalizing bytes groups with
    | zero => cases h
    | succ limit ih =>
      cases bytes with
      | nil => cases h
      | cons group tail =>
        rw [split?] at h
        split at h
        · next hlast =>
          cases h
          exact ⟨[], group, rfl, ⟨List.forall_mem_nil _, hlast⟩, Nat.succ_pos limit⟩
        · next hmore =>
          obtain ⟨⟨groups', rest'⟩, hsplit, heq⟩ := Option.map_eq_some_iff.1 h
          cases heq
          obtain ⟨more, last, rfl, hends, hlength⟩ := ih hsplit
          exact ⟨group :: more, last, rfl,
            ⟨List.forall_mem_cons.2 ⟨UInt8.not_lt.1 hmore, hends.more⟩, hends.last⟩,
            Nat.succ_lt_succ hlength⟩
  · rintro ⟨rfl, more, last, rfl, hends, hlength⟩
    induction more generalizing limit with
    | nil =>
      obtain ⟨limit, rfl⟩ := Nat.exists_eq_succ_of_ne_zero (Nat.ne_of_gt hlength)
      rw [List.nil_append, List.singleton_append, split?, if_pos hends.last]
    | cons group more ih =>
      have hpos : 0 < limit := Nat.zero_lt_of_lt hlength
      obtain ⟨limit, rfl⟩ := Nat.exists_eq_succ_of_ne_zero (Nat.ne_of_gt hpos)
      obtain ⟨hgroup, hmore⟩ := List.forall_mem_cons.1 hends.more
      have hothers := ih ⟨hmore, hends.last⟩ (Nat.lt_of_succ_lt_succ hlength)
      rw [List.cons_append, List.cons_append, split?, if_neg (UInt8.not_lt.2 hgroup), hothers]
      rfl

/-- Up to ten groups have 64 bits, unless there are ten and the last one has more than one bit. -/
theorem value_lt_size_iff {more : Bytes} {last : UInt8} (hends : Ends more last)
    (hlength : more.length < maxGroups) :
    value (more ++ [last]) < UInt64.size ↔ (more.length = 9 → last ≤ 1) := by
  have hlast : last.toNat < 128 := UInt8.lt_iff_toNat_lt.1 hends.last
  have hmore := value_lt more
  have hvalue : value (more ++ [last]) = value more + 128 ^ more.length * last.toNat := by
    rw [value_append]
    simp [value, Nat.mod_eq_of_lt hlast]
  have hsize : UInt64.size = 18446744073709551616 := rfl
  have hten : maxGroups = 10 := rfl
  by_cases hnine : more.length = 9
  · -- nine groups have 63 bits
    have hpow : 128 ^ 9 = 9223372036854775808 := rfl
    have hone : (1 : UInt8).toNat = 1 := rfl
    rw [hnine, hpow] at hmore hvalue
    rw [hvalue, UInt8.le_iff_toNat_le]
    omega
  · refine iff_of_true ?_ fun h => absurd h hnine
    calc value (more ++ [last]) < 128 ^ (more ++ [last]).length := value_lt _
      _ ≤ 128 ^ 9 := Nat.pow_le_pow_right (by decide) (by rw [List.length_append]; simp; omega)
      _ < UInt64.size := by decide

/-- **A number is found just where a form stands**, and it is the value of the groups. -/
theorem decode?_eq_some_iff {bytes groups rest : Bytes} {n : Nat} :
    decode? bytes = some (n, groups, rest) ↔
      IsForm groups ∧ n = value groups ∧ bytes = groups ++ rest := by
  simp only [decode?, Option.bind_eq_bind, Option.bind_eq_some_iff, Prod.exists]
  constructor
  · rintro ⟨groups', rest', hsplit, h⟩
    split at h
    · next hlt =>
      cases h
      obtain ⟨hbytes, more, last, rfl, hends, hlength⟩ := split?_eq_some_iff.1 hsplit
      exact ⟨⟨more, last, rfl, hends, hlength, (value_lt_size_iff hends hlength).1 hlt⟩, rfl,
        hbytes⟩
    · cases h
  · rintro ⟨⟨more, last, rfl, hends, hlength, hlast⟩, rfl, hbytes⟩
    refine ⟨_, _, split?_eq_some_iff.2 ⟨hbytes, more, last, rfl, hends, hlength⟩, ?_⟩
    rw [if_pos ((value_lt_size_iff hends hlength).2 hlast)]
    rfl

theorem decode?_eq_none_iff {bytes : Bytes} :
    decode? bytes = none ↔ ∀ groups, IsForm groups → ¬ groups <+: bytes := by
  rw [Option.eq_none_iff_forall_ne_some]
  constructor
  · rintro h groups hform ⟨rest, hbytes⟩
    exact h _ (decode?_eq_some_iff.2 ⟨hform, rfl, hbytes.symm⟩)
  · rintro h ⟨n, groups, rest⟩ hdecode
    obtain ⟨hform, -, hbytes⟩ := decode?_eq_some_iff.1 hdecode
    exact h groups hform ⟨rest, hbytes.symm⟩

/-- The shortest form of a number is one of its forms. -/
theorem isForm_encode {n : Nat} (h : n < UInt64.size) : IsForm (encode n) :=
  (decode?_eq_some_iff.1 (decode?_encode h [])).1

/-- Fewer than ten bytes in front of which there is no number end inside one. -/
theorem isCut_of_decode?_eq_none {bytes : Bytes} (h : decode? bytes = none)
    (hlength : bytes.length < maxGroups) : isCut maxGroups bytes = true := by
  rw [isCut, Bool.and_eq_true, decide_eq_true_eq]
  refine ⟨hlength, List.all_eq_true.2 fun group hgroup => decide_eq_true ?_⟩
  cases hfirst : bytes.find? (· < 0x80) with
  | none => simpa using List.find?_eq_none.1 hfirst group hgroup
  | some last =>
    -- up to the first byte below 0x80 the bytes are a form
    obtain ⟨hlast, more, behind, rfl, hmore⟩ := List.find?_eq_some_iff_append.1 hfirst
    have hends : Ends more last := ⟨fun group hgroup => by simpa using hmore group hgroup,
      of_decide_eq_true hlast⟩
    have hfew : more.length + 1 < maxGroups := by
      rw [List.length_append, List.length_cons] at hlength
      omega
    have hten : maxGroups = 10 := rfl
    refine absurd ⟨behind, List.append_assoc more [last] behind⟩
      (decode?_eq_none_iff.1 h (more ++ [last])
        ⟨more, last, rfl, hends, Nat.lt_of_succ_lt hfew, fun hnine => ?_⟩)
    omega

end PartitionSnapshot.Varint
