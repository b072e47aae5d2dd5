import PartitionSnapshot.Bytes

/-!
# Variable-length numbers

A number is written in groups of seven bits, the lowest first, one group a byte; every byte but the
last has its high bit set. A 64-bit number takes at most ten groups. Reading accepts groups of zeros
at the high end, so a number has several forms; writing gives the shortest.
-/

namespace PartitionSnapshot.Varint

/-- The most groups that a 64-bit number takes. -/
def maxGroups : Nat := 10

/-- The shortest form of a number. -/
def encode (n : Nat) : Bytes :=
  if n < 128 then [UInt8.ofNat n] else UInt8.ofNat (n % 128 + 128) :: encode (n / 128)
termination_by n

/-- The number whose groups are given. -/
def value : Bytes → Nat
  | [] => 0
  | group :: rest => group.toNat % 128 + 128 * value rest

/-- Splits off at most `limit` groups up to and with the first one that ends a number. -/
def split? : (limit : Nat) → Bytes → Option (Bytes × Bytes)
  | 0, _ => none
  | _, [] => none
  | limit + 1, group :: rest =>
    if group < 0x80 then some ([group], rest)
    else (split? limit rest).map fun (groups, rest) => (group :: groups, rest)

/-- The 64-bit number at the front of some bytes, its groups, and what follows them. -/
def decode? (bytes : Bytes) : Option (Nat × Bytes × Bytes) := do
  let (groups, rest) ← split? maxGroups bytes
  if value groups < UInt64.size then return (value groups, groups, rest) else none

/-! ## Lengths -/

theorem split?_eq_some {limit : Nat} {bytes groups rest : Bytes}
    (h : split? limit bytes = some (groups, rest)) :
    bytes = groups ++ rest ∧ 0 < groups.length := by
  induction limit generalizing bytes groups rest with
  | zero => simp [split?] at h
  | succ limit ih =>
    cases bytes with
    | nil => simp [split?] at h
    | cons group tail =>
      simp only [split?] at h
      split at h
      · simp only [Option.some.injEq, Prod.mk.injEq] at h
        obtain ⟨rfl, rfl⟩ := h
        simp
      · simp only [Option.map_eq_some_iff, Prod.exists, Prod.mk.injEq] at h
        obtain ⟨groups', rest', h', rfl, rfl⟩ := h
        simp [(ih h').1]

theorem decode?_eq_some {bytes groups rest : Bytes} {n : Nat}
    (h : decode? bytes = some (n, groups, rest)) :
    bytes = groups ++ rest ∧ 0 < groups.length ∧ n = value groups ∧ n < UInt64.size := by
  simp only [decode?, Option.bind_eq_bind, Option.bind_eq_some_iff, Prod.exists] at h
  obtain ⟨groups', rest', hsplit, h⟩ := h
  split at h
  · next hlt =>
    simp only [Option.pure_def, Option.some.injEq, Prod.mk.injEq] at h
    obtain ⟨rfl, rfl, rfl⟩ := h
    exact ⟨(split?_eq_some hsplit).1, (split?_eq_some hsplit).2, rfl, hlt⟩
  · simp at h

end PartitionSnapshot.Varint
