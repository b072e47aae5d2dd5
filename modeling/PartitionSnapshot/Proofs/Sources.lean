import PartitionSnapshot.Stream.Source

/-!
# What sources hand over

A source over the bytes of a file hands over these bytes and nothing else, however it reads them.
It may know what is left or find the end by a refill, and it may fail in one way or in another; what
it hands over, and whether it fails, is decided by the bytes that are left alone.

A buffered source does so when its buffer takes in at least one byte and when the length that was
declared, if any, is the true one. Such a source is *faithful*, and stays so while it is read.

## Main statements

* `Varint.decode?_encode`: variable-length numbers are read back.
* `ByteSource.read_of_append`, `ByteSource.Honest.read_of_lt`: reading bytes.
* `ByteSource.readVarint_of_some`, `ByteSource.Honest.readVarint_of_none`: reading numbers.
* `ByteSource.isExhausted_eq`: finding the end.
-/

namespace PartitionSnapshot

/-! ## Variable-length numbers -/

namespace Varint

theorem toNat_group {n : Nat} (h : n < 256) : (UInt8.ofNat n).toNat = n := by
  rw [UInt8.toNat_ofNat']
  omega

theorem value_encode (n : Nat) : value (encode n) = n := by
  -- along the groups of the number
  induction n using encode.induct with
  | case1 n hlt =>
    rw [encode, if_pos hlt]
    simp only [value, toNat_group (show n < 256 by omega)]
    omega
  | case2 n hle ih =>
    have hgroup := toNat_group (show n % 128 + 128 < 256 by omega)
    rw [encode, if_neg hle]
    simp only [value, ih, hgroup]
    omega

/-- The groups of a number end where its shortest form ends. -/
theorem split?_encode {n limit : Nat} (h : n < Nat.pow 128 limit) (hlimit : 0 < limit)
    (rest : Bytes) :
    split? limit (encode n ++ rest) = some (encode n, rest) := by
  -- along the limit, with one group fewer to come at every step
  induction limit generalizing n with
  | zero => omega
  | succ limit ih =>
    rw [encode]
    split
    · next hlt =>
      have hlast : UInt8.ofNat n < 0x80 := by
        rw [UInt8.lt_iff_toNat_lt, toNat_group (by omega)]
        exact hlt
      simp only [List.singleton_append, split?, if_pos hlast]
    · next hle =>
      have hmore : ¬ UInt8.ofNat (n % 128 + 128) < 0x80 := by
        rw [UInt8.lt_iff_toNat_lt, toNat_group (by omega)]
        have h128 : (0x80 : UInt8).toNat = 128 := rfl
        omega
      -- the other groups are those of a number that is 128 times smaller
      have hpow : Nat.pow 128 (limit + 1) = Nat.pow 128 limit * 128 := rfl
      have hsmaller : n / 128 < Nat.pow 128 limit := by omega
      have hpos : 0 < limit := by
        rcases Nat.eq_zero_or_pos limit with rfl | hpos
        · have hone : Nat.pow 128 0 = 1 := rfl
          omega
        · exact hpos
      simp only [List.cons_append, split?, if_neg hmore, ih hsmaller hpos, Option.map_some]

/-- A 64-bit number is read back from its shortest form, whatever follows. -/
theorem decode?_encode {n : Nat} (h : n < UInt64.size) (rest : Bytes) :
    decode? (encode n ++ rest) = some (n, encode n, rest) := by
  have hsplit : split? maxGroups (encode n ++ rest) = some (encode n, rest) :=
    split?_encode (Nat.lt_trans h (by decide)) (by decide) rest
  simp only [decode?, hsplit, value_encode, Option.bind_eq_bind, Option.bind_some, if_pos h,
    Option.pure_def]

/-- The groups that were split off are a whole number by themselves. -/
theorem split?_groups {limit : Nat} {bytes groups rest : Bytes}
    (h : split? limit bytes = some (groups, rest)) : split? limit groups = some (groups, []) := by
  -- along the limit; only the groups that are split off were looked at
  induction limit generalizing bytes groups rest with
  | zero => simp [split?] at h
  | succ limit ih =>
    cases bytes with
    | nil => simp [split?] at h
    | cons group tail =>
      simp only [split?] at h
      split at h
      · next hlast =>
        cases h
        simp only [split?, if_pos hlast]
      · next hmore =>
        simp only [Option.map_eq_some_iff, Prod.exists, Prod.mk.injEq] at h
        obtain ⟨groups', rest', hsplit, rfl, rfl⟩ := h
        simp only [split?, if_neg hmore, ih hsplit, Option.map_some]

end Varint

/-! ## Buffered sources -/

namespace BufferedSource

/-- A declared length is the true one. -/
def Honest (source : BufferedSource) : Prop :=
  ∀ left, source.remaining = some left → left = source.rest.length

/-- The buffer takes in at least a byte, and a declared length is the true one. -/
structure Faithful (source : BufferedSource) : Prop where
  capacity : 1 ≤ source.capacity
  declared : ∀ left, source.remaining = some left → left = source.rest.length

variable {source : BufferedSource}

theorem Faithful.honest (h : source.Faithful) : source.Honest := h.declared

@[simp] theorem capacity_gather (source : BufferedSource) (n : Nat) :
    (source.gather n).2.capacity = source.capacity := by
  unfold gather
  dsimp only
  split
  · rfl
  · split <;> rfl

/-- What is gathered are the next bytes, as many as there are. -/
theorem gather_fst (source : BufferedSource) (n : Nat) :
    (source.gather n).1 = source.rest.take n := by
  unfold gather rest
  dsimp only
  rw [List.take_append]
  -- the buffer holds enough, or it is emptied and the rest comes from behind it
  by_cases hfront : n ≤ source.buffer.length
  · have hlength : (source.buffer.take n).length = n := List.length_take_of_le hfront
    have hmissing : n - source.buffer.length = 0 := by omega
    simp [hlength, hmissing]
  · have hall : source.buffer.take n = source.buffer := List.take_of_length_le (by omega)
    rw [hall, if_neg (by omega)]
    split
    · rfl
    · next hcapacity =>
      rw [List.take_take, Nat.min_eq_left (by omega)]

/-- The source has handed over all but `rest`, and is as good as it was. -/
structure Leaves (source after : BufferedSource) (rest : Bytes) : Prop where
  honest : after.Honest
  capacity : after.capacity = source.capacity
  rest : after.rest = rest

theorem Leaves.faithful {after : BufferedSource} {rest : Bytes} (h : source.Leaves after rest)
    (hsource : source.Faithful) : after.Faithful :=
  ⟨h.capacity ▸ hsource.capacity, h.honest⟩

theorem Honest.read_of_append (h : source.Honest) {bytes rest : Bytes}
    (hrest : source.rest = bytes ++ rest) :
    ∃ after, source.read bytes.length = (.ok bytes, after) ∧ source.Leaves after rest := by
  -- the declared length does not stop the read
  have henough : source.remaining.filter (· < bytes.length) = none := by
    rw [Option.filter_eq_none_iff]
    intro left hleft
    rw [h left hleft, hrest, List.length_append]
    simp
  have hbytes : (source.gather bytes.length).1 = bytes := by
    rw [gather_fst, hrest, List.take_left]
  -- the bytes that were handed over and those that are left are all there were
  have hafter : (source.gather bytes.length).2.rest = rest := by
    have hall := rest_gather source bytes.length
    rw [hbytes, hrest] at hall
    exact List.append_cancel_left hall
  refine ⟨{ (source.gather bytes.length).2 with
    remaining := source.remaining.map (· - bytes.length)
    position := source.position + bytes.length }, ?_, ?_, capacity_gather source _, hafter⟩
  · simp only [read, henough, hbytes, if_true]
  · intro left hleft
    obtain ⟨all, hall, rfl⟩ := Option.map_eq_some_iff.1 hleft
    show all - bytes.length = (source.gather bytes.length).2.rest.length
    rw [hafter, h all hall, hrest, List.length_append]
    omega

theorem read_of_lt {n : Nat} (hn : source.rest.length < n) :
    ∃ failure after, source.read n = (.error failure, after) := by
  unfold read
  split
  · exact ⟨_, _, rfl⟩
  · -- there are not enough bytes to gather
    have hlength : (source.gather n).1.length ≠ n := by
      rw [gather_fst, List.length_take]
      omega
    simp only [if_neg hlength]
    exact ⟨_, _, rfl⟩

/-- The groups of a number that is there are collected. -/
theorem Honest.collect_of_some (h : source.Honest) {limit : Nat} {groups rest : Bytes}
    (hsplit : Varint.split? limit source.rest = some (groups, rest)) :
    ∃ after, source.collect limit = (.ok (), groups, after) ∧ source.Leaves after rest := by
  -- along the limit, reading a group at a time
  induction limit generalizing source groups with
  | zero => simp [Varint.split?] at hsplit
  | succ limit ih =>
    cases hrest : source.rest with
    | nil =>
      rw [hrest] at hsplit
      simp [Varint.split?] at hsplit
    | cons group tail =>
      rw [hrest, Varint.split?] at hsplit
      have hfirst : source.rest = [group] ++ tail := hrest
      obtain ⟨mid, hread, hmid⟩ := h.read_of_append hfirst
      have hread : source.read 1 = (.ok [group], mid) := hread
      split at hsplit
      · next hlast =>
        cases hsplit
        refine ⟨mid, ?_, hmid⟩
        simp [collect, hread, hlast]
      · -- there are more groups, which are those of what is left
        next hmore =>
        rw [← hmid.rest, Option.map_eq_some_iff] at hsplit
        obtain ⟨⟨groups', rest'⟩, hgroups, heq⟩ := hsplit
        cases heq
        obtain ⟨after, hcollect, hafter⟩ := ih hmid.honest hgroups
        refine ⟨after, ?_, hafter.honest, hafter.capacity.trans hmid.capacity, hafter.rest⟩
        simp [collect, hread, hmore, hcollect]

/-- Where there is no number, the source fails or collects too many groups. -/
theorem Honest.collect_of_none (h : source.Honest) {limit : Nat}
    (hsplit : Varint.split? limit source.rest = none) {groups : Bytes} {after : BufferedSource}
    (hcollect : source.collect limit = (.ok (), groups, after)) :
    Varint.split? limit groups = none := by
  -- along the limit: the groups collected so far go on, and what is left does not end them
  induction limit generalizing source groups after with
  | zero => rfl
  | succ limit ih =>
    cases hrest : source.rest with
    | nil =>
      obtain ⟨failure, mid, hread⟩ := read_of_lt (n := 1) (by rw [hrest]; simp)
      simp [collect, hread] at hcollect
    | cons group tail =>
      rw [hrest, Varint.split?] at hsplit
      have hfirst : source.rest = [group] ++ tail := hrest
      obtain ⟨mid, hread, hmid⟩ := h.read_of_append hfirst
      have hread : source.read 1 = (.ok [group], mid) := hread
      split at hsplit
      · cases hsplit
      · next hmore =>
        rw [← hmid.rest, Option.map_eq_none_iff] at hsplit
        rcases hmid' : mid.collect limit with ⟨result, more, last⟩
        simp only [collect, hread, List.any_cons, List.any_nil, Bool.or_false, decide_eq_true_eq,
          if_neg hmore, hmid', Prod.mk.injEq] at hcollect
        obtain ⟨rfl, rfl, rfl⟩ := hcollect
        rw [List.singleton_append, Varint.split?, if_neg hmore, ih hmid.honest hsplit hmid',
          Option.map_none]

end BufferedSource

/-! ## Any source -/

namespace ByteSource

/-- The source hands over the bytes that are left, all of them and nothing else. -/
def Faithful : ByteSource → Prop
  | .slice _ => True
  | .buffered source => source.Faithful
  | .unreadable _ => False

/-- The source hands over the bytes that are left to whoever asks for them, though it need not find
their end. -/
def Honest : ByteSource → Prop
  | .slice _ => True
  | .buffered source => source.Honest
  | .unreadable _ => False

variable {source : ByteSource}

theorem Faithful.honest (h : source.Faithful) : source.Honest := by
  cases source with
  | slice source => trivial
  | buffered source => exact BufferedSource.Faithful.honest h
  | unreadable failure => exact h.elim

theorem faithful_ofBytes (bytes : Bytes) : (ofBytes bytes).Faithful := trivial

theorem faithful_ofBuffered {capacity : Nat} (h : 1 ≤ capacity) (bytes : Bytes) :
    (ofBuffered capacity (some bytes.length) bytes).Faithful where
  capacity := h
  -- the length was declared as that of all the bytes
  declared left hleft := by
    cases hleft
    rfl

@[simp] theorem rest_ofBytes (bytes : Bytes) : (ofBytes bytes).rest = bytes := rfl

@[simp] theorem rest_ofBuffered (capacity : Nat) (length : Option Nat) (bytes : Bytes) :
    (ofBuffered capacity length bytes).rest = bytes := rfl

/-- The source has handed over all but `rest`, and is as good as it was. -/
structure Leaves (source after : ByteSource) (rest : Bytes) : Prop where
  honest : after.Honest
  faithful : source.Faithful → after.Faithful
  rest : after.rest = rest

/-- The bytes in front are handed over, and leave the others. -/
theorem Honest.read_of_append (h : source.Honest) {bytes rest : Bytes}
    (hrest : source.rest = bytes ++ rest) :
    ∃ after, source.read bytes.length = (.ok bytes, after) ∧ source.Leaves after rest := by
  cases source with
  | slice source =>
    refine ⟨.slice ⟨rest, source.position + bytes.length⟩, ?_, trivial, id, rfl⟩
    have hrest : source.rest = bytes ++ rest := hrest
    simp only [read, SliceSource.read, hrest, Bytes.split?_append]
  | buffered source =>
    obtain ⟨after, hread, hafter⟩ := BufferedSource.Honest.read_of_append h hrest
    exact ⟨.buffered after, by simp only [read, hread], hafter.honest, hafter.faithful,
      hafter.rest⟩
  | unreadable failure => exact h.elim

theorem read_of_append (h : source.Faithful) {bytes rest : Bytes}
    (hrest : source.rest = bytes ++ rest) :
    ∃ after, source.read bytes.length = (.ok bytes, after) ∧ after.Faithful ∧
      after.rest = rest := by
  obtain ⟨after, hread, hleaves⟩ := h.honest.read_of_append hrest
  exact ⟨after, hread, hleaves.faithful h, hleaves.rest⟩

/-- More bytes than are left are not handed over. -/
theorem Honest.read_of_lt (h : source.Honest) {n : Nat} (hn : source.rest.length < n) :
    ∃ failure after, source.read n = (.error failure, after) := by
  cases source with
  | slice source =>
    have hsplit : source.rest.split? n = none := Bytes.split?_eq_none.2 hn
    exact ⟨.short n source.rest.length, .slice source, by
      simp only [read, SliceSource.read, hsplit]⟩
  | buffered source =>
    obtain ⟨failure, after, hread⟩ := BufferedSource.read_of_lt hn
    exact ⟨failure, .buffered after, by simp only [read, hread]⟩
  | unreadable failure => exact h.elim

/-- A number in front is read, and leaves what follows its groups. -/
theorem Honest.readVarint_of_some (h : source.Honest) {n : Nat} {groups rest : Bytes}
    (hdecode : Varint.decode? source.rest = some (n, groups, rest)) :
    ∃ after, source.readVarint = (.ok n, groups, after) ∧ source.Leaves after rest := by
  cases source with
  | slice source =>
    refine ⟨.slice ⟨rest, source.position + groups.length⟩, ?_, trivial, id, rfl⟩
    have hdecode : Varint.decode? source.rest = some (n, groups, rest) := hdecode
    simp only [readVarint, SliceSource.readVarint, hdecode]
  | buffered source =>
    have hdecode : Varint.decode? source.rest = some (n, groups, rest) := hdecode
    obtain ⟨-, -, hvalue, hlt⟩ := Varint.decode?_eq_some hdecode
    -- the groups are collected first, and decoded by themselves then
    have hsplit : Varint.split? Varint.maxGroups source.rest = some (groups, rest) := by
      simp only [Varint.decode?, Option.bind_eq_bind, Option.bind_eq_some_iff, Prod.exists]
        at hdecode
      obtain ⟨groups', rest', hsplit, heq⟩ := hdecode
      split at heq
      · cases heq
        exact hsplit
      · cases heq
    obtain ⟨after, hcollect, hafter⟩ := BufferedSource.Honest.collect_of_some h hsplit
    have hagain : Varint.decode? groups = some (n, groups, []) := by
      simp only [Varint.decode?, Varint.split?_groups hsplit, Option.bind_eq_bind,
        Option.bind_some, ← hvalue, if_pos hlt, Option.pure_def]
    exact ⟨.buffered after, by
      simp only [readVarint, BufferedSource.readVarint, hcollect, hagain], hafter.honest,
      hafter.faithful, hafter.rest⟩
  | unreadable failure => exact h.elim

theorem readVarint_of_some (h : source.Faithful) {n : Nat} {groups rest : Bytes}
    (hdecode : Varint.decode? source.rest = some (n, groups, rest)) :
    ∃ after, source.readVarint = (.ok n, groups, after) ∧ after.Faithful ∧
      after.rest = rest := by
  obtain ⟨after, hread, hleaves⟩ := h.honest.readVarint_of_some hdecode
  exact ⟨after, hread, hleaves.faithful h, hleaves.rest⟩

/-- Where there is no number in front, none is read. -/
theorem Honest.readVarint_of_none (h : source.Honest)
    (hdecode : Varint.decode? source.rest = none) :
    ∃ failure groups after, source.readVarint = (.error failure, groups, after) := by
  cases source with
  | slice source =>
    have hdecode : Varint.decode? source.rest = none := hdecode
    simp only [readVarint, SliceSource.readVarint, hdecode]
    exact ⟨_, _, _, rfl⟩
  | buffered source =>
    have hdecode : Varint.decode? source.rest = none := hdecode
    rcases hcollect : source.collect Varint.maxGroups with ⟨failure | ⟨⟩, groups, after⟩
    · simp only [readVarint, BufferedSource.readVarint, hcollect]
      exact ⟨_, _, _, rfl⟩
    · -- the groups are those in front of the bytes, so they are no number either
      have hnone : Varint.decode? groups = none := by
        cases hsplit : Varint.split? Varint.maxGroups source.rest with
        | none =>
          simp only [Varint.decode?, BufferedSource.Honest.collect_of_none h hsplit hcollect,
            Option.bind_eq_bind, Option.bind_none]
        | some split =>
          obtain ⟨groups', rest⟩ := split
          obtain ⟨after', hcollect', -⟩ :=
            BufferedSource.Honest.collect_of_some h hsplit
          rw [hcollect] at hcollect'
          cases hcollect'
          simp only [Varint.decode?, hsplit, Option.bind_eq_bind, Option.bind_some] at hdecode
          simp only [Varint.decode?, Varint.split?_groups hsplit, Option.bind_eq_bind,
            Option.bind_some]
          split at hdecode
          · cases hdecode
          · next hle => exact if_neg hle
      simp only [readVarint, BufferedSource.readVarint, hcollect, hnone]
      exact ⟨_, _, _, rfl⟩
  | unreadable failure => exact h.elim

/-- A source is found exhausted when nothing is left, and loses nothing when that is looked up. -/
theorem isExhausted_eq (h : source.Faithful) :
    ∃ after, source.isExhausted = (.ok source.rest.isEmpty, after) ∧ after.Faithful ∧
      after.rest = source.rest := by
  have hrest := rest_isExhausted source
  cases source with
  | slice source => exact ⟨.slice source, rfl, trivial, rfl⟩
  | buffered source =>
    have hcapacity : 1 ≤ source.capacity := h.capacity
    refine ⟨.buffered source.fill, ?_, ⟨?_, ?_⟩, hrest⟩
    · simp only [isExhausted, rest, BufferedSource.rest, BufferedSource.fill]
      split
      · next hempty =>
        rw [List.isEmpty_iff.1 hempty, List.nil_append]
        -- the buffer is empty, and filling it finds a byte unless there is none
        cases source.unread with
        | nil => simp
        | cons byte unread =>
          obtain ⟨capacity, hsucc⟩ := Nat.exists_eq_add_of_le' hcapacity
          simp [hsucc]
      · next hfull =>
        cases hbuffer : source.buffer with
        | nil => simp [hbuffer] at hfull
        | cons byte buffer => simp
    · unfold BufferedSource.fill
      split
      · exact hcapacity
      · exact hcapacity
    · intro left hleft
      -- filling the buffer does not change what was declared
      have hremaining : source.fill.remaining = source.remaining := by
        unfold BufferedSource.fill
        split <;> rfl
      rw [hremaining] at hleft
      have hlength := h.declared left hleft
      have hfill : source.fill.rest = source.rest := hrest
      rw [hfill]
      exact hlength
  | unreadable failure => exact h.elim

/-! ## From the start -/

/-- A source at the start of some bytes: in memory, or behind a buffer that takes in at least
`least` of them, with the true length declared or none. -/
inductive Over (bytes : Bytes) (least : Nat) : ByteSource → Prop
  | slice : Over bytes least (ofBytes bytes)
  | buffered {capacity : Nat} {declared : Option Nat} (hcapacity : least ≤ capacity)
      (hdeclared : ∀ length, declared = some length → length = bytes.length) :
      Over bytes least (ofBuffered capacity declared bytes)

namespace Over

variable {bytes : Bytes} {least : Nat}

theorem rest (h : source.Over bytes least) : source.rest = bytes := by
  cases h with
  | slice => rfl
  | buffered => rfl

theorem position (h : source.Over bytes least) : source.position = 0 := by
  cases h with
  | slice => rfl
  | buffered => rfl

theorem honest (h : source.Over bytes least) : source.Honest := by
  cases h with
  | slice => trivial
  | buffered _ hdeclared => exact hdeclared

/-- A buffer of a byte is enough to find the end. -/
theorem faithful (h : source.Over bytes 1) : source.Faithful := by
  cases h with
  | slice => trivial
  | buffered hcapacity hdeclared => exact ⟨hcapacity, hdeclared⟩

end Over

end ByteSource

end PartitionSnapshot
