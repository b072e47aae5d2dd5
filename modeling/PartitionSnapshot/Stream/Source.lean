import PartitionSnapshot.Failure
import PartitionSnapshot.Stream.Varint

/-!
# Byte sources

A file is consumed front to back, either from its bytes in memory or through a read buffer. The two
differ in how they see the end: a source in memory knows what is left, a buffered one finds its
buffer empty after a refill, and knows what is left only when the length was declared.

The main statements say that a successful reading moves the source forward by exactly the bytes it
hands over.
-/

namespace PartitionSnapshot

/-! ## Sources in memory -/

/-- A source over bytes in memory. -/
structure SliceSource where
  /-- The bytes that are left. -/
  rest : Bytes
  /-- The number of bytes consumed. -/
  position : Nat
  deriving DecidableEq, Repr

namespace SliceSource

/-- Takes exactly `n` bytes; with fewer left, takes none. -/
def read (source : SliceSource) (n : Nat) : Except Failure Bytes × SliceSource :=
  match source.rest.split? n with
  | some (front, rest) => (.ok front, ⟨rest, source.position + n⟩)
  | none => (.error (.short n source.rest.length), source)

/-- Takes a variable-length number, and gives the bytes that were looked at beside it; a malformed
one is not consumed. -/
def readVarint (source : SliceSource) : Except Failure Nat × Bytes × SliceSource :=
  match Varint.decode? source.rest with
  | some (n, groups, rest) => (.ok n, groups, ⟨rest, source.position + groups.length⟩)
  | none =>
    let atEnd := source.rest.length < Varint.maxGroups && source.rest.all (0x80 ≤ ·)
    (.error (.badVarint atEnd), [], source)

end SliceSource

/-! ## Buffered sources -/

/-- A source that reads through a buffer. -/
structure BufferedSource where
  /-- The most bytes that a refill fetches. -/
  capacity : Nat
  /-- Bytes that were fetched and not handed over yet. -/
  buffer : Bytes
  /-- Bytes that were not fetched yet. -/
  unread : Bytes
  /-- How many bytes are left, when the length was declared. -/
  remaining : Option Nat
  /-- The number of bytes handed over. -/
  position : Nat
  deriving DecidableEq, Repr

namespace BufferedSource

/-- The bytes that are left. -/
def rest (source : BufferedSource) : Bytes := source.buffer ++ source.unread

/-- Refills an empty buffer. -/
def fill (source : BufferedSource) : BufferedSource :=
  if source.buffer.isEmpty then
    { source with
      buffer := source.unread.take source.capacity
      unread := source.unread.drop source.capacity }
  else source

/-- Takes as many of the next `n` bytes as there are: first what the buffer holds, and the others
straight from the file when they are a bufferful or more, or else after a refill. -/
def gather (source : BufferedSource) (n : Nat) : Bytes × BufferedSource :=
  let front := source.buffer.take n
  let missing := n - front.length
  if missing = 0 then (front, { source with buffer := source.buffer.drop n })
  else if source.capacity ≤ missing then
    (front ++ source.unread.take missing,
      { source with buffer := [], unread := source.unread.drop missing })
  else
    let filled := source.unread.take source.capacity
    (front ++ filled.take missing,
      { source with buffer := filled.drop missing, unread := source.unread.drop source.capacity })

/-- Takes exactly `n` bytes. A declared length that is too short is found before anything is taken;
data that end before it are consumed to their end. -/
def read (source : BufferedSource) (n : Nat) : Except Failure Bytes × BufferedSource :=
  match source.remaining.filter (· < n) with
  | some left => (.error (.short n left), source)
  | none =>
    let (bytes, after) := source.gather n
    if bytes.length = n then
      (.ok bytes, { after with
        remaining := source.remaining.map (· - n)
        position := source.position + n })
    else (.error .unfilled, after)

/-- Takes at most `limit` bytes, one by one, up to and with the first one below `0x80`, and gives
those that were taken. -/
def collect (source : BufferedSource) :
    (limit : Nat) → Except Failure Unit × Bytes × BufferedSource
  | 0 => (.ok (), [], source)
  | limit + 1 =>
    match source.read 1 with
    | (.error failure, after) => (.error failure, [], after)
    | (.ok bytes, after) =>
      if bytes.any (· < 0x80) then (.ok (), bytes, after)
      else
        let (result, more, after) := after.collect limit
        (result, bytes ++ more, after)

/-- Takes a variable-length number, and gives the bytes that were looked at beside it; they are
consumed also when they are no number. -/
def readVarint (source : BufferedSource) : Except Failure Nat × Bytes × BufferedSource :=
  match source.collect Varint.maxGroups with
  | (.error failure, groups, after) => (.error failure, groups, after)
  | (.ok (), groups, after) =>
    match Varint.decode? groups with
    | some (n, _, _) => (.ok n, groups, after)
    | none => (.error (.badVarint false), groups, after)

theorem rest_gather (source : BufferedSource) (n : Nat) :
    (source.gather n).1 ++ (source.gather n).2.rest = source.rest := by
  unfold gather rest
  simp only
  split
  · next h =>
    simp only [← List.append_assoc, List.take_append_drop]
  · next h =>
    have hall : source.buffer.take n = source.buffer := by
      apply List.take_of_length_le
      rw [List.length_take] at h
      omega
    split
    · simp [hall, List.append_assoc]
    · rw [hall, List.append_assoc, ← List.append_assoc (List.take _ (List.take _ _)),
        List.take_append_drop, List.take_append_drop]

theorem length_rest_read {source after : BufferedSource} {n : Nat} {bytes : Bytes}
    (h : source.read n = (.ok bytes, after)) :
    bytes.length = n ∧ source.rest = bytes ++ after.rest := by
  unfold read at h
  split at h
  · cases h
  · have hrest := rest_gather source n
    rcases hgather : source.gather n with ⟨front, mid⟩
    rw [hgather] at hrest
    simp only [hgather] at h
    split at h
    · next hlen =>
      cases h
      exact ⟨hlen, hrest.symm⟩
    · cases h

theorem rest_collect {source : BufferedSource} {limit : Nat} {groups : Bytes}
    {after : BufferedSource} (h : source.collect limit = (.ok (), groups, after)) :
    source.rest = groups ++ after.rest := by
  induction limit generalizing source groups after with
  | zero =>
    simp only [collect, Prod.mk.injEq] at h
    obtain ⟨-, rfl, rfl⟩ := h
    rfl
  | succ limit ih =>
    simp only [collect] at h
    split at h
    · simp at h
    · next bytes mid hread =>
      have hmid := (length_rest_read hread).2
      split at h
      · simp only [Prod.mk.injEq, true_and] at h
        obtain ⟨rfl, rfl⟩ := h
        exact hmid
      · simp only [Prod.mk.injEq] at h
        obtain ⟨hok, rfl, rfl⟩ := h
        have hmore : mid.collect limit =
            (.ok (), (mid.collect limit).2.1, (mid.collect limit).2.2) := Prod.ext hok rfl
        rw [hmid, ih hmore, List.append_assoc]

end BufferedSource

/-! ## Any source -/

/-- A source of bytes that is consumed front to back. -/
inductive ByteSource where
  | slice (source : SliceSource)
  | buffered (source : BufferedSource)
  /-- Something that can be opened and not read, such as a directory. -/
  | unreadable (failure : Failure)
  deriving DecidableEq, Repr

namespace ByteSource

/-- A source over bytes in memory. -/
def ofBytes (bytes : Bytes) : ByteSource := .slice ⟨bytes, 0⟩

/-- A source that reads the bytes through a buffer of the given capacity, with or without their
length declared. -/
def ofBuffered (capacity : Nat) (length : Option Nat) (bytes : Bytes) : ByteSource :=
  .buffered ⟨capacity, [], bytes, length, 0⟩

/-- The bytes that are left. -/
def rest : ByteSource → Bytes
  | .slice source => source.rest
  | .buffered source => source.rest
  | .unreadable _ => []

/-- The number of bytes consumed. -/
def position : ByteSource → Nat
  | .slice source => source.position
  | .buffered source => source.position
  | .unreadable _ => 0

/-- Whether no bytes are left. A buffered source refills an empty buffer to find out. -/
def isExhausted : ByteSource → Except Failure Bool × ByteSource
  | .slice source => (.ok source.rest.isEmpty, .slice source)
  | .buffered source =>
    let filled := source.fill
    (.ok filled.buffer.isEmpty, .buffered filled)
  | .unreadable failure => (.error failure, .unreadable failure)

/-- Takes exactly `n` bytes. -/
def read (n : Nat) : ByteSource → Except Failure Bytes × ByteSource
  | .slice source =>
    let (result, after) := source.read n
    (result, .slice after)
  | .buffered source =>
    let (result, after) := source.read n
    (result, .buffered after)
  | .unreadable failure => (.error failure, .unreadable failure)

/-- Takes a variable-length number, and gives the bytes of its groups beside it. -/
def readVarint : ByteSource → Except Failure Nat × Bytes × ByteSource
  | .slice source =>
    let (result, groups, after) := source.readVarint
    (result, groups, .slice after)
  | .buffered source =>
    let (result, groups, after) := source.readVarint
    (result, groups, .buffered after)
  | .unreadable failure => (.error failure, [], .unreadable failure)

/-! ## What a reading leaves -/

theorem rest_isExhausted (source : ByteSource) : source.isExhausted.2.rest = source.rest := by
  cases source with
  | slice source => rfl
  | unreadable failure => rfl
  | buffered source =>
    simp only [isExhausted, rest, BufferedSource.rest, BufferedSource.fill]
    split
    · next h => simp [List.isEmpty_iff.1 h]
    · rfl

/-- A successful reading hands over the next `n` bytes and leaves the others. -/
theorem rest_read {source after : ByteSource} {n : Nat} {bytes : Bytes}
    (h : source.read n = (.ok bytes, after)) :
    bytes.length = n ∧ source.rest = bytes ++ after.rest := by
  cases source with
  | slice source =>
    simp only [read, SliceSource.read] at h
    split at h
    · next front rest hsplit =>
      simp only [Prod.mk.injEq, Except.ok.injEq] at h
      obtain ⟨rfl, rfl⟩ := h
      exact Bytes.split?_eq_some.1 hsplit
    · simp at h
  | buffered source =>
    simp only [read, Prod.mk.injEq] at h
    obtain ⟨hok, rfl⟩ := h
    exact BufferedSource.length_rest_read (Prod.ext hok rfl)
  | unreadable failure => simp [read] at h

/-- A successful reading of a number consumes its groups and leaves the others. -/
theorem rest_readVarint {source after : ByteSource} {n : Nat} {groups : Bytes}
    (h : source.readVarint = (.ok n, groups, after)) :
    0 < groups.length ∧ source.rest = groups ++ after.rest := by
  cases source with
  | slice source =>
    simp only [readVarint, SliceSource.readVarint] at h
    split at h
    · next hdecode =>
      simp only [Prod.mk.injEq] at h
      obtain ⟨-, rfl, rfl⟩ := h
      exact ⟨(Varint.decode?_eq_some hdecode).2.1, (Varint.decode?_eq_some hdecode).1⟩
    · simp at h
  | buffered source =>
    simp only [readVarint, BufferedSource.readVarint] at h
    rcases hcollect : source.collect Varint.maxGroups with ⟨failure | ⟨⟩, looked, mid⟩
    · simp [hcollect] at h
    · simp only [hcollect] at h
      split at h
      · next hdecode =>
        cases h
        obtain ⟨hgroups, hpos, -⟩ := Varint.decode?_eq_some hdecode
        refine ⟨?_, BufferedSource.rest_collect hcollect⟩
        simp only [hgroups, List.length_append]
        omega
      · cases h
  | unreadable failure => simp [readVarint] at h

end ByteSource

end PartitionSnapshot
