import PartitionSnapshot.Proofs.Forms

/-!
# Sources simulate each other

A source is called upon to find the end, to hand over some bytes, or to read a number. One over
bytes in memory and one that reads the same bytes through a buffer, however small, are told apart by
none of these calls, as long as every number that is asked for can be read: what they answer is
decided by the bytes and by the position, and so is the kind of a failure.

Bytes of which too few are left are refused by both, and neither moves. Only a number that cannot be
read sets them apart: the one in memory stays where it is, and the other one has taken what it
looked at. Even then both hand over the bytes from their own position on, and a source that was told
the length knows how many these are.

## Main statements

* `ByteSource.Measured.isExhausted`, `ByteSource.Measured.read`, `ByteSource.Measured.readVarint`:
  no call gets a source out of step.
* `ByteSource.Measured.answers`: what the calls come to.
* `ByteSource.Measured.observed_eq`: sources at one position are not told apart.
* `ByteSource.sources_simulate`: sources over the same bytes.
-/

namespace PartitionSnapshot

open Varint (IsForm)

/-! ## Buffered sources that were told the length -/

namespace BufferedSource

theorem remaining_gather (source : BufferedSource) (n : Nat) :
    (source.gather n).2.remaining = source.remaining := by
  unfold gather
  dsimp only
  split
  · rfl
  · split <;> rfl

theorem isSome_remaining_read (source : BufferedSource) (n : Nat) :
    (source.read n).2.remaining.isSome = source.remaining.isSome := by
  unfold read
  split
  · rfl
  · dsimp only
    split
    · rw [Option.isSome_map]
    · rw [remaining_gather]

end BufferedSource

/-! ## Positions -/

namespace ByteSource

variable {bytes : Bytes} {source after : ByteSource}

/-- The source has handed over as many of the bytes as its position says, and has the others left.
-/
structure At (bytes : Bytes) (source : ByteSource) : Prop where
  within : source.position ≤ bytes.length
  rest : source.rest = bytes.drop source.position

theorem At.length_rest (h : At bytes source) :
    source.rest.length = bytes.length - source.position := by
  rw [h.rest, List.length_drop]

/-- Bytes that are taken off the front move the position behind them. -/
theorem At.moved (h : At bytes source) {front : Bytes} (hrest : source.rest = front ++ after.rest)
    (hposition : after.position = source.position + front.length) : At bytes after := by
  have hleft : bytes.drop source.position = front ++ after.rest := h.rest.symm.trans hrest
  have hlength := congrArg List.length hleft
  rw [List.length_drop, List.length_append] at hlength
  have hwithin := h.within
  refine ⟨by omega, ?_⟩
  rw [hposition, ← List.drop_drop, hleft, List.drop_left]

/-- What is taken off the front comes behind what was consumed before. -/
theorem At.take_moved (h : At bytes source) {front rest : Bytes}
    (hrest : source.rest = front ++ rest) :
    bytes.take (source.position + front.length) = bytes.take source.position ++ front := by
  rw [List.take_add, ← h.rest, hrest, List.take_left]

theorem At.isExhausted (h : At bytes source) : At bytes source.isExhausted.2 := by
  have hrest : source.rest = [] ++ source.isExhausted.2.rest := (rest_isExhausted source).symm
  exact h.moved hrest (position_isExhausted source)

theorem At.read (h : At bytes source) {n : Nat} {taken : Bytes}
    (hread : source.read n = (.ok taken, after)) : At bytes after := by
  obtain ⟨hlength, hrest⟩ := rest_read hread
  exact h.moved hrest (by rw [position_read hread, hlength])

theorem At.readVarint (h : At bytes source) {n : Nat} {groups : Bytes}
    (hread : source.readVarint = (.ok n, groups, after)) : At bytes after :=
  h.moved (rest_readVarint hread).2 (position_readVarint hread)

theorem at_ofBytes (bytes : Bytes) : At bytes (ofBytes bytes) := ⟨Nat.zero_le _, rfl⟩

theorem at_ofBuffered (capacity : Nat) (length : Option Nat) (bytes : Bytes) :
    At bytes (ofBuffered capacity length bytes) := ⟨Nat.zero_le _, rfl⟩

/-! ## Sources that are in step with the bytes -/

/-- A buffered source was told how many bytes there are. -/
def Told : ByteSource → Prop
  | .buffered source => source.remaining.isSome = true
  | _ => True

/-- The source hands over the bytes from its position on and finds their end, and if it is a
buffered one, it was told how many there are. -/
structure Measured (bytes : Bytes) (source : ByteSource) : Prop where
  faithful : source.Faithful
  stands : At bytes source
  told : source.Told

theorem measured_ofBytes (bytes : Bytes) : Measured bytes (ofBytes bytes) :=
  ⟨faithful_ofBytes bytes, at_ofBytes bytes, trivial⟩

theorem measured_ofBuffered {capacity : Nat} (h : 1 ≤ capacity) (bytes : Bytes) :
    Measured bytes (ofBuffered capacity (some bytes.length) bytes) :=
  ⟨faithful_ofBuffered h bytes, at_ofBuffered _ _ bytes, rfl⟩

/-- What a buffered source takes to be left is what is left behind its position. -/
theorem Measured.remaining_eq {buffered : BufferedSource}
    (h : Measured bytes (.buffered buffered)) :
    ∃ left, buffered.remaining = some left ∧ buffered.position + left = bytes.length := by
  obtain ⟨left, hleft⟩ := Option.isSome_iff_exists.1 h.told
  have hdeclared : left = buffered.rest.length := h.faithful.declared left hleft
  have hrest : buffered.rest.length = bytes.length - buffered.position := h.stands.length_rest
  have hwithin : buffered.position ≤ bytes.length := h.stands.within
  exact ⟨left, hleft, by omega⟩

namespace Measured

/-! ## Single calls -/

theorem isExhausted_eq (h : Measured bytes source) :
    source.isExhausted = (.ok source.rest.isEmpty, source.isExhausted.2) := by
  obtain ⟨after, hexhausted, -⟩ := ByteSource.isExhausted_eq h.faithful
  rw [hexhausted]

theorem isExhausted (h : Measured bytes source) : Measured bytes source.isExhausted.2 := by
  obtain ⟨after, hexhausted, hfaithful, -⟩ := ByteSource.isExhausted_eq h.faithful
  refine ⟨hexhausted ▸ hfaithful, h.stands.isExhausted, ?_⟩
  cases source with
  | slice source => trivial
  | buffered source =>
    -- a refill does not touch what the source was told
    show source.fill.remaining.isSome = true
    unfold BufferedSource.fill
    split
    · exact h.told
    · exact h.told
  | unreadable failure => trivial

/-- Bytes that are left are handed over. -/
theorem read_of_le (h : Measured bytes source) {n : Nat} (hn : n ≤ source.rest.length) :
    ∃ after, source.read n = (.ok (source.rest.take n), after) ∧ after.Faithful := by
  obtain ⟨after, hread, hafter, -⟩ :=
    read_of_append h.faithful (List.take_append_drop n source.rest).symm
  rw [List.length_take_of_le hn] at hread
  exact ⟨after, hread, hafter⟩

/-- More than is left is refused, and the source stays as it is. -/
theorem read_of_lt (h : Measured bytes source) {n : Nat} (hn : source.rest.length < n) :
    source.read n = (.error (.short n source.rest.length), source) := by
  cases source with
  | slice source =>
    have hsplit : source.rest.split? n = none := Bytes.split?_eq_none.2 hn
    simp only [ByteSource.read, SliceSource.read, hsplit]
    rfl
  | buffered source =>
    obtain ⟨left, hleft⟩ := Option.isSome_iff_exists.1 h.told
    have hdeclared : left = source.rest.length := h.faithful.declared left hleft
    -- the declared length is asked before anything is taken
    have hshort : source.remaining.filter (· < n) = some source.rest.length := by
      rw [hleft, hdeclared]
      exact Option.filter_some_pos (decide_eq_true hn)
    simp only [ByteSource.read, BufferedSource.read, hshort]
    rfl
  | unreadable failure => exact h.faithful.elim

theorem read (h : Measured bytes source) (n : Nat) : Measured bytes (source.read n).2 := by
  by_cases hn : n ≤ source.rest.length
  · obtain ⟨after, hread, hfaithful⟩ := h.read_of_le hn
    refine ⟨hread ▸ hfaithful, hread ▸ h.stands.read hread, ?_⟩
    cases source with
    | slice source => trivial
    | buffered source => exact (source.isSome_remaining_read n).trans h.told
    | unreadable failure => trivial
  · rw [h.read_of_lt (Nat.lt_of_not_le hn)]
    exact h

/-- Groups are collected by reading one byte after the other. -/
theorem collect {buffered : BufferedSource} (h : Measured bytes (.buffered buffered))
    (limit : Nat) : Measured bytes (.buffered (buffered.collect limit).2.2) := by
  induction limit generalizing buffered with
  | zero => exact h
  | succ limit ih =>
    have hmid : Measured bytes (.buffered (buffered.read 1).2) := h.read 1
    unfold BufferedSource.collect
    split
    · next hread => rwa [hread] at hmid
    · next hread =>
      rw [hread] at hmid
      split
      · exact hmid
      · exact ih hmid

theorem readVarint (h : Measured bytes source) : Measured bytes source.readVarint.2.2 := by
  cases source with
  | slice source =>
    simp only [ByteSource.readVarint, SliceSource.readVarint]
    split
    · next n groups rest hdecode =>
      have hread : (ByteSource.slice source).readVarint =
          (.ok n, groups, .slice ⟨rest, source.position + groups.length⟩) := by
        simp only [ByteSource.readVarint, SliceSource.readVarint, hdecode]
      exact ⟨trivial, h.stands.readVarint hread, trivial⟩
    · exact h
  | buffered source =>
    -- whatever the groups say, they were collected
    have hcollect := h.collect Varint.maxGroups
    simp only [ByteSource.readVarint, BufferedSource.readVarint]
    split
    · next hgroups => rwa [hgroups] at hcollect
    · next hgroups =>
      rw [hgroups] at hcollect
      split
      · exact hcollect
      · exact hcollect
  | unreadable failure => exact h.faithful.elim

/-- A number is read where one stands. -/
theorem readVarint_of_isForm (h : Measured bytes source) {groups : Bytes} (hform : IsForm groups)
    (hfront : groups <+: source.rest) :
    ∃ after, source.readVarint = (.ok (Varint.value groups), groups, after) := by
  obtain ⟨rest, hrest⟩ := hfront
  have hdecode := Varint.decode?_eq_some_iff.2 ⟨hform, rfl, hrest.symm⟩
  obtain ⟨after, hread, -⟩ := readVarint_of_some h.faithful hdecode
  exact ⟨after, hread⟩

/-- Where no number stands, the data end inside one or they are malformed, and that depends on how
many bytes are left. -/
theorem readVarint_of_not_isForm (h : Measured bytes source)
    (hnone : ∀ groups, IsForm groups → ¬ groups <+: source.rest) :
    ∃ failure looked after, source.readVarint = (.error failure, looked, after) ∧
      failure.classify =
        if source.rest.length < Varint.maxGroups then .endOfData else .invalidData := by
  have hdecode := Varint.decode?_eq_none_iff.2 hnone
  obtain ⟨failure, looked, after, hread⟩ := h.faithful.honest.readVarint_of_none hdecode
  refine ⟨failure, looked, after, hread, ?_⟩
  rcases h.faithful.honest.classify_readVarint hread with ⟨hcut, hclass⟩ | ⟨hcut, rfl⟩
  · rw [Varint.isCut, Bool.and_eq_true, decide_eq_true_eq] at hcut
    rw [hclass, if_pos hcut.1]
  · rw [if_neg]
    · rfl
    · intro hfew
      rw [Varint.isCut_of_decode?_eq_none hdecode hfew] at hcut
      cases hcut

end Measured

/-! ## What calls come to -/

/-- What calls to a source come to, said by the bytes it is over and its position in them. -/
structure Answers (bytes : Bytes) (source : ByteSource) : Prop where
  within : source.position ≤ bytes.length
  exhausted : source.isExhausted.1 = .ok (decide (source.position = bytes.length))
  /-- Bytes that are left are handed over. -/
  read : ∀ n, source.position + n ≤ bytes.length → ∃ after,
    source.read n = (.ok ((bytes.drop source.position).take n), after) ∧
      after.position = source.position + n
  /-- More than that is refused, and then nothing changes. -/
  short : ∀ n, bytes.length < source.position + n → ∃ failure,
    source.read n = (.error failure, source) ∧ failure.classify = .endOfData
  /-- A number is read where one of its forms stands. -/
  number : ∀ groups, IsForm groups → groups <+: bytes.drop source.position → ∃ after,
    source.readVarint = (.ok (Varint.value groups), groups, after) ∧
      after.position = source.position + groups.length
  /-- Elsewhere none is read. -/
  noNumber : (∀ groups, IsForm groups → ¬ groups <+: bytes.drop source.position) →
    ∃ failure looked after, source.readVarint = (.error failure, looked, after) ∧
      failure.classify =
        if bytes.length - source.position < 10 then .endOfData else .invalidData

theorem Measured.answers (h : Measured bytes source) : Answers bytes source := by
  have hwithin := h.stands.within
  have hlength := h.stands.length_rest
  refine ⟨hwithin, ?_, fun n hn => ?_, fun n hn => ?_, fun groups hform hfront => ?_,
    fun hnone => ?_⟩
  · have hempty : source.rest.isEmpty = decide (source.position = bytes.length) := by
      rw [Bool.eq_iff_iff, List.isEmpty_iff_length_eq_zero, hlength, decide_eq_true_eq]
      omega
    rw [h.isExhausted_eq, hempty]
  · obtain ⟨after, hread, -⟩ := h.read_of_le (show n ≤ source.rest.length by omega)
    rw [h.stands.rest] at hread
    exact ⟨after, hread, position_read hread⟩
  · exact ⟨_, h.read_of_lt (show source.rest.length < n by omega), rfl⟩
  · obtain ⟨after, hread⟩ := h.readVarint_of_isForm hform (h.stands.rest ▸ hfront)
    exact ⟨after, hread, position_readVarint hread⟩
  · rw [← h.stands.rest] at hnone
    have hfails := h.readVarint_of_not_isForm hnone
    rwa [hlength] at hfails

/-! ## Calls one after the other -/

/-- A call to a source. -/
inductive Call where
  | isExhausted
  | read (n : Nat)
  | readVarint
  deriving DecidableEq, Repr

/-- What a call hands over when it goes through. -/
inductive Answer where
  | exhausted (atEnd : Bool)
  | bytes (taken : Bytes)
  /-- A number, with its groups. -/
  | number (n : Nat) (groups : Bytes)
  deriving DecidableEq, Repr

/-- How a call ends, and the source then. -/
def perform (source : ByteSource) : Call → Except Failure Answer × ByteSource
  | .isExhausted => (source.isExhausted.1.map .exhausted, source.isExhausted.2)
  | .read n => ((source.read n).1.map .bytes, (source.read n).2)
  | .readVarint =>
    (source.readVarint.1.map fun n => .number n source.readVarint.2.1, source.readVarint.2.2)

/-- The source after calls, one after the other. -/
def performAll (source : ByteSource) (calls : List Call) : ByteSource :=
  calls.foldl (fun source call => (source.perform call).2) source

/-- What calls show to the one who makes them, one after the other: each time the answer or the kind
of the failure, and the position behind it. With a number that cannot be read it is over, and its
position is not shown. -/
def observed (source : ByteSource) :
    List Call → List (Except Failure.Class Answer × Option Nat)
  | [] => []
  | call :: calls =>
    match source.perform call with
    | (.ok answer, after) => (.ok answer, some after.position) :: after.observed calls
    | (.error failure, after) =>
      if call = .readVarint then [(.error failure.classify, none)]
      else (.error failure.classify, some after.position) :: after.observed calls

/-- A buffered source stays one. -/
theorem performAll_buffered (source : BufferedSource) (calls : List Call) :
    ∃ after, (ByteSource.buffered source).performAll calls = .buffered after := by
  induction calls generalizing source with
  | nil => exact ⟨source, rfl⟩
  | cons call calls ih =>
    have hnext : ∃ next, ((ByteSource.buffered source).perform call).2 = .buffered next := by
      cases call <;> exact ⟨_, rfl⟩
    obtain ⟨next, hnext⟩ := hnext
    rw [performAll, List.foldl_cons, hnext]
    exact ih next

theorem observed_cons_ok {call : Call} {answer : Answer}
    (h : source.perform call = (.ok answer, after)) (calls : List Call) :
    source.observed (call :: calls) =
      (.ok answer, some after.position) :: after.observed calls := by
  rw [observed, h]

theorem observed_cons_error {call : Call} {failure : Failure}
    (h : source.perform call = (.error failure, after)) (calls : List Call) :
    source.observed (call :: calls) =
      if call = .readVarint then [(.error failure.classify, none)]
      else (.error failure.classify, some after.position) :: after.observed calls := by
  rw [observed, h]

namespace Measured

theorem perform (h : Measured bytes source) (call : Call) :
    Measured bytes (source.perform call).2 := by
  cases call with
  | isExhausted => exact h.isExhausted
  | read n => exact h.read n
  | readVarint => exact h.readVarint

theorem performAll (h : Measured bytes source) (calls : List Call) :
    Measured bytes (source.performAll calls) := by
  induction calls generalizing source with
  | nil => exact h
  | cons call calls ih => exact ih (h.perform call)

/-- A call to two sources at one position goes through for both or for neither: it has the same
answer and leaves them at one position, or it fails in the same way, and unless it was for a number,
it leaves them as they were. -/
theorem perform_agrees {source' : ByteSource} (h : Measured bytes source)
    (h' : Measured bytes source') (hposition : source.position = source'.position) (call : Call) :
    (∃ answer after after', source.perform call = (.ok answer, after) ∧
      source'.perform call = (.ok answer, after') ∧ after.position = after'.position) ∨
    ∃ failure failure' after after', source.perform call = (.error failure, after) ∧
      source'.perform call = (.error failure', after') ∧ failure.classify = failure'.classify ∧
      (call ≠ .readVarint → after = source ∧ after' = source') := by
  have hanswers := h.answers
  have hanswers' := h'.answers
  cases call with
  | isExhausted =>
    refine .inl ⟨_, _, _, by rw [ByteSource.perform, hanswers.exhausted]; rfl,
      by rw [ByteSource.perform, hanswers'.exhausted, ← hposition]; rfl, ?_⟩
    rw [position_isExhausted, position_isExhausted, hposition]
  | read n =>
    by_cases hn : source.position + n ≤ bytes.length
    · obtain ⟨after, hread, hmoved⟩ := hanswers.read n hn
      obtain ⟨after', hread', hmoved'⟩ := hanswers'.read n (hposition ▸ hn)
      rw [← hposition] at hread' hmoved'
      exact .inl ⟨_, after, after', by rw [ByteSource.perform, hread]; rfl,
        by rw [ByteSource.perform, hread']; rfl, hmoved.trans hmoved'.symm⟩
    · have hshort := Nat.lt_of_not_le hn
      obtain ⟨failure, hread, hclass⟩ := hanswers.short n hshort
      obtain ⟨failure', hread', hclass'⟩ := hanswers'.short n (hposition ▸ hshort)
      exact .inr ⟨failure, failure', source, source', by rw [ByteSource.perform, hread]; rfl,
        by rw [ByteSource.perform, hread']; rfl, hclass.trans hclass'.symm, fun _ => ⟨rfl, rfl⟩⟩
  | readVarint =>
    by_cases hform : ∃ groups, IsForm groups ∧ groups <+: bytes.drop source.position
    · obtain ⟨groups, hform, hfront⟩ := hform
      obtain ⟨after, hread, hmoved⟩ := hanswers.number groups hform hfront
      obtain ⟨after', hread', hmoved'⟩ := hanswers'.number groups hform (hposition ▸ hfront)
      rw [← hposition] at hmoved'
      exact .inl ⟨_, after, after', by rw [ByteSource.perform, hread]; rfl,
        by rw [ByteSource.perform, hread']; rfl, hmoved.trans hmoved'.symm⟩
    · have hnone : ∀ groups, IsForm groups → ¬ groups <+: bytes.drop source.position :=
        fun groups hgroups hfront => hform ⟨groups, hgroups, hfront⟩
      obtain ⟨failure, looked, after, hread, hclass⟩ := hanswers.noNumber hnone
      obtain ⟨failure', looked', after', hread', hclass'⟩ :=
        hanswers'.noNumber (hposition ▸ hnone)
      rw [← hposition] at hclass'
      exact .inr ⟨failure, failure', after, after', by rw [ByteSource.perform, hread]; rfl,
        by rw [ByteSource.perform, hread']; rfl, hclass.trans hclass'.symm,
        fun hcall => absurd rfl hcall⟩

/-- **Sources over the same bytes and at the same position are not told apart.** -/
theorem observed_eq {source' : ByteSource} (h : Measured bytes source)
    (h' : Measured bytes source') (hposition : source.position = source'.position)
    (calls : List Call) : source.observed calls = source'.observed calls := by
  -- along the calls; what each shows is said by the bytes and the position
  induction calls generalizing source source' with
  | nil => rfl
  | cons call calls ih =>
    have hafter := h.perform call
    have hafter' := h'.perform call
    rcases h.perform_agrees h' hposition call with
      ⟨answer, after, after', hperform, hperform', hsame⟩ |
      ⟨failure, failure', after, after', hperform, hperform', hclass, hstays⟩
    · rw [hperform] at hafter
      rw [hperform'] at hafter'
      rw [observed_cons_ok hperform, observed_cons_ok hperform', ih hafter hafter' hsame, hsame]
    · rw [observed_cons_error hperform, observed_cons_error hperform', hclass]
      by_cases hcall : call = .readVarint
      · rw [if_pos hcall, if_pos hcall]
      · obtain ⟨rfl, rfl⟩ := hstays hcall
        rw [if_neg hcall, if_neg hcall, ih h h' hposition, hposition]

end Measured

/-! ## Reading in range -/

namespace Answers

/-- No more is handed over than is left. -/
theorem le_length_of_read (h : Answers bytes source) {n : Nat} {taken : Bytes}
    (hread : source.read n = (.ok taken, after)) : source.position + n ≤ bytes.length := by
  by_contra hn
  obtain ⟨failure, hshort, -⟩ := h.short n (Nat.lt_of_not_le hn)
  rw [hshort] at hread
  cases hread

/-- The shortest form of a 64-bit number is read as that number, and nothing else is consumed. -/
theorem readVarint_encode (h : Answers bytes source) (v : UInt64)
    (hfront : Varint.encode v.toNat <+: bytes.drop source.position) : ∃ after,
    source.readVarint = (.ok v.toNat, Varint.encode v.toNat, after) ∧
      after.position = source.position + (Varint.encode v.toNat).length := by
  have hread := h.number _ (Varint.isForm_encode v.toNat_lt) hfront
  rwa [Varint.value_encode] at hread

end Answers

/-- **Sources over the same bytes simulate each other.** One in memory and one with a buffer of any
size, which was told the length, show the same along all calls, as long as every number that is
asked for can be read. Throughout, what a call comes to is said by the bytes and the position,
nothing out of range is taken, and the buffered one knows how much is left. The form in which a
number is written is read as that number, wherever it stands. -/
theorem sources_simulate (bytes : Bytes) {capacity : Nat} (hcapacity : 1 ≤ capacity)
    (calls : List Call) :
    (ofBuffered capacity (some bytes.length) bytes).observed calls =
      (ofBytes bytes).observed calls ∧
    (∃ buffered left,
      (ofBuffered capacity (some bytes.length) bytes).performAll calls = .buffered buffered ∧
        buffered.remaining = some left ∧ buffered.position + left = bytes.length ∧
        ∀ n taken after, buffered.read n = (.ok taken, after) → n ≤ left) ∧
    ∀ source ∈ [(ofBuffered capacity (some bytes.length) bytes).performAll calls,
        (ofBytes bytes).performAll calls],
      Answers bytes source ∧
      (∀ n taken after, source.read n = (.ok taken, after) →
        source.position + n ≤ bytes.length) ∧
      ∀ v : UInt64, Varint.encode v.toNat <+: bytes.drop source.position → ∃ after,
        source.readVarint = (.ok v.toNat, Varint.encode v.toNat, after) ∧
          after.position = source.position + (Varint.encode v.toNat).length := by
  have hbuffered := measured_ofBuffered hcapacity bytes
  have hslice := measured_ofBytes bytes
  refine ⟨hbuffered.observed_eq hslice rfl calls, ?_, ?_⟩
  · have hmeasured := hbuffered.performAll calls
    obtain ⟨buffered, heq⟩ := performAll_buffered _ calls
    rw [ofBuffered, heq] at hmeasured
    obtain ⟨left, hleft, hsum⟩ := hmeasured.remaining_eq
    refine ⟨buffered, left, heq, hleft, hsum, fun n taken after hread => ?_⟩
    have hwhole : (ByteSource.buffered buffered).read n = (.ok taken, .buffered after) := by
      rw [read, hread]
    have hrange : buffered.position + n ≤ bytes.length :=
      hmeasured.answers.le_length_of_read hwhole
    omega
  · intro source hsource
    have hanswers : Answers bytes source := by
      rw [List.mem_cons, List.mem_singleton] at hsource
      rcases hsource with rfl | rfl
      · exact (hbuffered.performAll calls).answers
      · exact (hslice.performAll calls).answers
    exact ⟨hanswers, fun _ _ _ hread => hanswers.le_length_of_read hread,
      hanswers.readVarint_encode⟩

/-- A reading that is refused, a number of two groups, and then one that ends too early: the
buffered source is left behind the two groups it looked at, and the other one in front of them. -/
theorem sources_simulate_truncated :
    let bytes : Bytes := [0xAC, 0x02, 0x80, 0x80]
    let calls : List Call := [.read 9, .readVarint, .isExhausted, .readVarint, .isExhausted]
    let buffered := ofBuffered 3 (some 4) bytes
    1 ≤ 3 ∧
    buffered.observed calls = (ofBytes bytes).observed calls ∧
    (ofBytes bytes).observed calls =
      [(.error .endOfData, some 0), (.ok (.number 300 [0xAC, 0x02]), some 2),
        (.ok (.exhausted false), some 2), (.error .endOfData, none)] ∧
    (buffered.performAll calls).position = 4 ∧ ((ofBytes bytes).performAll calls).position = 2 := by
  have hcapacity : 1 ≤ 3 := by decide
  exact ⟨hcapacity, (sources_simulate _ hcapacity _).1, rfl, rfl, rfl⟩

end ByteSource

end PartitionSnapshot
