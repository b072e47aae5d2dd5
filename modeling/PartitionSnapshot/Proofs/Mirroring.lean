import PartitionSnapshot.Proofs.Findings

/-!
# Reading in step with writing

Counts and records may be written in any order, and a reader over what was written is driven by the
same calls: it reads a count where one was written, and a record where one was. Writer and reader
then stay in step. Behind each call the reader has returned what the writer was given, both have the
same checksum and the same number of records, and the reader has consumed just what was written so
far. What follows the last call is not looked at, and the source need not find its end, so any
buffer will do.

## Main statements

* `FrameWriter.perform_eq_error`: the only calls that are refused.
* `FrameWriter.inPlace_eq`: a call that is refused has done nothing.
* `FrameReader.Follows.call`: one call on both sides.
* `FrameWriter.mirrored`: a whole sequence of calls.
-/

namespace PartitionSnapshot

/-! ## Calls -/

/-- A call on a writer. The call on a reader that mirrors it returns what this one is given. -/
inductive FrameCall where
  | count (n : UInt64)
  | record (payload : Bytes)
  deriving DecidableEq, Repr

namespace FrameCall

/-- The number in the header that the call asks for. -/
def number : FrameCall → Nat
  | .count n => n.toNat
  | .record payload => payload.length

/-- The bytes that the call adds to the file. -/
def bytes (framing : Framing) : FrameCall → Bytes
  | .count n => framing.headerBytes n.toNat
  | .record payload => framing.frame payload

end FrameCall

/-! ## Calls on a writer -/

namespace FrameWriter

variable {writer : FrameWriter} {call : FrameCall}

/-- Makes a call. -/
def perform (writer : FrameWriter) : FrameCall → Except Failure FrameWriter
  | .count n => writer.writeCount n.toNat
  | .record payload => writer.writeRecord payload

/-- Makes calls one after the other, all of which have to go through. -/
def performAll (writer : FrameWriter) (calls : List FrameCall) : Except Failure FrameWriter :=
  calls.foldlM perform writer

/-- Writes a header in place, if there is one for the number. -/
def headerInPlace (n : Nat) : ExceptT Failure (StateM FrameWriter) Unit := fun writer =>
  match writer.framing.header n with
  | .ok header => (.ok (), writer.put header)
  | .error failure => (.error failure, writer)

/-- Makes a call in place, one effect after the other: what was done before a failure stays done. -/
def inPlace : FrameCall → ExceptT Failure (StateM FrameWriter) Unit
  | .count n => headerInPlace n.toNat
  | .record payload => do
    headerInPlace payload.length
    modify (·.put payload)
    modify fun writer => { writer with records := writer.records + 1 }

/-- The writer behind a call that goes through. -/
def made (writer : FrameWriter) : FrameCall → FrameWriter
  | .count n => writer.put (writer.framing.headerBytes n.toNat)
  | .record payload => writer.add payload

theorem perform_of_expresses (h : writer.framing.Expresses call.number) :
    writer.perform call = .ok (writer.made call) := by
  cases call with
  | count n => exact writeCount_of_expresses h
  | record payload => exact writeRecord_of_expresses h

theorem perform_of_not_expresses (h : ¬ writer.framing.Expresses call.number) :
    writer.perform call = .error (.oversized call.number) := by
  cases call with
  | count n => exact writeCount_of_not_expresses h
  | record payload => exact writeRecord_of_not_expresses h

theorem perform_eq_ok {after : FrameWriter} :
    writer.perform call = .ok after ↔
      writer.framing.Expresses call.number ∧ after = writer.made call := by
  by_cases h : writer.framing.Expresses call.number
  · simp only [perform_of_expresses h, Except.ok.injEq, h, true_and, eq_comm]
  · simp only [perform_of_not_expresses h, reduceCtorEq, h, false_and]

/-- **The only calls that are refused** are those with a number that four bytes do not express. -/
theorem perform_eq_error {failure : Failure} :
    writer.perform call = .error failure ↔
      writer.framing = .fixed ∧ UInt32.size ≤ call.number ∧ failure = .oversized call.number := by
  by_cases h : writer.framing.Expresses call.number
  · rw [perform_of_expresses h]
    refine ⟨nofun, fun ⟨hframing, hnumber, _⟩ => ?_⟩
    rw [hframing] at h
    exact absurd hnumber (Nat.not_le.2 h)
  · simp only [perform_of_not_expresses h, Except.error.injEq]
    cases hframing : writer.framing with
    | fixed =>
      rw [hframing] at h
      simp only [Nat.not_lt.1 h, true_and, eq_comm]
    | varint =>
      rw [hframing] at h
      exact absurd trivial h

/-- A record is written when its header was. -/
theorem inPlace_record (writer : FrameWriter) (payload : Bytes) :
    inPlace (.record payload) writer =
      match headerInPlace payload.length writer with
      | (.ok (), after) => (.ok (), { after.put payload with records := after.records + 1 })
      | (.error failure, after) => (.error failure, after) := by
  simp only [inPlace, bind, ExceptT.bind, ExceptT.mk, StateT.bind]
  rcases headerInPlace payload.length writer with ⟨failure | ⟨⟩, after⟩
  · rfl
  · rfl

/-- **A call that is refused has done nothing**: made in place, it leaves the writer as it was. -/
theorem inPlace_eq (writer : FrameWriter) (call : FrameCall) :
    inPlace call writer =
      match writer.perform call with
      | .ok after => (.ok (), after)
      | .error failure => (.error failure, writer) := by
  by_cases h : writer.framing.Expresses call.number
  · have hheader : headerInPlace call.number writer =
        (.ok (), writer.put (writer.framing.headerBytes call.number)) := by
      rw [headerInPlace, Framing.header_of_expresses h]
    rw [perform_of_expresses h]
    cases call with
    | count n => exact hheader
    | record payload =>
      have hheader : headerInPlace payload.length writer = _ := hheader
      rw [inPlace_record, hheader]
      rfl
  · have hheader : headerInPlace call.number writer =
        (.error (.oversized call.number), writer) := by
      rw [headerInPlace, Framing.header_of_not_expresses h]
    rw [perform_of_not_expresses h]
    cases call with
    | count n => exact hheader
    | record payload =>
      have hheader : headerInPlace payload.length writer = _ := hheader
      rw [inPlace_record, hheader]

@[simp] theorem framing_made (writer : FrameWriter) (call : FrameCall) :
    (writer.made call).framing = writer.framing := by
  cases call with
  | count n => rfl
  | record payload => rfl

theorem written_made (writer : FrameWriter) (call : FrameCall) :
    (writer.made call).written = writer.written ++ call.bytes writer.framing := by
  cases call with
  | count n => exact written_put writer _
  | record payload => exact written_add writer payload

theorem checksum_made (writer : FrameWriter) (call : FrameCall) :
    (writer.made call).checksum = writer.checksum.update (call.bytes writer.framing) := by
  cases call with
  | count n => rfl
  | record payload => exact (Checksum.update_append _ _ _).symm

theorem performAll_cons_eq_ok {calls : List FrameCall} {final : FrameWriter} :
    writer.performAll (call :: calls) = .ok final ↔
      writer.perform call = .ok (writer.made call) ∧
        (writer.made call).performAll calls = .ok final := by
  by_cases h : writer.framing.Expresses call.number
  · simp only [performAll, List.foldlM_cons, perform_of_expresses h, true_and]
    rfl
  · simp only [performAll, List.foldlM_cons, perform_of_not_expresses h, reduceCtorEq, false_and,
      iff_false]
    exact nofun

/-- Calls that all go through add their bytes, one after the other. -/
theorem written_performAll {calls : List FrameCall} {final : FrameWriter}
    (h : writer.performAll calls = .ok final) :
    final.written = writer.written ++ calls.flatMap (FrameCall.bytes writer.framing) := by
  -- along the calls, none of which changes the framing
  induction calls generalizing writer with
  | nil =>
    cases h
    exact (List.append_nil _).symm
  | cons call calls ih =>
    rw [ih (performAll_cons_eq_ok.1 h).2, framing_made, written_made, List.flatMap_cons,
      List.append_assoc]

end FrameWriter

/-! ## Calls on a reader -/

namespace FrameReader

variable {reader : FrameReader} {writer : FrameWriter}

/-- The call on the reader that mirrors one on a writer returns what that was given. -/
def Returns (reader : FrameReader) (call : FrameCall) (after : FrameReader) : Prop :=
  match call with
  | .count n => reader.readCount = (.ok n.toNat, after)
  | .record payload => reader.readRecord = (.ok payload, after)

/-- The reader has the checksum and the records of the writer, and has consumed what that wrote. -/
structure InStep (reader : FrameReader) (writer : FrameWriter) : Prop where
  checksum : reader.checksum = writer.checksum
  records : reader.records = writer.records
  position : reader.position = writer.written.length

/-- The reader is in step with the writer and can go on: before it stands `rest`. -/
structure Follows (reader : FrameReader) (writer : FrameWriter) (rest : Bytes) : Prop where
  inStep : reader.InStep writer
  framing : reader.framing = writer.framing
  honest : reader.source.Honest
  rest : reader.source.rest = rest

theorem follows_create {source : ByteSource} {rest : Bytes} (h : source.Over rest 0)
    (framing : Framing) :
    (create framing source).Follows (.create framing) rest :=
  ⟨⟨rfl, rfl, h.position⟩, rfl, h.honest, h.rest⟩

/-- **One call on both sides.** Where the bytes of a call are in front, the reader returns what the
writer is given, and follows the writer behind the call. -/
theorem Follows.call {call : FrameCall} {rest : Bytes}
    (h : reader.Follows writer (call.bytes writer.framing ++ rest))
    (hexpresses : writer.framing.Expresses call.number) (hsize : call.number < UInt64.size) :
    ∃ after, reader.Returns call after ∧ after.Follows (writer.made call) rest := by
  have hfollows {after : FrameReader}
      (htakes : reader.Takes after (call.bytes writer.framing) rest)
      (hposition : after.position + after.source.rest.length =
        reader.position + reader.source.rest.length)
      (hrecords : after.records = (writer.made call).records) :
      after.Follows (writer.made call) rest := by
    refine ⟨⟨?_, hrecords, ?_⟩, ?_, htakes.source.honest, htakes.source.rest⟩
    · rw [htakes.signed, h.inStep.checksum, FrameWriter.checksum_made]
    · -- what is not left any more was consumed
      rw [htakes.source.rest, h.rest, h.inStep.position, List.length_append] at hposition
      rw [FrameWriter.written_made, List.length_append]
      omega
    · rw [htakes.framing, h.framing, FrameWriter.framing_made]
  cases call with
  | count n =>
    have hheader : reader.framing.header? reader.source.rest =
        some (n.toNat, writer.framing.headerBytes n.toNat, rest) := by
      rw [h.rest, h.framing]
      exact Framing.header?_append hexpresses hsize rest
    obtain ⟨after, hread, htakes, hrecords⟩ := readHeader_of_honest h.honest hheader
    exact ⟨after, hread, hfollows htakes (position_readHeader hread)
      (hrecords.trans h.inStep.records)⟩
  | record payload =>
    have hframe : reader.framing.frame? reader.source.rest =
        some (payload, writer.framing.frame payload, rest) := by
      rw [h.rest, h.framing]
      exact Framing.frame?_append hexpresses hsize rest
    obtain ⟨after, hread, htakes, hrecords⟩ := readRecord_of_honest h.honest hframe
    exact ⟨after, hread, hfollows htakes (position_readRecord hread)
      (hrecords.trans (congrArg (· + 1) h.inStep.records))⟩

end FrameReader

/-! ## Sequences of calls -/

/-- The calls go through on the writer, the mirrored ones on the reader return what it is given, and
both are in step before the first call and behind each of them. -/
inductive Mirrors : FrameWriter → FrameReader → List FrameCall → Prop
  | done {writer : FrameWriter} {reader : FrameReader} (hstep : reader.InStep writer) :
      Mirrors writer reader []
  | call {writer writer' : FrameWriter} {reader reader' : FrameReader} {call : FrameCall}
      {calls : List FrameCall} (hstep : reader.InStep writer)
      (hwrite : writer.perform call = .ok writer') (hread : reader.Returns call reader')
      (hothers : Mirrors writer' reader' calls) : Mirrors writer reader (call :: calls)

namespace FrameWriter

variable {calls : List FrameCall} {final : FrameWriter}

/-- Calls on a writer are mirrored by a reader that follows it over their bytes. -/
theorem mirrors_of_follows {writer : FrameWriter} {reader : FrameReader} {further : Bytes}
    (h : reader.Follows writer (calls.flatMap (FrameCall.bytes writer.framing) ++ further))
    (hsized : ∀ call ∈ calls, call.number < UInt64.size)
    (hcalls : writer.performAll calls = .ok final) : Mirrors writer reader calls := by
  -- along the calls; the bytes of the first one are in front
  induction calls generalizing writer reader with
  | nil => exact .done h.inStep
  | cons call calls ih =>
    obtain ⟨hcall, hothers⟩ := performAll_cons_eq_ok.1 hcalls
    obtain ⟨hexpresses, -⟩ := perform_eq_ok.1 hcall
    rw [List.flatMap_cons, List.append_assoc] at h
    obtain ⟨reader', hread, hfollows⟩ := h.call hexpresses (hsized call List.mem_cons_self)
    rw [← framing_made writer call] at hfollows
    exact .call h.inStep hcall hread
      (ih hfollows (fun other hother => hsized other (List.mem_cons_of_mem _ hother)) hothers)

/-- **What is written is read back, call by call**, in both forms of headers and for any sequence of
calls that all go through, whatever follows what they write and in whichever way it is read. A call
fails only for a number that four bytes do not express, and then nothing is written, signed or
counted. -/
theorem mirrored {framing : Framing} (hsized : ∀ call ∈ calls, call.number < UInt64.size)
    (hcalls : (create framing).performAll calls = .ok final) {further : Bytes}
    {source : ByteSource} (hsource : source.Over (final.written ++ further) 0) :
    Mirrors (create framing) (.create framing source) calls ∧
      ∀ (writer : FrameWriter) (call : FrameCall) (failure : Failure),
        writer.perform call = .error failure ↔
          writer.framing = .fixed ∧ UInt32.size ≤ call.number ∧ failure = .oversized call.number ∧
            inPlace call writer = (.error failure, writer) := by
  refine ⟨?_, fun writer call failure => ?_⟩
  · have hfollows := FrameReader.follows_create hsource framing
    rw [written_performAll hcalls] at hfollows
    exact mirrors_of_follows hfollows hsized hcalls
  · rw [perform_eq_error]
    refine ⟨fun ⟨hframing, hnumber, hfailure⟩ => ⟨hframing, hnumber, hfailure, ?_⟩,
      fun ⟨hframing, hnumber, hfailure, _⟩ => ⟨hframing, hnumber, hfailure⟩⟩
    rw [inPlace_eq, perform_eq_error.2 ⟨hframing, hnumber, hfailure⟩]

/-- Counts between records are read back through a buffer that takes in nothing. -/
theorem mirrored_unbuffered :
    let calls : List FrameCall := [.count 300, .record [1, 2], .count 0, .record []]
    let final : FrameWriter := ⟨.varint, [[], [0], [0], [1, 2], [2], [0xAC, 2]],
      .ofBytes [0xAC, 2, 2, 1, 2, 0, 0], 2⟩
    let source := ByteSource.ofBuffered 0 (some 8) (final.written ++ [9])
    (create .varint).performAll calls = .ok final ∧
      Mirrors (create .varint) (.create .varint source) calls ∧
      inPlace (.count 4294967296) (create .fixed) =
        (.error (.oversized 4294967296), create .fixed) := by
  intro calls final source
  have hsized : ∀ call ∈ calls, call.number < UInt64.size := by decide
  have hcalls : (create .varint).performAll calls = .ok final :=
    eq_ok_of_toOption (by decide +kernel)
  have hsource : source.Over (final.written ++ [9]) 0 := by
    refine .buffered (Nat.le_refl 0) fun length hlength => ?_
    cases hlength
    decide
  obtain ⟨hmirrors, hrefused⟩ := mirrored hsized hcalls hsource
  have hcall : (create .fixed).perform (.count 4294967296) = .error (.oversized 4294967296) :=
    perform_eq_error.2 ⟨rfl, by decide, rfl⟩
  exact ⟨hcalls, hmirrors, ((hrefused _ _ _).1 hcall).2.2.2⟩

end FrameWriter

end PartitionSnapshot
