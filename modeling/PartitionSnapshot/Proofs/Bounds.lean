import PartitionSnapshot.Proofs.Applying

/-!
# Counts and lengths that are too large

A file with a count says how many records it holds, and each record how long it is, and either
number may be anything up to the largest that has 64 bits. Neither is believed: a record is handed
over only once all its bytes were read, and a frame is never empty, so there are no more records
than bytes. A count that is greater than the number of bytes behind it, and a length that is greater
than the number of bytes behind that, are found out where the data end, and the file is corrupt.

For this the end of the file need not be found by the source, so it holds of reading buffers of
every size.

## Main statements

* `Framing.Covers.length_le`: there are no more records than bytes.
* `Kind.Frames.length_le`, `Kind.Frames.not_ok_of_lt`, `Kind.Frames.not_ok_of_overlong`: what a file
  with a count comes to.
* `Store.load_bounded`: what loading such a file comes to.
-/

namespace PartitionSnapshot

/-! ## Records and bytes -/

namespace Framing

variable {framing : Framing} {bytes : Bytes} {records : List Bytes}

/-- There are no more records than bytes, since no frame is empty. -/
theorem Covers.length_le (h : framing.Covers bytes records) : records.length ≤ bytes.length := by
  induction h with
  | nil => exact Nat.le_refl 0
  | cons hfront _ ih =>
    have hpositive := List.length_pos_iff.2 hfront.ne_nil
    rw [List.length_cons, List.length_append]
    omega

/-- Some of the next `count` records is there in part only: behind records that are complete there
is the header of one that is longer than what is left. -/
def Overlong (framing : Framing) (count : Nat) (bytes : Bytes) : Prop :=
  ∃ front records behind length header left, bytes = front ++ behind ∧
    framing.Covers front records ∧ records.length < count ∧
    framing.header? behind = some (length, header, left) ∧ left.length < length

theorem frame?_of_short {length : Nat} {header left : Bytes}
    (hheader : framing.header? bytes = some (length, header, left))
    (hshort : left.length < length) : framing.frame? bytes = none := by
  have hsplit : left.split? length = none := Bytes.split?_eq_none.2 hshort
  simp only [frame?, hheader, hsplit, Option.bind_eq_bind, Option.bind_some, Option.bind_none]

end Framing

/-! ## Files with a count -/

namespace Kind.Frames

variable {kind : Kind} {start count : Nat} {content head rest : Bytes} {records : List Bytes}
variable {ending : Except Activity UInt32}

section

variable (hframing : kind.framing = .varint)
variable (hheader : Framing.varint.header? content = some (count, head, rest))
include hframing hheader

/-- The records that are found stand behind the count, and are no more than it says. -/
theorem covers (h : kind.Frames start content records ending) :
    ∃ front behind, rest = front ++ behind ∧ Framing.varint.Covers front records ∧
      (∀ sign, ending = .ok sign → records.length = count) := by
  cases h with
  | @whole front behind _ hcontent hcovers hbehind =>
    simp only [Kind.Covers, hframing] at hcovers
    obtain ⟨counted, frames, rfl, halone, hframes⟩ := hcovers
    rw [List.append_assoc] at hcontent
    rw [Framing.header?_eq_some.2 ⟨halone, hcontent⟩] at hheader
    cases hheader
    exact ⟨frames, behind, rfl, hframes, fun _ _ => rfl⟩
  | broken hfixed =>
    rw [hframing] at hfixed
    cases hfixed
  | @brokenOff _ _ front behind _ _ hcount hcovers =>
    rw [hcount] at hheader
    cases hheader
    refine ⟨front, behind, rfl, hcovers, ?_⟩
    rintro sign ⟨⟩
  | uncounted _ hnone =>
    rw [hnone] at hheader
    cases hheader

/-- **There are no more records than bytes behind the count.** -/
theorem length_le (h : kind.Frames start content records ending) :
    records.length ≤ rest.length := by
  obtain ⟨front, behind, rfl, hcovers, -⟩ := h.covers hframing hheader
  have hle := hcovers.length_le
  rw [List.length_append]
  omega

/-- A count that is greater than the number of bytes behind it is found out. -/
theorem not_ok_of_lt (h : kind.Frames start content records ending)
    (hcount : rest.length < count) : ∃ activity, ending = .error activity := by
  cases ending with
  | error activity => exact ⟨activity, rfl⟩
  | ok sign =>
    obtain ⟨-, -, -, -, hall⟩ := h.covers hframing hheader
    have hlength := hall sign rfl
    have hle := h.length_le hframing hheader
    omega

/-- A length that is greater than the number of bytes behind it is found out. -/
theorem not_ok_of_overlong (h : kind.Frames start content records ending)
    (hlong : Framing.varint.Overlong count rest) : ∃ activity, ending = .error activity := by
  obtain ⟨front, complete, behind, length, header, left, rfl, hcovers, hmore, hlength, hshort⟩ :=
    hlong
  -- the file breaks off where the long record begins, and it does so in one way only
  obtain ⟨-, hending⟩ := h.unique
    (.brokenOff hframing hheader hcovers hmore (Framing.frame?_of_short hlength hshort))
  exact ⟨_, hending⟩

end

/-- Without a count there are no records. -/
theorem eq_nil_of_uncounted (hframing : kind.framing = .varint)
    (hnone : Framing.varint.header? content = none)
    (h : kind.Frames start content records ending) :
    records = [] ∧ ending = .error .readingCount :=
  h.unique (.uncounted hframing hnone)

end Kind.Frames

namespace StateMachine

variable {σ : Type} [StateMachine σ] {config : Config} {context : Context} {kind : Kind}

/-- For a record in a file with a count there is at most one call. -/
theorem length_operations_le (hframing : kind.framing = .varint) (record : Bytes) :
    (operations kind record).length ≤ 1 := by
  cases kind with
  | inode => cases hframing
  | dentry => cases hframing
  | extend =>
    show (((Entity.ofRecord Extend record).toOption.toList).map Operation.setAttributes).length ≤ 1
    rw [List.length_map]
    exact Option.length_toList_le
  | multipart =>
    show (((Entity.ofRecord Multipart record).toOption.toList).map
      Operation.createMultipart).length ≤ 1
    rw [List.length_map]
    exact Option.length_toList_le

theorem length_flatMap_operations_le (hframing : kind.framing = .varint) (records : List Bytes) :
    (records.flatMap (operations kind)).length ≤ records.length := by
  induction records with
  | nil => exact Nat.le_refl 0
  | cons record records ih =>
    have hone := length_operations_le hframing record
    rw [List.flatMap_cons, List.length_append, List.length_cons]
    omega

theorem Stops.length_le {record : Bytes} {before after : σ} {error : Error}
    {last : List Operation} (h : Stops config context kind record before error last after) :
    last.length ≤ 1 := by
  cases h with
  | undecodable => exact Nat.zero_le 1
  | outside => exact Nat.zero_le 1
  | dentry => exact Nat.le_refl 1
  | extend => exact Nat.le_refl 1

/-- A machine that takes all attributes is stopped by a record in a file with a count only when that
does not decode. -/
theorem Stops.corrupt (hframing : kind.framing = .varint)
    (haccepts : ∀ extend (state : σ), (setAttributes extend state).1 = .ok ()) {record : Bytes}
    {before after : σ} {error : Error} {last : List Operation}
    (h : Stops config context kind record before error last after) :
    ∃ what, error = .corrupt context what := by
  cases h with
  | undecodable => exact ⟨_, rfl⟩
  | outside => cases hframing
  | dentry => cases hframing
  | @extend _ extend _ _ _ hextend hset =>
    have hok := haccepts extend before
    rw [hset] at hok
    cases hok

end StateMachine

/-! ## Loading a file with a count -/

namespace Store

open StateMachine (Operation Traced operations)

/-- Whichever way a store reads files, it is handed their bytes. -/
theorem honest_source (store : Store) (kind : Kind) (content : Bytes) :
    (store.source kind content).Honest ∧ (store.source kind content).rest = content := by
  unfold source
  cases store.options.readStrategy kind with
  | mapped => exact ⟨trivial, rfl⟩
  | buffered =>
    refine ⟨fun left hleft => ?_, rfl⟩
    cases hleft
    rfl

variable {σ : Type} [StateMachine σ] {kind : Kind}

/-- Behind an ending that is not good, no load goes through; and when nothing is refused, the file
is to blame. -/
theorem Concludes.error_of_ending {config : Config} {context : Context} {frames taken : List Bytes}
    {activity : Activity} {middle after : σ} {result : Except Error LoadOutcome}
    {last : List Operation} (hframing : kind.framing = .varint)
    (h : Concludes config context kind frames (.error activity) middle taken result last after) :
    (∃ error, result = .error error) ∧
      ((∀ extend (state : σ), (StateMachine.setAttributes extend state).1 = .ok ()) →
        ∃ what, result = .error (.corrupt context what)) := by
  cases h with
  | finished hending => cases hending
  | broken _ hwhat => exact ⟨⟨_, rfl⟩, fun _ => ⟨_, rfl⟩⟩
  | stopped hframes hstops =>
    refine ⟨⟨_, rfl⟩, fun haccepts => ?_⟩
    obtain ⟨what, rfl⟩ := hstops.corrupt hframing haccepts
    exact ⟨what, rfl⟩

/-- A load makes at most one call for each of the records that were found. -/
theorem Concludes.length_calls_le {config : Config} {context : Context}
    {frames taken : List Bytes} {ending : Except Activity UInt32} {middle after : σ}
    {result : Except Error LoadOutcome} {last : List Operation}
    (hframing : kind.framing = .varint)
    (h : Concludes config context kind frames ending middle taken result last after) :
    (taken.flatMap (operations kind) ++ last).length ≤ frames.length := by
  have htaken := StateMachine.length_flatMap_operations_le hframing taken
  rw [List.length_append]
  cases h with
  | finished => simpa using htaken
  | broken => simpa using htaken
  | stopped hframes hstops =>
    have hlast := hstops.length_le
    rw [hframes, List.length_append, List.length_cons]
    omega

/-- **Counts and lengths are not believed.** Whatever stands in the file of extends or multiparts,
and however it is read, a load of it comes to an end, and makes no more calls to the machine than
there are bytes behind the count. Where the count is greater than that number of bytes, or one of
the records that are counted is longer than what is left behind its header, the load does not go
through; and when the machine refuses nothing, the file is found corrupt. So it is where there is no
count, and then no call is made. -/
theorem load_bounded (store : Store) (hframing : kind.framing = .varint) {tree : FileTree}
    {directory : Path} {content : Bytes}
    (hread : tree.read (Layout.entityFile directory kind) = .ok content) (state : σ)
    (cursor : UInt64) :
    ∃ result after calls,
      Replaying.eval tree state (store.loadFile directory cursor kind) = ((result, after), tree) ∧
      (∀ before, Replaying.eval tree (⟨state, before⟩ : Traced σ)
          (store.loadFile directory cursor kind) = ((result, ⟨after, before ++ calls⟩), tree)) ∧
      (Framing.varint.header? content = none →
        calls = [] ∧ ∃ what, result = .error (.corrupt (store.loadContext kind) what)) ∧
      ∀ count head rest, Framing.varint.header? content = some (count, head, rest) →
        calls.length ≤ rest.length ∧
        (rest.length < count ∨ Framing.varint.Overlong count rest →
          (∃ error, result = .error error) ∧
          ((∀ extend (state : σ), (StateMachine.setAttributes extend state).1 = .ok ()) →
            ∃ what, result = .error (.corrupt (store.loadContext kind) what))) := by
  obtain ⟨hhonest, hrest⟩ := store.honest_source kind content
  have hshows : (Contents.ofKind kind (store.source kind content)).Shows kind
      (store.source kind content).position (store.source kind content).rest := by
    cases kind with
    | inode => cases hframing
    | dentry => cases hframing
    | extend => exact Contents.shows_ofCounted rfl hhonest
    | multipart => exact Contents.shows_ofCounted rfl hhonest
  obtain ⟨hframes, hbreaks⟩ := hshows
  rw [hrest] at hframes
  obtain ⟨taken, middle, result, last, after, htaken, hconcludes, hload, htraced⟩ :=
    loadFile_concludes hread rfl hbreaks state cursor
  have hcalls := hconcludes.length_calls_le hframing
  refine ⟨result, after, _, hload, htraced, fun hnone => ?_, fun count head rest hheader => ?_⟩
  · obtain ⟨hnil, hending⟩ := hframes.eq_nil_of_uncounted hframing hnone
    rw [hnil] at hcalls hconcludes
    rw [hending] at hconcludes
    refine ⟨List.eq_nil_of_length_eq_zero (Nat.le_zero.1 hcalls), ?_⟩
    cases hconcludes with
    | finished hending => cases hending
    | broken _ hwhat => exact ⟨_, rfl⟩
    | stopped hnothing => simp at hnothing
  · refine ⟨Nat.le_trans hcalls (hframes.length_le hframing hheader), fun hlarge => ?_⟩
    obtain ⟨activity, hending⟩ := hlarge.elim (hframes.not_ok_of_lt hframing hheader)
      (hframes.not_ok_of_overlong hframing hheader)
    rw [hending] at hconcludes
    exact hconcludes.error_of_ending hframing

/-- A file that counts as many records as 64 bits can express, and has two bytes of a first one that
is said to be five bytes long, read through a buffer that takes in nothing. -/
theorem load_bounded_hostile :
    let store : Store := ⟨(sample "p").config, { readBuffer := 0, multipartRead := .buffered }⟩
    let head : Bytes := List.replicate 9 0xff ++ [0x01]
    let content : Bytes := head ++ [5, 1, 2]
    let tree := identified [(Layout.current, .directory [("multipart", .file content)])]
    store.options.Starves .multipart ∧
    tree.read (Layout.entityFile store.current .multipart) = .ok content ∧
    Framing.varint.header? content = some (2 ^ 64 - 1, head, [5, 1, 2]) ∧
    ∃ what after, ∃ calls : List Operation,
      Replaying.eval tree MemoryPartition.empty (store.loadFile store.current 1 .multipart) =
        ((.error (.corrupt (store.loadContext .multipart) what), after), tree) ∧
      calls.length ≤ 3 ∧
      Replaying.eval tree (⟨MemoryPartition.empty, []⟩ : Traced MemoryPartition)
          (store.loadFile store.current 1 .multipart) =
        ((.error (.corrupt (store.loadContext .multipart) what), ⟨after, calls⟩), tree) := by
  intro store head content tree
  have hread : tree.read (Layout.entityFile store.current .multipart) = .ok content :=
    eq_ok_of_toOption (by decide +kernel)
  have hheader : Framing.varint.header? content = some (2 ^ 64 - 1, head, [5, 1, 2]) := by
    decide +kernel
  obtain ⟨result, after, calls, hload, htraced, -, hbounded⟩ := load_bounded store rfl hread
    MemoryPartition.empty 1
  obtain ⟨hcalls, hlarge⟩ := hbounded _ _ _ hheader
  obtain ⟨-, hcorrupt⟩ := hlarge (.inl (by decide))
  obtain ⟨what, rfl⟩ := hcorrupt fun _ _ => rfl
  exact ⟨⟨rfl, rfl⟩, hread, hheader, what, after, calls, hload, hcalls, htraced []⟩

end Store

end PartitionSnapshot
