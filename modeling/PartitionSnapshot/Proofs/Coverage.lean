import PartitionSnapshot.Proofs.Contents

/-!
# The bytes of records

The bytes of a file that belong to its records are those of the frames, and of the count in front of
them where the kind has one. Headers have more than one form, so the bytes of given records are a
relation. The form that is written is one of them.

## Main statements

* `Framing.frame?_eq_some_iff`: a frame is found whatever follows it.
* `Kind.covers_file`: the file that is written belongs to its records.
-/

namespace PartitionSnapshot

/-! ## Headers and frames by themselves -/

namespace Varint

/-- Groups that are a whole number by themselves are split off from whatever follows. -/
theorem split?_append {limit : Nat} {groups : Bytes} (h : split? limit groups = some (groups, []))
    (rest : Bytes) : split? limit (groups ++ rest) = some (groups, rest) := by
  -- along the limit, up to the group that ends the number
  induction limit generalizing groups with
  | zero => simp [split?] at h
  | succ limit ih =>
    cases groups with
    | nil => simp [split?] at h
    | cons group tail =>
      simp only [split?] at h
      simp only [List.cons_append, split?]
      split at h
      · next hlast =>
        simp only [Option.some.injEq, Prod.mk.injEq, List.cons.injEq, true_and] at h
        rw [if_pos hlast, ← h.1, List.nil_append]
      · next hmore =>
        simp only [Option.map_eq_some_iff, Prod.exists, Prod.mk.injEq, List.cons.injEq,
          true_and] at h
        obtain ⟨groups', rest', hsplit, rfl, rfl⟩ := h
        rw [if_neg hmore, ih hsplit, Option.map_some]

end Varint

namespace Framing

variable {framing : Framing} {n : Nat} {bytes header record front rest : Bytes}

/-- Of the bytes in front of which a header stands only the header decides. -/
theorem header?_eq_some :
    framing.header? bytes = some (n, header, rest) ↔
      framing.header? header = some (n, header, []) ∧ bytes = header ++ rest := by
  cases framing with
  | fixed =>
    have hsplit (front behind : Bytes) : (front ++ behind).split? 4 = some (front, behind) ↔
        front.length = 4 := by
      rw [Bytes.split?_eq_some]
      exact and_iff_left rfl
    simp only [header?, Option.map_eq_some_iff, Prod.exists, Prod.mk.injEq]
    constructor
    · rintro ⟨front, behind, hbytes, rfl, rfl, rfl⟩
      obtain ⟨hlength, rfl⟩ := Bytes.split?_eq_some.1 hbytes
      refine ⟨⟨front, [], ?_, rfl, rfl, rfl⟩, rfl⟩
      have halone := (hsplit front []).2 hlength
      rwa [List.append_nil] at halone
    · rintro ⟨⟨front, behind, hheader, rfl, rfl, rfl⟩, rfl⟩
      have hlength := (Bytes.split?_eq_some.1 hheader).1
      exact ⟨front, rest, (hsplit front rest).2 hlength, rfl, rfl, rfl⟩
  | varint =>
    simp only [header?, Varint.decode?, Option.bind_eq_bind, Option.bind_eq_some_iff, Prod.exists]
    constructor
    · rintro ⟨groups, behind, hsplit, h⟩
      split at h
      · next hlt =>
        cases h
        exact ⟨⟨header, [], Varint.split?_groups hsplit, by rw [if_pos hlt]; rfl⟩,
          (Varint.split?_eq_some hsplit).1⟩
      · cases h
    · rintro ⟨⟨groups, behind, hsplit, h⟩, rfl⟩
      split at h
      · next hlt =>
        cases h
        exact ⟨header, rest, Varint.split?_append hsplit rest, by rw [if_pos hlt]; rfl⟩
      · cases h

theorem header_ne_nil (h : framing.header? header = some (n, header, [])) : header ≠ [] := by
  rintro rfl
  cases framing with
  | fixed => cases h
  | varint => cases h

/-- The bytes are one frame, and nothing else: that of the record. -/
def IsFrame (framing : Framing) (record bytes : Bytes) : Prop :=
  framing.frame? bytes = some (record, bytes, [])

/-- Of the bytes in front of which a frame stands only the frame decides. -/
theorem frame?_eq_some_iff :
    framing.frame? bytes = some (record, front, rest) ↔
      framing.IsFrame record front ∧ bytes = front ++ rest := by
  have hframe {bytes rest : Bytes} {header : Bytes}
      (hheader : framing.header? header = some (record.length, header, []))
      (hbytes : bytes = header ++ record ++ rest) :
      framing.frame? bytes = some (record, header ++ record, rest) := by
    rw [List.append_assoc] at hbytes
    simp only [frame?, header?_eq_some.2 ⟨hheader, hbytes⟩, Bytes.split?_append,
      Option.bind_eq_bind, Option.bind_some, Option.pure_def]
  constructor
  · intro h
    obtain ⟨n, header, middle, hheader, rfl, rfl, rfl⟩ := frame?_eq_some h
    obtain ⟨halone, rfl⟩ := header?_eq_some.1 hheader
    exact ⟨hframe halone (List.append_nil _).symm, (List.append_assoc _ _ _).symm⟩
  · rintro ⟨h, rfl⟩
    obtain ⟨n, header, middle, hheader, rfl, -, rfl⟩ := frame?_eq_some h
    exact hframe (header?_eq_some.1 hheader).1 rfl

theorem IsFrame.ne_nil (h : framing.IsFrame record front) : front ≠ [] := by
  obtain ⟨n, header, middle, hheader, -, -, hfront⟩ := frame?_eq_some h
  -- a frame has at least its header
  rw [hfront]
  exact List.append_ne_nil_of_left_ne_nil (header_ne_nil (header?_eq_some.1 hheader).1) _

/-- The form in which a record is written is a frame of it. -/
theorem isFrame_frame (hexpresses : framing.Expresses record.length)
    (hlength : record.length < UInt64.size) : framing.IsFrame record (framing.frame record) := by
  have h := frame?_append hexpresses hlength []
  rwa [List.append_nil] at h

/-! ## The bytes of records -/

/-- The bytes are frames of the records, one after the other, and nothing else. -/
inductive Covers (framing : Framing) : Bytes → List Bytes → Prop
  | nil : Covers framing [] []
  | cons {record front rest : Bytes} {records : List Bytes} :
      framing.IsFrame record front → Covers framing rest records →
      Covers framing (front ++ rest) (record :: records)

theorem covers_frames {records : List Bytes}
    (h : ∀ record ∈ records, framing.Expresses record.length ∧ record.length < UInt64.size) :
    framing.Covers (framing.frames records) records := by
  induction records with
  | nil => exact .nil
  | cons record records ih =>
    obtain ⟨hexpresses, hlength⟩ := h record List.mem_cons_self
    exact .cons (isFrame_frame hexpresses hlength)
      (ih fun other hother => h other (List.mem_cons_of_mem _ hother))

/-- Of a record that four bytes can express the length of there is one frame, the form in which it
is written. -/
theorem isFrame_fixed (h : Framing.fixed.IsFrame record front) :
    record.length < UInt32.size ∧ front = Framing.fixed.frame record := by
  obtain ⟨n, header, middle, hheader, rfl, -, rfl⟩ := frame?_eq_some h
  obtain ⟨halone, -⟩ := header?_eq_some.1 hheader
  simp only [header?, Option.map_eq_some_iff, Prod.exists, Prod.mk.injEq] at halone
  obtain ⟨four, behind, hsplit, hvalue, rfl, -⟩ := halone
  -- the header is four bytes, which are determined by the number in them
  have hfour : four.length = 4 := (Bytes.split?_eq_some.1 hsplit).1
  have hlt := Bytes.toNatBE_lt four
  have hheader := Bytes.ofNatBE_toNatBE four
  rw [hfour, hvalue] at hlt hheader
  exact ⟨hlt, congrArg (· ++ record) hheader.symm⟩

/-- Bytes that are frames with four-byte headers are the form in which their records are written. -/
theorem frames_of_covers {records : List Bytes} (h : Framing.fixed.Covers bytes records) :
    bytes = Framing.fixed.frames records ∧ ∀ record ∈ records, record.length < UInt32.size := by
  induction h with
  | nil => exact ⟨rfl, fun _ hrecord => (List.not_mem_nil hrecord).elim⟩
  | cons hfront _ ih =>
    obtain ⟨hlength, rfl⟩ := isFrame_fixed hfront
    rw [frames_cons, ← ih.1, List.forall_mem_cons]
    exact ⟨rfl, hlength, ih.2⟩

end Framing

/-- The bytes are what belongs to the records in a file of the kind: the frames, behind the count
where the kind has one. -/
def Kind.Covers (kind : Kind) (bytes : Bytes) (records : List Bytes) : Prop :=
  match kind.framing with
  | .fixed => Framing.fixed.Covers bytes records
  | .varint => ∃ count frames, bytes = count ++ frames ∧
      Framing.varint.header? count = some (records.length, count, []) ∧
      Framing.varint.Covers frames records

/-- The file that is written covers its records. -/
theorem Kind.covers_file {kind : Kind} {records : List Bytes}
    (hcount : records.length < UInt64.size)
    (hrecords : ∀ record ∈ records, kind.framing.Expresses record.length ∧
      record.length < UInt64.size) : kind.Covers (kind.file records) records := by
  unfold Kind.Covers Kind.file Kind.head
  cases hframing : kind.framing with
  | fixed =>
    rw [hframing] at hrecords
    exact Framing.covers_frames hrecords
  | varint =>
    rw [hframing] at hrecords
    -- a count of any size has a header
    have hheader := @Framing.header?_append .varint _ trivial hcount []
    rw [List.append_nil] at hheader
    exact ⟨_, _, rfl, hheader, Framing.covers_frames hrecords⟩

end PartitionSnapshot
