import PartitionSnapshot.Proofs.TruncatedLoads

/-!
# Multipart files that count extends

Files for older readers begin with the count of the extends, while the records behind it are those
of the multipart sessions. The two numbers have nothing to do with each other. A count that is too
small hides the sessions behind it; one that is too large makes the file look cut short behind its
last session; and when both numbers agree nothing tells the file from one that counts its sessions.

## Main statements

* `Contents.ofKind_of_le`, `Contents.ofKind_of_lt`: what is found behind a count of any size.
* `Store.storeKind_of_create`: a kind is stored wherever its file can be made.
* `Store.load_counting_extends`: storing such a file, and loading it.
-/

namespace PartitionSnapshot

/-! ## Records behind a count of any size -/

namespace Contents

variable {kind : Kind} {records : List Bytes} {source : ByteSource} {n : Nat}

section

variable (hframing : kind.framing = .varint) (h : source.Faithful)
variable (hrest : source.rest = kind.head n ++ kind.framing.frames records)
variable (hsize : n < UInt64.size) (hrecords : ∀ record ∈ records, record.length < UInt64.size)
include hframing h hrest hsize hrecords

/-- Of the records behind a count only as many are found as it says. -/
theorem ofKind_of_le (hn : n ≤ records.length) :
    ofKind kind source =
      ⟨records.take n, .ok (crc32 (kind.head n ++ kind.framing.frames (records.take n)))⟩ := by
  have hlength : (records.take n).length = n := List.length_take_of_le hn
  have hfits : ∀ record ∈ records.take n, kind.framing.Expresses record.length ∧
      record.length < UInt64.size := fun record hrecord =>
    ⟨by rw [hframing]; trivial, hrecords record (List.mem_of_mem_take hrecord)⟩
  have hcovers := Kind.covers_file (hlength.symm ▸ hsize) hfits
  rw [Kind.file, hlength] at hcovers
  -- the records that are not counted are what follows the file
  refine (ofKind_eq_ok h).2
    ⟨_, kind.framing.frames (records.drop n), ?_, hcovers, rfl, fun hfixed => ?_⟩
  · rw [hrest, List.append_assoc, ← Framing.frames_append, List.take_append_drop]
  · rw [hframing] at hfixed
    cases hfixed

/-- Behind a count that is too large all records are found, and then the data end too early. -/
theorem ofKind_of_lt (hposition : source.position = 0) (hn : records.length < n) :
    ∃ ending, ofKind kind source = ⟨records, ending⟩ ∧
      RanOut (.readingRecord records.length n) ending := by
  -- the file is that of more records, cut behind those that are there
  obtain ⟨more, rfl⟩ := Nat.exists_eq_add_of_lt hn
  let padded := records ++ List.replicate (more + 1) ([] : Bytes)
  have hcount : padded.length = records.length + more + 1 := by
    simp only [padded, List.length_append, List.length_replicate, Nat.add_assoc]
  have hpadded : ∀ record ∈ padded, kind.framing.Expresses record.length ∧
      record.length < UInt64.size := by
    intro record hrecord
    refine ⟨by rw [hframing]; trivial, ?_⟩
    rcases List.mem_append.1 hrecord with hrecord | hrecord
    · exact hrecords record hrecord
    · rw [List.eq_of_mem_replicate hrecord]
      decide
  have hfile : kind.file padded = source.rest ++
      kind.framing.frames (List.replicate (more + 1) []) := by
    rw [Kind.file, hcount, hrest, Framing.frames_append, List.append_assoc]
  have hcut : source.rest.length < (kind.file padded).length := by
    have hframe := kind.framing.length_frame_pos []
    rw [hfile, List.length_append, List.replicate_succ, Framing.frames_cons, List.length_append]
    omega
  have hwhole : kind.whole padded source.rest.length = records.length := by
    rw [Kind.whole, hcount, hrest, List.length_append, Nat.add_sub_cancel_left,
      Framing.whole_frames]
  obtain ⟨ending, hread, -, -, hshort⟩ := ofKind_cut h
    (by rw [hfile, List.take_left] : source.rest = (kind.file padded).take source.rest.length)
    hposition hcut (hcount.symm ▸ hsize) hpadded
  have hhead : ¬ source.rest.length < (kind.head padded.length).length := by
    rw [hcount, hrest, List.length_append]
    omega
  have hran := hshort hframing
  rw [if_neg hhead, hwhole, hcount] at hran
  rw [hwhole, List.take_left] at hread
  exact ⟨ending, hread, hran⟩

end

end Contents

namespace Store

variable {store : Store} {source : Source} {kind : Kind} {directory : Path}
variable {tree made : FileTree}

/-! ## Storing where the file can be made -/

/-- **A kind is stored wherever its file can be made**, when the source hands over all its records
and they fit. The file holds the count for its head, whatever that counts, and the records. -/
theorem storeKind_of_create {count : Option UInt64} {expected : UInt64}
    (hcount : store.headCount source kind = .ok count)
    (hexpected : source.count kind = .ok expected)
    (hfits : ∀ record ∈ source.records kind, kind.Fits record)
    (hfailure : (source.walk kind).failure = none) (htree : tree.isDirectory = true)
    (hmade : tree.create (Layout.entityFile directory kind) = .ok made) :
    let content := (count.elim [] fun n => kind.framing.headerBytes n.toNat) ++
      kind.framing.frames (source.records kind)
    ∃ written, Task.eval tree (store.storeKind kind directory source) =
        (.ok ⟨(source.records kind).length, expected.toNat, count.map UInt64.toNat,
          crc32 content⟩, written) ∧
      written.read (Layout.entityFile directory kind) = .ok content := by
  intro content
  have hname := Kind.isName_name kind
  have htop : tree.view [] = some .directory := FileTree.view_top_iff.2 htree
  obtain ⟨context, write, hwrite, hstore⟩ := storeKind_eval hcount directory
  obtain ⟨written, hfilled, hsync, hover⟩ :=
    FileTree.fill_of_read hname (FileTree.read_of_made hname htop hmade) content
  refine ⟨written, ?_, hover.read_self (Path.endsInSlash_join directory hname)⟩
  rw [hstore]
  exact saveKind_of_fill context hexpected hwrite (expresses_headCount hcount) hfits hfailure rfl
    hmade hfilled hsync

/-- What a store does with multipart sessions depends on its options only by the count. -/
theorem storeMultiparts_congr {other : Store} (hconfig : other.config = store.config)
    (hcount : source.count other.countedKind = source.count store.countedKind) :
    other.storeMultiparts directory source = store.storeMultiparts directory source := by
  unfold storeMultiparts saveKind label context
  rw [hconfig, hcount]

/-! ## Loading what counts extends -/

section

variable {σ : Type} [StateMachine σ]

open StateMachine (createMultipart AbsorbsAll)

/-- A machine takes in multipart sessions one after the other. -/
theorem absorbsAll_sessions (config : Config) {records : List Bytes} {sessions : List Multipart}
    (h : records.map (Entity.ofRecord Multipart) = sessions.map .ok) (state : σ) :
    AbsorbsAll config .multipart state records
      (sessions.foldl (fun state session => createMultipart session state) state) := by
  induction records generalizing sessions state with
  | nil =>
    obtain rfl : sessions = [] := List.map_eq_nil_iff.1 h.symm
    exact .nil state
  | cons record records ih =>
    cases sessions with
    | nil => cases h
    | cons session sessions =>
      obtain ⟨hsession, hothers⟩ := List.cons.inj h
      exact .cons (.multipart hsession) (ih hothers _)

section

variable {reader : Store} {written : FileTree} {n : Nat} {records : List Bytes}
variable {sessions : List Multipart}
variable (hread : written.read (Layout.entityFile directory .multipart) =
  .ok (Varint.encode n ++ Framing.varint.frames records))
variable (hsessions : records.map (Entity.ofRecord Multipart) = sessions.map .ok)
variable (hsize : n < UInt64.size) (hsizes : ∀ record ∈ records, record.length < UInt64.size)
variable (hbuffer : 1 ≤ reader.options.readBuffer)
include hread hsessions hsize hsizes hbuffer

/-- Where fewer sessions are there than are counted, all are taken in before the load fails. -/
theorem loadMultiparts_of_lt (hlt : records.length < n) (state : σ) :
    Replaying.eval written state (reader.loadMultiparts directory) =
      ((.error (.corrupt (reader.context "loadMultipart")
        (.truncated (.readingRecord records.length n))),
        sessions.foldl (fun state session => createMultipart session state) state), written) := by
  let content := Varint.encode n ++ Framing.varint.frames records
  obtain ⟨hfaithful, hrest⟩ := faithful_source hbuffer .multipart content
  have hframing : Kind.multipart.framing = .varint := rfl
  obtain ⟨ending, hcontents, hran⟩ := Contents.ofKind_of_lt hframing hfaithful hrest hsize hsizes
    (position_source reader .multipart content) hlt
  have hload := loadFile_of_absorbs hread hcontents
    (absorbsAll_sessions reader.config hsessions state) 0
  rw [hran.result] at hload
  exact hload

/-- Where no more sessions are counted than are there, the first of them are taken in. -/
theorem loadMultiparts_of_le (hle : n ≤ records.length) (state : σ) :
    Replaying.eval written state (reader.loadMultiparts directory) =
      ((.ok ⟨true, n, crc32 (Varint.encode n ++ Framing.varint.frames (records.take n))⟩,
        (sessions.take n).foldl (fun state session => createMultipart session state) state),
        written) := by
  let content := Varint.encode n ++ Framing.varint.frames records
  obtain ⟨hfaithful, hrest⟩ := faithful_source hbuffer .multipart content
  have hframing : Kind.multipart.framing = .varint := rfl
  have hcontents := Contents.ofKind_of_le hframing hfaithful hrest hsize hsizes hle
  have hfirst : (records.take n).map (Entity.ofRecord Multipart) = (sessions.take n).map .ok := by
    rw [List.map_take, hsessions, List.map_take]
  have hload := loadFile_of_absorbs hread hcontents
    (absorbsAll_sessions reader.config hfirst state) 0
  rw [List.length_take_of_le hle] at hload
  exact hload

end

/-- **Multipart sessions behind the count of the extends.** A source with `m` sessions that all
decode and `n` extends is stored where the file can be made, and loaded by any store with room in
its buffer into any machine. The file holds all sessions. When more extends than sessions are
counted, the machine takes in all sessions, and then the file is found too short. Otherwise it takes
in the first `n` of them, and the load goes through. When both counts agree, a store that counts
sessions does just the same. -/
theorem load_counting_extends {writer reader : Store} {m n : UInt64} {sessions : List Multipart}
    (hmode : writer.options.multipartCount = .extends)
    (hmultiparts : source.count .multipart = .ok m) (hextends : source.count .extend = .ok n)
    (hsessions : (source.records .multipart).map (Entity.ofRecord Multipart) = sessions.map .ok)
    (hm : m.toNat = sessions.length) (hfailure : (source.walk .multipart).failure = none)
    (hsizes : ∀ record ∈ source.records .multipart, record.length < UInt64.size)
    (htree : tree.isDirectory = true)
    (hmade : tree.create (Layout.entityFile directory .multipart) = .ok made)
    (hbuffer : 1 ≤ reader.options.readBuffer) :
    let path := Layout.entityFile directory .multipart
    let content (count : Nat) (records : List Bytes) :=
      Varint.encode count ++ Framing.varint.frames records
    let taken (sessions : List Multipart) (state : σ) :=
      sessions.foldl (fun state session => createMultipart session state) state
    ∃ written,
      Task.eval tree (writer.storeMultiparts directory source) =
        (.ok ⟨m.toNat, m.toNat, some n.toNat, crc32 (content n.toNat (source.records .multipart))⟩,
          written) ∧
      written.read path = .ok (content n.toNat (source.records .multipart)) ∧
      (m < n → ∀ state : σ,
        Replaying.eval written state (reader.loadMultiparts directory) =
          ((.error (.corrupt (reader.context "loadMultipart")
            (.truncated (.readingRecord m.toNat n.toNat))), taken sessions state), written)) ∧
      (n ≤ m → ∀ state : σ,
        Replaying.eval written state (reader.loadMultiparts directory) =
          ((.ok ⟨true, n.toNat,
            crc32 (content n.toNat ((source.records .multipart).take n.toNat))⟩,
            taken (sessions.take n.toNat) state), written)) ∧
      (n = m → ∀ counting : Store, counting.config = writer.config →
        counting.options.multipartCount = .multiparts →
        counting.storeMultiparts directory source = writer.storeMultiparts directory source) := by
  intro path content taken
  have hlength : (source.records .multipart).length = m.toNat := by
    rw [hm, ← List.length_map (Entity.ofRecord Multipart), hsessions, List.length_map]
  have hkind : writer.countedKind = .extend := by rw [countedKind, hmode]
  have hcount : writer.headCount source .multipart = .ok (some n) := by
    rw [headCount, hkind, hextends]
    rfl
  have hfits : ∀ record ∈ source.records .multipart, Kind.multipart.Fits record := by
    intro record _
    refine ⟨fun hinode => ?_, trivial⟩
    cases hinode
  obtain ⟨written, hstore, hread⟩ :=
    storeKind_of_create hcount hmultiparts hfits hfailure htree hmade
  rw [hlength] at hstore
  refine ⟨written, hstore, hread, fun hlt state => ?_, fun hle state => ?_, fun hsame => ?_⟩
  · have hfew : (source.records .multipart).length < n.toNat := by
      rw [hlength]
      exact UInt64.lt_iff_toNat_lt.1 hlt
    rw [← hlength]
    exact loadMultiparts_of_lt hread hsessions n.toNat_lt_size hsizes hbuffer hfew state
  · have henough : n.toNat ≤ (source.records .multipart).length := by
      rw [hlength]
      exact UInt64.le_iff_toNat_le.1 hle
    exact loadMultiparts_of_le hread hsessions n.toNat_lt_size hsizes hbuffer henough state
  · intro counting hconfig hcounting
    have hkind' : counting.countedKind = .multipart := by rw [countedKind, hcounting]
    exact storeMultiparts_congr hconfig (by rw [hkind, hkind', hmultiparts, hextends, hsame])

/-- One session behind a count of two extends, and behind a count of none. -/
theorem load_counting_extends_session :
    let store : Store := { sample "p" with options := { multipartCount := .extends } }
    let session : Multipart := ⟨"u1", "key", 0, []⟩
    let source (n : UInt64) :=
      (Records.empty.push .multipart session.toRecord).source.withCount .extend n
    let stored (n : UInt64) := Task.eval (.directory [("p", .directory [])])
      (store.storeMultiparts store.root (source n))
    (∃ outcome, (stored 2).1 = .ok outcome ∧ outcome.records = 1 ∧ outcome.count = some 2 ∧
      Replaying.eval (stored 2).2 MemoryPartition.empty (store.loadMultiparts store.root) =
        ((.error (.corrupt (store.context "loadMultipart") (.truncated (.readingRecord 1 2))),
          MemoryPartition.empty.createMultipart session), (stored 2).2)) ∧
    ∃ outcome sign, (stored 0).1 = .ok outcome ∧ outcome.records = 1 ∧ outcome.count = some 0 ∧
      Replaying.eval (stored 0).2 MemoryPartition.empty (store.loadMultiparts store.root) =
        ((.ok ⟨true, 0, sign⟩, MemoryPartition.empty), (stored 0).2) := by
  intro store session source stored
  have hsessions (n : UInt64) : ((source n).records .multipart).map (Entity.ofRecord Multipart) =
      [session].map .ok :=
    congrArg ([·]) (Multipart.ofRecord_toRecord (by decide +kernel))
  have hsizes (n : UInt64) : ∀ record ∈ (source n).records .multipart,
      record.length < UInt64.size := by
    intro record hrecord
    obtain rfl : record = session.toRecord := List.mem_singleton.1 hrecord
    decide +kernel
  have hcreated : (FileTree.create (.directory [("p", .directory [])])
      (Layout.entityFile store.root .multipart)).isOk = true := by decide +kernel
  obtain ⟨made, hmade⟩ : ∃ made, FileTree.create (.directory [("p", .directory [])])
      (Layout.entityFile store.root .multipart) = .ok made := by
    rcases hcreate : FileTree.create _ _ with failure | made
    · rw [hcreate] at hcreated
      cases hcreated
    · exact ⟨made, rfl⟩
  have hmode : store.options.multipartCount = .extends := rfl
  have hbuffer : 1 ≤ store.options.readBuffer := by decide
  constructor
  · obtain ⟨written, hstore, -, hmore, -⟩ := load_counting_extends (σ := MemoryPartition)
      (n := 2) (m := 1) hmode rfl rfl (hsessions 2) rfl rfl (hsizes 2) rfl hmade hbuffer
    have hstored : stored 2 = _ := hstore
    rw [hstored]
    exact ⟨_, rfl, rfl, rfl, hmore (by decide) MemoryPartition.empty⟩
  · obtain ⟨written, hstore, -, -, hfewer, -⟩ := load_counting_extends (σ := MemoryPartition)
      (n := 0) (m := 1) hmode rfl rfl (hsessions 0) rfl rfl (hsizes 0) rfl hmade hbuffer
    have hstored : stored 0 = _ := hstore
    rw [hstored]
    exact ⟨_, _, rfl, rfl, rfl, hfewer (by decide) MemoryPartition.empty⟩

end

end Store

end PartitionSnapshot
