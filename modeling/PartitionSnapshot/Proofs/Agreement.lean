import PartitionSnapshot.Proofs.Verifying

/-!
# Loading and verification agree

Loading and verification read the same four files, the one to take their records in and the other
to look at them. Loading asks for two things more: that the inodes belong to the partition, and that
the apply file, if there is one, holds a position. But for these two they accept the same
generations, and with the same signs.

The one exception are roots whose path leads through the backup: loading removes a backup that
stands beside the current generation, and is left without a root, where verification removes
nothing.

## Main statements

* `Store.yields_takes_iff`: what loading asks of a file, beside what verification asks.
* `Store.load_iff_verify`: when a load goes through with checksums that were verified.
-/

namespace PartitionSnapshot

open FileTree (Holds)

namespace Store

variable {store : Store} {kind : Kind} {answer : Except Failure Bytes} {checksum : UInt32}
variable {signs : Signs}

/-! ## What loading asks beside verification -/

/-- The inodes in the inode file, by the answer to its reading, belong to the partition. -/
def OwnsInodes (store : Store) (answer : Except Failure Bytes) : Prop :=
  ∀ contents, store.Finds .inode answer (some contents) →
    ∀ inode ∈ Entity.ofRecords Inode contents.records, store.config.owns inode.id = true

/-- Of the file of a kind loading asks what verification asks, and of the inodes in addition that
they belong to the partition. -/
theorem yields_takes_iff : store.Yields kind (store.config.Takes kind) answer checksum ↔
    store.Yields kind (fun record => kind.check record = .ok ()) answer checksum ∧
      (kind = .inode → store.OwnsInodes answer) := by
  constructor
  · intro hyields
    refine ⟨hyields.congr fun record htakes => htakes.decodes, ?_⟩
    rintro rfl contents hcontents inode hinode
    obtain ⟨record, hrecord, hof⟩ := List.mem_filterMap.1 hinode
    exact (hyields.accepted hcontents record hrecord).owned rfl inode (eq_ok_of_toOption hof)
  · rintro ⟨hyields, howns⟩
    -- a record that was found in the file is asked for its inode
    have howned : ∀ contents, store.Finds kind answer (some contents) →
        ∀ record ∈ contents.records, kind = .inode → ∀ inode,
          Entity.ofRecord Inode record = .ok inode → store.config.owns inode.id = true := by
      rintro contents hcontents record hrecord rfl inode hinode
      refine howns rfl contents hcontents inode (List.mem_filterMap.2 ⟨record, hrecord, ?_⟩)
      rw [hinode]
      rfl
    exact (hyields.and howned).congr fun record h => ⟨h.1, h.2⟩

theorem yields_takes_forall (reads : Kind → Except Failure Bytes) :
    (∀ kind, store.Yields kind (store.config.Takes kind) (reads kind) (signs.get kind)) ↔
      (∀ kind, store.Yields kind (fun record => kind.check record = .ok ()) (reads kind)
        (signs.get kind)) ∧ store.OwnsInodes (reads .inode) := by
  simp only [yields_takes_iff]
  constructor
  · exact fun h => ⟨fun kind => (h kind).1, (h .inode).2 rfl⟩
  · rintro ⟨hyields, howns⟩ kind
    exact ⟨hyields kind, by rintro rfl; exact howns⟩

/-! ## The agreement -/

/-- **When a load goes through with checksums that were verified**: verification goes through with
the same checksums, all inodes in the inode file belong to the partition, and the apply file, if
there is one, holds a position. -/
theorem load_iff_verify {σ : Type} [StateMachine σ] [StateMachine.Accepting σ] (store : Store)
    {tree : FileTree} {place : List String} (hroot : tree.view.Rooted store.root place)
    (hpersisted : store.Persisted tree.view place)
    (hverifies : store.options.verifyChecksums = true)
    (hcurrent : tree.view (place ++ [Layout.current]) = some .directory) (state : σ)
    (signs : Signs) :
    (∃ partition, (store.restored state tree).1 = .ok partition ∧
        partition.stats.signs = signs ∧ partition.stats.verified = true) ↔
      (Task.eval tree store.verify).1 = .ok signs ∧
        store.OwnsInodes (tree.read (Layout.entityFile store.current .inode)) ∧
        ApplyPosition.Legible (tree.read (store.current.join Layout.apply)) := by
  have h : Holds tree.view place (tree.view.generations place) tree := Holds.self tree place
  have hdirectory : (tree.view.generations place).current [] = some .directory := by
    rw [← h.at_current, hcurrent]
  by_cases hreadable : Layout.Readable store.root
  · have hread {file : String} (hfile : file ∈ Layout.files) :
        (tree.view.generations place).recovered.current.readFile file =
          tree.read (store.current.join file) := by
      -- recovery leaves the current generation as it is
      rw [Generations.recovered_current_of_directory hdirectory,
        readFile_of_holds hroot hreadable h hfile]
    have hentity (kind : Kind) :
        (tree.view.generations place).recovered.current.readFile kind.name =
          tree.read (Layout.entityFile store.current kind) := hread (Layout.mem_files kind)
    have hpresent : tree.hasDirectory store.current = true := by
      rw [hasDirectory_current hroot hreadable h]
      exact decide_eq_true hdirectory
    rw [restored_eq_ok hroot hreadable hpersisted h (View.noFile_of_directory hdirectory),
      if_pos hverifies, judgeSigns_eq_true, verify_eq_ok, hread (by decide), hread (by decide)]
    simp only [hentity, hpresent, true_and, yields_takes_forall]
    exact ⟨fun ⟨⟨hyields, howns⟩, hrecorded, happly⟩ => ⟨⟨hyields, hrecorded⟩, howns, happly⟩,
      fun ⟨⟨hyields, hrecorded⟩, howns, happly⟩ => ⟨⟨hyields, howns⟩, hrecorded, happly⟩⟩
  · -- neither reads the last of the files, whose path is too long
    constructor
    · rintro ⟨partition, hpartition, -⟩
      exact absurd (readable_of_restored hroot hpersisted hpartition) hreadable
    · rintro ⟨hverify, -⟩
      obtain ⟨-, hyields, -⟩ := verify_eq_ok.1 hverify
      exact absurd (hyields .multipart).checkPath hreadable

set_option maxRecDepth 2000 in
/-- A generation with records of every kind is loaded, so it is verified with the same signs. -/
theorem load_iff_verify_records :
    let store := sample "p"
    let content := sampleRecords.source.content
    let tree := identified [(Layout.current, .directory [
      ("inode", .file (content .inode)), ("dentry", .file (content .dentry)),
      ("extend", .file (content .extend)), ("multipart", .file (content .multipart)),
      ("apply", .file (Bytes.ofString "3|5")),
      (".sign", .file (Bytes.ofString "322850435 1015459928 1636877065 1105108830"))])]
    let signs : Signs := ⟨322850435, 1015459928, 1636877065, 1105108830⟩
    (∃ partition, (store.restored MemoryPartition.empty tree).1 = .ok partition ∧
      partition.stats.inodes = 2 ∧ partition.stats.multiparts = 1 ∧
      partition.stats.signs = signs ∧ partition.stats.verified = true) ∧
    (Task.eval tree store.verify).1 = .ok signs := by
  intro store content tree signs
  have hload : (store.restored MemoryPartition.empty tree).1 =
      .ok ⟨store.config, ⟨3, 5⟩, 2, 1, 1, 1, signs, true⟩ := eq_ok_of_toOption (by decide +kernel)
  have hroot : tree.view.Rooted store.root ["p"] := by decide +kernel
  have hcurrent : tree.view (["p"] ++ [Layout.current]) = some .directory := by decide +kernel
  have hagree := load_iff_verify store hroot (persisted_identified (by decide) _) rfl hcurrent
    MemoryPartition.empty signs
  exact ⟨⟨_, hload, rfl, rfl, rfl, rfl⟩, (hagree.1 ⟨_, hload, rfl, rfl⟩).1⟩

/-- Under a root that is reached through the backup the generation is verified, and loading it does
not come to verified checksums: recovery removes the backup, and with it the way to the files. -/
theorem load_of_verify_lost :
    let store := sample "p/.snapshot_backup/.."
    let tree := identified [(Layout.current, recordless ⟨3, 5⟩), (Layout.backup, .directory [])]
    let signs : Signs := ⟨0, 0, 3523407757, 3523407757⟩
    (Task.eval tree (loadMetadata store.root)).1 = .ok store.config ∧
    tree.view ["p", Layout.current] = some .directory ∧
    (Task.eval tree store.verify).1 = .ok signs ∧
    store.OwnsInodes (tree.read (Layout.entityFile store.current .inode)) ∧
    ApplyPosition.Legible (tree.read (store.current.join Layout.apply)) ∧
    ¬ ∃ partition, (store.restored MemoryPartition.empty tree).1 = .ok partition ∧
      partition.stats.signs = signs ∧ partition.stats.verified = true := by
  intro store tree signs
  refine ⟨eq_ok_of_toOption (by decide +kernel), by decide +kernel,
    eq_ok_of_toOption (by decide +kernel), ?_, ?_, ?_⟩
  · have hread : tree.read (Layout.entityFile store.current .inode) = .ok [] :=
      eq_ok_of_toOption (by decide +kernel)
    have hrecords : (Contents.ofKind .inode (store.source .inode [])).records = [] := by
      decide +kernel
    rw [hread]
    intro contents hcontents inode hinode
    cases Option.some.inj (Except.ok.inj (hcontents (store.context "") default))
    rw [hrecords] at hinode
    cases hinode
  · have hread : tree.read (store.current.join Layout.apply) = .ok (Bytes.ofString "3|5") :=
      eq_ok_of_toOption (by decide +kernel)
    rw [hread]
    have hparse : ApplyPosition.parse? "3|5" = some (3, some 5) := by decide +kernel
    exact .present (by decide +kernel) (Utf8.decode_ofString _) hparse
  · rintro ⟨partition, hpartition, -, hverified⟩
    have hlost : (store.restored MemoryPartition.empty tree).1 =
        .ok ⟨store.config, ⟨0, 1⟩, 0, 0, 0, 0, {}, false⟩ := eq_ok_of_toOption (by decide +kernel)
    cases hpartition.symm.trans hlost
    cases hverified

end Store

end PartitionSnapshot
