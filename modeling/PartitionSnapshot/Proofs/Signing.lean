import PartitionSnapshot.Proofs.Tampering

/-!
# Stores sign what they verify

Storing signs the bytes that it writes, frame by frame; verifying signs what it reads back from the
headers and records that it finds; and between the two the checksums stand as decimal numbers in a
text file. For a generation that was just stored all three are the same: the checksums of the files
as they stand there.

What can come in between is the path of the root. A path through a directory in which generations
are kept may lead nowhere once the generation is stored, and then there is nothing to verify. Any
other path leads where it did.

## Main statements

* `Store.enter_of_storeSnapshot`: roots that lead where they did.
* `Store.verify_of_storeSnapshot`: what is stored is verified.
-/

namespace PartitionSnapshot

namespace FileTree

variable {tree : FileTree} {root : Path} {name file : String} {content : Bytes}

/-- A file that can be read stands in a directory. -/
theorem hasDirectory_of_read_file (hname : Path.IsName name) (hfile : Path.IsName file)
    (h : tree.read ((root.join name).join file) = .ok content) :
    tree.hasDirectory (root.join name) = true := by
  have hcheck : checkPath ((root.join name).join file) = .ok () := by
    cases hcheck : checkPath ((root.join name).join file) with
    | ok _ => rfl
    | error failure =>
      rw [read_of_checkPath hcheck] at h
      cases h
  obtain ⟨folder, -, hfolder, -⟩ := entry_of_read hfile h
  obtain ⟨place, henter, -, hdirectory⟩ := enter_of_join hname hfolder
  -- where the path of the file is accepted, so is the shorter one of its directory
  have hroom := Layout.Room.of_checkPath hname hcheck
  exact (hasDirectory_join hname).2 ⟨hroom.join hname (by omega), place, henter, hdirectory⟩

end FileTree

namespace Store

variable {writer reader : Store} {source : Source} {position : ApplyPosition} {signs : Signs}
variable {tree after : FileTree} {place : List String}

/-- A root that leads through none of its generations is found again when one was stored. -/
theorem enter_of_storeSnapshot (hroot : tree.view.Rooted writer.root place)
    (hstore : Task.eval tree (writer.storeSnapshot source position) = (.ok signs, after)) :
    after.view.enter [] writer.root.steps = some place := by
  obtain ⟨-, haccepted⟩ := storable_of_storeSnapshot hstore
  have hafter := (holds_of_storeSnapshot hroot haccepted (FileTree.Holds.self tree place) hstore).2
  exact (hafter.rooted hroot).enter

/-- **What is stored is verified.** When a generation was stored whose records all decode, and the
root can still be reached, any store with room in its buffer verifies it and gives the same signs.
They are the checksums of the files as they stand there, and the text in the file of signs is read
back as the signs. -/
theorem verify_of_storeSnapshot (hbuffer : 1 ≤ reader.options.readBuffer)
    (hsame : reader.root = writer.root)
    (hstore : Task.eval tree (writer.storeSnapshot source position) = (.ok signs, after))
    (hdecodes : ∀ kind, ∀ record ∈ source.records kind, kind.check record = .ok ())
    (haddressable : ∀ kind, ∀ record ∈ source.records kind, record.length < UInt64.size)
    (henter : after.view.enter [] writer.root.steps = some place) :
    (Task.eval after reader.verify).1 = .ok signs ∧
    (∀ kind, ∃ content, after.read (Layout.entityFile reader.current kind) = .ok content ∧
      signs.get kind = crc32 content) ∧
    after.read (reader.current.join Layout.signs) = .ok (Bytes.ofString signs.text) ∧
    Signs.parse? signs.text = some signs := by
  obtain ⟨hstorable, -⟩ := storable_of_storeSnapshot hstore
  obtain ⟨rfl, hfiles, -⟩ := storeSnapshot_leaves hstore henter
  have hcurrent : reader.current = writer.current := congrArg (·.join Layout.current) hsame
  rw [hcurrent]
  have hkind (kind : Kind) :
      after.read (Layout.entityFile writer.current kind) = .ok (source.content kind) :=
    hfiles kind.name _ (source.files_name position kind)
  have hsigns : after.read (writer.current.join Layout.signs) =
      .ok (Bytes.ofString source.signs.text) :=
    hfiles Layout.signs _ (source.files_signs position)
  refine ⟨?_, fun kind => ⟨_, hkind kind, source.get_signs kind⟩, hsigns,
    Signs.parse?_text source.signs⟩
  rw [verify_eq_ok, hcurrent, hsigns]
  refine ⟨?_, fun kind => ?_, source.signs.recorded_text⟩
  · exact FileTree.hasDirectory_of_read_file (by decide) (by decide) hsigns
  · -- from each file its records are read back, with the checksum of all that is in it
    rw [hkind, source.get_signs]
    apply Yields.present
    · intro context path
      exact contentsOf_file hbuffer hstorable haddressable context path kind
    · exact hdecodes kind

/-- An inode that does not belong to the partition is stored and verified all the same. -/
theorem verify_of_storeSnapshot_foreign :
    let store := sample "p"
    let source := (Records.empty.push .inode (Inode.toRecord { id := 5000 })).source
    let stored := Task.eval (.directory [("p", .directory [])]) (store.storeSnapshot source ⟨3, 5⟩)
    store.config.owns 5000 = false ∧ ∃ signs, stored.1 = .ok signs ∧
      (Task.eval stored.2 store.verify).1 = .ok signs ∧
      ∃ content, stored.2.read (Layout.entityFile store.current .inode) = .ok content ∧
        signs.inode = crc32 content := by
  intro store source stored
  have hok : stored.1.isOk = true := by decide +kernel
  have hroot : View.Rooted (FileTree.directory [("p", .directory [])]).view store.root ["p"] := by
    decide +kernel
  have hdecodes : ∀ kind, ∀ record ∈ source.records kind, kind.check record = .ok () := by
    intro kind record hrecord
    cases kind with
    | inode =>
      obtain rfl : record = Inode.toRecord { id := 5000 } := List.mem_singleton.1 hrecord
      rw [Kind.check, Inode.ofRecord_toRecord (by decide)]
      rfl
    | dentry => cases hrecord
    | extend => cases hrecord
    | multipart => cases hrecord
  have haddressable : ∀ kind, ∀ record ∈ source.records kind, record.length < UInt64.size := by
    intro kind
    cases kind <;> decide +kernel
  rcases hstored : stored with ⟨error | signs, after⟩
  · rw [hstored] at hok
    cases hok
  · obtain ⟨hverify, hfiles, -⟩ := verify_of_storeSnapshot
      (by decide : 1 ≤ store.options.readBuffer) rfl hstored hdecodes haddressable
      (enter_of_storeSnapshot hroot hstored)
    obtain ⟨content, hread, hsign⟩ := hfiles .inode
    exact ⟨by decide, signs, rfl, hverify, content, hread, hsign⟩

/-- A root that leads through the staging directory cannot be reached once that has been moved, and
what was stored is not found. -/
theorem verify_of_storeSnapshot_lost :
    let store := sample "p/.snapshot/.."
    let stored := Task.eval (identified [(Layout.staging, .directory [])])
      (store.storeSnapshot Records.empty.source ⟨3, 5⟩)
    stored.1 = .ok Records.empty.source.signs ∧
      (∀ kind, ∀ record ∈ Records.empty.source.records kind, kind.check record = .ok ()) ∧
      1 ≤ store.options.readBuffer ∧ (Task.eval stored.2 store.verify).1.isOk = false := by
  refine ⟨eq_ok_of_toOption (by decide +kernel), fun kind => ?_, by decide, by decide +kernel⟩
  cases kind <;> exact fun _ hrecord => nomatch hrecord

end Store

end PartitionSnapshot
