import PartitionSnapshot.Proofs.Bursts
import PartitionSnapshot.Proofs.Commits
import PartitionSnapshot.Proofs.Effects
import PartitionSnapshot.Proofs.Verifying

/-!
# Files that were tampered with

A file of inodes or of directory entries is read to its end, or reading it fails: whatever its
headers say, a reading that goes through has passed every byte to the checksum. So when a few bytes
in a row are changed, reading fails, or it comes to a checksum that is not the recorded one.

This is said of every generation that was stored, under every root from which its files can be
reached, and of every store that reads it under that root.

## Main statements

* `Store.yields_of_loadFiles`: what a load has read, with any state machine.
* `Store.not_yields_of_burst`: a changed file does not yield the checksum that was recorded.
* `Store.Altered.verify_fails`, `Store.Altered.load_fails`: then neither goes through.
* `Store.tampering_detected`: a few bytes in a row that were changed are always found out.
-/

namespace PartitionSnapshot

namespace Signs

/-- A file of signs records one set of signs. -/
theorem Recorded.unique {answer : Except Failure Bytes} {signs signs' : Signs}
    (h : Recorded answer signs) (h' : Recorded answer signs') : signs' = signs := by
  obtain ⟨content, text, rfl, htext, hparse⟩ := h
  obtain ⟨content', text', hcontent, htext', hparse'⟩ := h'
  cases hcontent
  cases htext.symm.trans htext'
  exact Option.some.inj (hparse'.symm.trans hparse)

theorem recorded_text (signs : Signs) : Recorded (.ok (Bytes.ofString signs.text)) signs :=
  ⟨_, signs.text, rfl, Bytes.toString?_ofString _, parse?_text signs⟩

end Signs

namespace Source

theorem files_name (source : Source) (position : ApplyPosition) (kind : Kind) :
    source.files position kind.name = some (source.content kind) := by
  cases kind <;> rfl

theorem files_signs (source : Source) (position : ApplyPosition) :
    source.files position Layout.signs = some (Bytes.ofString source.signs.text) := rfl

theorem files_apply (source : Source) (position : ApplyPosition) :
    source.files position Layout.apply = some (Bytes.ofString position.text) := rfl

theorem get_signs (source : Source) (kind : Kind) :
    source.signs.get kind = crc32 (source.content kind) := by
  cases kind <;> rfl

end Source

namespace Store

variable {store : Store} {tree after : FileTree} {directory : Path} {kind : Kind}

/-! ## What a load has read -/

/-- A task that goes through only when it has read the file of a kind to its end, and changes
nothing. -/
def ReadsThrough {σ : Type} (store : Store) (tree : FileTree) (directory : Path) (kind : Kind)
    (task : Replaying σ LoadOutcome) : Prop :=
  ∀ {state state' : σ} {outcome : LoadOutcome} {after : FileTree},
    Replaying.eval tree state task = ((.ok outcome, state'), after) →
    after = tree ∧ store.Yields kind (fun _ => True)
      (tree.read (Layout.entityFile directory kind)) outcome.checksum

theorem readsThrough_loadKind {σ : Type} {context : Context} {handle : Bytes → σ → Handled σ} :
    store.ReadsThrough tree directory kind (store.loadKind context directory kind handle) := by
  intro state state' outcome after h
  rw [loadKind_eval] at h
  obtain ⟨hreplay, rfl⟩ := Prod.ext_iff.1 h
  refine ⟨rfl, ?_⟩
  rcases replayed_inv hreplay with ⟨hfound, rfl, -⟩ | ⟨records, checksum, hfound, -, -, rfl⟩
  · exact .absent (finds_of_contentsOf hfound)
  · exact .present (finds_of_contentsOf hfound) fun _ _ => trivial

theorem ReadsThrough.noted {σ : Type} {task : Replaying σ LoadOutcome} {level : Level}
    {text : LoadOutcome → String} (h : store.ReadsThrough tree directory kind task) :
    store.ReadsThrough tree directory kind (do
      let outcome ← task
      if outcome.present then Replaying.log level (text outcome)
      return outcome) :=
  fun hload => h ((eval_loaded _ _ _ _ _).symm.trans hload)

/-- A load of files that goes through has read each of them to its end, and has compared the
checksums as the options ask for it. -/
theorem yields_of_loadFiles {σ : Type} [StateMachine σ] {state state' : σ} {stats : LoadStats}
    {cursor : UInt64} (h : Replaying.eval tree state (store.loadFiles directory) =
      ((.ok (stats, cursor), state'), after)) :
    (∀ kind, store.Yields kind (fun _ => True) (tree.read (Layout.entityFile directory kind))
      (stats.signs.get kind)) ∧
    (Task.eval tree (store.verifyFiles directory stats.signs)).1 = .ok stats.verified := by
  have hloaded : store.FilesLoaded tree directory state stats cursor :=
    filesLoaded (congrArg (fun result => result.1.1) h)
  refine ⟨fun kind => ?_, hloaded.verified⟩
  cases kind with
  | inode =>
    obtain ⟨_, _, hload, hchecksum, -⟩ := hloaded.inode
    exact hchecksum ▸ ((loads_loadInodes store.config.first).yields hload).2.congr
      fun _ _ => trivial
  | dentry =>
    obtain ⟨_, _, _, hload, hchecksum⟩ := hloaded.dentry
    exact hchecksum ▸ (readsThrough_loadKind.noted hload).2
  | extend =>
    obtain ⟨_, _, _, hload, hchecksum⟩ := hloaded.extend
    exact hchecksum ▸ (readsThrough_loadKind.noted hload).2
  | multipart =>
    obtain ⟨_, _, _, hload, hchecksum⟩ := hloaded.multipart
    exact hchecksum ▸ (readsThrough_loadKind.noted hload).2

/-- Where there is a file of signs, a comparison that goes through has found them recorded. -/
theorem recorded_of_judgeSigns {context : Context} {path : Path} {signs : Signs} {content : Bytes}
    {verified : Bool} (h : judgeSigns context path signs (.ok content) = .ok verified) :
    Signs.Recorded (.ok content) signs := by
  have hyes : verified = true := by
    simp only [judgeSigns, bind, Except.bind] at h
    split at h
    · cases h
    · split at h
      · cases h
      · exact (Except.ok.inj h).symm
  exact judgeSigns_eq_true.1 (hyes ▸ h)

/-! ## Bytes that were changed -/

/-- A file without a count is read to its last byte, so a change of up to four bytes in a row is
seen in the checksum, if the file can still be read. -/
theorem not_yields_of_burst (hbuffer : 1 ≤ store.options.readBuffer)
    (hframing : kind.framing = .fixed) {front old new back : Bytes}
    (hlength : new.length = old.length) (hburst : old.length ≤ 4) (hnew : new ≠ old)
    {accepts : Bytes → Prop} :
    ¬ store.Yields kind accepts (.ok (front ++ new ++ back)) (crc32 (front ++ old ++ back)) := by
  intro hyields
  obtain ⟨read, behind, records, hcontent, -, -, hchecksum, hbehind⟩ :=
    (yields_iff_covers hbuffer).1 hyields
  rw [hbehind hframing, List.append_nil] at hcontent
  rw [← hcontent] at hchecksum
  exact crc32_ne_of_burst hlength hburst hnew hchecksum.symm

/-! ## Generations with a changed file -/

/-- Under a root there is the generation of a source, and no backup. The file of a kind holds some
content, its own or another one. -/
structure Altered (tree : FileTree) (root : Path) (source : Source) (kind : Kind)
    (content : Bytes) : Prop where
  file : tree.read (Layout.entityFile (root.join Layout.current) kind) = .ok content
  signs : tree.read ((root.join Layout.current).join Layout.signs) =
    .ok (Bytes.ofString source.signs.text)
  backup : tree.hasDirectory (root.join Layout.backup) = false

/-- Writing over a file of a generation that was stored changes this file only. -/
theorem altered_of_write {source : Source} {position : ApplyPosition} {signs : Signs}
    {tampered : FileTree} {content : Bytes}
    (hstore : Task.eval tree (store.storeSnapshot source position) = (.ok signs, after))
    (hwrite : after.write (Layout.entityFile store.current kind) content = .ok tampered) :
    after.read (Layout.entityFile store.current kind) = .ok (source.content kind) ∧
    tampered.read (applyPath store.root) = .ok (Bytes.ofString position.text) ∧
    Altered tampered store.root source kind content := by
  -- the file is where it was stored, since the path of the root leads there
  obtain ⟨folder, hfolder, -⟩ := FileTree.free_of_write kind.isName_name hwrite
  obtain ⟨place, henter, -, -⟩ := FileTree.enter_of_join (by decide) hfolder
  obtain ⟨rfl, hfiles, hbackup⟩ := storeSnapshot_leaves hstore henter
  have hread : after.read (Layout.entityFile store.current kind) = .ok (source.content kind) :=
    hfiles kind.name _ (source.files_name position kind)
  obtain ⟨tampered', hwrite', hover⟩ :=
    FileTree.overwritten_of_write kind.isName_name hread content
  cases hwrite.symm.trans hwrite'
  have hkept {file : String} (hfile : file ∈ [Layout.signs, Layout.apply]) {stored : Bytes}
      (hstored : source.files position file = some stored) :
      tampered.read (store.current.join file) = .ok stored := by
    have hname : Path.IsName file ∧ file ≠ kind.name := by
      clear hstored
      revert file
      cases kind <;> decide
    rw [hover.read_join kind.isName_name hname.1 hname.2]
    exact hfiles file stored hstored
  refine ⟨hread, hkept (by decide) (source.files_apply position), ?_,
    hkept (by decide) (source.files_signs position), ?_⟩
  · exact hover.read_self (Path.endsInSlash_join _ kind.isName_name)
  · rw [FileTree.hasDirectory_congr hover.sameShape (by decide)]
    exact hbackup

namespace Altered

variable {reader : Store} {source : Source} {content : Bytes}

/-- When no reading of the file comes to its old checksum, what is read is not what is recorded. -/
theorem not_recorded (h : Altered tree reader.root source kind content) {accepts : Bytes → Prop}
    {signs : Signs}
    (hunread : ¬ reader.Yields kind accepts (.ok content) (crc32 (source.content kind)))
    (hyields : reader.Yields kind accepts (tree.read (Layout.entityFile reader.current kind))
      (signs.get kind)) :
    ¬ Signs.Recorded (tree.read (reader.current.join Layout.signs)) signs := by
  intro hrecorded
  rw [current, h.signs] at hrecorded
  cases source.signs.recorded_text.unique hrecorded
  rw [current, h.file, source.get_signs] at hyields
  exact hunread hyields

/-- Then a verification fails. -/
theorem verify_fails (h : Altered tree reader.root source kind content)
    (hunread : ∀ accepts,
      ¬ reader.Yields kind accepts (.ok content) (crc32 (source.content kind))) :
    ∃ error, (Task.eval tree reader.verify).1 = .error error := by
  rcases hresult : (Task.eval tree reader.verify).1 with error | signs
  · exact ⟨error, rfl⟩
  · obtain ⟨-, hyields, hrecorded⟩ := verify_eq_ok.1 hresult
    exact absurd hrecorded (h.not_recorded (hunread _) (hyields kind))

/-- Then a load that verifies fails as well, and as there is no swap to settle it changes
nothing. -/
theorem load_fails (h : Altered tree reader.root source kind content)
    (hunread : ∀ (opened : Store) accepts, opened.options = reader.options →
      ¬ opened.Yields kind accepts (.ok content) (crc32 (source.content kind)))
    (hverify : reader.options.verifyChecksums = true) {σ : Type} [StateMachine σ] (state : σ) :
    ∃ error store' state',
      (reader.load state).eval tree = ((.error error, store', state'), tree) := by
  have hsettled : Settles reader.root tree tree := .untouched h.backup
  rcases hload : (reader.load state).eval tree
    with ⟨⟨error | partition, store', state'⟩, final⟩
  · refine ⟨error, store', state', ?_⟩
    rcases load_refused hload with rfl | hsettles
    · rfl
    · rw [hsettled.unique hsettles]
  · -- a load that goes through has compared what it has read with what is recorded
    obtain ⟨mid, cursor, hrestores, hloaded⟩ := load_granted hload
    cases hsettled.unique hrestores.settles
    cases hrestores.store_eq
    have hroot : ({ reader with config := partition.config } : Store).root = reader.root :=
      (identityOf_eq_ok hrestores.identity).1
    rw [← hroot] at h
    obtain ⟨hyields, hverified⟩ := yields_of_loadFiles hloaded
    rw [verifyFiles_eval, if_pos hverify, current, h.signs] at hverified
    refine absurd ?_ (h.not_recorded (hunread _ _ rfl) (hyields kind))
    rw [current, h.signs]
    exact recorded_of_judgeSigns hverified

end Altered

/-- **Tampering is detected.** A source was stored, in whatever tree, and in the file of its inodes
or of its directory entries up to four bytes in a row were replaced by others, not all the same.
Then a verification fails, whatever the options of the store that reads, as long as it reads with a
buffer. And if these options ask for it, a load fails with every state machine, and leaves the tree
as it was; so the apply file still holds the position that was stored. -/
theorem tampering_detected (store reader : Store) (source : Source) (position : ApplyPosition)
    {tree after tampered : FileTree} {signs : Signs}
    (hstore : Task.eval tree (store.storeSnapshot source position) = (.ok signs, after))
    (hroot : reader.root = store.root) (hbuffer : 1 ≤ reader.options.readBuffer) {kind : Kind}
    (hkind : kind = .inode ∨ kind = .dentry) {front old new back : Bytes}
    (hcontent : source.content kind = front ++ old ++ back) (hlength : new.length = old.length)
    (hburst : old.length ≤ 4) (hnew : new ≠ old)
    (hwrite : after.write (Layout.entityFile store.current kind) (front ++ new ++ back) =
      .ok tampered) :
    after.read (Layout.entityFile store.current kind) = .ok (front ++ old ++ back) ∧
    tampered.read (applyPath store.root) = .ok (Bytes.ofString position.text) ∧
    (∃ error, (Task.eval tampered reader.verify).1 = .error error) ∧
    (reader.options.verifyChecksums = true → ∀ {σ : Type} [StateMachine σ] (state : σ),
      ∃ error store' state',
        (reader.load state).eval tampered = ((.error error, store', state'), tampered)) := by
  obtain ⟨hread, happly, haltered⟩ := altered_of_write hstore hwrite
  rw [← hroot] at haltered
  have hframing : kind.framing = .fixed := by
    rcases hkind with rfl | rfl <;> rfl
  have hunread (opened : Store) (accepts : Bytes → Prop) (h : opened.options = reader.options) :
      ¬ opened.Yields kind accepts (.ok (front ++ new ++ back)) (crc32 (source.content kind)) := by
    rw [hcontent]
    exact not_yields_of_burst (h ▸ hbuffer) hframing hlength hburst hnew
  exact ⟨hcontent ▸ hread, happly, haltered.verify_fails (hunread reader · rfl),
    fun hverify _ _ state => haltered.load_fails hunread hverify state⟩

/-- A header that was changed: it says that the record is four bytes shorter, and behind the record
there is a header of none. -/
theorem tampering_detected_header :
    let store := sample "p"
    let source := (Records.empty.pushEntity ({ id := 2 } : Inode)).source
    let stored := Task.eval (identified []) (store.storeSnapshot source ⟨3, 5⟩)
    let content := source.content .inode
    content = content.take 3 ++ [76] ++ content.drop 4 ∧ content.drop 76 = [0, 0, 0, 0] ∧
    ∃ tampered, stored.2.write (Layout.entityFile store.current .inode)
        (content.take 3 ++ [72] ++ content.drop 4) = .ok tampered ∧
      (∃ error, (Task.eval tampered store.verify).1 = .error error) ∧
      ∃ error store' state', (store.load MemoryPartition.empty).eval tampered =
        ((.error error, store', state'), tampered) := by
  intro store source stored content
  have hcontent : content = content.take 3 ++ [76] ++ content.drop 4 := by decide +kernel
  have hlength : ([72] : Bytes).length = ([76] : Bytes).length := rfl
  obtain ⟨signs, hstored⟩ : ∃ signs, stored = (.ok signs, stored.2) :=
    eq_ok_of_isOk (by decide +kernel)
  have hwritten : (stored.2.write (Layout.entityFile store.current .inode)
      (content.take 3 ++ [72] ++ content.drop 4)).toOption.isSome = true := by decide +kernel
  rcases hwrite : stored.2.write (Layout.entityFile store.current .inode)
    (content.take 3 ++ [72] ++ content.drop 4) with failure | tampered
  · rw [hwrite] at hwritten
    cases hwritten
  · obtain ⟨-, -, hverify, hload⟩ := tampering_detected store store source ⟨3, 5⟩ hstored rfl
      (by decide) (.inl rfl) hcontent hlength (by decide) (by decide) hwrite
    exact ⟨hcontent, by decide +kernel, tampered, rfl, hverify, hload rfl MemoryPartition.empty⟩

end Store

end PartitionSnapshot
