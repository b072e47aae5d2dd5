import PartitionSnapshot.Proofs.Documents
import PartitionSnapshot.Proofs.Replacing
import PartitionSnapshot.Proofs.Restoring

/-!
# Identities that outlast a replacement

Wherever the replacement of an identity is cut short, and whenever it fails, a reader finds the
identity that was there or the new one as a whole. No staging file stays, unless the root leaves no
room for its name, so that the system accepts no path to it.

Two kinds of roots lead elsewhere once missing directories were made: those that go up again out of
a missing directory, and those that go on from there with a name that is too long.

## Main statements

* `Store.persistMetadata_atomic`: what is read after a crash, and what is left at the end.
* `Store.persistMetadata_elsewhere`: the exceptions.
-/

namespace PartitionSnapshot.Store

open FileTree (HasEntry checkPath maxName)

variable {store : Store} {tree after : FileTree} {place : List String} {node : Option Node}
variable {name : String} {failure : Failure}

/-! ## What is read -/

/-- An identity that was written is read back. -/
theorem decodeMetadata_encode {config : Config} (hvalid : config.check = .ok ()) :
    decodeMetadata config.root config.encode = .ok config := by
  have hcontent : config.encode.isEmpty = false := rfl
  unfold decodeMetadata
  simp only [hcontent, Config.decode_encode, hvalid]
  rfl

/-- What a reader of the identity finds is a matter of what it reads at its path. -/
theorem loadMetadata_congr {root : Path}
    (h : after.read (root.join Layout.metadata) = tree.read (root.join Layout.metadata)) :
    (Task.eval after (loadMetadata root)).1 = (Task.eval tree (loadMetadata root)).1 := by
  rw [loadMetadata_run, loadMetadata_run, h]

/-- A new identity that is in its place is read. -/
theorem loadMetadata_of_hasEntry (hvalid : store.config.check = .ok ())
    (hcheck : checkPath (store.root.join Layout.metadata) = .ok ())
    (h : HasEntry store.root place Layout.metadata (some (.file store.config.encode)) tree) :
    (Task.eval tree (loadMetadata store.root)).1 = .ok store.config := by
  have hlocate := FileTree.locate_join h.enter isName_metadata
  rw [hcheck] at hlocate
  have hread := FileTree.read_entry hlocate (Path.endsInSlash_join _ isName_metadata)
  rw [h.entry] at hread
  rw [loadMetadata_run, hread]
  exact decodeMetadata_encode hvalid

/-! ## What is refused -/

/-- Where the root cannot be made, nothing else is done. -/
theorem persistMetadata_of_refused (hvalid : store.config.check = .ok ())
    (hmade : tree.makeDirectories store.root = (.error failure, after)) :
    Task.eval tree store.persistMetadata =
      (.error (.storage (store.context "persistMetadata") (.creating store.root) failure),
        after) := by
  have hmaking : Task.eval tree (Task.ofProcedure (.makeDirectories store.root)
      (.storage (store.context "persistMetadata") (.creating store.root))) =
        (.error (.storage (store.context "persistMetadata") (.creating store.root) failure),
          after) := by
    rw [Task.eval_ofProcedure, Procedure.eval_makeDirectories, hmade]
  unfold persistMetadata
  dsimp only
  rw [hvalid, Task.eval_bind_ok _ (Task.eval_ofExcept tree _ _)]
  exact Task.eval_bind_error _ hmaking

/-- Where the system does not accept the path of the staging file, nothing is changed. -/
theorem persistMetadata_of_rejected (hvalid : store.config.check = .ok ())
    (hroot : checkPath store.root = .ok ())
    (henter : tree.view.enter [] store.root.steps = some place)
    (htop : tree.view [] = some .directory)
    (hstaging : checkPath store.metadataStaging = .error failure) :
    ∃ error, Task.eval tree store.persistMetadata = (.error error, tree) := by
  have hmade : (Procedure.makeDirectories store.root).eval tree = (.ok (), tree) := by
    have hok := (FileTree.enter_makeDirectoriesAlong htop store.root.steps).2
    have hsame := FileTree.makeDirectoriesAlong_of_enter henter
    rw [hsame] at hok
    rw [Procedure.eval_makeDirectories, FileTree.makeDirectories, hroot]
    exact Prod.ext (hok ⟨place, henter⟩) hsame
  have hlocate : tree.locate store.metadataStaging = .error failure :=
    FileTree.locate_of_refused hstaging
  have hcreate : (Procedure.create store.metadataStaging).eval tree = (.error failure, tree) := by
    have hwrite : tree.write store.metadataStaging [] = .error failure := by
      rw [FileTree.write, hlocate]
      rfl
    rw [Procedure.eval_create, FileTree.create, hwrite]
    rfl
  have hremove : tree.removeFile store.metadataStaging = .error failure := by
    rw [FileTree.removeFile, hlocate]
    rfl
  have hreplace (context : Context) : Task.eval tree (store.replaceMetadata context
      store.metadataStaging (store.root.join Layout.metadata)) =
        (.error (.storage context (.writing store.metadataStaging) failure), tree) := by
    apply Task.eval_bind_error
    rw [Task.eval_ofProcedure, hcreate]
  unfold persistMetadata
  dsimp only
  rw [hvalid, Task.eval_bind_ok _ (Task.eval_ofExcept tree _ _),
    Task.eval_bind_ok _ (Task.eval_ofProcedure_ok _ hmade),
    Task.eval_bind_ok _ (Task.eval_attempt tree _), ← metadataStaging, hreplace,
    Task.eval_bind_ok _ (Task.eval_lift tree _), removeStaging_eval, hremove]
  exact ⟨_, Task.eval_bind_error _ (Task.eval_ofExcept tree _ _)⟩

/-- In an empty tree, a root whose last name is too long, inside a directory that is missing, is
refused for that name only once the directory was made. -/
theorem persistMetadata_overlong (hvalid : store.config.check = .ok ())
    (hsteps : store.root.steps = [.down "x", .down name]) (hlong : maxName < name.utf8ByteSize)
    (hcheck : checkPath (store.root.join Layout.metadata) = .ok ()) :
    let persisted := Task.eval (.directory []) store.persistMetadata
    persisted.1.isOk = false ∧
      (Task.eval (.directory []) (loadMetadata store.root)).1 =
        .error (.notFound ⟨"loadMetadata", 0⟩ (store.root.join Layout.metadata)) ∧
      (Task.eval persisted.2 (loadMetadata store.root)).1 =
        .error (.storage ⟨"loadMetadata", 0⟩ (.reading (store.root.join Layout.metadata))
          (.system .nameTooLong)) := by
  have hmade : (FileTree.directory []).makeDirectories store.root =
      (.error (.system .nameTooLong), .directory [("x", .directory [])]) := by
    rw [FileTree.makeDirectories, FileTree.checkPath_of_join hcheck, hsteps]
    exact FileTree.makeDirectoriesAlong_overlong hlong
  have hlocate (tree : FileTree) : tree.locate (store.root.join Layout.metadata) =
      tree.follow [] [.down "x", .down name, .down Layout.metadata] := by
    rw [FileTree.locate_of_follow (Path.isEmpty_join _ isName_metadata) hcheck,
      Path.steps_join _ isName_metadata, hsteps]
    rfl
  rw [persistMetadata_of_refused hvalid hmade]
  refine ⟨rfl, ?_, ?_⟩
  · rw [loadMetadata_run, FileTree.read_of_locate_error (hlocate _)]
    rfl
  · have hafter : (FileTree.directory [("x", .directory [])]).read
        (store.root.join Layout.metadata) = .error (.system .nameTooLong) := by
      apply FileTree.read_of_locate_error
      rw [hlocate, FileTree.follow_down (by simp), if_neg (by decide)]
      show FileTree.follow _ ["x"] [.down name, .down Layout.metadata] = _
      rw [FileTree.follow_down (by simp), if_pos hlong]
      rfl
    rw [loadMetadata_run, hafter]
    rfl

/-! ## Roots -/

/-- A path to a directory with a name that is too long. -/
def manyLetters : String := "x/" ++ String.ofList (List.replicate 256 'n')

theorem toList_letters (n : Nat) :
    ("x/" ++ String.ofList (List.replicate n 'n')).toList = 'x' :: '/' :: List.replicate n 'n' := by
  simp [String.toList_append]

theorem steps_letters : (sample manyLetters).root.steps =
    [.down "x", .down (String.ofList (List.replicate 256 'n'))] := by
  have hcomponents : Path.componentsFrom [] ('x' :: '/' :: List.replicate 256 'n') =
      [['x'], List.replicate 256 'n'] := by decide +kernel
  have htext : (sample manyLetters).root.text.toList = 'x' :: '/' :: List.replicate 256 'n' :=
    toList_letters 256
  rw [Path.steps, htext, hcomponents, List.map_cons, List.map_singleton]
  decide +kernel

theorem checkPath_letters :
    checkPath ((sample manyLetters).root.join Layout.metadata) = .ok () := by
  have htext : (sample manyLetters).root.text.toList = 'x' :: '/' :: List.replicate 256 'n' :=
    toList_letters 256
  have hroom : Layout.Room (sample manyLetters).root 4 := by
    apply Layout.Room.of_text
    · rw [htext]
      decide +kernel
    · decide +kernel
  exact hroom.join isName_metadata (by decide)

theorem checkPath_slashes {n : Nat} (h : n + 1 ≤ FileTree.maxPath) :
    checkPath (sample ("p" ++ String.ofList (List.replicate n '/'))).root = .ok () := by
  have hnull : ("p" ++ String.ofList (List.replicate n '/')).toList.contains '\x00' = false := by
    simp [String.toList_append]
  exact FileTree.checkPath_eq_ok.2 ⟨hnull, Nat.le_trans (Nat.le_of_eq (size_slashes n)) h⟩

/-- With that many slashes the path of the staging file is too long. -/
theorem refused_slashes {n : Nat} (h : FileTree.maxPath < n + 6) :
    ∃ failure, checkPath
      (sample ("p" ++ String.ofList (List.replicate n '/'))).metadataStaging = .error failure := by
  cases hstaging : checkPath
      (sample ("p" ++ String.ofList (List.replicate n '/'))).metadataStaging with
  | error failure => exact ⟨failure, rfl⟩
  | ok _ =>
    have hbytes := (FileTree.checkPath_eq_ok.1 hstaging).2
    have hstem := Path.size_text_le (sample ("p" ++ String.ofList (List.replicate n '/'))).root
    have htext : (sample ("p" ++ String.ofList (List.replicate n '/'))).root.text.utf8ByteSize =
        n + 1 := size_slashes n
    have hname : Layout.metadataStaging.utf8ByteSize = 5 := by decide
    rw [metadataStaging, Path.text_join, String.utf8ByteSize_append] at hbytes
    omega

/-! ## The main statements -/

/-- **The identity of a partition is replaced as a whole.** Wherever an execution of persisting is
cut short, and also when it fails, the identity that is read is the one that was read before, but
for directories that were made on the way to the root; from the rename on it is the new one.
Persisting succeeds if and only if the file was renamed, and however it ends, the path of the
staging file leads to nothing, unless to a directory.

The directories make no difference to a root that goes straight down behind the first of them. -/
theorem persistMetadata_atomic (store : Store) {tree after : FileTree} {granted : List Request}
    {ending : Ending (Except Error Unit)} (hvalid : store.config.check = .ok ())
    (hdirectory : tree.isDirectory = true)
    (hexecution : Execution store.persistMetadata.run tree granted after ending) :
    (store.replacing ∉ granted →
      (∃ steps, steps <+: store.root.steps ∧
        (Task.eval after (loadMetadata store.root)).1 =
          (Task.eval (tree.makeDirectoriesAlong steps).2 (loadMetadata store.root)).1) ∧
      (tree.view.Straight store.root →
        (Task.eval after (loadMetadata store.root)).1 =
          (Task.eval tree (loadMetadata store.root)).1)) ∧
    (store.replacing ∈ granted →
      (Task.eval after (loadMetadata store.root)).1 = .ok store.config) ∧
    ∀ result, ending = .finished result →
      (result = .ok () ↔ store.replacing ∈ granted) ∧
      ∀ found, after.find store.metadataStaging = .ok found → found.isDirectory = true := by
  have htop : tree.view [] = some .directory := by
    cases tree with
    | file content => cases hdirectory
    | directory children => rfl
  cases persistMetadata_execution hvalid htop hexecution with
  | making hsteps hgranted hafter hending =>
    refine ⟨fun _ => ⟨⟨_, hsteps, by rw [hafter]⟩, fun hstraight => loadMetadata_congr ?_⟩,
      fun hmem => absurd hmem hgranted, ?_⟩
    · rw [hafter]
      exact FileTree.read_makeDirectoriesAlong htop hstraight isName_metadata hsteps
    · intro result hresult
      obtain ⟨⟨error, rfl⟩, hnowhere⟩ := hending result hresult
      exact ⟨iff_of_false nofun hgranted, fun found hfound => absurd hfound (hnowhere found)⟩
  | writing hgranted hmade hentry hending =>
    have hread := FileTree.HasEntry.read_eq isName_metadata hmade hentry
    refine ⟨fun _ => ⟨⟨_, List.prefix_rfl, loadMetadata_congr hread⟩,
      fun hstraight => loadMetadata_congr (hread.trans ?_)⟩, fun hmem => absurd hmem hgranted, ?_⟩
    · exact FileTree.read_makeDirectoriesAlong htop hstraight isName_metadata List.prefix_rfl
    · intro result hresult
      obtain ⟨⟨error, rfl⟩, hgone⟩ := hending result hresult
      exact ⟨iff_of_false nofun hgranted, hgone⟩
  | replaced hgranted hcheck hentry hending =>
    refine ⟨fun hmem => absurd hgranted hmem,
      fun _ => loadMetadata_of_hasEntry hvalid hcheck hentry, ?_⟩
    intro result hresult
    obtain ⟨rfl, hgone⟩ := hending result hresult
    exact ⟨iff_of_true rfl hgranted, hgone⟩

theorem persistMetadata_atomic_volume :
    let store : Store := ⟨{ (sample "p").config with volume := "other" }, {}⟩
    let tree := identified [(Layout.metadataStaging, .file [0x7B])]
    let crashed := store.persistMetadata.run.cut tree 3
    let persisted := Task.eval tree store.persistMetadata
    (store.replacing ∉ crashed.1 ∧
      crashed.2.view ["p", ".meta"] = some (.file store.config.encode) ∧
      (Task.eval crashed.2 (loadMetadata store.root)).1 = .ok (sample "p").config) ∧
    persisted.1 = .ok () ∧
      (Task.eval persisted.2 (loadMetadata store.root)).1 = .ok store.config ∧
      ∀ content, persisted.2.find store.metadataStaging ≠ .ok (.file content) := by
  intro store tree crashed persisted
  have hvalid : store.config.check = .ok () := by simp [store, Config.check, sample]
  have hstraight : tree.view.Straight store.root :=
    View.straight_of_enter (by decide : tree.view.enter [] store.root.steps = some ["p"])
  have hbefore : (Task.eval tree (loadMetadata store.root)).1 = .ok (sample "p").config :=
    eq_ok_of_toOption (by decide +kernel)
  -- the crash comes when the new identity was written and not renamed yet
  have hgranted : store.replacing ∉ crashed.1 := by decide +kernel
  obtain ⟨hkept, -, -⟩ := persistMetadata_atomic store hvalid rfl
    (Execution.crash_after store.persistMetadata.run tree 3)
  obtain ⟨granted, hfinished⟩ := Execution.exists_finished store.persistMetadata.run tree
  obtain ⟨-, hreplaced, hend⟩ := persistMetadata_atomic store hvalid rfl hfinished
  obtain ⟨hiff, hgone⟩ := hend _ rfl
  have hok : persisted.1 = .ok () := eq_ok_of_toOption (by decide +kernel)
  refine ⟨⟨hgranted, by decide +kernel, ((hkept hgranted).2 hstraight).trans hbefore⟩, hok,
    hreplaced (hiff.1 hok), ?_⟩
  intro content hcontent
  cases hgone _ hcontent

/-- The exceptions occur. A root that goes up again out of a directory that was made leads to an
identity that was not found before. One that goes on from there with a name that is too long is
refused for another reason than before. And where the system accepts the path of the identity but
not that of the staging file, which is longer by a byte, a file that was left over stays. -/
theorem persistMetadata_elsewhere :
    (let store : Store := ⟨{ (sample "x/../p").config with volume := "other" }, {}⟩
      let tree := identified [(Layout.metadataStaging, .directory [])]
      let persisted := Task.eval tree store.persistMetadata
      store.config.check = .ok () ∧ persisted.1.isOk = false ∧
        (Task.eval tree (loadMetadata store.root)).1.isOk = false ∧
        (Task.eval persisted.2 (loadMetadata store.root)).1 = .ok (sample "x/../p").config) ∧
    (let store := sample manyLetters
      let tree : FileTree := .directory []
      let persisted := Task.eval tree store.persistMetadata
      store.config.check = .ok () ∧ persisted.1.isOk = false ∧
        (Task.eval tree (loadMetadata store.root)).1 =
          .error (.notFound ⟨"loadMetadata", 0⟩ (store.root.join Layout.metadata)) ∧
        (Task.eval persisted.2 (loadMetadata store.root)).1 =
          .error (.storage ⟨"loadMetadata", 0⟩ (.reading (store.root.join Layout.metadata))
            (.system .nameTooLong))) ∧
    (let store := sample ("p" ++ String.ofList (List.replicate 4090 '/'))
      let tree := identified [(Layout.metadataStaging, .file [])]
      let persisted := Task.eval tree store.persistMetadata
      store.config.check = .ok () ∧ persisted.1.isOk = false ∧
        persisted.2.view ["p", Layout.metadataStaging] = some (.file [])) := by
  have hcheck {root : String} (hroot : root.isEmpty = false) :
      (sample root).config.check = .ok () := by
    simp [Config.check, sample, hroot]
  refine ⟨⟨?_, by decide +kernel, by decide +kernel, eq_ok_of_toOption (by decide +kernel)⟩,
    ?_, ?_⟩
  · simp [Config.check, sample]
  · have hvalid := hcheck (by decide +kernel : manyLetters.isEmpty = false)
    exact ⟨hvalid, persistMetadata_overlong hvalid steps_letters (by decide +kernel)
      checkPath_letters⟩
  · intro store tree persisted
    have hsize : ("p" ++ String.ofList (List.replicate 4090 '/')).utf8ByteSize = 4091 :=
      size_slashes 4090
    have hvalid : store.config.check = .ok () := by
      apply hcheck
      rw [String.isEmpty, hsize]
      rfl
    have hsteps : store.root.steps = [.down "p"] := steps_slashes 4090
    have henter : tree.view.enter [] store.root.steps = some ["p"] := by
      rw [hsteps]
      decide +kernel
    obtain ⟨failure, hstaging⟩ := refused_slashes (by decide : FileTree.maxPath < 4090 + 6)
    obtain ⟨error, heval⟩ := persistMetadata_of_rejected hvalid (checkPath_slashes (by decide))
      henter rfl hstaging
    have hpersisted : persisted = (.error error, tree) := heval
    rw [hpersisted]
    exact ⟨hvalid, rfl, (by decide +kernel : tree.view _ = _)⟩

end PartitionSnapshot.Store
