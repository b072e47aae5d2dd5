import PartitionSnapshot.Proofs.Identity
import PartitionSnapshot.Proofs.MadeDirectories

/-!
# Replacing the identity of a partition

The identity is written into a staging file beside the one that is there, and renamed over it. Up to
the rename nothing is changed but the staging file, and the directories that were missing on the way
to the root; from the rename on the new identity is there as a whole. The staging file is removed
again, however the replacement ends.

## Main statements

* `Store.hasEntry_of_onStaging`: requests on the staging file leave the identity as it was.
* `Store.replaceMetadata_execution`, `Store.persistMetadata_execution`: the stages.
-/

namespace PartitionSnapshot

namespace FileTree

variable {tree after : FileTree} {root : Path} {place : List String} {name other : String}
variable {node : Option Node} {content : Bytes}

/-! ## Entries of a root -/

/-- The root leads to the directory at `place`, and its entry of the name is `node`. -/
structure HasEntry (root : Path) (place : List String) (name : String) (node : Option Node)
    (tree : FileTree) : Prop where
  enter : tree.view.enter [] root.steps = some place
  directory : tree.view place = some .directory
  entry : tree.view (place ++ [name]) = node

namespace HasEntry

/-- What is put beside an entry, where there is no directory, leaves it as it was. -/
theorem graft (h : HasEntry root place name node tree) (hother : other ≠ name)
    (hfree : tree.view (place ++ [other]) ≠ some .directory) {part : View}
    (hview : after.view = tree.view.graft (place ++ [other]) part) :
    HasEntry root place name node after := by
  have hdirectory : ∀ above, tree.view above = some .directory →
      after.view above = some .directory := fun _ => directory_of_graft hfree hview
  refine ⟨View.enter_mono hdirectory h.enter, hdirectory place h.directory, ?_⟩
  rw [hview, View.graft_elsewhere, h.entry]
  intro hbelow
  exact hother (List.singleton_inj.1 (List.append_cancel_left (hbelow.eq_of_length (by simp))))

/-- The same entry is read alike. -/
theorem read_eq (hname : Path.IsName name) (h : HasEntry root place name node tree)
    (h' : HasEntry root place name node after) :
    after.read (root.join name) = tree.read (root.join name) :=
  read_of_enter hname h.enter h'.enter (h'.entry.trans h.entry.symm)

end HasEntry

/-- What is written at the path of an entry is put at the entry, where there is no directory. -/
theorem view_of_write_join (hname : Path.IsName other) (h : HasEntry root place name node tree)
    (hwrite : tree.write (root.join other) content = .ok after) :
    after.view = tree.view.graft (place ++ [other]) (View.ofFile content) ∧
      tree.view (place ++ [other]) ≠ some .directory := by
  obtain ⟨spot, hlocate⟩ := locate_of_write hwrite
  obtain ⟨place', henter, rfl⟩ := spot_of_locate hname hlocate
  cases h.enter.symm.trans henter
  exact view_of_write hlocate h.directory hwrite

/-- A file is removed from the entry that its path leads to. -/
theorem entry_of_removeFile (hname : Path.IsName other)
    (h : tree.removeFile (root.join other) = .ok after) :
    ∃ place content, tree.locate (root.join other) = .ok (.entry place other) ∧
      tree.view.enter [] root.steps = some place ∧
      tree.view (place ++ [other]) = some (.file content) ∧
      after.view = tree.view.prune (place ++ [other]) := by
  unfold removeFile at h
  cases hlocate : tree.locate (root.join other) with
  | error failure =>
    rw [hlocate] at h
    cases h
  | ok spot =>
    obtain ⟨place, henter, rfl⟩ := spot_of_locate hname hlocate
    rw [hlocate] at h
    simp only [bind, Except.bind] at h
    rcases hat : tree.at? (place ++ [other]) with _ | ⟨content | children⟩
    · rw [hat] at h
      cases h
    · have hfile : tree.view (place ++ [other]) = some (.file content) := view_of_at? hat
      have hplace : tree.view place = some .directory := view_parent (by rw [hfile]; exact nofun)
      rw [hat, Path.endsInSlash_join root hname] at h
      cases h
      exact ⟨place, content, rfl, henter, hfile, view_dropAt other hplace⟩
    · rw [hat] at h
      cases h

/-- However the removal of a file comes out, its path leads to no file any more. -/
theorem find_of_removeFile (hname : Path.IsName other) {found : FileTree}
    (hfound : (tree.settle (tree.removeFile (root.join other))).2.find (root.join other) =
      .ok found) :
    found.isDirectory = true := by
  cases hremove : tree.removeFile (root.join other) with
  | error failure =>
    -- a file that is found could have been removed
    rw [hremove] at hfound
    rcases found with content | children
    · have hread : tree.read (root.join other) = .ok content := by
        rw [read, show tree.find (root.join other) = .ok (.file content) from hfound]
        rfl
      obtain ⟨place, hlocate, -, hfile⟩ := entry_of_read hname hread
      unfold removeFile at hremove
      simp only [hlocate, bind, Except.bind, at?_of_view_file hfile,
        Path.endsInSlash_join root hname] at hremove
      cases hremove
    · rfl
  | ok after =>
    -- where it was, there is nothing now
    obtain ⟨place, content, -, henter, hfile, hview⟩ := entry_of_removeFile hname hremove
    rw [hremove] at hfound
    have hafter : after.find (root.join other) = .ok found := hfound
    obtain ⟨spot, hlocate⟩ := locate_of_find hafter
    obtain ⟨place', henter', rfl⟩ := spot_of_locate hname hlocate
    have hsame : tree.view.enter [] root.steps = some place' := by
      refine View.enter_mono (fun above habove => ?_) henter'
      rw [hview] at habove
      exact (View.directory_of_prune habove).2
    cases henter.symm.trans hsame
    have hnone : after.view (place ++ [other]) = none := by
      rw [hview, View.prune, View.graft_at]
      rfl
    rw [find_entry hlocate (Path.endsInSlash_join root hname), at?_of_view_none hnone] at hafter
    cases hafter

end FileTree

namespace Store

open FileTree (HasEntry)

variable {store : Store} {tree after : FileTree} {place : List String} {node : Option Node}
variable {granted : List Request}

/-! ## Requests on the staging file -/

theorem isName_metadata : Path.IsName Layout.metadata :=
  Layout.isName_of_mem_names (by simp [Layout.names])

theorem isName_metadataStaging : Path.IsName Layout.metadataStaging :=
  Layout.isName_of_mem_names (by simp [Layout.names])

/-- The path of the file into which a new identity is written. -/
def metadataStaging (store : Store) : Path := store.root.join Layout.metadataStaging

/-- The request by which the identity that was written becomes the one that is read. -/
def replacing (store : Store) : Request :=
  .rename store.metadataStaging (store.root.join Layout.metadata)

/-- The requests that only concern the staging file. -/
inductive OnStaging (store : Store) : Request → Prop
  | create : OnStaging store (.create store.metadataStaging)
  | append (data : Bytes) : OnStaging store (.append store.metadataStaging data)
  | sync (path : Path) : OnStaging store (.sync path)
  | removeFile : OnStaging store (.removeFile store.metadataStaging)

theorem not_onStaging_replacing : ¬ store.OnStaging store.replacing := nofun

section

variable (h : HasEntry store.root place Layout.metadata node tree)
include h

/-- What is written into the staging file leaves the identity as it was. -/
theorem hasEntry_of_write {content : Bytes}
    (hwrite : tree.write store.metadataStaging content = .ok after) :
    HasEntry store.root place Layout.metadata node after := by
  obtain ⟨hview, hfree⟩ := FileTree.view_of_write_join isName_metadataStaging h hwrite
  exact h.graft (by decide) hfree hview

theorem hasEntry_of_append {data : Bytes}
    (happend : tree.append store.metadataStaging data = .ok after) :
    HasEntry store.root place Layout.metadata node after := by
  obtain ⟨content, hwrite⟩ := FileTree.write_of_append happend
  exact hasEntry_of_write h hwrite

/-- Taking the staging file away leaves the identity as it was. -/
theorem hasEntry_of_removeFile (hremove : tree.removeFile store.metadataStaging = .ok after) :
    HasEntry store.root place Layout.metadata node after := by
  obtain ⟨place', content, -, henter, hfile, hview⟩ :=
    FileTree.entry_of_removeFile isName_metadataStaging hremove
  cases h.enter.symm.trans henter
  have hfree : tree.view (place ++ [Layout.metadataStaging]) ≠ some .directory := by
    rw [hfile]
    exact nofun
  exact h.graft (by decide) hfree hview

theorem hasEntry_settle {result : Except Failure FileTree}
    (hresult : ∀ after, result = .ok after →
      HasEntry store.root place Layout.metadata node after) :
    HasEntry store.root place Layout.metadata node (tree.settle result).2 := by
  cases result with
  | error failure => exact h
  | ok after => exact hresult after rfl

theorem hasEntry_perform {request : Request} (hrequest : store.OnStaging request) :
    HasEntry store.root place Layout.metadata node (tree.perform request).2 := by
  cases hrequest with
  | create => exact hasEntry_settle h fun _ => hasEntry_of_write h
  | append data => exact hasEntry_settle h fun _ => hasEntry_of_append h
  | sync path => exact h
  | removeFile => exact hasEntry_settle h fun _ => hasEntry_of_removeFile h

/-- Of these requests only an append takes more than one step. -/
theorem hasEntry_of_torn {request : Request} (hrequest : store.OnStaging request)
    (htorn : tree.Torn request after) : HasEntry store.root place Layout.metadata node after := by
  cases hrequest with
  | create => cases htorn
  | append data =>
    cases htorn with
    | append _ happend => exact hasEntry_of_append h happend
  | sync path => cases htorn
  | removeFile => cases htorn

/-- Requests on the staging file, whether granted, refused or torn, leave the identity that is read
as it was. -/
theorem hasEntry_of_onStaging {α : Type} {procedure : Procedure α} {ending : Ending α}
    (honly : procedure.Only store.OnStaging)
    (hexecution : Execution procedure tree granted after ending) :
    HasEntry store.root place Layout.metadata node after ∧ store.replacing ∉ granted := by
  obtain ⟨hafter, hgranted, -⟩ := hexecution.invariant
    (HasEntry store.root place Layout.metadata node)
    (fun _ hrequest _ hentry => hasEntry_perform hentry hrequest)
    (fun _ hrequest _ _ hentry htorn => hasEntry_of_torn hentry hrequest htorn) honly h
  exact ⟨hafter, fun hmem => not_onStaging_replacing (hgranted _ hmem)⟩

end

/-! ## Writing and renaming -/

/-- A new identity that was written into the staging file is the one that is read once it is
renamed. -/
theorem hasEntry_of_replacing
    (h : HasEntry store.root place Layout.metadata node tree) {content : Bytes}
    (hread : tree.read store.metadataStaging = .ok content)
    (hrename : tree.rename store.metadataStaging (store.root.join Layout.metadata) = .ok after) :
    HasEntry store.root place Layout.metadata (some (.file content)) after := by
  obtain ⟨place', moved, henter', hmoved, hreplacing, hview⟩ :=
    FileTree.view_of_rename_join isName_metadataStaging isName_metadata (by decide) hrename
  cases h.enter.symm.trans henter'
  obtain ⟨place', -, henter', hfile⟩ := FileTree.entry_of_read isName_metadataStaging hread
  cases h.enter.symm.trans henter'
  rw [FileTree.at?_of_view_file hfile] at hmoved
  cases hmoved
  rw [FileTree.Overwritten.below_of_file hfile] at hview
  -- a file does not take the place of a directory
  have htaken : tree.view (place ++ [Layout.metadata]) ≠ some .directory := by
    intro hdirectory
    obtain ⟨children, hchildren⟩ := FileTree.at?_of_view_directory hdirectory
    rw [hchildren] at hreplacing
    cases children <;> cases hreplacing
  -- there was no directory at either of the two entries, so every directory is where it was
  have hdirectory (other : List String) (hother : tree.view other = some .directory) :
      after.view other = some .directory := by
    rw [hview, View.graft_elsewhere, View.prune, View.graft_elsewhere, hother]
    · rintro ⟨rest, rfl⟩
      have habove := FileTree.view_above hother
      rw [hfile] at habove
      cases habove
    · rintro ⟨rest, rfl⟩
      exact htaken (FileTree.view_above hother)
  refine ⟨View.enter_mono hdirectory h.enter, hdirectory place h.directory, ?_⟩
  rw [hview, View.graft_at]
  rfl

/-- How far writing and renaming came. -/
inductive ReplaceStage (store : Store) (place : List String) (node : Option Node)
    (granted : List Request) (after : FileTree) : Ending (Except Error Unit) → Prop
  /-- The identity that was there is still read. -/
  | writing {ending : Ending (Except Error Unit)} (hgranted : store.replacing ∉ granted)
      (hentry : HasEntry store.root place Layout.metadata node after)
      (hending : ∀ result, ending = .finished result → ∃ error, result = .error error) :
      ReplaceStage store place node granted after ending
  /-- The new identity is read. -/
  | replaced {ending : Ending (Except Error Unit)} (hgranted : store.replacing ∈ granted)
      (hcheck : FileTree.checkPath (store.root.join Layout.metadata) = .ok ())
      (hentry : HasEntry store.root place Layout.metadata
        (some (.file store.config.encode)) after)
      (hending : ∀ result, ending = .finished result → result = .ok ()) :
      ReplaceStage store place node granted after ending

/-- What was granted before, without a rename, makes no difference. -/
theorem ReplaceStage.append {front back : List Request} {ending : Ending (Except Error Unit)}
    (h : store.ReplaceStage place node back after ending) (hfront : store.replacing ∉ front) :
    store.ReplaceStage place node (front ++ back) after ending := by
  cases h with
  | writing hgranted hentry hending =>
    exact .writing (by simp [hfront, hgranted]) hentry hending
  | replaced hgranted hcheck hentry hending =>
    exact .replaced (List.mem_append_right _ hgranted) hcheck hentry hending

/-- A request on the staging file is granted, or the execution ends in it. -/
theorem staging_bind {procedure : Procedure (Except Failure Unit)} {toError : Failure → Error}
    {next : Unit → Task Unit} {ending : Ending (Except Error Unit)}
    (honly : procedure.Only store.OnStaging)
    (h : HasEntry store.root place Layout.metadata node tree)
    (hexecution : Execution (Task.ofProcedure procedure toError >>= next).run tree granted after
      ending) :
    store.ReplaceStage place node granted after ending ∨
    ∃ mid front back, Task.eval tree (Task.ofProcedure procedure toError) = (.ok (), mid) ∧
      HasEntry store.root place Layout.metadata node mid ∧
      Execution (next ()).run mid back after ending ∧ store.replacing ∉ front ∧
      granted = front ++ back := by
  have honly : Task.Only store.OnStaging (Task.ofProcedure procedure toError) :=
    Task.only_ofProcedure honly toError
  rcases hexecution.of_task_bind with ⟨inside, rfl, hcrash⟩ | ⟨error, rfl, herror⟩ |
    ⟨_, mid, front, back, hfirst, hnext, rfl⟩
  · obtain ⟨hentry, hgranted⟩ := hasEntry_of_onStaging h honly hcrash
    exact .inl (.writing hgranted hentry nofun)
  · obtain ⟨hentry, hgranted⟩ := hasEntry_of_onStaging h honly herror
    exact .inl (.writing hgranted hentry fun result hresult => ⟨error, by cases hresult; rfl⟩)
  · obtain ⟨hentry, hgranted⟩ := hasEntry_of_onStaging h honly hfirst
    exact .inr ⟨mid, front, back, hfirst.eval_eq rfl, hentry, hnext, hgranted, rfl⟩

/-- Renaming the file, once it holds the new identity, is one step. -/
theorem renaming_execution (h : HasEntry store.root place Layout.metadata node tree)
    (hread : tree.read store.metadataStaging = .ok store.config.encode)
    {toError : Failure → Error} {ending : Ending (Except Error Unit)}
    (hexecution : Execution (Task.ofProcedure (.rename store.metadataStaging
      (store.root.join Layout.metadata)) toError).run tree granted after ending) :
    store.ReplaceStage place node granted after ending := by
  have hrenaming : Execution (.step store.replacing _) tree granted after ending := hexecution
  rcases hrenaming.of_step with ⟨rfl, rfl, rfl⟩ | ⟨-, -, htorn⟩ | ⟨rest, hlast, rfl⟩
  · exact .writing List.not_mem_nil h nofun
  · cases htorn
  have hperform : tree.perform store.replacing =
      tree.settle (tree.rename store.metadataStaging (store.root.join Layout.metadata)) := rfl
  cases hrename : tree.rename store.metadataStaging (store.root.join Layout.metadata) with
  | error failure =>
    rw [hperform, hrename] at hlast ⊢
    obtain ⟨rfl, rfl, -⟩ := hlast.of_silent trivial
    exact .writing List.not_mem_nil h fun result hresult =>
      ⟨toError failure, (congrArg Prod.fst (hlast.eval_eq hresult)).symm⟩
  | ok renamed =>
    rw [hperform, hrename] at hlast ⊢
    obtain ⟨rfl, rfl, -⟩ := hlast.of_silent trivial
    obtain ⟨-, spot, -, htarget⟩ := FileTree.locate_of_rename hrename
    exact .replaced List.mem_cons_self (FileTree.checkPath_of_locate htarget)
      (hasEntry_of_replacing h hread hrename)
      fun result hresult => (congrArg Prod.fst (hlast.eval_eq hresult)).symm

/-- An execution of writing and renaming ends before the file is renamed, with the identity that was
there, or renames the file, which holds the new one. -/
theorem replaceMetadata_execution (h : HasEntry store.root place Layout.metadata node tree)
    {context : Context} {ending : Ending (Except Error Unit)}
    (hexecution : Execution (store.replaceMetadata context store.metadataStaging
      (store.root.join Layout.metadata)).run tree granted after ending) :
    store.ReplaceStage place node granted after ending := by
  unfold replaceMetadata at hexecution
  rcases staging_bind (Procedure.only_request .create) h hexecution with
    hstage | ⟨made, front, back, hcreate, hmade, hwriting, hfront, rfl⟩
  · exact hstage
  refine ReplaceStage.append ?_ hfront
  rcases staging_bind (Procedure.only_request (.append _)) hmade hwriting with
    hstage | ⟨filled, front', back', happend, hfilled, hsyncing, hfront', rfl⟩
  · exact hstage
  refine ReplaceStage.append ?_ hfront'
  rcases staging_bind (Procedure.only_request (.sync _)) hfilled hsyncing with
    hstage | ⟨synced, front'', back'', hsync, hsynced, hrenaming, hfront'', rfl⟩
  · exact hstage
  refine ReplaceStage.append (renaming_execution hsynced ?_ hrenaming) hfront''
  -- the file has been written as a whole
  have hsame : synced = filled := by
    have hlooked := ofProcedure_eq_ok hsync
    rw [Procedure.eval_sync] at hlooked
    exact (Prod.mk.inj hlooked).2.symm
  rw [hsame]
  exact FileTree.read_of_append isName_metadataStaging
    (settled_of_ofProcedure (Procedure.eval_create _ _) hcreate)
    (settled_of_ofProcedure (Procedure.eval_append _ _ _) happend)

/-! ## What follows -/

theorem removeStaging_eval (store : Store) (tree : FileTree) :
    (store.removeStaging store.metadataStaging).eval tree =
      ((), (tree.settle (tree.removeFile store.metadataStaging)).2) := by
  unfold removeStaging
  rw [Procedure.eval_bind, Procedure.eval_removeFile]
  cases tree.removeFile store.metadataStaging with
  | ok after => rfl
  | error failure =>
    dsimp only [FileTree.settle]
    split <;> rfl

theorem only_removeStaging (store : Store) :
    (store.removeStaging store.metadataStaging).Only store.OnStaging :=
  (Procedure.only_request .removeFile).bind fun answer => by
    cases answer with
    | ok _ => trivial
    | error failure =>
      dsimp only
      split <;> trivial

/-- What follows the replacement leaves the identity that is read as it is, and ends as the
replacement has ended, without a staging file. -/
theorem finish_execution {result : Except Error Unit} {rest : Task Unit}
    (honly : Task.Only store.OnStaging rest) (hrest : ∀ tree, Task.eval tree rest = (.ok (), tree))
    (h : HasEntry store.root place Layout.metadata node tree) {ending : Ending (Except Error Unit)}
    (hexecution : Execution (do
      liftM (store.removeStaging store.metadataStaging)
      Task.ofExcept result id
      rest : Task Unit).run tree granted after ending) :
    HasEntry store.root place Layout.metadata node after ∧ store.replacing ∉ granted ∧
      ∀ value, ending = .finished value → value = result ∧
        ∀ found, after.find store.metadataStaging = .ok found → found.isDirectory = true := by
  have hall : Task.Only store.OnStaging (do
      liftM (store.removeStaging store.metadataStaging)
      Task.ofExcept result id
      rest : Task Unit) :=
    (Task.only_lift (only_removeStaging store)).bind fun _ =>
      (Task.only_ofExcept _ _).bind fun _ => honly
  obtain ⟨hentry, hgranted⟩ := hasEntry_of_onStaging h hall hexecution
  refine ⟨hentry, hgranted, fun value hvalue => ?_⟩
  have heval : Task.eval tree (do
      liftM (store.removeStaging store.metadataStaging)
      Task.ofExcept result id
      rest : Task Unit) = (result, (tree.settle (tree.removeFile store.metadataStaging)).2) := by
    rw [Task.eval_bind_ok _ (Task.eval_lift tree _), removeStaging_eval, Task.eval_bind,
      Task.eval_ofExcept, mapError_id]
    cases result with
    | error error => rfl
    | ok _ => exact hrest _
  obtain ⟨rfl, rfl⟩ := Prod.mk.inj (heval.symm.trans (hexecution.eval_eq hvalue))
  exact ⟨rfl, fun found hfound => FileTree.find_of_removeFile isName_metadataStaging hfound⟩

/-! ## The stages -/

/-- How far the replacement of the identity came. -/
inductive PersistStage (store : Store) (tree : FileTree) (granted : List Request)
    (after : FileTree) : Ending (Except Error Unit) → Prop
  /-- Directories are being made on the way to the root, and there is no root yet if this failed. -/
  | making {steps : List Path.Step} {ending : Ending (Except Error Unit)}
      (hsteps : steps <+: store.root.steps) (hgranted : store.replacing ∉ granted)
      (hafter : after = (tree.makeDirectoriesAlong steps).2)
      (hending : ∀ result, ending = .finished result → (∃ error, result = .error error) ∧
        ∀ found, after.find store.metadataStaging ≠ .ok found) :
      PersistStage store tree granted after ending
  /-- The identity that was there is still read. -/
  | writing {place : List String} {node : Option Node} {ending : Ending (Except Error Unit)}
      (hgranted : store.replacing ∉ granted)
      (hmade : HasEntry store.root place Layout.metadata node
        (tree.makeDirectoriesAlong store.root.steps).2)
      (hentry : HasEntry store.root place Layout.metadata node after)
      (hending : ∀ result, ending = .finished result → (∃ error, result = .error error) ∧
        ∀ found, after.find store.metadataStaging = .ok found → found.isDirectory = true) :
      PersistStage store tree granted after ending
  /-- The new identity is read. -/
  | replaced {place : List String} {ending : Ending (Except Error Unit)}
      (hgranted : store.replacing ∈ granted)
      (hcheck : FileTree.checkPath (store.root.join Layout.metadata) = .ok ())
      (hentry : HasEntry store.root place Layout.metadata
        (some (.file store.config.encode)) after)
      (hending : ∀ result, ending = .finished result → result = .ok () ∧
        ∀ found, after.find store.metadataStaging = .ok found → found.isDirectory = true) :
      PersistStage store tree granted after ending

/-- That directories were made makes no difference. -/
theorem PersistStage.congr {granted' : List Request} {ending : Ending (Except Error Unit)}
    (h : store.PersistStage tree granted after ending)
    (hsame : store.replacing ∈ granted' ↔ store.replacing ∈ granted) :
    store.PersistStage tree granted' after ending := by
  cases h with
  | making hsteps hgranted hafter hending =>
    exact .making hsteps (mt hsame.1 hgranted) hafter hending
  | writing hgranted hmade hentry hending =>
    exact .writing (mt hsame.1 hgranted) hmade hentry hending
  | replaced hgranted hcheck hentry hending =>
    exact .replaced (hsame.2 hgranted) hcheck hentry hending

/-- With the root there, an execution of persisting goes through writing and renaming, and removes
the staging file. -/
theorem writing_execution {rest : Task Unit} (honly : Task.Only store.OnStaging rest)
    (hrest : ∀ tree, Task.eval tree rest = (.ok (), tree))
    (hmade : HasEntry store.root place Layout.metadata node
      (tree.makeDirectoriesAlong store.root.steps).2) {context : Context}
    {ending : Ending (Except Error Unit)}
    (hexecution : Execution (do
      let result ← (store.replaceMetadata context store.metadataStaging
        (store.root.join Layout.metadata)).attempt
      liftM (store.removeStaging store.metadataStaging)
      Task.ofExcept result id
      rest : Task Unit).run (tree.makeDirectoriesAlong store.root.steps).2 granted after ending) :
    store.PersistStage tree granted after ending := by
  rcases hexecution.of_task_bind with ⟨inside, rfl, hcrash⟩ | ⟨error, rfl, herror⟩ |
    ⟨result, mid, front, back, hattempt, hfinish, rfl⟩
  · -- a crash in an attempt is one in what is attempted
    rcases Execution.of_bind_done (fun _ => rfl) hcrash with ⟨_, hinside, hcrash⟩ | ⟨_, hends, -⟩
    · cases hinside
      cases replaceMetadata_execution hmade hcrash with
      | writing hgranted hentry _ => exact .writing hgranted hmade hentry nofun
      | replaced hgranted hcheck hentry _ => exact .replaced hgranted hcheck hentry nofun
    · cases hends
  · -- an attempt does not fail
    rcases Execution.of_bind_done (fun _ => rfl) herror with ⟨_, hends, -⟩ | ⟨_, hends, -⟩
    · cases hends
    · cases hends
  · rcases Execution.of_bind_done (fun _ => rfl) hattempt with ⟨_, hends, -⟩ | ⟨_, hends, hdone⟩
    · cases hends
    cases hends
    cases replaceMetadata_execution hmade hdone with
    | writing hgranted hentry hending =>
      obtain ⟨error, rfl⟩ := hending _ rfl
      obtain ⟨hentry, hback, hfinished⟩ := finish_execution honly hrest hentry hfinish
      refine .writing (by simp [hgranted, hback]) hmade hentry fun value hvalue => ?_
      obtain ⟨rfl, hfind⟩ := hfinished value hvalue
      exact ⟨⟨error, rfl⟩, hfind⟩
    | replaced hgranted hcheck hentry hending =>
      obtain rfl := hending _ rfl
      obtain ⟨hentry, -, hfinished⟩ := finish_execution honly hrest hentry hfinish
      exact .replaced (List.mem_append_left _ hgranted) hcheck hentry hfinished

/-- An execution of persisting makes directories, writes the new identity, or has put it in its
place. -/
theorem persistMetadata_execution (hvalid : store.config.check = .ok ())
    (htop : tree.view [] = some .directory) {ending : Ending (Except Error Unit)}
    (hexecution : Execution store.persistMetadata.run tree granted after ending) :
    store.PersistStage tree granted after ending := by
  unfold persistMetadata at hexecution
  dsimp only at hexecution
  rw [hvalid] at hexecution
  have hmaking : Execution (.step (.makeDirectories store.root) _) tree granted after ending :=
    hexecution
  rcases hmaking.of_step with ⟨rfl, rfl, rfl⟩ | ⟨rfl, rfl, htorn⟩ | ⟨rest, hnext, hgranted⟩
  · refine .making List.nil_prefix List.not_mem_nil ?_ fun result hresult => ?_
    · rw [FileTree.makeDirectoriesAlong_nil]
    · cases hresult
  · cases htorn with
    | makeDirectories hsteps =>
      refine .making hsteps List.not_mem_nil rfl fun result hresult => ?_
      cases hresult
  have hsame : store.replacing ∈ granted ↔ store.replacing ∈ rest := by
    rw [hgranted]
    split
    · simp [replacing]
    · exact Iff.rfl
  refine PersistStage.congr ?_ hsame
  have hperform : tree.perform (.makeDirectories store.root) = tree.makeDirectories store.root :=
    rfl
  rw [hperform] at hnext
  rcases FileTree.makeDirectories_cases htop store.root with
    ⟨failure, steps, hsteps, hmade, hnowhere⟩ | ⟨place, hmade, henter, hdirectory⟩
  · rw [hmade] at hnext
    obtain ⟨rfl, rfl, -⟩ := hnext.of_silent trivial
    refine .making hsteps List.not_mem_nil rfl fun result hresult => ⟨?_, ?_⟩
    · exact ⟨_, (congrArg Prod.fst (hnext.eval_eq hresult)).symm⟩
    · exact hnowhere Layout.metadataStaging isName_metadataStaging
  · rw [hmade] at hnext
    refine writing_execution ?_ ?_ ⟨henter, hdirectory, rfl⟩ hnext
    · refine (Task.only_lift (Procedure.only_request (.sync _))).bind fun answer => ?_
      cases answer <;> exact trivial
    · intro tree'
      rw [Task.eval_bind_ok _ (Task.eval_lift tree' _), Procedure.eval_sync]
      cases tree'.find store.root <;> rfl

end Store

end PartitionSnapshot
