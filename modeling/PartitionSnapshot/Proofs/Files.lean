import PartitionSnapshot.Proofs.Generations

/-!
# The files of a generation

A generation is a directory of six files. Where the path of one of them is accepted, it can be read
when it is there, and made or replaced when the directory is there; what is read, and whether it can
be read, is decided by what is seen of the generation.

## Main statements

* `FileTree.read_file`: reading a file of a generation.
* `Store.writeSmallFile_eval`: writing one.
-/

namespace PartitionSnapshot

namespace Layout

/-- The directories that paths to files lead through. -/
def folders : List String := [current, staging]

/-- The names of the files of a generation. -/
def files : List String := Kind.all.map Kind.name ++ [apply, signs]

theorem mem_files (kind : Kind) : kind.name ∈ files := by
  cases kind <;> decide

variable {name file : String}

theorem isName_of_mem_files (h : file ∈ files) : Path.IsName file := by
  revert file
  decide

theorem mem_generations_of_mem_folders (h : name ∈ folders) : name ∈ generations := by
  revert name
  decide

theorem size_of_mem_files (hname : name ∈ folders) (hfile : file ∈ files) :
    name.utf8ByteSize + 1 + file.utf8ByteSize ≤ 19 := by
  -- over two short lists the bound is evaluated
  have hall : ∀ name ∈ folders, ∀ file ∈ files,
      name.utf8ByteSize + 1 + file.utf8ByteSize ≤ 19 := by decide
  exact hall name hname file hfile

theorem Accepted.file_of_mem {root : Path} (h : Accepted root) (hname : name ∈ folders)
    (hfile : file ∈ files) : FileTree.checkPath ((root.join name).join file) = .ok () :=
  h.room.file (isName_of_mem_generations (mem_generations_of_mem_folders hname))
    (isName_of_mem_files hfile) (size_of_mem_files hname hfile)

theorem Readable.file_of_mem {root : Path} (h : Readable root) (hfile : file ∈ files) :
    FileTree.checkPath ((root.join current).join file) = .ok () := by
  have hall : ∀ file ∈ files, current.utf8ByteSize + 1 + file.utf8ByteSize ≤ 18 := by decide
  exact h.room.file (by decide) (isName_of_mem_files hfile) (hall file hfile)

end Layout

namespace View

/-- What reading a file of a generation gives. -/
def readFile (part : View) (file : String) : Except Failure Bytes :=
  match part [] with
  | none => FileTree.refuse .noEntry
  | some (.file _) => FileTree.refuse .notDirectory
  | some .directory =>
    match part [file] with
    | none => FileTree.refuse .noEntry
    | some (.file content) => .ok content
    | some .directory => FileTree.refuse .isDirectory

theorem readFile_ofFiles (files : String → Option Bytes) (file : String) :
    (ofFiles files).readFile file =
      match files file with
      | none => FileTree.refuse .noEntry
      | some content => .ok content := by
  simp only [readFile, ofFiles]
  cases files file <;> rfl

theorem readFile_nothing (file : String) : nothing.readFile file = FileTree.refuse .noEntry := rfl

/-- Writing another file does not change what is read. -/
theorem readFile_graft {part part' : View} {file other : String} (h : other ≠ file) :
    (part.graft [file] part').readFile other = part.readFile other := by
  have hfolder : ¬ [file] <+: ([] : List String) := by simp
  have hother : ¬ [file] <+: [other] := by simp [Ne.symm h]
  unfold readFile
  rw [graft_elsewhere hfolder, graft_elsewhere hother]

/-- Writing a file puts none in the place of the directory. -/
theorem noFile_graft_file {part part' : View} {file : String} (h : part.NoFile) :
    (part.graft [file] part').NoFile := by
  have hfolder : ¬ [file] <+: ([] : List String) := by simp
  unfold NoFile
  rw [graft_elsewhere hfolder]
  exact h

theorem readFile_graft_self {part : View} (hfolder : part [] = some .directory) (file : String)
    (content : Bytes) : (part.graft [file] (ofFile content)).readFile file = .ok content := by
  have hunder : ¬ [file] <+: ([] : List String) := by simp
  unfold readFile
  rw [graft_elsewhere hunder, hfolder, graft_at]
  rfl

/-- What can be read is a file in a directory. -/
theorem readFile_eq_ok {part : View} {file : String} {content : Bytes}
    (h : part.readFile file = .ok content) :
    part [] = some .directory ∧ part [file] = some (.file content) := by
  unfold readFile at h
  split at h
  · cases h
  · cases h
  · next hfolder =>
    split at h
    · cases h
    · next hfile =>
      cases h
      exact ⟨hfolder, hfile⟩
    · cases h

theorem graft_inside_below (view : View) (place rest : List String) (part : View) :
    view.graft (place ++ rest) part = view.graft place ((view.below place).graft rest part) := by
  have hinside := graft_inside view place rest (view.below place) part
  rwa [graft_below] at hinside

end View

namespace FileTree.Holds

variable {view : View} {place : List String} {g : Generations} {tree after : FileTree}
variable {file : String} {part : View}

theorem at_current_file (h : Holds view place g tree) (file : String) :
    tree.view (place ++ [Layout.current] ++ [file]) = g.current [file] := by
  rw [← h.below_current, View.below_apply]

theorem graft_current_file (h : Holds view place g tree)
    (hview : after.view = tree.view.graft (place ++ [Layout.current] ++ [file]) part) :
    Holds view place { g with current := g.current.graft [file] part } after := by
  rw [View.graft_inside_below, h.below_current] at hview
  exact h.graft_current hview

theorem graft_staging_file (h : Holds view place g tree)
    (hview : after.view = tree.view.graft (place ++ [Layout.staging] ++ [file]) part) :
    Holds view place { g with staging := g.staging.graft [file] part } after := by
  rw [View.graft_inside_below, h.below_staging] at hview
  exact h.graft_staging hview

end FileTree.Holds

/-! ## Reading and writing -/

namespace FileTree

variable {tree : FileTree} {root : Path} {place : List String} {name file : String}
variable (hroot : tree.view.Rooted root place) (hname : name ∈ Layout.folders)
variable (hfile : file ∈ Layout.files)
variable (hcheck : checkPath ((root.join name).join file) = .ok ())
include hroot hname hfile hcheck

theorem locate_generation_file :
    tree.locate ((root.join name).join file) =
      match tree.view (place ++ [name]) with
      | none => refuse .noEntry
      | some (.file _) => refuse .notDirectory
      | some .directory => .ok (.entry (place ++ [name]) file) := by
  have hisName :=
    Layout.isName_of_mem_generations (Layout.mem_generations_of_mem_folders hname)
  have hisFile := Layout.isName_of_mem_files hfile
  rw [hroot.locate_file hisName hisFile, hcheck]
  rfl

/-- What is read is what is seen. -/
theorem read_file :
    tree.read ((root.join name).join file) =
      (tree.view.below (place ++ [name])).readFile file := by
  have hlocate := locate_generation_file hroot hname hfile hcheck
  have hslash := Path.endsInSlash_join (root.join name) (Layout.isName_of_mem_files hfile)
  -- both sides are decided by what is at the directory, and then by what is at the file
  unfold View.readFile
  rw [View.below_apply, View.below_apply, List.append_nil]
  cases hfolder : tree.view (place ++ [name]) with
  | none =>
    rw [hfolder] at hlocate
    rw [read, find, hlocate]
    rfl
  | some node =>
    cases node with
    | file content =>
      rw [hfolder] at hlocate
      rw [read, find, hlocate]
      rfl
    | directory =>
      rw [hfolder] at hlocate
      refine (read_entry hlocate hslash).trans ?_
      cases tree.view (place ++ [name] ++ [file]) with
      | none => rfl
      | some node => cases node <;> rfl

variable (hfolder : tree.view (place ++ [name]) = some .directory)
include hfolder

theorem create_file (hfree : tree.view (place ++ [name] ++ [file]) ≠ some .directory) :
    ∃ after, tree.create ((root.join name).join file) = .ok after ∧
      after.view = tree.view.graft (place ++ [name] ++ [file]) (View.ofFile []) := by
  have hlocate := locate_generation_file hroot hname hfile hcheck
  rw [hfolder] at hlocate
  exact write_entry hlocate
    (Path.endsInSlash_join (root.join name) (Layout.isName_of_mem_files hfile)) hfolder hfree []

theorem append_file {content : Bytes}
    (hcontent : tree.view (place ++ [name] ++ [file]) = some (.file content)) (data : Bytes) :
    ∃ after, tree.append ((root.join name).join file) data = .ok after ∧
      after.view = tree.view.graft (place ++ [name] ++ [file]) (View.ofFile (content ++ data)) := by
  have hlocate := locate_generation_file hroot hname hfile hcheck
  rw [hfolder] at hlocate
  exact append_entry hlocate
    (Path.endsInSlash_join (root.join name) (Layout.isName_of_mem_files hfile)) hfolder hcontent
    data

theorem sync_file {content : Bytes}
    (hcontent : tree.view (place ++ [name] ++ [file]) = some (.file content)) :
    (tree.find ((root.join name).join file)).map (fun _ => ()) = .ok () := by
  have hlocate := locate_generation_file hroot hname hfile hcheck
  rw [hfolder] at hlocate
  rw [find_entry hlocate
    (Path.endsInSlash_join (root.join name) (Layout.isName_of_mem_files hfile)),
    at?_of_view_file hcontent]
  rfl

end FileTree

/-! ## Filling a file -/

namespace FileTree

variable {tree : FileTree} {root : Path} {place : List String} {name file : String}

/-- What is grafted as a file of a generation leaves the root and the directory as they were. -/
theorem rooted_graft_file {view : View} (hroot : view.Rooted root place)
    (hname : name ∈ Layout.folders) (hfolder : view (place ++ [name]) = some .directory)
    (file : String) (part : View) :
    (view.graft (place ++ [name] ++ [file]) part).Rooted root place ∧
      view.graft (place ++ [name] ++ [file]) part (place ++ [name]) = some .directory := by
  have hnotBelow : ¬ place ++ [name] ++ [file] <+: place ++ [name] := by
    intro hunder
    have hlength := hunder.length_le
    simp only [List.length_append, List.length_singleton] at hlength
    omega
  refine ⟨hroot.of_agree ?_, by rw [View.graft_elsewhere hnotBelow, hfolder]⟩
  rw [List.append_assoc]
  exact View.AgreeOutside.graft _ _ (Layout.mem_generations_of_mem_folders hname)

/-- A file is made, and data is written into it. -/
theorem fill_file (hroot : tree.view.Rooted root place) (hname : name ∈ Layout.folders)
    (hfile : file ∈ Layout.files) (hcheck : checkPath ((root.join name).join file) = .ok ())
    (hfolder : tree.view (place ++ [name]) = some .directory)
    (hfree : tree.view (place ++ [name] ++ [file]) ≠ some .directory) :
    ∃ made, tree.create ((root.join name).join file) = .ok made ∧
      made.view = tree.view.graft (place ++ [name] ++ [file]) (View.ofFile []) ∧
      ∀ data, ∃ filled, made.append ((root.join name).join file) data = .ok filled ∧
        (filled.find ((root.join name).join file)).map (fun _ => ()) = .ok () ∧
        filled.view = tree.view.graft (place ++ [name] ++ [file]) (View.ofFile data) := by
  obtain ⟨made, hmade, hmadeView⟩ := create_file hroot hname hfile hcheck hfolder hfree
  obtain ⟨hmadeRoot, hmadeFolder⟩ := rooted_graft_file hroot hname hfolder file (View.ofFile [])
  rw [← hmadeView] at hmadeRoot hmadeFolder
  refine ⟨made, hmade, hmadeView, fun data => ?_⟩
  obtain ⟨filled, hfilled, hfilledView⟩ :=
    append_file hmadeRoot hname hfile hcheck hmadeFolder
      (by rw [hmadeView, View.graft_at]; rfl) data
  -- the second write replaces the first
  rw [hmadeView, View.graft_self] at hfilledView
  obtain ⟨hfilledRoot, hfilledFolder⟩ := rooted_graft_file hroot hname hfolder file
    (View.ofFile data)
  rw [← List.nil_append data, ← hfilledView] at hfilledRoot hfilledFolder
  have hsync := sync_file hfilledRoot hname hfile hcheck hfilledFolder
    (by rw [hfilledView, View.graft_at]; rfl)
  exact ⟨filled, hfilled, hsync, hfilledView⟩

end FileTree

/-- A small file is written into the directory of a generation. -/
theorem Store.writeSmallFile_eval {tree : FileTree} {root : Path} {place : List String}
    {name file : String} (hroot : tree.view.Rooted root place)
    (hname : name ∈ Layout.folders) (hfile : file ∈ Layout.files)
    (hcheck : FileTree.checkPath ((root.join name).join file) = .ok ())
    (hfolder : tree.view (place ++ [name]) = some .directory)
    (hfree : tree.view (place ++ [name] ++ [file]) ≠ some .directory) (context : Context)
    (data : Bytes) :
    ∃ after,
      Task.eval tree (writeSmallFile context ((root.join name).join file) data) =
        (.ok (), after) ∧
      after.view = tree.view.graft (place ++ [name] ++ [file]) (View.ofFile data) := by
  obtain ⟨made, hmade, -, hfill⟩ :=
    FileTree.fill_file hroot hname hfile hcheck hfolder hfree
  obtain ⟨filled, hfilled, hsync, hview⟩ := hfill data
  refine ⟨filled, ?_, hview⟩
  -- made, filled, forced to storage
  unfold writeSmallFile
  rw [Task.eval_bind, Task.eval_ofProcedure, Procedure.eval_create, hmade]
  dsimp only [FileTree.settle]
  rw [Task.eval_bind, Task.eval_ofProcedure, Procedure.eval_append, hfilled]
  dsimp only [FileTree.settle]
  rw [Task.eval_ofProcedure, Procedure.eval_sync, hsync]

/-- Storing an apply position is writing its text. -/
theorem Store.storeApply_eval {store : Store} {tree after : FileTree} {directory : Path}
    {position : ApplyPosition} (h : Task.eval tree (writeSmallFile (store.context "storeApplyID")
      (directory.join Layout.apply) (Bytes.ofString position.text)) = (.ok (), after)) :
    Task.eval tree (store.storeApply directory position) = (.ok (), after) := by
  unfold storeApply
  exact (Task.eval_bind_ok _ h).trans rfl

end PartitionSnapshot
