import PartitionSnapshot.Proofs.Settling

/-!
# Making the directories on a way

A directory is made together with those above it that are missing. When this is cut short or fails,
some of them may have been made, and stay. They are empty but for one another, and lie on the way to
the directory that is wanted.

A path that only goes down from there meets nothing else: what it leads to is as missing as before.
A path that goes up again, as `missing/../there` does, may well lead somewhere once the missing
directory was made, and one that goes on with a name that is too long is refused for another reason
than before.

## Main statements

* `FileTree.grown_makeDirectoriesAlong`: what is made.
* `FileTree.read_makeDirectoriesAlong`: what is read of a directory that was missing.
* `FileTree.enter_makeDirectoriesAlong`: making a directory succeeds if and only if the steps lead
  to a directory afterwards.
* `FileTree.makeDirectories_cases`: what making a directory comes to.
-/

namespace PartitionSnapshot

/-! ## Ways straight down -/

namespace Path.Step

/-- A step that does not go up, and has no name that is too long. -/
def IsStraight : Step → Prop
  | .stay => True
  | .up => False
  | .down name => name.utf8ByteSize ≤ FileTree.maxName

/-- The name through which a step leads down. -/
def name? : Step → Option String
  | .down name => some name
  | _ => none

/-- The names through which steps lead down. -/
def names (steps : List Step) : List String := steps.filterMap name?

theorem names_append (steps rest : List Step) : names (steps ++ rest) = names steps ++ names rest :=
  List.filterMap_append

end Path.Step

open Path.Step (IsStraight names names_append)

namespace View

/-- A path that goes straight down behind the first directory that is missing on its way. -/
def Straight (view : View) (path : Path) : Prop :=
  ∀ front name back place, path.steps = front ++ .down name :: back →
    view.enter [] front = some place → view (place ++ [name]) = none →
      ∀ step ∈ back, step.IsStraight

/-- A path on whose way nothing is missing. -/
theorem straight_of_enter {view : View} {root : Path} {place : List String}
    (h : view.enter [] root.steps = some place) : view.Straight root := by
  intro front name back middle hroot hfront hnone
  rw [hroot, enter_append, hfront, Option.bind_some] at h
  obtain ⟨⟨-, hdirectory⟩, -⟩ := enter_down_eq_some.1 h
  rw [hnone] at hdirectory
  cases hdirectory

/-- The view with directories on the way to a place, where there was nothing. -/
def Grown (place : List String) (view view' : View) : Prop :=
  ∀ other, view' other = view other ∨
    (view other = none ∧ view' other = some .directory ∧ other <+: place)

namespace Grown

variable {place : List String} {view view' view'' : View}

theorem refl (place : List String) (view : View) : Grown place view view := fun _ => .inl rfl

theorem trans (h : Grown place view view') (h' : Grown place view' view'') :
    Grown place view view'' := by
  intro other
  rcases h other with hsame | ⟨hnone, hmade, hway⟩
  · rw [← hsame]
    exact h' other
  · rcases h' other with hsame' | ⟨hnone', -, -⟩
    · exact .inr ⟨hnone, hsame'.trans hmade, hway⟩
    · rw [hmade] at hnone'
      cases hnone'

theorem directory (h : Grown place view view') {other : List String}
    (hdirectory : view other = some .directory) : view' other = some .directory := by
  rcases h other with hsame | ⟨hnone, -, -⟩
  · exact hsame.trans hdirectory
  · rw [hdirectory] at hnone
    cases hnone

/-- No file has come. -/
theorem file (h : Grown place view view') {other : List String} {content : Bytes}
    (hfile : view' other = some (.file content)) : view other = some (.file content) := by
  rcases h other with hsame | ⟨-, hmade, -⟩
  · exact hsame.symm.trans hfile
  · rw [hfile] at hmade
    cases hmade

/-- Beside the way everything is as it was. -/
theorem beside (h : Grown place view view') {other : List String} (hother : ¬ other <+: place) :
    view' other = view other := by
  rcases h other with hsame | ⟨-, -, hway⟩
  · exact hsame
  · exact absurd hway hother

end Grown

/-- Steps lead through directories, or come to an entry that is none or has too long a name. -/
theorem enter_or_stuck (view : View) (place : List String) (steps : List Path.Step) :
    (∃ place', view.enter place steps = some place') ∨
    ∃ front name back middle, steps = front ++ .down name :: back ∧
      view.enter place front = some middle ∧
      (name.utf8ByteSize ≤ FileTree.maxName → view (middle ++ [name]) ≠ some .directory) := by
  -- along the steps, all of which but those down can be taken
  induction steps generalizing place with
  | nil => exact .inl ⟨place, rfl⟩
  | cons step steps ih =>
    cases step with
    | stay =>
      rcases ih place with henter | ⟨front, name, back, middle, rfl, hfront, hstuck⟩
      · exact .inl henter
      · exact .inr ⟨.stay :: front, name, back, middle, rfl, hfront, hstuck⟩
    | up =>
      rcases ih place.dropLast with henter | ⟨front, name, back, middle, rfl, hfront, hstuck⟩
      · exact .inl henter
      · exact .inr ⟨.up :: front, name, back, middle, rfl, hfront, hstuck⟩
    | down name =>
      by_cases hdown : name.utf8ByteSize ≤ FileTree.maxName ∧
          view (place ++ [name]) = some .directory
      · rcases ih (place ++ [name]) with ⟨place', henter⟩ |
          ⟨front, name', back, middle, rfl, hfront, hstuck⟩
        · exact .inl ⟨place', enter_down_eq_some.2 ⟨hdown, henter⟩⟩
        · exact .inr ⟨.down name :: front, name', back, middle, rfl,
            enter_down_eq_some.2 ⟨hdown, hfront⟩, hstuck⟩
      · exact .inr ⟨[], name, steps, place, rfl, rfl, fun hsize hdirectory =>
          hdown ⟨hsize, hdirectory⟩⟩

end View

namespace FileTree

variable {tree after : FileTree} {place middle target : List String} {name file : String}
variable {front way steps : List Path.Step} {root : Path}

/-! ## Following steps -/

/-- A step down that is not the last one has to lead to a directory. -/
theorem follow_down {rest : List Path.Step} (hrest : rest ≠ []) :
    tree.follow place (.down name :: rest) =
      if maxName < name.utf8ByteSize then refuse .nameTooLong
      else
        match tree.at? (place ++ [name]) with
        | none => refuse .noEntry
        | some (.file _) => refuse .notDirectory
        | some (.directory _) => tree.follow (place ++ [name]) rest := by
  cases rest with
  | nil => exact absurd rfl hrest
  | cons step rest => rfl

/-- Steps straight down that lead to an entry lead to the one that they name. -/
theorem entry_of_follow_straight (hway : ∀ step ∈ way, step.IsStraight)
    (h : tree.follow middle way = .ok (.entry place name)) :
    place ++ [name] = middle ++ names way := by
  induction way generalizing middle with
  | nil => cases h
  | cons step way ih =>
    have hrest := fun step hstep => hway step (List.mem_cons_of_mem _ hstep)
    cases step with
    | stay => exact ih hrest h
    | up => exact (hway .up List.mem_cons_self).elim
    | down name' =>
      by_cases hnil : way = []
      · subst hnil
        simp only [follow] at h
        split at h
        · cases h
        · cases h
          rfl
      · rw [follow_down hnil] at h
        split at h
        · cases h
        · split at h
          · cases h
          · cases h
          · have hplace := ih hrest h
            rw [hplace, List.append_assoc]
            rfl

/-- Where there is nothing, there is nothing below. -/
theorem view_below_none (h : tree.view place = none) (rest : List String) :
    tree.view (place ++ rest) = none := by
  have hat := at?_of_view_none h
  rw [view, at?_append, hat]
  rfl

/-- In a part without files, steps straight down lead to the entry that they name, or to nothing. -/
theorem follow_straight (hway : ∀ step ∈ way, step.IsStraight)
    (hfile : file.utf8ByteSize ≤ maxName)
    (hfree : ∀ rest content, tree.view (middle ++ rest) ≠ some (.file content)) :
    tree.follow middle (way ++ [.down file]) = refuse .noEntry ∨
      tree.follow middle (way ++ [.down file]) = .ok (.entry (middle ++ names way) file) := by
  -- along the steps; what they lead to is a directory, or is missing
  induction way generalizing middle with
  | nil =>
    right
    rw [names, List.filterMap_nil, List.append_nil, List.nil_append, follow,
      if_neg (Nat.not_lt.2 hfile)]
  | cons step way ih =>
    have hrest := fun step hstep => hway step (List.mem_cons_of_mem _ hstep)
    cases step with
    | stay => exact ih hrest hfree
    | up => exact (hway .up List.mem_cons_self).elim
    | down name =>
      have hsize : name.utf8ByteSize ≤ maxName := hway (.down name) List.mem_cons_self
      rw [List.cons_append, follow_down (by simp), if_neg (Nat.not_lt.2 hsize)]
      rcases hat : tree.at? (middle ++ [name]) with _ | ⟨content | children⟩
      · exact .inl rfl
      · exact absurd (view_of_at? hat) (hfree [name] content)
      · have hfree' (rest : List String) (content : Bytes) :
            tree.view (middle ++ [name] ++ rest) ≠ some (.file content) := by
          rw [List.append_assoc]
          exact hfree _ content
        have hbelow := ih hrest hfree'
        rw [List.append_assoc] at hbelow
        exact hbelow

/-- Below a place where nothing was there is still no file, so steps straight down lead to nothing,
or all the way to an entry that is not there. -/
theorem follow_added (hway : ∀ step ∈ way, step.IsStraight) (hfile : file.utf8ByteSize ≤ maxName)
    (hgrown : View.Grown (middle ++ names way) tree.view after.view)
    (hnone : tree.view middle = none) :
    after.follow middle (way ++ [.down file]) = refuse .noEntry ∨
    (after.follow middle (way ++ [.down file]) = .ok (.entry (middle ++ names way) file) ∧
      after.view (middle ++ names way ++ [file]) = none) := by
  have hfree (rest : List String) (content : Bytes) :
      after.view (middle ++ rest) ≠ some (.file content) := by
    intro hcontent
    have hbefore := hgrown.file hcontent
    rw [view_below_none hnone] at hbefore
    cases hbefore
  rcases follow_straight hway hfile hfree with hfollow | hfollow
  · exact .inl hfollow
  · refine .inr ⟨hfollow, ?_⟩
    rw [hgrown.beside, List.append_assoc]
    · exact view_below_none hnone _
    · exact fun hbelow => absurd hbelow.length_le (by simp)

/-- In a tree with directories added on the way, steps straight down lead to the entry that they led
to before, or they led nowhere before and lead to nothing now. -/
theorem follow_grown (hway : ∀ step ∈ way, step.IsStraight) (hfile : file.utf8ByteSize ≤ maxName)
    (hgrown : View.Grown (middle ++ names way) tree.view after.view) :
    after.follow middle (way ++ [.down file]) = tree.follow middle (way ++ [.down file]) ∨
    (tree.follow middle (way ++ [.down file]) = refuse .noEntry ∧
      after.follow middle (way ++ [.down file]) = .ok (.entry (middle ++ names way) file) ∧
      after.view (middle ++ names way ++ [file]) = none) := by
  -- along the steps, up to the first directory that was missing
  induction way generalizing middle with
  | nil => exact .inl rfl
  | cons step way ih =>
    have hrest := fun step hstep => hway step (List.mem_cons_of_mem _ hstep)
    cases step with
    | stay => exact ih hrest hgrown
    | up => exact (hway .up List.mem_cons_self).elim
    | down name =>
      have hsize : name.utf8ByteSize ≤ maxName := hway (.down name) List.mem_cons_self
      have hnames : middle ++ names (.down name :: way) = middle ++ [name] ++ names way := by
        rw [List.append_assoc]
        rfl
      have hne : way ++ [.down file] ≠ [] := by simp
      rw [hnames] at hgrown ⊢
      rw [List.cons_append, follow_down hne, follow_down hne, if_neg (Nat.not_lt.2 hsize),
        if_neg (Nat.not_lt.2 hsize)]
      rcases hat : tree.at? (middle ++ [name]) with _ | ⟨content | children⟩
      · -- nothing was here, and what is here now was added
        have hnone : tree.view (middle ++ [name]) = none := by
          rw [view, hat]
          rfl
        rcases hafter : after.at? (middle ++ [name]) with _ | ⟨content | children⟩
        · exact .inl rfl
        · have hbefore := hgrown.file (view_of_at? hafter)
          rw [hnone] at hbefore
          cases hbefore
        · exact (follow_added hrest hfile hgrown hnone).imp_right fun hadded => ⟨rfl, hadded⟩
      · -- a file is still there
        have hsame : after.view (middle ++ [name]) = some (.file content) := by
          rcases hgrown (middle ++ [name]) with hsame | ⟨hnone, -, -⟩
          · exact hsame.trans (view_of_at? hat)
          · rw [view_of_at? hat] at hnone
            cases hnone
        rw [at?_of_view_file hsame]
        exact .inl rfl
      · obtain ⟨children', hchildren'⟩ :=
          at?_of_view_directory (hgrown.directory (view_of_at? hat))
        rw [hchildren']
        exact ih hrest hgrown

/-! ## Reading -/

theorem locate_of_follow {path : Path} (htext : path.text.isEmpty = false)
    (hcheck : checkPath path = .ok ()) : tree.locate path = tree.follow [] path.steps := by
  rw [locate, hcheck, htext]
  rfl

/-- What a path leads to that goes straight down behind directories is read alike in a tree with
directories added on its way. -/
theorem read_grown (hsteps : root.steps = front ++ way)
    (hfront : tree.view.enter [] front = some middle) (hway : ∀ step ∈ way, step.IsStraight)
    (hname : Path.IsName file)
    (hgrown : View.Grown (middle ++ names way) tree.view after.view) :
    after.read (root.join file) = tree.read (root.join file) := by
  have hslash := Path.endsInSlash_join root hname
  cases hcheck : checkPath (root.join file) with
  | error failure =>
    -- the system refuses the path in any tree
    rw [read_of_checkPath hcheck, read_of_checkPath hcheck]
  | ok _ =>
    have hfront' : after.view.enter [] front = some middle :=
      View.enter_mono (fun _ => hgrown.directory) hfront
    have hfollow {tree : FileTree} (hfront : tree.view.enter [] front = some middle) :
        tree.locate (root.join file) = tree.follow middle (way ++ [.down file]) := by
      rw [locate_of_follow (Path.isEmpty_join root hname) hcheck, Path.steps_join root hname,
        hsteps, List.append_assoc, follow_enter hfront (by simp)]
    rcases follow_grown hway hname.size hgrown with hsame | ⟨hnone, hentry, habsent⟩
    · cases htree : tree.follow middle (way ++ [.down file]) with
      | error failure =>
        rw [htree] at hsame
        rw [read_of_locate_error ((hfollow hfront).trans htree),
          read_of_locate_error ((hfollow hfront').trans hsame)]
      | ok spot =>
        -- the entry is none of the directories that were added
        obtain ⟨place, henter, rfl⟩ := enter_of_follow htree
        have hplace : place ++ [file] = middle ++ names (way ++ [.down file]) := by
          apply entry_of_follow_straight _ htree
          intro step hstep
          rcases List.mem_append.1 hstep with hstep | hstep
          · exact hway step hstep
          · rw [List.mem_singleton.1 hstep]
            exact hname.size
        have hroot : tree.view.enter [] root.steps = some place := by
          rw [hsteps, View.enter_append, hfront]
          exact henter
        have hkept : after.view (place ++ [file]) = tree.view (place ++ [file]) := by
          apply hgrown.beside
          intro hbelow
          have hlength := hbelow.length_le
          rw [hplace, names_append, ← List.append_assoc, List.length_append] at hlength
          exact Nat.not_succ_le_self _ hlength
        exact read_of_enter hname hroot (View.enter_mono (fun _ => hgrown.directory) hroot) hkept
    · rw [← hfollow hfront] at hnone
      rw [← hfollow hfront'] at hentry
      rw [read_of_locate_error hnone, read_entry hentry hslash, habsent]
      rfl

/-! ## What is made -/

theorem entry_of_makeDirectory (h : tree.makeDirectory steps = .ok after) :
    ∃ place name, tree.follow [] steps = .ok (.entry place name) ∧
      tree.at? (place ++ [name]) = none ∧ after = tree.putAt place name (.directory []) := by
  unfold makeDirectory at h
  cases hfollow : tree.follow [] steps with
  | error failure =>
    rw [hfollow] at h
    cases h
  | ok spot =>
    rw [hfollow] at h
    cases spot with
    | folder place => cases h
    | entry place name =>
      simp only [bind, Except.bind] at h
      cases hat : tree.at? (place ++ [name]) with
      | none =>
        rw [hat] at h
        cases h
        exact ⟨place, name, rfl, hat, rfl⟩
      | some child =>
        rw [hat] at h
        cases h

/-- Steps that lead to an entry end in the step down to it. -/
theorem concat_of_follow (h : tree.follow middle steps = .ok (.entry place name)) :
    ∃ front, steps = front ++ [.down name] := by
  induction steps generalizing middle with
  | nil => cases h
  | cons step steps ih =>
    cases step with
    | stay =>
      obtain ⟨front, rfl⟩ := ih h
      exact ⟨.stay :: front, rfl⟩
    | up =>
      obtain ⟨front, rfl⟩ := ih h
      exact ⟨.up :: front, rfl⟩
    | down name' =>
      by_cases hnil : steps = []
      · subst hnil
        simp only [follow] at h
        split at h
        · cases h
        · cases h
          exact ⟨[], rfl⟩
      · rw [follow_down hnil] at h
        split at h
        · cases h
        · split at h
          · cases h
          · cases h
          · obtain ⟨front, rfl⟩ := ih h
            exact ⟨.down name' :: front, rfl⟩

/-- So they lead through directories, and then down by a name that is not too long. -/
theorem enter_of_follow_entry (h : tree.follow middle steps = .ok (.entry place name)) :
    ∃ front, steps = front ++ [.down name] ∧ tree.view.enter middle front = some place ∧
      name.utf8ByteSize ≤ maxName := by
  obtain ⟨front, rfl⟩ := concat_of_follow h
  obtain ⟨place', henter, hspot⟩ := enter_of_follow h
  cases hspot
  refine ⟨front, rfl, henter, ?_⟩
  rw [follow_enter henter (by simp), follow] at h
  split at h
  · cases h
  · omega

/-- A directory is made inside one that is there. -/
theorem view_of_makeDirectory (htop : tree.view [] = some .directory)
    (h : tree.makeDirectory steps = .ok after) :
    ∃ front place name, steps = front ++ [.down name] ∧ name.utf8ByteSize ≤ maxName ∧
      tree.follow [] steps = .ok (.entry place name) ∧ tree.view.enter [] front = some place ∧
      tree.view (place ++ [name]) = none ∧
      after.view = tree.view.graft (place ++ [name]) (View.ofFiles fun _ => none) := by
  obtain ⟨place, name, hfollow, hat, rfl⟩ := entry_of_makeDirectory h
  obtain ⟨front, rfl, henter, hsize⟩ := enter_of_follow_entry hfollow
  have hnone : tree.view (place ++ [name]) = none := by
    rw [view, hat]
    rfl
  have hview := view_putAt name (.directory []) (directory_of_enter henter htop)
  rw [view_empty] at hview
  exact ⟨front, place, name, rfl, hsize, hfollow, henter, hnone, hview⟩

/-- A directory that is made where there was nothing is all that was added. -/
theorem grown_of_graft (hnone : tree.view place = none) (hplace : place <+: target)
    (hview : after.view = tree.view.graft place (View.ofFiles fun _ => none)) :
    View.Grown target tree.view after.view := by
  intro other
  by_cases hother : place <+: other
  · obtain ⟨rest, rfl⟩ := hother
    rw [hview, View.graft_append]
    cases rest with
    | nil =>
      rw [List.append_nil]
      exact .inr ⟨hnone, rfl, hplace⟩
    | cons name rest =>
      rw [view_below_none hnone]
      cases rest <;> exact .inl rfl
  · rw [hview, View.graft_elsewhere hother]
    exact .inl rfl

theorem enter_of_isPrefix {steps' : List Path.Step} (hsteps : steps' <+: steps)
    (h : tree.view.enter middle steps = some place) :
    ∃ place', tree.view.enter middle steps' = some place' := by
  obtain ⟨rest, rfl⟩ := hsteps
  rw [View.enter_append, Option.bind_eq_some_iff] at h
  obtain ⟨place', hplace', -⟩ := h
  exact ⟨place', hplace'⟩

theorem grown_makeDirectory (htop : tree.view [] = some .directory)
    (hfront : tree.view.enter [] front = some middle) (hway : ∀ step ∈ way, step.IsStraight)
    (hsteps : steps <+: front ++ way) (h : tree.makeDirectory steps = .ok after) :
    View.Grown (middle ++ names way) tree.view after.view := by
  obtain ⟨front', place, name, rfl, -, hfollow, henter, hnone, hview⟩ :=
    view_of_makeDirectory htop h
  -- where there are directories already none is made
  have hmissing : tree.view.enter [] (front' ++ [.down name]) = none := by
    rw [View.enter_append, henter, Option.bind_some, View.enter, hnone, if_neg]
    rintro ⟨-, hdirectory⟩
    cases hdirectory
  rcases List.prefix_or_prefix_of_prefix hsteps (List.prefix_append front way) with
    hshort | ⟨way', hway'⟩
  · obtain ⟨place', hplace'⟩ := enter_of_isPrefix hshort hfront
    rw [hmissing] at hplace'
    cases hplace'
  · rw [← hway', List.prefix_append_right_inj] at hsteps
    have hne : way' ≠ [] := by
      rintro rfl
      rw [← hway', List.append_nil, hfront] at hmissing
      cases hmissing
    rw [← hway', follow_enter hfront hne] at hfollow
    have hplace := entry_of_follow_straight (fun step hstep => hway step (hsteps.subset hstep))
      hfollow
    apply grown_of_graft hnone _ hview
    rw [hplace, List.prefix_append_right_inj]
    exact hsteps.filterMap _

theorem isPrefix_parentSteps (steps : List Path.Step) : parentSteps steps <+: steps := by
  rw [parentSteps, ← List.reverse_suffix, List.reverse_reverse]
  exact (List.dropWhile_suffix _).trans ((List.tail_suffix _).trans (List.dropWhile_suffix _))

/-- What is made lies on the way. -/
theorem grown_makeDirectoriesAlong (htop : tree.view [] = some .directory)
    (hfront : tree.view.enter [] front = some middle) (hway : ∀ step ∈ way, step.IsStraight)
    (hsteps : steps <+: front ++ way) :
    View.Grown (middle ++ names way) tree.view (tree.makeDirectoriesAlong steps).2.view := by
  -- along the making, which goes back to the parent where that is missing
  fun_induction makeDirectoriesAlong tree steps with
  | case1 => exact .refl _ _
  | case2 steps _ after hmake => exact grown_makeDirectory htop hfront hway hsteps hmake
  | case3 steps _ failure after hparent _ ih =>
    have hgrown := ih ((isPrefix_parentSteps steps).trans hsteps)
    rw [hparent] at hgrown
    exact hgrown
  | case4 steps _ after hparent _ ih =>
    have hgrown := ih ((isPrefix_parentSteps steps).trans hsteps)
    rw [hparent] at hgrown
    refine hgrown.trans ?_
    unfold makeOrKeep
    split
    · next after' hmake =>
      exact grown_makeDirectory (hgrown.directory htop)
        (View.enter_mono (fun _ => hgrown.directory) hfront) hway hsteps hmake
    · split <;> exact .refl _ _
  | case5 => exact .refl _ _
  | case6 => exact .refl _ _

/-- Directories that are there stay. -/
theorem directory_makeDirectory (htop : tree.view [] = some .directory)
    (h : tree.makeDirectory steps = .ok after) {other : List String}
    (hdirectory : tree.view other = some .directory) : after.view other = some .directory := by
  obtain ⟨_, place, name, -, -, -, -, hnone, hview⟩ := view_of_makeDirectory htop h
  exact (grown_of_graft hnone List.prefix_rfl hview).directory hdirectory

theorem directory_makeDirectoriesAlong (htop : tree.view [] = some .directory)
    (steps : List Path.Step) {other : List String}
    (hdirectory : tree.view other = some .directory) :
    (tree.makeDirectoriesAlong steps).2.view other = some .directory := by
  -- along the making, the top of the tree among the directories that stay
  suffices h : ∀ other, tree.view other = some .directory →
      (tree.makeDirectoriesAlong steps).2.view other = some .directory from h other hdirectory
  clear hdirectory
  fun_induction makeDirectoriesAlong tree steps with
  | case1 => exact fun _ => id
  | case2 steps _ after hmake => exact fun _ => directory_makeDirectory htop hmake
  | case3 steps _ failure after hparent _ ih =>
    rw [hparent] at ih
    exact ih
  | case4 steps _ after hparent _ ih =>
    rw [hparent] at ih
    intro other hdirectory
    unfold makeOrKeep
    split
    · next after' hmake => exact directory_makeDirectory (ih [] htop) hmake (ih other hdirectory)
    · split <;> exact ih other hdirectory
  | case5 => exact fun _ => id
  | case6 => exact fun _ => id

/-! ## When a directory is made -/

theorem enter_of_follow_folder (h : tree.follow middle steps = .ok (.folder place)) :
    tree.view.enter middle steps = some place := by
  -- along the steps, of which the last leads to a directory that is there
  fun_induction follow tree middle steps with
  | case1 =>
    cases h
    rfl
  | case2 _ _ ih => exact ih h
  | case3 _ _ ih => exact ih h
  | case4 => cases h
  | case5 => cases h
  | case6 => cases h
  | case7 => cases h
  | case8 => cases h
  | case9 middle name rest _ hshort children hchildren ih =>
    exact View.enter_down_eq_some.2 ⟨⟨Nat.not_lt.1 hshort, view_of_at? hchildren⟩, ih h⟩

theorem enter_of_stepsToDirectory (h : tree.stepsToDirectory steps = true) :
    ∃ place, tree.view.enter [] steps = some place := by
  unfold stepsToDirectory at h
  cases hfollow : tree.follow [] steps with
  | error failure =>
    rw [hfollow] at h
    cases h
  | ok spot =>
    rw [hfollow] at h
    cases spot with
    | folder place => exact ⟨place, enter_of_follow_folder hfollow⟩
    | entry place name =>
      obtain ⟨front, rfl, henter, hsize⟩ := enter_of_follow_entry hfollow
      rcases hat : tree.at? (place ++ [name]) with _ | ⟨content | children⟩
      · simp [atSpot?, hat] at h
      · simp [atSpot?, hat, isDirectory] at h
      · refine ⟨place ++ [name], ?_⟩
        rw [View.enter_append, henter, Option.bind_some]
        exact View.enter_down_eq_some.2 ⟨⟨hsize, view_of_at? hat⟩, rfl⟩

theorem stepsToDirectory_of_enter (htop : tree.view [] = some .directory)
    (henter : tree.view.enter [] steps = some place) : tree.stepsToDirectory steps = true := by
  have hplace := directory_of_enter henter htop
  obtain ⟨children, hchildren⟩ := at?_of_view_directory hplace
  have hfolder (h : tree.follow [] steps = .ok (.folder place)) :
      tree.stepsToDirectory steps = true := by
    simp [stepsToDirectory, h, atSpot?, hchildren, isDirectory]
  -- only the last step matters, since those before it lead to a directory
  rcases List.eq_nil_or_concat steps with rfl | ⟨front, last, rfl⟩
  · cases henter
    exact hfolder rfl
  · rw [List.concat_eq_append] at henter hfolder ⊢
    rw [View.enter_append, Option.bind_eq_some_iff] at henter
    obtain ⟨middle, hfront, hlast⟩ := henter
    rw [follow_enter hfront (List.cons_ne_nil _ _)] at hfolder
    cases last with
    | stay =>
      cases hlast
      exact hfolder rfl
    | up =>
      cases hlast
      exact hfolder rfl
    | down name =>
      obtain ⟨⟨hsize, -⟩, hlast⟩ := View.enter_down_eq_some.1 hlast
      cases hlast
      have hentry : tree.follow [] (front ++ [.down name]) = .ok (.entry middle name) := by
        rw [follow_enter hfront (List.cons_ne_nil _ _), follow, if_neg (Nat.not_lt.2 hsize)]
      simp [stepsToDirectory, hentry, atSpot?, hchildren, isDirectory]

/-- Steps lead to a directory where they can be taken through directories to their end. -/
theorem stepsToDirectory_iff (htop : tree.view [] = some .directory) (steps : List Path.Step) :
    tree.stepsToDirectory steps = true ↔ ∃ place, tree.view.enter [] steps = some place :=
  ⟨enter_of_stepsToDirectory, fun ⟨_, henter⟩ => stepsToDirectory_of_enter htop henter⟩

theorem enter_of_makeDirectory (htop : tree.view [] = some .directory)
    (h : tree.makeDirectory steps = .ok after) :
    ∃ place, after.view.enter [] steps = some place := by
  obtain ⟨front, place, name, rfl, hsize, -, henter, -, hview⟩ := view_of_makeDirectory htop h
  have hfront : after.view.enter [] front = some place :=
    View.enter_mono (fun _ => directory_makeDirectory htop h) henter
  have hmade : after.view (place ++ [name]) = some .directory := by
    rw [hview, View.graft_at]
    rfl
  refine ⟨place ++ [name], ?_⟩
  rw [View.enter_append, hfront, Option.bind_some]
  exact View.enter_down_eq_some.2 ⟨⟨hsize, hmade⟩, rfl⟩

theorem enter_makeOrKeep (htop : tree.view [] = some .directory) :
    (tree.makeOrKeep steps).1 = .ok () ↔
      ∃ place, (tree.makeOrKeep steps).2.view.enter [] steps = some place := by
  have hdirectory := stepsToDirectory_iff htop steps
  unfold makeOrKeep
  cases hmake : tree.makeDirectory steps with
  | ok after => exact iff_of_true rfl (enter_of_makeDirectory htop hmake)
  | error failure =>
    dsimp only
    split
    · next hsteps => exact iff_of_true rfl (hdirectory.1 hsteps)
    · next hsteps => exact iff_of_false nofun fun henter => hsteps (hdirectory.2 henter)

/-- Making a directory succeeds if and only if the steps lead to a directory afterwards. -/
theorem enter_makeDirectoriesAlong (htop : tree.view [] = some .directory)
    (steps : List Path.Step) :
    (tree.makeDirectoriesAlong steps).1 = .ok () ↔
      ∃ place, (tree.makeDirectoriesAlong steps).2.view.enter [] steps = some place := by
  fun_induction makeDirectoriesAlong tree steps with
  | case1 => exact iff_of_true rfl ⟨[], rfl⟩
  | case2 steps _ after hmake => exact iff_of_true rfl (enter_of_makeDirectory htop hmake)
  | case3 steps _ failure after hparent _ ih =>
    -- where the parent cannot be reached, nothing in it can be
    refine iff_of_false nofun fun ⟨place, henter⟩ => ?_
    rw [hparent] at ih
    have hreached := ih.2 (enter_of_isPrefix (isPrefix_parentSteps steps) henter)
    cases hreached
  | case4 steps _ after hparent _ _ =>
    have hafter := directory_makeDirectoriesAlong htop (parentSteps steps) htop
    rw [hparent] at hafter
    exact enter_makeOrKeep hafter
  | case5 steps _ failure _ _ hsteps =>
    exact iff_of_true rfl ((stepsToDirectory_iff htop _).1 hsteps)
  | case6 steps _ failure _ _ hsteps =>
    exact iff_of_false nofun fun henter => hsteps ((stepsToDirectory_iff htop _).2 henter)

/-- **What making a directory comes to.** It is there afterwards, or nothing in it is found; then
the directories on a part of the way were made. -/
theorem makeDirectories_cases (htop : tree.view [] = some .directory) (path : Path) :
    (∃ failure steps, steps <+: path.steps ∧
      tree.makeDirectories path = (.error failure, (tree.makeDirectoriesAlong steps).2) ∧
      ∀ name, Path.IsName name → ∀ found,
        (tree.makeDirectoriesAlong steps).2.find (path.join name) ≠ .ok found) ∨
    ∃ place, tree.makeDirectories path = (.ok (), (tree.makeDirectoriesAlong path.steps).2) ∧
      (tree.makeDirectoriesAlong path.steps).2.view.enter [] path.steps = some place ∧
      (tree.makeDirectoriesAlong path.steps).2.view place = some .directory := by
  cases hcheck : checkPath path with
  | error failure =>
    -- where the system does not accept a path, it does not accept one into it
    refine .inl ⟨failure, [], List.nil_prefix, ?_, fun name hname found hfound => ?_⟩
    · rw [makeDirectories, hcheck, makeDirectoriesAlong_nil]
    · obtain ⟨spot, hlocate⟩ := locate_of_find hfound
      have haccepted := checkPath_of_join (checkPath_of_locate hlocate)
      rw [hcheck] at haccepted
      cases haccepted
  | ok _ =>
    have hmade : tree.makeDirectories path = tree.makeDirectoriesAlong path.steps := by
      rw [makeDirectories, hcheck]
    have hthere := enter_makeDirectoriesAlong htop path.steps
    cases hanswer : (tree.makeDirectoriesAlong path.steps).1 with
    | error failure =>
      rw [hanswer] at hthere
      refine .inl ⟨failure, path.steps, List.prefix_rfl, hmade.trans (Prod.ext hanswer rfl),
        fun name hname found hfound => ?_⟩
      obtain ⟨spot, hlocate⟩ := locate_of_find hfound
      obtain ⟨place, henter, -⟩ := spot_of_locate hname hlocate
      cases hthere.2 ⟨place, henter⟩
    | ok _ =>
      obtain ⟨place, henter⟩ := hthere.1 hanswer
      have htop' := directory_makeDirectoriesAlong htop path.steps htop
      exact .inr ⟨place, hmade.trans (Prod.ext hanswer rfl), henter,
        directory_of_enter henter htop'⟩

/-! ## Reading what was missing -/

theorem makeDirectoriesAlong_of_refused {failure : Failure}
    (h : tree.follow [] steps = .error failure) (hfailure : failure ≠ .system .noEntry) :
    (tree.makeDirectoriesAlong steps).2 = tree := by
  rw [makeDirectoriesAlong]
  split
  · rfl
  · simp only [makeDirectory, h, bind, Except.bind, if_neg hfailure]
    split <;> rfl

/-- Where the steps come to a file, or to a name that is too long, nothing is made. -/
theorem makeDirectoriesAlong_of_stuck {back : List Path.Step}
    (hfront : tree.view.enter [] front = some middle)
    (hstuck : maxName < name.utf8ByteSize ∨
      ∃ content, tree.view (middle ++ [name]) = some (.file content))
    (hsteps : steps <+: front ++ .down name :: back) :
    (tree.makeDirectoriesAlong steps).2 = tree := by
  rcases List.prefix_or_prefix_of_prefix hsteps (List.prefix_append front (.down name :: back)) with
    hshort | ⟨rest, rfl⟩
  · obtain ⟨place, henter⟩ := enter_of_isPrefix hshort hfront
    exact makeDirectoriesAlong_of_enter henter
  · rw [List.prefix_append_right_inj] at hsteps
    rcases List.prefix_cons_iff.1 hsteps with rfl | ⟨rest, rfl, -⟩
    · rw [List.append_nil]
      exact makeDirectoriesAlong_of_enter hfront
    have hfollow : tree.follow [] (front ++ .down name :: rest) =
        tree.follow middle (.down name :: rest) := follow_enter hfront (List.cons_ne_nil _ _)
    by_cases hlong : maxName < name.utf8ByteSize
    · have hrefused : tree.follow middle (.down name :: rest) = refuse .nameTooLong := by
        cases rest with
        | nil => rw [follow, if_pos hlong]
        | cons step rest => rw [follow_down (List.cons_ne_nil _ _), if_pos hlong]
      exact makeDirectoriesAlong_of_refused (hfollow.trans hrefused) (by decide)
    · obtain ⟨content, hview⟩ := hstuck.resolve_left hlong
      have hfile := at?_of_view_file hview
      cases rest with
      | nil =>
        rw [makeDirectoriesAlong_entry (by simp) (hfollow.trans (by rw [follow, if_neg hlong])),
          hfile]
      | cons step rest =>
        have hrefused : tree.follow middle (.down name :: step :: rest) = refuse .notDirectory := by
          rw [follow_down (List.cons_ne_nil _ _), if_neg hlong, hfile]
        exact makeDirectoriesAlong_of_refused (hfollow.trans hrefused) (by decide)

/-- Behind a directory that is missing, a name that is too long is met only once that directory was
made. -/
theorem makeDirectoriesAlong_overlong (hlong : maxName < name.utf8ByteSize) :
    (directory []).makeDirectoriesAlong [.down "x", .down name] =
      (.error (.system .nameTooLong), .directory [("x", .directory [])]) := by
  have hparent : (directory []).makeDirectoriesAlong [.down "x"] =
      (.ok (), .directory [("x", .directory [])]) := by
    rw [makeDirectoriesAlong]
    rfl
  have hfollow : (directory [("x", .directory [])]).follow [] [.down "x", .down name] =
      .error (.system .nameTooLong) := by
    rw [follow_down (by simp), if_neg (by decide)]
    show follow _ ["x"] [.down name] = _
    rw [follow, if_pos hlong]
    rfl
  have hparentSteps : parentSteps [.down "x", .down name] = [.down "x"] := rfl
  rw [makeDirectoriesAlong]
  simp only [hparentSteps, hparent, makeOrKeep, makeDirectory, hfollow, stepsToDirectory]
  rfl

/-- **What is read behind directories that were made.** In a tree with directories made on the way
to a root, the entries of the root are read as before, if the root goes straight down behind the
first directory that was missing. -/
theorem read_makeDirectoriesAlong (htop : tree.view [] = some .directory)
    (hstraight : tree.view.Straight root) (hname : Path.IsName name)
    (hsteps : steps <+: root.steps) :
    (tree.makeDirectoriesAlong steps).2.read (root.join name) = tree.read (root.join name) := by
  rcases tree.view.enter_or_stuck [] root.steps with
    ⟨place, henter⟩ | ⟨front, missing, back, middle, hroot, hfront, hstuck⟩
  · obtain ⟨place', henter'⟩ := enter_of_isPrefix hsteps henter
    rw [makeDirectoriesAlong_of_enter henter']
  · by_cases hlong : maxName < missing.utf8ByteSize
    · rw [makeDirectoriesAlong_of_stuck hfront (.inl hlong) (hroot ▸ hsteps)]
    · rcases hview : tree.view (middle ++ [missing]) with _ | ⟨content⟩ | _
      · have hway : ∀ step ∈ .down missing :: back, step.IsStraight := by
          intro step hstep
          rcases List.mem_cons.1 hstep with rfl | hstep
          · exact Nat.not_lt.1 hlong
          · exact hstraight front missing back middle hroot hfront hview step hstep
        exact read_grown hroot hfront hway hname
          (grown_makeDirectoriesAlong htop hfront hway (hroot ▸ hsteps))
      · rw [makeDirectoriesAlong_of_stuck hfront (.inr ⟨content, hview⟩) (hroot ▸ hsteps)]
      · exact absurd hview (hstuck (Nat.not_lt.1 hlong))

end FileTree

end PartitionSnapshot
