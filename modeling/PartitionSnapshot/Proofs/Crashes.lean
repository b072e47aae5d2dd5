import PartitionSnapshot.Proofs.Restoring

/-!
# Crashes while a generation is stored

An execution of storing comes through four stages. While the new generation is written, the current
one and the backup stay as they are. Then a stale backup is removed, which takes many steps of the
file system; the current generation is set aside; and the new one is moved into its place. From
there on the new one is current, whatever is left of the backup.

In all stages but one a load finds the generation that was current before or the new one. The
exception is the time between the removal of a backup that was the only generation there was, and
the moving in of the new one.

## Main statements

* `Store.stage_of_execution`: the stages.
* `Store.storeSnapshot_crash`: what loads come to after a crash.
-/

namespace PartitionSnapshot

open FileTree (Holds)

namespace Store

variable {source : Source} {position : ApplyPosition} {view : View} {place : List String}
variable {g : Generations} {tree after : FileTree} {granted : List Request}

/-! ## The requests that matter -/

/-- The request that makes the generation in the staging directory the current one. -/
def commit (store : Store) : Request := .rename store.staging store.current

/-- The request that removes the backup. -/
def dropping (store : Store) : Request := .removeTree store.backup

variable {store : Store}

theorem not_inside_commit (path : Path) (name : String) :
    ¬ Request.Inside path name store.commit := by
  intro h
  cases h with
  | filing hfiling => cases hfiling

theorem not_inside_dropping : ¬ Request.Inside store.root Layout.staging store.dropping := by
  have hname : Layout.staging ≠ Layout.backup := by decide
  -- the index is generalised, since `cases` cannot compare two computed paths
  generalize hrequest : store.dropping = request
  intro h
  cases h with
  | removeTree =>
    rw [dropping, Request.removeTree.injEq] at hrequest
    exact hname (Path.join_inj hrequest).symm
  | makeDirectories => cases hrequest
  | filing hfiling =>
    subst hrequest
    cases hfiling

/-- How far storing came, and which generations `g'` it left of `g`. -/
inductive Stage (store : Store) (g : Generations) (new : View) (granted : List Request)
    (crash : Option (Option Request)) (g' : Generations) : Prop
  /-- The current generation and the backup are as they were. -/
  | writing (hcommit : store.commit ∉ granted) (hdropping : store.dropping ∉ granted)
      (hcrash : crash ≠ some (some store.dropping)) (hcurrent : g'.current = g.current)
      (hbackup : g'.backup = g.backup)
  /-- Some part of the backup may be gone. -/
  | dropping (hcommit : store.commit ∉ granted) (hdropping : store.dropping ∉ granted)
      (hcrash : crash = some (some store.dropping)) (hbackup : g.backup [] = some .directory)
      (hcurrent : g'.current = g.current)
  /-- The backup is gone, and the current generation is in its place or set aside. -/
  | swapping (hcommit : store.commit ∉ granted)
      (hdropping : g.backup [] = some .directory → store.dropping ∈ granted)
      (hcrash : crash ≠ none) (hcurrent : g'.recovered.current = g.current)
      (hfree : g'.current.NoFile)
  /-- The new generation is the current one. -/
  | moved (hcommit : store.commit ∈ granted) (hcurrent : g'.current = new)
      (hbackup : g'.backup.NoFile) (hcrash : crash = none → g'.backup = View.nothing)

/-- What was granted in the staging directory before makes no difference. -/
theorem Stage.append {part new : View} {front back : List Request}
    {crash : Option (Option Request)} {g' : Generations}
    (hstage : store.Stage { g with staging := part } new back crash g')
    (hfront : ∀ request ∈ front, request.Inside store.root Layout.staging) :
    store.Stage g new (front ++ back) crash g' := by
  have hcommit : store.commit ∉ front := fun hmem => not_inside_commit _ _ (hfront _ hmem)
  have hdropping : store.dropping ∉ front := fun hmem => not_inside_dropping (hfront _ hmem)
  cases hstage with
  | writing hcommit' hdropping' hcrash hcurrent hbackup =>
    exact .writing (by simp [hcommit, hcommit']) (by simp [hdropping, hdropping']) hcrash
      hcurrent hbackup
  | dropping hcommit' hdropping' hcrash hbackup hcurrent =>
    exact .dropping (by simp [hcommit, hcommit']) (by simp [hdropping, hdropping']) hcrash
      hbackup hcurrent
  | swapping hcommit' hdropping' hcrash hcurrent hfree =>
    exact .swapping (by simp [hcommit, hcommit'])
      (fun hbackup => List.mem_append_right _ (hdropping' hbackup)) hcrash hcurrent hfree
  | moved hcommit' hcurrent hbackup hcrash =>
    exact .moved (List.mem_append_right _ hcommit') hcurrent hbackup hcrash

/-! ## Before the swap -/

theorem removeIfPresent_inside (path : Path) (name : String) :
    (removeIfPresent (path.join name)).Only (Request.Inside path name) :=
  (Procedure.only_request .removeTree).bind fun answer => by cases answer <;> trivial

theorem discard_inside (store : Store) (operation : String) (path : Path) (name : String) :
    (store.discard operation (path.join name)).Only (Request.Inside path name) :=
  (Procedure.only_request .removeTree).bind fun answer => by cases answer <;> trivial

/-- Nothing was changed but what is in the staging directory. -/
structure Unswapped {α : Type} (store : Store) (view : View) (place : List String)
    (g : Generations) (granted : List Request) (after : FileTree) (ending : Ending α) :
    Prop where
  holds : ∃ part, Holds view place { g with staging := part } after
  granted : ∀ request ∈ granted, request.Inside store.root Layout.staging
  inside : ∀ request, ending = .crashed (some request) →
    request.Inside store.root Layout.staging

theorem Unswapped.append {α : Type} {ending : Ending α} {part : View} {front back : List Request}
    (hunswapped : store.Unswapped view place { g with staging := part } back after ending)
    (hfront : ∀ request ∈ front, request.Inside store.root Layout.staging) :
    store.Unswapped view place g (front ++ back) after ending where
  holds := hunswapped.holds
  granted request hrequest :=
    (List.mem_append.1 hrequest).elim (hfront request) (hunswapped.granted request)
  inside := hunswapped.inside

section

variable {α β : Type} {ending : Ending (Except Error β)}
variable (hroot : view.Rooted store.root place) (h : Holds view place g tree)
include hroot h

/-- A task inside the staging directory is gone through, or the execution ends in it. -/
theorem inside_bind {task : Task α} {next : α → Task β}
    (honly : Task.Only (Request.Inside store.root Layout.staging) task)
    (hexecution : Execution (task >>= next).run tree granted after ending) :
    store.Unswapped view place g granted after ending ∨
    ∃ value mid front back, Execution task.run tree front mid (.finished (.ok value)) ∧
      (∀ request ∈ front, request.Inside store.root Layout.staging) ∧
      granted = front ++ back ∧ Execution (next value).run mid back after ending := by
  -- cut short in the task, failed in it, or through it
  rcases hexecution.of_task_bind with ⟨inside, rfl, hcrash⟩ | ⟨error, rfl, hfail⟩ |
    ⟨value, mid, front, back, hfirst, hnext, rfl⟩
  · obtain ⟨hholds, hgranted, hinside⟩ := hcrash.staging_of_inside honly hroot h
    refine .inl ⟨hholds, hgranted, fun request hrequest => hinside request ?_⟩
    cases hrequest
    rfl
  · obtain ⟨hholds, hgranted, -⟩ := hfail.staging_of_inside honly hroot h
    exact .inl ⟨hholds, hgranted, fun request hrequest => (nomatch hrequest)⟩
  · obtain ⟨-, hgranted, -⟩ := hfirst.staging_of_inside honly hroot h
    exact .inr ⟨value, mid, front, back, hfirst, hgranted, rfl, hnext⟩

end

section

variable (hroot : view.Rooted store.root place) (haccepted : Layout.Accepted store.root)
variable (h : Holds view place g tree)
include hroot haccepted h

/-- An execution ends while the staging directory is being emptied, or goes on with an empty one. -/
theorem makeStaging_execution {β : Type} {ending : Ending (Except Error β)} {next : Task β}
    {toError toError' : Failure → Error}
    (hexecution : Execution (do
      Task.ofProcedure (removeIfPresent store.staging) toError
      Task.ofProcedure (.makeDirectories store.staging) toError'
      next : Task β).run tree granted after ending) :
    store.Unswapped view place g granted after ending ∨
    ∃ mid front back, Holds view place { g with staging := View.ofFiles fun _ => none } mid ∧
      (∀ request ∈ front, request.Inside store.root Layout.staging) ∧
      granted = front ++ back ∧ Execution next.run mid back after ending := by
  have hremove : (removeIfPresent store.staging).Only
      (Request.Inside store.root Layout.staging) := removeIfPresent_inside _ _
  have hmake : (Procedure.makeDirectories store.staging).Only
      (Request.Inside store.root Layout.staging) := Procedure.only_request .makeDirectories
  -- the remains of the staging directory are removed
  rcases inside_bind hroot h (Task.only_ofProcedure hremove _) hexecution with
    hunswapped | ⟨_, tree₁, front₁, back₁, hfirst, hfront₁, rfl, hexecution₁⟩
  · exact .inl hunswapped
  obtain ⟨-, h₁⟩ := dropStaging_eq_ok hroot haccepted.readable h
    (ofProcedure_eq_ok (hfirst.eval_eq rfl))
  -- the staging directory is made
  rcases inside_bind hroot h₁ (Task.only_ofProcedure hmake _) hexecution₁ with
    hunswapped | ⟨_, tree₂, front₂, back₂, hsecond, hfront₂, rfl, hexecution₂⟩
  · exact .inl (hunswapped.append hfront₁)
  have heval := ofProcedure_eq_ok (hsecond.eval_eq rfl)
  obtain ⟨made, hmade, h₂⟩ := makeStaging hroot haccepted h₁ rfl
  cases heval.symm.trans hmade
  exact .inr ⟨tree₂, front₁ ++ front₂, back₂, h₂, List.forall_mem_append.2 ⟨hfront₁, hfront₂⟩,
    (List.append_assoc _ _ _).symm, hexecution₂⟩

/-- In an empty staging directory an execution ends while the generation is written, or while what
was written of it is removed again, or it goes on with the generation. -/
theorem writeOrDiscard_execution {β : Type} {ending : Ending (Except Error β)}
    {next : Signs → Task β} (hstaging : g.staging = View.ofFiles fun _ => none) {context : Context}
    (hexecution : Execution (do
      match ← (store.writeGeneration context store.staging source position).attempt with
      | .error error =>
        store.discard "storeSnapshot" store.staging
        throw error
      | .ok signs => next signs : Task β).run tree granted after ending) :
    store.Unswapped view place g granted after ending ∨
    ∃ signs mid front back, source.Storable store ∧
      Holds view place { g with staging := source.generation position } mid ∧
      (∀ request ∈ front, request.Inside store.root Layout.staging) ∧
      granted = front ++ back ∧ Execution (next signs).run mid back after ending := by
  have hwrite : Task.Only (Request.Inside store.root Layout.staging)
      (store.writeGeneration context store.staging source position).attempt :=
    Task.Only.attempt ((filing_writeGeneration store source context position).mono
      fun _ => .filing)
  rcases inside_bind hroot h hwrite hexecution with
    hunswapped | ⟨result, mid, front, back, hwriting, hfront, rfl, hrest⟩
  · exact .inl hunswapped
  have hresult : Task.eval tree (store.writeGeneration context store.staging source position) =
      (result, mid) := by
    have hattempt := Task.eval_attempt tree
      (store.writeGeneration context store.staging source position)
    rw [Task.eval, hwriting.eval_eq rfl] at hattempt
    simp only [Prod.mk.injEq, Except.ok.injEq] at hattempt
    exact (Prod.ext hattempt.1 hattempt.2).symm
  cases result with
  | error error =>
    -- the generation could not be written, and the staging directory is removed
    obtain ⟨⟨part, hmid⟩, -, -⟩ := hwriting.staging_of_inside hwrite hroot h
    have hdiscard : Task.Only (Request.Inside store.root Layout.staging) (do
        liftM (store.discard "storeSnapshot" store.staging)
        throw error : Task β) :=
      (Task.only_lift (discard_inside store _ _ _)).bind fun _ => Task.only_throw error
    obtain ⟨hholds, hgranted, hinside⟩ := hrest.staging_of_inside hdiscard hroot hmid
    have hunswapped : store.Unswapped view place { g with staging := part } back after ending :=
      ⟨hholds, hgranted, hinside⟩
    exact .inl (hunswapped.append hfront)
  | ok signs =>
    obtain ⟨hstorable, -⟩ := storable_of_writeGeneration hresult
    have hempty : Holds view place { g with staging := View.ofFiles fun _ => none } tree := by
      rw [← hstaging]
      exact h
    obtain ⟨written, hwritten, hmid⟩ :=
      writeGeneration_eval hroot haccepted hempty hstorable context position
    cases hresult.symm.trans hwritten
    exact .inr ⟨_, mid, front, back, hstorable, hmid, hfront, rfl, hrest⟩

/-- An execution of storing changes only what is in the staging directory, or writes the generation
there and goes on with the swap. -/
theorem storing_execution {ending : Ending (Except Error Signs)}
    (hexecution : Execution (store.storeSnapshot source position).run tree granted after ending) :
    store.Unswapped view place g granted after ending ∨
    ∃ mid front back context, ∃ next : Unit → Task Signs,
      source.Storable store ∧
      Holds view place { g with staging := source.generation position } mid ∧
      (∀ request ∈ front, request.Inside store.root Layout.staging) ∧
      granted = front ++ back ∧
      (∀ done, Task.Only (fun _ => False) (next done)) ∧
      Execution (store.swapGeneration context >>= next).run mid back after ending := by
  unfold storeSnapshot at hexecution
  dsimp only at hexecution
  rcases makeStaging_execution hroot haccepted h hexecution with
    hunswapped | ⟨tree₁, front₁, back₁, h₁, hfront₁, rfl, hexecution₁⟩
  · exact .inl hunswapped
  rcases writeOrDiscard_execution hroot haccepted h₁ rfl hexecution₁ with
    hunswapped | ⟨signs, tree₂, front₂, back₂, hstorable, h₂, hfront₂, rfl, hexecution₂⟩
  · exact .inl (hunswapped.append hfront₁)
  refine .inr ⟨tree₂, front₁ ++ front₂, back₂, _, _, hstorable, h₂,
    List.forall_mem_append.2 ⟨hfront₁, hfront₂⟩, (List.append_assoc _ _ _).symm, ?_,
    hexecution₂⟩
  exact fun _ => (Task.only_lift (Procedure.only_log _ _)).bind fun _ => Task.only_pure _

end

/-! ## The swap -/

/-- A generation that was set aside is current again after a recovery. -/
theorem recovered_aside (h : Holds view place g tree) (hcurrent : g.current.NoFile)
    (staging : View) :
    (⟨View.nothing, staging, g.current⟩ : Generations).recovered.current = g.current := by
  -- without a current generation there was nothing to set aside
  by_cases hdirectory : g.current [] = some .directory
  · rw [Generations.recovered_of_backup hdirectory (by exact nofun)]
  · rw [Generations.recovered_of_current hdirectory]
    exact (h.current_eq_nothing (hcurrent.eq_none hdirectory)).symm

section

variable (hroot : view.Rooted store.root place) (haccepted : Layout.Accepted store.root)
include hroot haccepted

theorem dropBackup_execution (h : Holds view place g tree) {toError : Failure → Error}
    {ending : Ending (Except Error Unit)}
    (hexecution : Execution (Task.ofProcedure (removeIfPresent store.backup) toError).run tree
      granted after ending) :
    (Holds view place g after ∧ granted = [] ∧ ending.crash ≠ some (some store.dropping) ∧
      (ending.crash ≠ none ∨ g.backup [] ≠ some .directory)) ∨
    (ending.crash = some (some store.dropping) ∧ granted = [] ∧
      g.backup [] = some .directory ∧
      ∃ left, Holds view place { g with backup := left } after) ∨
    (Holds view place { g with backup := View.nothing } after ∧ granted = [store.dropping] ∧
      g.backup [] = some .directory ∧ ending.crash ≠ some (some store.dropping)) := by
  have hname : Path.IsName Layout.backup := by decide
  -- the task is the one request, and what is made of the answer
  obtain ⟨ending', hcrash, hrequest⟩ : ∃ ending' : Ending (Except Failure Unit),
      ending'.crash = ending.crash ∧
      Execution (Procedure.removeTree store.backup) tree granted after ending' := by
    obtain ⟨ending₁, hcrash₁, hprocedure⟩ :=
      Execution.exists_of_bind_done (fun result => by cases result <;> exact ⟨_, rfl⟩) hexecution
    obtain ⟨ending₂, hcrash₂, hrequest⟩ :=
      Execution.exists_of_bind_done (fun answer => by cases answer <;> exact ⟨_, rfl⟩) hprocedure
    exact ⟨ending₂, hcrash₂.trans hcrash₁, hrequest⟩
  -- cut before the request, cut in the middle of it, or answered
  rcases hrequest.of_request with ⟨rfl, rfl, rfl⟩ | ⟨rfl, rfl, htorn⟩ | ⟨rfl, rfl, hending⟩
  · refine .inl ⟨h, rfl, ?_, .inl ?_⟩
    · rw [← hcrash]
      exact nofun
    · rw [← hcrash]
      exact nofun
  · obtain ⟨hdirectory, left, hview, -⟩ :=
      (h.rooted hroot).view_of_torn_removeTree hname htorn
    exact .inr (.inl ⟨hcrash.symm, rfl, h.at_backup ▸ hdirectory, left.view,
      h.graft_backup hview⟩)
  · have hcrash : ending.crash ≠ some (some store.dropping) := by
      rw [← hcrash]
      rcases hending with rfl | rfl <;> exact nofun
    by_cases hdirectory : g.backup [] = some .directory
    · obtain ⟨after, hremove, hafter⟩ :=
        removeTree_backup hroot haccepted.readable h hdirectory
      simp only [FileTree.perform, hremove, FileTree.settle]
      exact .inr (.inr ⟨hafter, rfl, hdirectory, hcrash⟩)
    · obtain ⟨failure, hrefused⟩ :=
        removeTree_backup_refused hroot haccepted.readable h hdirectory
      simp only [FileTree.perform, hrefused, FileTree.settle]
      exact .inl ⟨h, rfl, hcrash, .inr hdirectory⟩

/-- Renaming the current generation to the backup moves it, or there is none and nothing happens. -/
theorem perform_setAside (h : Holds view place g tree) (hcurrent : g.current.NoFile)
    (hbackup : g.current [] = some .directory → g.backup [] = none) :
    (g.current [] = some .directory ∧ Holds view place ⟨View.nothing, g.staging, g.current⟩
      (tree.perform (.rename store.current store.backup)).2) ∨
    (tree.perform (.rename store.current store.backup)).2 = tree := by
  by_cases hdirectory : g.current [] = some .directory
  · obtain ⟨after, hmoved, hafter⟩ :=
      setAside hroot haccepted.readable h hdirectory (hbackup hdirectory)
    simp only [FileTree.perform, hmoved, FileTree.settle]
    exact .inl ⟨hdirectory, hafter⟩
  · obtain ⟨failure, hrefused⟩ :=
      setAside_refused hroot haccepted.readable h (hcurrent.eq_none hdirectory)
    refine .inr ?_
    simp only [FileTree.perform, hrefused, FileTree.settle]

/-- While the current generation is set aside, it is in its place or is the backup. -/
theorem setCurrentAside_execution (h : Holds view place g tree) (hcurrent : g.current.NoFile)
    (hbackup : g.backup = View.nothing) {context : Context} {ending : Ending (Except Error Bool)}
    (hexecution : Execution (store.setCurrentAside context).run tree granted after ending) :
    (∃ g', Holds view place g' after ∧ (g' = g ∨ g.current [] = some .directory ∧
      g' = ⟨View.nothing, g.staging, g.current⟩)) ∧
      store.commit ∉ granted ∧ ending.crash ≠ some (some store.dropping) := by
  let allowed (request : Request) : Prop :=
    request = .hasDirectory store.current ∨ request = .rename store.current store.backup
  let keeps (tree : FileTree) : Prop :=
    ∃ g', Holds view place g' tree ∧ (g' = g ∨ g.current [] = some .directory ∧
      g' = ⟨View.nothing, g.staging, g.current⟩)
  -- two requests are made, and `keeps` is kept by each of them
  have honly : Task.Only allowed (store.setCurrentAside context) := by
    refine (Task.only_lift (Procedure.only_request (.inl rfl))).bind fun hadCurrent => ?_
    cases hadCurrent with
    | false => exact Task.only_pure _
    | true =>
      exact (Task.only_ofProcedure (Procedure.only_request (.inr rfl)) _).bind fun _ =>
        Task.only_pure _
  have hrename : ∀ tree, keeps tree →
      keeps (tree.perform (.rename store.current store.backup)).2 := by
    rintro tree ⟨g', h', rfl | ⟨hdirectory, rfl⟩⟩
    · rcases perform_setAside hroot haccepted h' hcurrent (fun _ => by rw [hbackup]; rfl)
        with ⟨hdirectory, hmoved⟩ | hsame
      · exact ⟨_, hmoved, .inr ⟨hdirectory, rfl⟩⟩
      · rw [hsame]
        exact ⟨g', h', .inl rfl⟩
    · -- what was moved already is not there any more
      rcases perform_setAside hroot haccepted h' View.noFile_nothing nofun with ⟨hagain, -⟩ | hsame
      · cases hagain
      · rw [hsame]
        exact ⟨_, h', .inr ⟨hdirectory, rfl⟩⟩
  -- neither of them has an intermediate state
  obtain ⟨hkeeps, hgranted, hinside⟩ := hexecution.invariant keeps
    (by
      rintro request (rfl | rfl) tree hkeeps
      · exact hkeeps
      · exact hrename tree hkeeps)
    (by
      rintro request (rfl | rfl) tree after - htorn
      · cases htorn
      · cases htorn)
    honly ⟨g, h, .inl rfl⟩
  refine ⟨hkeeps, fun hcommit => ?_, fun hcrash => ?_⟩
  · rcases hgranted _ hcommit with hrequest | hrequest
    · cases hrequest
    · rw [commit, Request.rename.injEq] at hrequest
      exact absurd (Path.join_inj hrequest.1) (by decide)
  · rcases hinside _ (Ending.eq_of_crash hcrash) with hrequest | hrequest <;> cases hrequest

/-- The new generation is moved in by one request, which is granted. -/
theorem commit_execution (h : Holds view place g tree)
    (hstaging : g.staging [] = some .directory) (hcurrent : g.current [] = none)
    {ending : Ending (Except Failure Unit)}
    (hexecution :
      Execution (Procedure.rename store.staging store.current) tree granted after ending) :
    (Holds view place g after ∧ granted = [] ∧ ending = .crashed none) ∨
    (Holds view place ⟨g.staging, View.nothing, g.backup⟩ after ∧ granted = [store.commit] ∧
      (ending = .crashed none ∨ ending = .finished (.ok ()))) := by
  obtain ⟨moved, hrename, hmoved⟩ := moveIn hroot haccepted.readable h hstaging hcurrent
  have hperform : tree.perform store.commit = (.ok (), moved) := by
    show tree.settle (tree.rename store.staging store.current) = _
    rw [hrename]
    rfl
  rcases hexecution.of_request with ⟨rfl, rfl, rfl⟩ | ⟨rfl, rfl, htorn⟩ | ⟨rfl, rfl, hending⟩
  · exact .inl ⟨h, rfl, rfl⟩
  · -- a rename has no intermediate state
    cases htorn
  · change ending = .crashed none ∨ ending = .finished (tree.perform store.commit).1 at hending
    rw [hperform] at hending
    refine .inr ⟨?_, ?_, hending⟩
    · show Holds view place _ (tree.perform store.commit).2
      rwa [hperform]
    · show (if store.commit.granted (tree.perform store.commit).1 then [store.commit] else []) = _
      rw [hperform]
      rfl

theorem moveStagingIn_execution (h : Holds view place g tree)
    (hstaging : g.staging [] = some .directory) (hcurrent : g.current [] = none)
    {context : Context} {hadCurrent : Bool} {ending : Ending (Except Error Unit)}
    (hexecution :
      Execution (store.moveStagingIn context hadCurrent).run tree granted after ending) :
    (Holds view place g after ∧ granted = [] ∧ ending = .crashed none) ∨
    (Holds view place ⟨g.staging, View.nothing, g.backup⟩ after ∧ granted = [store.commit] ∧
      ending.crash ≠ some (some store.dropping)) := by
  -- the answer to the request is all that the task goes on with
  rcases hexecution.of_task_bind with ⟨inside, rfl, hcrash⟩ | ⟨error, rfl, hfail⟩ |
    ⟨answer, mid, front, back, hfirst, hnext, rfl⟩
  · rcases hcrash.of_lift with ⟨_, hinside, hrequest⟩ | ⟨_, hvalue, -⟩
    · cases hinside
      rcases commit_execution hroot haccepted h hstaging hcurrent hrequest with
        ⟨hafter, rfl, hending⟩ | ⟨hafter, rfl, hending⟩
      · cases hending
        exact .inl ⟨hafter, rfl, rfl⟩
      · refine .inr ⟨hafter, rfl, ?_⟩
        rcases hending with hending | hending <;> cases hending
        exact nofun
    · cases hvalue
  · rcases hfail.of_lift with ⟨_, hinside, -⟩ | ⟨_, hvalue, -⟩
    · cases hinside
    · cases hvalue
  · rcases hfirst.of_lift with ⟨_, hinside, -⟩ | ⟨_, hvalue, hrequest⟩
    · cases hinside
    · cases hvalue
      rcases commit_execution hroot haccepted h hstaging hcurrent hrequest with
        ⟨-, -, hending⟩ | ⟨hafter, rfl, hending⟩
      · cases hending
      · rcases hending with hending | hending <;> cases hending
        obtain ⟨rfl, rfl, hsilent⟩ := hnext.of_silent trivial
        exact .inr ⟨hafter, rfl, fun hcrash => hsilent _ (Ending.eq_of_crash hcrash)⟩

/-- What follows the moving in changes the backup alone, and removes it unless it is cut short. -/
theorem finishing_execution (h : Holds view place g tree) (hbackup : g.backup.NoFile)
    {ending : Ending (Except Error Unit)}
    (hexecution : Execution (do
      liftM (store.syncDirectory store.root)
      liftM store.removeBackup : Task Unit).run tree granted after ending) :
    ∃ left, left.NoFile ∧ Holds view place { g with backup := left } after ∧
      (ending.crash = none → left = View.nothing) := by
  have honly : Task.Only (fun request => request = .sync store.root ∨
      request = .removeTree store.backup) (do
        liftM (store.syncDirectory store.root)
        liftM store.removeBackup : Task Unit) := by
    refine (Task.only_lift (only_syncDirectory store (.inl rfl))).bind fun _ => Task.only_lift ?_
    have hremove : (removeIfPresent store.backup).Only fun request =>
        request = .sync store.root ∨ request = .removeTree store.backup :=
      (Procedure.only_request (.inr rfl)).bind fun answer => by cases answer <;> trivial
    exact hremove.bind fun result => by cases result <;> trivial
  -- a crash may leave any part of the backup
  obtain ⟨left, hleft, hafter⟩ := hexecution.backup_of_inside honly hroot h hbackup
  cases ending with
  | crashed inside => exact ⟨left, hleft, hafter, nofun⟩
  | finished value =>
    refine ⟨View.nothing, View.noFile_nothing, ?_, fun _ => rfl⟩
    obtain ⟨removed, hremove, hremoved⟩ := removeBackup_eval hroot haccepted h hbackup
    have heval : Task.eval tree (do
        liftM (store.syncDirectory store.root)
        liftM store.removeBackup : Task Unit) = (.ok (), removed) := by
      rw [Task.eval_bind_ok _ (Task.eval_lift tree _), syncDirectory_eval, Task.eval_lift, hremove]
    rw [Task.eval, hexecution.eval_eq rfl] at heval
    cases heval
    exact hremoved

/-- When the removal of the backup is refused, nothing has changed. -/
theorem dropBackup_failed (h : Holds view place g tree) {toError : Failure → Error} {error : Error}
    (hexecution : Execution (Task.ofProcedure (removeIfPresent store.backup) toError).run tree
      granted after (.finished (.error error))) :
    Holds view place g after ∧ granted = [] := by
  -- only a file in the place of the backup is refused to be removed
  have hfile : ¬ g.backup.NoFile := by
    intro hbackup
    obtain ⟨_, hdrop, -⟩ := dropBackup hroot haccepted.readable h hbackup
    have heval := (hexecution.eval_eq rfl).symm.trans (Task.eval_ofProcedure_ok toError hdrop)
    cases heval
  rcases dropBackup_execution hroot haccepted h hexecution with
    ⟨hafter, hgranted, -⟩ | ⟨hinside, -⟩ | ⟨-, -, hbackup, -⟩
  · exact ⟨hafter, hgranted⟩
  · cases hinside
  · exact absurd (View.noFile_of_directory hbackup) hfile

/-- When it goes through, there is no backup any more. -/
theorem dropBackup_finished (h : Holds view place g tree) {toError : Failure → Error}
    (hexecution : Execution (Task.ofProcedure (removeIfPresent store.backup) toError).run tree
      granted after (.finished (.ok ()))) :
    Holds view place { g with backup := View.nothing } after ∧ store.commit ∉ granted ∧
      (g.backup [] = some .directory → store.dropping ∈ granted) := by
  obtain ⟨-, hdropped⟩ := dropBackup_eq_ok hroot haccepted.readable h
    (ofProcedure_eq_ok (hexecution.eval_eq rfl))
  refine ⟨hdropped, ?_⟩
  rcases dropBackup_execution hroot haccepted h hexecution with
    ⟨-, rfl, -, hcrash | hdirectory⟩ | ⟨hinside, -⟩ | ⟨-, rfl, -, -⟩
  · exact absurd rfl hcrash
  · exact ⟨List.not_mem_nil, fun hbackup => absurd hbackup hdirectory⟩
  · cases hinside
  · refine ⟨?_, fun _ => List.mem_singleton_self _⟩
    rw [List.mem_singleton]
    exact nofun

/-- A crash comes before the new generation is moved in, or it is current from then on, and the
backup is removed unless another crash comes. -/
theorem moving_execution (h : Holds view place g tree)
    (hstaging : g.staging [] = some .directory) (hcurrent : g.current [] = none)
    (hbackup : g.backup.NoFile) {context : Context} {hadCurrent : Bool}
    {ending : Ending (Except Error Unit)}
    (hexecution : Execution (do
      store.moveStagingIn context hadCurrent
      liftM (store.syncDirectory store.root)
      liftM store.removeBackup : Task Unit).run tree granted after ending) :
    (Holds view place g after ∧ store.commit ∉ granted ∧ ending.crash ≠ none) ∨
    (store.commit ∈ granted ∧ ∃ left, Holds view place ⟨g.staging, View.nothing, left⟩ after ∧
      left.NoFile ∧ (ending.crash = none → left = View.nothing)) := by
  rcases hexecution.of_task_bind with ⟨inside, rfl, hcrash⟩ | ⟨error, rfl, hfail⟩ |
    ⟨_, mid, front, back, hmoving, hrest, rfl⟩
  · rcases moveStagingIn_execution hroot haccepted h hstaging hcurrent hcrash with
      ⟨hafter, rfl, -⟩ | ⟨hafter, rfl, -⟩
    · exact .inl ⟨hafter, List.not_mem_nil, nofun⟩
    · exact .inr ⟨List.mem_singleton_self _, _, hafter, hbackup, nofun⟩
  · obtain ⟨_, heval, -⟩ :=
      moveStagingIn_eval hroot haccepted h hstaging hcurrent context hadCurrent
    have hconflict := heval.symm.trans (hfail.eval_eq rfl)
    cases hconflict
  rcases moveStagingIn_execution hroot haccepted h hstaging hcurrent hmoving with
    ⟨-, -, hending⟩ | ⟨hmid, rfl, -⟩
  · cases hending
  obtain ⟨left, hleft, hafter, hnothing⟩ :=
    finishing_execution hroot haccepted hmid hbackup hrest
  exact .inr ⟨List.mem_append_left _ (List.mem_singleton_self _), left, hafter, hleft, hnothing⟩

/-- Once there is no backup, a crash leaves the current generation in its place or set aside, or the
new one is moved in. -/
theorem exchange_execution (h : Holds view place g tree) (hbackup : g.backup = View.nothing)
    (hstaging : g.staging [] = some .directory) (hcurrent : g.current.NoFile) {context : Context}
    {ending : Ending (Except Error Unit)}
    (hexecution : Execution (do
      let hadCurrent ← store.setCurrentAside context
      store.moveStagingIn context hadCurrent
      liftM (store.syncDirectory store.root)
      liftM store.removeBackup : Task Unit).run tree granted after ending) :
    ∃ g', Holds view place g' after ∧
      (store.commit ∉ granted ∧ ending.crash ≠ none ∧ g'.recovered.current = g.current ∧
          g'.current.NoFile ∨
        store.commit ∈ granted ∧ g'.current = g.staging ∧ g'.backup.NoFile ∧
          (ending.crash = none → g'.backup = View.nothing)) := by
  have haside := recovered_aside h hcurrent g.staging
  have hbackup' : g.backup [] ≠ some .directory := by
    rw [hbackup]
    exact nofun
  rcases hexecution.of_task_bind with ⟨inside, rfl, hcrash⟩ | ⟨error, rfl, hfail⟩ |
    ⟨hadCurrent, mid, front, back, hsetting, hrest, rfl⟩
  · obtain ⟨⟨g', hafter, hcases⟩, hcommit, -⟩ :=
      setCurrentAside_execution hroot haccepted h hcurrent hbackup hcrash
    rcases hcases with rfl | ⟨-, rfl⟩
    · refine ⟨_, hafter, .inl ⟨hcommit, nofun, ?_, hcurrent⟩⟩
      rw [Generations.recovered_of_current hbackup']
    · exact ⟨_, hafter, .inl ⟨hcommit, nofun, haside, View.noFile_nothing⟩⟩
  · obtain ⟨_, _, heval, -⟩ := setCurrentAside_eval hroot haccepted h hcurrent hbackup context
    have hconflict := heval.symm.trans (hfail.eval_eq rfl)
    cases hconflict
  obtain ⟨-, hcommit, -⟩ := setCurrentAside_execution hroot haccepted h hcurrent hbackup hsetting
  have hmid : Holds view place ⟨View.nothing, g.staging, g.current⟩ mid := by
    obtain ⟨_, _, heval, hset⟩ := setCurrentAside_eval hroot haccepted h hcurrent hbackup context
    have hsame := heval.symm.trans (hsetting.eval_eq rfl)
    cases hsame
    exact hset
  rcases moving_execution hroot haccepted hmid hstaging rfl hcurrent hrest with
    ⟨hafter, hcommit', hcrash⟩ | ⟨hcommit', left, hafter, hleft, hnothing⟩
  · refine ⟨_, hafter, .inl ⟨?_, hcrash, haside, View.noFile_nothing⟩⟩
    exact fun hmem => (List.mem_append.1 hmem).elim hcommit hcommit'
  · exact ⟨_, hafter, .inr ⟨List.mem_append_right _ hcommit', rfl, hleft, hnothing⟩⟩

/-- The stages of a swap. -/
theorem swap_execution (h : Holds view place g tree) (hstaging : g.staging [] = some .directory)
    (hcurrent : g.current.NoFile) {context : Context} {ending : Ending (Except Error Unit)}
    (hexecution : Execution (store.swapGeneration context).run tree granted after ending) :
    ∃ g', Holds view place g' after ∧ store.Stage g g.staging granted ending.crash g' := by
  unfold swapGeneration at hexecution
  -- the removal of the stale backup
  rcases hexecution.of_task_bind with ⟨inside, rfl, hcrash⟩ | ⟨error, rfl, hfail⟩ |
    ⟨_, mid, front, back, hdropping, hrest, rfl⟩
  · rcases dropBackup_execution hroot haccepted h hcrash with
      ⟨hafter, rfl, hnot, -⟩ | ⟨hinside, rfl, hbackup, left, hafter⟩ | ⟨hafter, rfl, -, -⟩
    · exact ⟨g, hafter, .writing List.not_mem_nil List.not_mem_nil hnot rfl rfl⟩
    · exact ⟨_, hafter, .dropping List.not_mem_nil List.not_mem_nil hinside hbackup rfl⟩
    · refine ⟨_, hafter, .swapping ?_ (fun _ => List.mem_singleton_self _) nofun ?_ hcurrent⟩
      · rw [List.mem_singleton]
        exact nofun
      · rw [Generations.recovered_of_current (by exact nofun)]
  · obtain ⟨hafter, rfl⟩ := dropBackup_failed hroot haccepted h hfail
    exact ⟨g, hafter, .writing List.not_mem_nil List.not_mem_nil nofun rfl rfl⟩
  obtain ⟨hmid, hcommit, hdropped⟩ := dropBackup_finished hroot haccepted h hdropping
  -- from here on it makes no difference what the backup was
  rcases exchange_execution hroot haccepted hmid rfl hstaging hcurrent hrest with
    ⟨g', hafter, ⟨hcommit', hcrash, hrecovered, hfree⟩ | ⟨hcommit', hmoved, hleft, hnothing⟩⟩
  · refine ⟨g', hafter, .swapping ?_ (fun hbackup => List.mem_append_left _ (hdropped hbackup))
      hcrash hrecovered hfree⟩
    exact fun hmem => (List.mem_append.1 hmem).elim hcommit hcommit'
  · exact ⟨g', hafter, .moved (List.mem_append_right _ hcommit') hmoved hleft hnothing⟩

/-! ## The stages -/

/-- The stages of storing. Only a source that can be stored comes to the last. -/
theorem stage_of_execution (h : Holds view place g tree) (hcurrent : g.current.NoFile)
    {ending : Ending (Except Error Signs)}
    (hexecution : Execution (store.storeSnapshot source position).run tree granted after ending) :
    ∃ g', Holds view place g' after ∧
      store.Stage g (source.generation position) granted ending.crash g' ∧
      (store.commit ∈ granted → source.Storable store) := by
  rcases storing_execution hroot haccepted h hexecution with
    hunswapped | ⟨mid, front, back, context, next, hstorable, hmid, hfront, rfl, hsilent,
      hswap⟩
  · -- storing did not come to the swap
    obtain ⟨part, hafter⟩ := hunswapped.holds
    have hcommit : store.commit ∉ granted := fun hmem =>
      not_inside_commit _ _ (hunswapped.granted _ hmem)
    refine ⟨_, hafter, .writing hcommit ?_ ?_ rfl rfl, fun hmem => absurd hmem hcommit⟩
    · exact fun hmem => not_inside_dropping (hunswapped.granted _ hmem)
    · exact fun hcrash =>
        not_inside_dropping (hunswapped.inside _ (Ending.eq_of_crash hcrash))
  · suffices hstage : ∃ g', Holds view place g' after ∧
        store.Stage { g with staging := source.generation position }
          (source.generation position) back ending.crash g' by
      obtain ⟨g', hafter, hstage⟩ := hstage
      exact ⟨g', hafter, hstage.append hfront, fun _ => hstorable⟩
    rcases hswap.of_task_bind with ⟨inside, rfl, hcrash⟩ | ⟨error, rfl, hfail⟩ |
      ⟨done, swapped, front', back', hfirst, hlast, rfl⟩
    · exact swap_execution hroot haccepted hmid rfl hcurrent hcrash
    · exact swap_execution hroot haccepted hmid rfl hcurrent hfail
    · -- nothing is changed after the swap
      obtain ⟨rfl, rfl, hinside⟩ := hlast.of_silent (hsilent done)
      rw [List.append_nil]
      obtain ⟨g', hafter, hstage⟩ := swap_execution hroot haccepted hmid rfl hcurrent hfirst
      refine ⟨g', hafter, ?_⟩
      cases hstage with
      | writing hcommit hdropping _ hcurrent hbackup =>
        exact .writing hcommit hdropping (fun hcrash => hinside _ (Ending.eq_of_crash hcrash))
          hcurrent hbackup
      | dropping _ _ hcrash => cases hcrash
      | swapping _ _ hcrash => exact absurd rfl hcrash
      | moved hcommit hcurrent hbackup hcrash =>
        exact .moved hcommit hcurrent hbackup fun _ => hcrash rfl

end

/-! ## What is found after a crash -/

/-- **What loads come to after a crash.** Before the new generation is moved into its place, a load
comes to what it came to before, if there was a current generation or the removal of the backup has
not begun; where the only generation was a backup that has been removed, the partition is empty.
After the new generation is moved in, that is restored. -/
theorem storeSnapshot_crash (store : Store) (source : Source) (position : ApplyPosition)
    {tree after : FileTree} {place : List String} (hroot : tree.view.Rooted store.root place)
    (haccepted : Layout.Accepted store.root) (hpersisted : store.Persisted tree.view place)
    (hloadable : source.Loadable store.config)
    (hgeneration : tree.view (place ++ [Layout.current]) = some .directory ∨
      tree.view (place ++ [Layout.current]) = none ∧
        tree.view (place ++ [Layout.backup]) = some .directory)
    {granted : List Request} {inside : Option Request}
    (hexecution : Execution (store.storeSnapshot source position).run tree granted after
      (.crashed inside))
    {σ : Type} [StateMachine σ] [StateMachine.Accepting σ] (options : Options)
    (hbuffer : 1 ≤ options.readBuffer) (state : σ) :
    let loader : Store := { store with options }
    (store.commit ∈ granted → loader.restored state after =
      (.ok (source.partition loader position), source.replay state)) ∧
    (store.commit ∉ granted →
      tree.view (place ++ [Layout.current]) = some .directory ∨
        store.dropping ∉ granted ∧ inside ≠ some store.dropping →
      loader.restored state after = loader.restored state tree) ∧
    (store.commit ∉ granted → store.dropping ∈ granted →
      tree.view (place ++ [Layout.current]) = none →
      loader.restored state after = (.ok loader.emptyPartition, state)) := by
  intro loader
  have hroot' : tree.view.Rooted loader.root place := hroot
  have haccepted' : Layout.Accepted loader.root := haccepted
  have hpersisted' : loader.Persisted tree.view place := hpersisted
  have h := Holds.self tree place
  have hat : (tree.view.generations place).current [] =
      tree.view (place ++ [Layout.current]) := h.at_current.symm
  have hbackup : (tree.view.generations place).backup [] =
      tree.view (place ++ [Layout.backup]) := h.at_backup.symm
  rw [← hat, ← hbackup] at hgeneration
  rw [← hat]
  have hcurrent : (tree.view.generations place).current.NoFile :=
    hgeneration.elim View.noFile_of_directory fun habsent => .inl habsent.1
  obtain ⟨g', hafter, hstage, hstorable⟩ :=
    stage_of_execution hroot haccepted h hcurrent hexecution
  -- what a load comes to is decided by the generation that a recovery makes current
  have hsame (hfree : g'.current.NoFile)
      (hrecovered : g'.recovered.current = (tree.view.generations place).recovered.current) :
      loader.restored state after = loader.restored state tree :=
    restored_congr hroot' haccepted'.readable hpersisted' h hafter hcurrent hfree hrecovered state
  cases hstage with
  | writing hcommit hdropping _ hsameCurrent hsameBackup =>
    refine ⟨fun hmem => absurd hmem hcommit, fun _ _ => hsame (hsameCurrent ▸ hcurrent)
      (Generations.recovered_current_congr hsameCurrent hsameBackup),
      fun _ hmem => absurd hmem hdropping⟩
  | dropping hcommit hdropping hcrash _ hsameCurrent =>
    refine ⟨fun hmem => absurd hmem hcommit, fun _ hsafe => ?_,
      fun _ hmem => absurd hmem hdropping⟩
    have hinside : inside = some store.dropping := by cases hcrash; rfl
    -- a backup that is being removed is no loss beside a current generation
    have hdirectory := hsafe.resolve_right fun hnot => hnot.2 hinside
    refine hsame (hsameCurrent ▸ hcurrent) ?_
    rw [Generations.recovered_current_of_directory hdirectory,
      Generations.recovered_current_of_directory (hsameCurrent ▸ hdirectory), hsameCurrent]
  | swapping hcommit hdropping _ hrecovered hfree =>
    refine ⟨fun hmem => absurd hmem hcommit, fun _ hsafe => ?_, fun _ _ habsent => ?_⟩
    · refine hsame hfree (hrecovered.trans ?_)
      rcases hgeneration with hdirectory | ⟨habsent, hdirectory⟩
      · rw [Generations.recovered_current_of_directory hdirectory]
      · rcases hsafe with hdirectory' | hnot
        · rw [habsent] at hdirectory'
          cases hdirectory'
        · exact absurd (hdropping hdirectory) hnot.1
    · -- the backup was the only generation
      exact restored_nothing hroot' haccepted'.readable hpersisted' hafter hfree
        (by rw [hrecovered]; exact habsent) state
  | moved hcommit hmoved hfree _ =>
    refine ⟨fun _ => ?_, fun hnot => absurd hcommit hnot, fun hnot => absurd hcommit hnot⟩
    have hdirectory : g'.current [] = some .directory := by rw [hmoved]; rfl
    refine restored_generation hroot' haccepted'.readable hpersisted' hbuffer (hstorable hcommit)
      hloadable hafter (View.noFile_of_directory hdirectory) ?_ state
    rw [Generations.recovered_current_of_directory hdirectory, hmoved]

/-- Where the only generation is a backup, a crash after its removal leaves an empty partition. -/
theorem storeSnapshot_crash_backupOnly :
    let store := sample "p"
    let tree := identified [(Layout.backup, recordless ⟨3, 5⟩)]
    let crashed := (store.storeSnapshot Records.empty.source ⟨4, 5⟩).run.cut tree 22
    (store.restored MemoryPartition.empty tree).1.toOption.map (·.position) = some ⟨3, 5⟩ ∧
      store.restored MemoryPartition.empty crashed.2 =
        (.ok store.emptyPartition, MemoryPartition.empty) := by
  intro store tree crashed
  have hroot : tree.view.Rooted store.root ["p"] := by decide +kernel
  have hpersisted : store.Persisted tree.view ["p"] := persisted_identified (by decide) _
  have hexecution := Execution.crash_after
    (store.storeSnapshot Records.empty.source ⟨4, 5⟩).run tree 22
  have hcrash := storeSnapshot_crash store Records.empty.source ⟨4, 5⟩ hroot (by decide)
    hpersisted (loadable_empty _) (.inr ⟨by decide +kernel, by decide +kernel⟩) hexecution
    store.options (by decide) MemoryPartition.empty
  exact ⟨by decide +kernel,
    hcrash.2.2 (by decide +kernel) (by decide +kernel) (by decide +kernel)⟩

end Store

end PartitionSnapshot
