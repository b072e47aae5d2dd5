import PartitionSnapshot.Proofs.Acceptance
import PartitionSnapshot.Proofs.Crashes

/-!
# Runs of processes over a root

Processes come and go over one root: each is started, by opening the store and loading the
partition, and stores generations until it crashes. A crash may cut storing short at any step of the
file system, and after it another process has to be started before anything else is stored.

Whatever the order of these, a process that is started finds the generation that was moved into its
place last, or that with which the run began. The invariant is that a load of the tree comes to that
generation, and that there is no backup while a process runs: the one state in which storing would
lose a generation is that in which only a backup is left, and no started process meets it.

## Main statements

* `Step.invariant`: what the start of a process and storing keep.
* `Reachable.start_restores`: what processes find when they are started.
-/

namespace PartitionSnapshot

open FileTree (Holds)
open Store (identified loadable_empty manySlashes persisted_identified recordless sample)

/-! ## Systems and their steps -/

/-- The start of a process: the store of the partition under a root directory is opened, and the
partition is restored into a machine. A store that is opened stays with the process. -/
def Store.start {σ : Type} [StateMachine σ] (root : Path) (options : Options) (state : σ) :
    Procedure (Option Store × Except Error LoadedPartition × σ) := do
  match ← (Store.open root options).run with
  | .error error => return (none, .error error, state)
  | .ok store =>
    let (result, store, state) ← store.load state
    return (some store, result, state)

/-- Where the generation comes from that a root holds. -/
inductive Origin where
  /-- It was there when the run began. -/
  | initial
  /-- It was stored. -/
  | stored (source : Source) (position : ApplyPosition)

/-- A file tree and the process that runs on it. -/
structure System where
  tree : FileTree
  /-- The store of the process, unless there is none or it has crashed. -/
  process : Option Store
  /-- The generation that was moved into its place last. -/
  origin : Origin

/-- The origin after storing, by the requests that were granted. -/
def Origin.after (origin : Origin) (store : Store) (source : Source) (position : ApplyPosition)
    (granted : List Request) : Origin :=
  if store.commit ∈ granted then .stored source position else origin

/-- The process after an execution: it is gone with a crash. -/
def Ending.survivor {α : Type} (ending : Ending α) (store : Store) : Option Store :=
  match ending with
  | .finished _ => some store
  | .crashed _ => none

/-- A step of a system over a root. -/
inductive Step (root : Path) : System → System → Prop
  /-- A process is started, with any machine and any options with room in the buffer. -/
  | start {system : System} {σ : Type} [StateMachine σ] (options : Options) (state : σ) :
      1 ≤ options.readBuffer →
      Step root system {
        tree := ((Store.start root options state).eval system.tree).2
        process := ((Store.start root options state).eval system.tree).1.1
        origin := system.origin }
  /-- The process stores a generation, to the end or to a crash. -/
  | store {tree after : FileTree} {store : Store} {origin : Origin} {source : Source}
      {position : ApplyPosition} {granted : List Request}
      {ending : Ending (Except Error Signs)} :
      source.Loadable store.config →
      Execution (store.storeSnapshot source position).run tree granted after ending →
      Step root ⟨tree, some store, origin⟩
        ⟨after, ending.survivor store, origin.after store source position granted⟩

/-- The systems that a run comes to which begins on the tree `initial` without a process. -/
inductive Reachable (root : Path) (initial : FileTree) : System → Prop
  | initial : Reachable root initial ⟨initial, none, .initial⟩
  | step {system system' : System} :
      Reachable root initial system → Step root system system' →
      Reachable root initial system'

/-! ## What is restored -/

/-- What a load is to come to: the generation of the origin. -/
def Origin.restored {σ : Type} [StateMachine σ] (origin : Origin) (initial : FileTree)
    (store : Store) (state : σ) : Except Error LoadedPartition × σ :=
  match origin with
  | .initial => store.restored state initial
  | .stored source position => (.ok (source.partition store position), source.replay state)

/-- The loads of a store from a tree come to the generation of the origin. -/
def Origin.RestoredBy (origin : Origin) (initial tree : FileTree) (store : Store) : Prop :=
  ∀ (σ : Type) [StateMachine σ] [StateMachine.Accepting σ] (state : σ),
    store.restored state tree = origin.restored initial store state

/-- The invariant of a run: loads come to the generation of the origin, and no process runs beside a
backup. -/
structure System.Invariant (config : Config) (initial : FileTree) (place : List String)
    (system : System) : Prop where
  holds : ∃ g, Holds initial.view place g system.tree ∧ g.current.NoFile ∧
    ∀ store ∈ system.process, store.config = config ∧ g.backup [] ≠ some .directory
  restored : ∀ store : Store, store.config = config → 1 ≤ store.options.readBuffer →
    system.origin.RestoredBy initial system.tree store

section

variable {store : Store} {initial : FileTree} {place : List String}
variable (hroot : initial.view.Rooted store.root place) (haccepted : Layout.Accepted store.root)
variable (hpersisted : store.Persisted initial.view place)
include hroot haccepted hpersisted

/-- A start opens the store and comes to what a load comes to. -/
theorem Store.start_eval {tree : FileTree} {g : Generations}
    (h : Holds initial.view place g tree) (hcurrent : g.current.NoFile)
    {σ : Type} [StateMachine σ] (state : σ) :
    (Store.start store.root store.options state).eval tree =
      ((some store, store.restored state tree), store.afterLoad state tree) := by
  have hopen : (Store.open store.root store.options).run.eval tree = (.ok store, tree) :=
    Store.open_eval hroot haccepted.readable hpersisted h
  have hload := Store.load_eq hroot haccepted.readable hpersisted h hcurrent state
  unfold Store.start
  rw [Procedure.eval_bind_of_eq _ hopen]
  dsimp only
  rw [Procedure.eval_bind_of_eq _ hload, Procedure.eval_pure]

/-- The start of a process keeps the invariant. -/
theorem System.Invariant.start {system : System}
    (h : system.Invariant store.config initial place) (hbuffer : 1 ≤ store.options.readBuffer)
    {σ : Type} [StateMachine σ] (state : σ) :
    System.Invariant store.config initial place {
      tree := ((Store.start store.root store.options state).eval system.tree).2
      process := ((Store.start store.root store.options state).eval system.tree).1.1
      origin := system.origin } := by
  obtain ⟨g, hholds, hcurrent, -⟩ := h.holds
  obtain ⟨part, hpart, hafter, hsame⟩ :=
    Store.restored_afterLoad hroot haccepted.readable hpersisted hbuffer hholds hcurrent state
  rw [Store.start_eval hroot haccepted hpersisted hholds hcurrent state]
  dsimp only
  -- a start settles the generations, so no backup is left beside its process
  constructor
  · refine ⟨_, hafter, hpart, ?_⟩
    rintro _ ⟨⟩
    exact ⟨rfl, g.recovered_backup⟩
  · intro loader hconfig hloader σ' _ _ state'
    rw [hsame loader state' hconfig hloader]
    exact h.restored loader hconfig hloader σ' state'

/-- What loads find after a process stored a generation, where there was no backup before. -/
theorem Store.Stage.restoredBy {runner : Store} {tree after : FileTree} {g g' : Generations}
    {origin : Origin} {source : Source} {position : ApplyPosition} {granted : List Request}
    {crash : Option (Option Request)}
    (hstage : runner.Stage g (source.generation position) granted crash g')
    (hstorable : runner.commit ∈ granted → source.Storable runner)
    (hloadable : source.Loadable store.config) (hbuffer : 1 ≤ store.options.readBuffer)
    (h : Holds initial.view place g tree) (hafter : Holds initial.view place g' after)
    (hcurrent : g.current.NoFile) (hcurrent' : g'.current.NoFile)
    (hbackup : g.backup [] ≠ some .directory)
    (hrestored : origin.RestoredBy initial tree store) :
    (origin.after runner source position granted).RestoredBy initial after store := by
  -- where nothing was moved in, loads come to what they came to before
  have hsame (hcommit : runner.commit ∉ granted) (hrecovered : g'.recovered.current = g.current) :
      (origin.after runner source position granted).RestoredBy initial after store := by
    have hsettled : g'.recovered.current = g.recovered.current := by
      rw [hrecovered, Generations.recovered_of_current hbackup]
    intro σ _ _ state
    rw [Origin.after, if_neg hcommit, Store.restored_congr hroot haccepted.readable hpersisted h
      hafter hcurrent hcurrent' hsettled state]
    exact hrestored σ state
  -- there was no backup, so the stage in which part of it is gone is not met
  cases hstage with
  | writing hcommit _ _ hsameCurrent hsameBackup =>
    refine hsame hcommit ?_
    rw [Generations.recovered_current_congr hsameCurrent hsameBackup,
      Generations.recovered_of_current hbackup]
  | dropping _ _ _ hdirectory _ => exact absurd hdirectory hbackup
  | swapping hcommit _ _ hrecovered _ => exact hsame hcommit hrecovered
  | moved hcommit hmoved _ _ =>
    intro σ _ _ state
    rw [Origin.after, if_pos hcommit]
    refine Store.restored_generation hroot haccepted.readable hpersisted hbuffer (hstorable hcommit)
      hloadable hafter hcurrent' ?_ state
    have hdirectory : g'.current [] = some .directory := by rw [hmoved]; rfl
    rw [Generations.recovered_current_of_directory hdirectory, hmoved]

/-- Storing keeps the invariant, to whatever step it comes. -/
theorem System.Invariant.storeSnapshot {runner : Store} {tree after : FileTree} {origin : Origin}
    {source : Source} {position : ApplyPosition} {granted : List Request}
    {ending : Ending (Except Error Signs)}
    (h : System.Invariant store.config initial place ⟨tree, some runner, origin⟩)
    (hloadable : source.Loadable runner.config)
    (hexecution : Execution (runner.storeSnapshot source position).run tree granted after ending) :
    System.Invariant store.config initial place
      ⟨after, ending.survivor runner, origin.after runner source position granted⟩ := by
  obtain ⟨g, hholds, hcurrent, hprocess⟩ := h.holds
  obtain ⟨hconfig, hbackup⟩ := hprocess runner rfl
  -- the paths of all stores of the partition are the same
  have hother (other : Store) (hother : other.config = store.config) :
      initial.view.Rooted other.root place ∧ Layout.Accepted other.root ∧
        other.Persisted initial.view place := by
    unfold Store.Persisted Store.root
    rw [hother]
    exact ⟨hroot, haccepted, hpersisted⟩
  obtain ⟨hroot₁, haccepted₁, -⟩ := hother runner hconfig
  obtain ⟨g', hafter, hstage, hstorable⟩ :=
    Store.stage_of_execution hroot₁ haccepted₁ hholds hcurrent hexecution
  have hcurrent' : g'.current.NoFile := by
    cases hstage with
    | writing _ _ _ hsame _ => exact hsame ▸ hcurrent
    | dropping _ _ _ _ hsame => exact hsame ▸ hcurrent
    | swapping _ _ _ _ hfree => exact hfree
    | moved _ hmoved => exact View.noFile_of_directory (by rw [hmoved]; rfl)
  constructor
  · refine ⟨g', hafter, hcurrent', fun survivor hsurvivor => ?_⟩
    cases ending with
    | crashed inside => cases hsurvivor
    | finished result =>
      cases hsurvivor
      refine ⟨hconfig, ?_⟩
      -- storing that was finished leaves no backup
      cases hstage with
      | writing _ _ _ _ hsame => exact hsame ▸ hbackup
      | dropping _ _ hcrash => cases hcrash
      | swapping _ _ hcrash => exact absurd rfl hcrash
      | moved _ _ _ hnothing =>
        rw [hnothing rfl]
        exact nofun
  · intro loader hloader hbuffer
    obtain ⟨hroot₂, haccepted₂, hpersisted₂⟩ := hother loader hloader
    have hloadable₂ : source.Loadable loader.config := by rwa [hloader, ← hconfig]
    exact hstage.restoredBy hroot₂ haccepted₂ hpersisted₂ hstorable hloadable₂ hbuffer hholds
      hafter hcurrent hcurrent' hbackup (h.restored loader hloader hbuffer)

/-- Every step keeps the invariant. -/
theorem Step.invariant {system system' : System} (hstep : Step store.root system system')
    (h : system.Invariant store.config initial place) :
    system'.Invariant store.config initial place := by
  cases hstep with
  | start options state hbuffer =>
    -- a start with other options is one of another store of the partition
    have hopened : initial.view.Rooted (⟨store.config, options⟩ : Store).root place := hroot
    exact h.start hopened haccepted hpersisted hbuffer state
  | store hloadable hexecution =>
    exact h.storeSnapshot hroot haccepted hpersisted hloadable hexecution

/-- The systems of a run keep the invariant. -/
theorem Reachable.invariant
    (hcurrent : (initial.view.below (place ++ [Layout.current])).NoFile) {system : System}
    (hreachable : Reachable store.root initial system) :
    system.Invariant store.config initial place := by
  -- the run begins without a process, where nothing is asked of the backup
  induction hreachable with
  | initial =>
    constructor
    · exact ⟨_, Holds.self initial place, hcurrent, fun _ h => nomatch h⟩
    · exact fun _ _ _ _ _ _ _ => rfl
  | step _ hstep ih => exact hstep.invariant hroot haccepted hpersisted ih

end

/-! ## What processes find -/

/-- A run in which one process is started and crashes while it stores, after `n` requests. -/
theorem Reachable.cut {store : Store} {initial : FileTree} {σ : Type} [StateMachine σ] {state : σ}
    (hbuffer : 1 ≤ store.options.readBuffer)
    (hstart : ((Store.start store.root store.options state).eval initial).1.1 = some store)
    {source : Source} (hloadable : source.Loadable store.config) (position : ApplyPosition)
    (n : Nat) {granted : List Request} {after : FileTree}
    (hcut : (store.storeSnapshot source position).run.cut
      ((Store.start store.root store.options state).eval initial).2 n = (granted, after)) :
    Reachable store.root initial
      ⟨after, none, Origin.initial.after store source position granted⟩ := by
  let started := (Store.start store.root store.options state).eval initial
  have hstarted : Reachable store.root initial ⟨started.2, started.1.1, .initial⟩ :=
    .step .initial (.start store.options state hbuffer)
  rw [hstart] at hstarted
  have hcrash := Execution.crash_after (store.storeSnapshot source position).run started.2 n
  rw [hcut] at hcrash
  exact .step hstarted (.store hloadable hcrash)

/-- **What processes find when they are started.** A run begins on a root with a persisted identity,
where there is no generation at all, or a current one that can be loaded. Whatever was started,
stored and cut short since, a process that is started opens the store and comes to a partition: that
of the source which was moved into its place last, or else that of the generation with which the
run began, which is empty if there was none. -/
theorem Reachable.start_restores (store : Store) {initial : FileTree} {place : List String}
    (hroot : initial.view.Rooted store.root place) (haccepted : Layout.Accepted store.root)
    (hpersisted : store.Persisted initial.view place) {system : System}
    (hreachable : Reachable store.root initial system)
    {σ : Type} [StateMachine σ] [StateMachine.Accepting σ] (state : σ)
    (hbuffer : 1 ≤ store.options.readBuffer)
    (hinitial :
      initial.view (place ++ [Layout.current]) = none ∧
        initial.view (place ++ [Layout.backup]) = none ∨
      initial.view (place ++ [Layout.current]) = some .directory ∧
        ∃ partition, (store.restored state initial).1 = .ok partition) :
    ∃ partition state' after,
      (Store.start store.root store.options state).eval system.tree =
        ((some store, .ok partition, state'), after) ∧
      (system.origin = .initial → (.ok partition, state') = store.restored state initial ∧
        (initial.view (place ++ [Layout.current]) = none →
          partition = store.emptyPartition ∧ state' = state)) ∧
      ∀ source position, system.origin = .stored source position →
        partition = source.partition store position ∧ state' = source.replay state := by
  have h := Holds.self initial place
  have hcurrent : (initial.view.generations place).current.NoFile := by
    rcases hinitial with ⟨hnone, -⟩ | ⟨hdirectory, -⟩
    · exact .inl (h.at_current.symm.trans hnone)
    · exact .inr (h.at_current.symm.trans hdirectory)
  -- what a load of the initial tree comes to
  have habsent (hnone : initial.view (place ++ [Layout.current]) = none) :
      store.restored state initial = (.ok store.emptyPartition, state) := by
    have hbackup : (initial.view.generations place).backup [] ≠ some .directory := by
      rcases hinitial with ⟨-, hbackup⟩ | ⟨hdirectory, -⟩
      · rw [← h.at_backup, hbackup]
        exact nofun
      · rw [hnone] at hdirectory
        cases hdirectory
    refine Store.restored_nothing hroot haccepted.readable hpersisted h hcurrent ?_ state
    rw [Generations.recovered_of_current hbackup, ← h.at_current, hnone]
  have hloads : ∃ partition, (store.restored state initial).1 = .ok partition := by
    rcases hinitial with ⟨hnone, -⟩ | ⟨-, hloads⟩
    · exact ⟨store.emptyPartition, by rw [habsent hnone]⟩
    · exact hloads
  obtain ⟨⟨g, hholds, hfree, -⟩, hrestored⟩ :=
    hreachable.invariant hroot haccepted hpersisted hcurrent
  -- by the invariant the load comes to the generation of the origin
  have hload := hrestored store rfl hbuffer σ state
  have heval := Store.start_eval hroot haccepted hpersisted hholds hfree state
  cases horigin : system.origin with
  | initial =>
    rw [hload, horigin] at heval
    obtain ⟨partition, hpartition⟩ := hloads
    refine ⟨partition, (store.restored state initial).2, store.afterLoad state system.tree, ?_,
      fun _ => ⟨?_, ?_⟩, nofun⟩
    · rw [heval, Origin.restored, ← hpartition]
    · rw [← hpartition]
    · intro hnone
      rw [habsent hnone] at hpartition ⊢
      exact ⟨(Except.ok.inj hpartition).symm, rfl⟩
  | stored source position =>
    rw [hload, horigin] at heval
    refine ⟨_, _, _, heval, nofun, ?_⟩
    rintro _ _ ⟨⟩
    exact ⟨rfl, rfl⟩

theorem Reachable.start_restores_cut :
    let store := sample "p"
    let source := Records.empty.source
    let initial := identified [(Layout.current, recordless ⟨3, 5⟩)]
    ∃ system, Reachable store.root initial system ∧
      system.tree.view ["p", ".snapshot_backup"] = some .directory ∧
      ((Store.start store.root store.options MemoryPartition.empty).eval system.tree).1 =
        (some store, .ok (source.partition store ⟨4, 9⟩), MemoryPartition.empty) := by
  intro store source initial
  rcases hcut : (store.storeSnapshot source ⟨4, 9⟩).run.cut
    ((Store.start store.root store.options MemoryPartition.empty).eval initial).2 26
    with ⟨granted, after⟩
  have hreachable := Reachable.cut (by decide) (by decide +kernel) (loadable_empty _) ⟨4, 9⟩ 26 hcut
  -- the crash came after the moving in and before the backup was removed
  have hcommit : store.commit ∈ granted := by
    rw [show granted = _ from (congrArg Prod.fst hcut).symm]
    decide +kernel
  have hbackup : after.view ["p", ".snapshot_backup"] = some .directory := by
    rw [show after = _ from (congrArg Prod.snd hcut).symm]
    decide +kernel
  have hroot : initial.view.Rooted store.root ["p"] := by decide +kernel
  have hloads : ∃ partition, (store.restored MemoryPartition.empty initial).1 = .ok partition := by
    have hok : (store.restored MemoryPartition.empty initial).1.isOk = true := by decide +kernel
    cases hload : (store.restored MemoryPartition.empty initial).1 with
    | error error => rw [hload] at hok; cases hok
    | ok partition => exact ⟨partition, rfl⟩
  obtain ⟨partition, state', _, heval, -, hstored⟩ :=
    Reachable.start_restores store hroot (by decide) (persisted_identified (by decide) _)
      hreachable MemoryPartition.empty (by decide) (.inr ⟨by decide +kernel, hloads⟩)
  obtain ⟨hpartition, hstate⟩ := hstored source ⟨4, 9⟩ (if_pos hcommit)
  rw [hpartition, hstate] at heval
  exact ⟨_, hreachable, hbackup, congrArg Prod.fst heval⟩

theorem Store.start_refused :
    (let store := sample "p/snapshot/.."
      let initial := identified [(Layout.current, recordless ⟨3, 5⟩)]
      store.Persisted initial.view ["p"] ∧
        initial.view.enter [] store.root.steps = some ["p"] ∧
        initial.view ["p", ".snapshot_backup"] = none ∧
        initial.view ["p", "snapshot"] = some .directory ∧
        (store.restored MemoryPartition.empty initial).1.isOk = true ∧
        ∃ system, Reachable store.root initial system ∧
          ((Store.start store.root store.options MemoryPartition.empty).eval
            system.tree).1.1 = none) ∧
      (let store := sample manySlashes
      let initial := identified []
      store.Persisted initial.view ["p"] ∧ initial.view.Rooted store.root ["p"] ∧
        initial.view ["p", ".snapshot_backup"] = none ∧
        initial.view ["p", "snapshot"] = none ∧
        (store.restored MemoryPartition.empty initial).1.isOk = false) := by
  constructor
  · intro store initial
    refine ⟨persisted_identified (by decide) _, by decide +kernel, by decide +kernel,
      by decide +kernel, by decide +kernel, ?_⟩
    rcases hcut : (store.storeSnapshot Records.empty.source ⟨4, 9⟩).run.cut
      ((Store.start store.root store.options MemoryPartition.empty).eval initial).2 99
      with ⟨granted, after⟩
    have hreachable := Reachable.cut (by decide) (by decide +kernel) (loadable_empty _) ⟨4, 9⟩ 99
      hcut
    have hstart : ((Store.start store.root store.options MemoryPartition.empty).eval
        after).1.1 = none := by
      rw [show after = _ from (congrArg Prod.snd hcut).symm]
      decide +kernel
    refine ⟨_, hreachable, ?_⟩
    dsimp only
    exact hstart
  · intro store initial
    have hsize : manySlashes.utf8ByteSize = 4079 := size_slashes 4078
    have hempty : manySlashes.isEmpty = false := by
      rw [String.isEmpty, hsize]
      rfl
    have hroot : initial.view.Rooted store.root ["p"] := by
      have hsteps : (sample manySlashes).root.steps = [.down "p"] := steps_slashes 4078
      refine ⟨by decide +kernel, ?_⟩
      rw [hsteps]
      decide +kernel
    have hpersisted : store.Persisted initial.view ["p"] := persisted_identified hempty _
    refine ⟨hpersisted, hroot, by decide +kernel, by decide +kernel, ?_⟩
    cases hload : (store.restored MemoryPartition.empty initial).1 with
    | error error => rfl
    | ok partition =>
      -- the path of the last file is too long
      have hbytes := (readable_of_restored hroot hpersisted hload).room.bytes
      have hstem := Path.size_text_le store.root
      have htext : store.root.text.utf8ByteSize = 4079 := hsize
      simp only [FileTree.maxPath] at hbytes
      omega

end PartitionSnapshot
