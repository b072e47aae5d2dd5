import PartitionSnapshot.Proofs.Answers
import PartitionSnapshot.Proofs.Effects

/-!
# Loads that are repeated

A load that goes through leaves a tree in which there is nothing to settle, and an apply file that
already holds the position that a load comes to. So the next load comes to the same partition, with
any machine that answers as the first one did, and leaves what it has found. Over any number of
loads, of whatever stores under the root, the index that is kept stays and the cursor never moves
back.

All this is about steady roots, since others are cut off by the first load.

## Main statements

* `Store.load_again`: what a second load comes to.
* `Store.persists_of_loaded`: what any number of loads keeps.
* `Store.load_effect`: all that a load does, alone and repeated.
-/

namespace PartitionSnapshot

namespace Store

/-! ## The apply file that was written back -/

namespace Reconciles

variable {root path directory : Path} {tree after : FileTree} {cursor : UInt64}
variable {position : ApplyPosition} {file : String}

theorem sameShape (h : Reconciles path cursor tree position after) :
    tree.view.SameShape after.view := by
  cases h with
  | absent => exact fun _ => rfl
  | present _ _ hafter => exact hafter.sameShape

/-- Files of other names are read as before. -/
theorem read_join (h : Reconciles (applyPath root) cursor tree position after)
    (hfile : Path.IsName file) (hne : file ≠ Layout.apply) :
    after.read (directory.join file) = tree.read (directory.join file) := by
  cases h with
  | absent => rfl
  | present _ _ hafter => exact FileTree.Overwritten.read_join hafter (by decide) hfile hne

/-- The position that was written back is found again, and nothing changes. -/
theorem again {store : Store} (h : Reconciles (applyPath store.root) cursor tree position after) :
    ∃ again, Task.eval after (store.loadApply store.current cursor) = (.ok position, again) ∧
      again.view = after.view := by
  cases h with
  | absent hread hnotFound => exact ⟨_, loadApply_absent cursor hread hnotFound, rfl⟩
  | @present content index stored _ hread hparsed hafter =>
    have hslash : (applyPath store.root).endsInSlash = false :=
      Path.endsInSlash_join _ (by decide)
    obtain ⟨again, hload, hagain⟩ := loadApply_present cursor (hafter.read_self hslash)
      (ApplyPosition.says_text (.reconcile index stored cursor))
    -- a position that was reconciled with the cursor is settled
    have hsettled : ApplyPosition.reconcile (ApplyPosition.reconcile index stored cursor).index
        (some (ApplyPosition.reconcile index stored cursor).cursor) cursor =
          .reconcile index stored cursor := ApplyPosition.reconcile_reconcile index stored cursor
    rw [hsettled] at hload hagain
    exact ⟨again, hload, hafter.view_eq (hafter.trans hagain)⟩

end Reconciles

/-! ## A second load -/

section

variable {store store' : Store} {tree mid after : FileTree} {place : List String}
variable {partition : LoadedPartition} {cursor : UInt64}

theorem Restores.root_eq (h : store.Restores tree partition store' mid after cursor) :
    store'.root = store.root := by
  rw [h.store_eq]
  exact (identityOf_eq_ok h.identity).1

/-- After a load from a steady root the root is steady, and there is nothing to settle. -/
theorem Restores.settled (h : store.Restores tree partition store' mid after cursor)
    (hsteady : tree.view.Steady store.root place) :
    after.view.Steady store.root place ∧
      after.hasDirectory (store.root.join Layout.backup) = false := by
  have hleaves := h.settles.steady hsteady
  have hshape := h.reconciles.sameShape
  exact ⟨hleaves.steady.congr hshape,
    (FileTree.hasDirectory_congr hshape (by decide)).trans hleaves.settled⟩

/-- The identity is found again. -/
theorem Restores.identity_again (h : store.Restores tree partition store' mid after cursor)
    (hsteady : tree.view.Steady store.root place) :
    identityOf store.root (after.read (store.root.join Layout.metadata)) =
      .ok partition.config := by
  have hleaves := h.settles.steady hsteady
  have hmetadata : Path.IsName Layout.metadata := by decide
  rw [h.reconciles.read_join hmetadata (by decide),
    FileTree.read_of_enter hmetadata hsteady.enter hleaves.steady.enter
      (hleaves.entries _ (by decide) (by decide))]
  exact h.identity

variable {σ τ : Type} [StateMachine σ] [StateMachine τ] {related : σ → τ → Prop}
variable {state state' : σ} {fresh : τ}

/-- A second load, with a machine that answers like the first one, comes to the same partition and
leaves what it has found. -/
theorem load_again (hload : (store.load state).eval tree = ((.ok partition, store', state'), after))
    (hsteady : tree.view.Steady store.root place) (halike : StateMachine.Alike related)
    (hfresh : related state fresh) :
    ∃ state'' again, (store'.load fresh).eval after = ((.ok partition, store', state''), again) ∧
      again.view = after.view := by
  obtain ⟨mid, cursor, h, hfiles⟩ := load_granted hload
  have hroot := h.root_eq
  -- the files are those that the first load has found, and are taken in alike
  obtain ⟨_, _, _, final, hfiles', hfresh', -⟩ :=
    store'.parallel_loadFiles store'.current halike mid hfresh
  rw [hfiles] at hfiles'
  cases hfiles'
  have hsame : (Replaying.eval after fresh (store'.loadFiles store'.current)).1 =
      (.ok (partition.stats, cursor), final) := by
    have hreads := (Procedure.eval_of_reads
      (reads_loadFiles store' store'.current fresh) mid).2 after (by
        rintro path ⟨file, hfile, hne, rfl⟩
        exact h.reconciles.read_join (Layout.isName_of_mem_files hfile) hne)
    exact hreads.trans (congrArg Prod.fst hfresh')
  have hagain : Replaying.eval after fresh (store'.loadFiles store'.current) =
      ((.ok (partition.stats, cursor), final), after) :=
    Prod.ext hsame (loadFiles_eval store' after store'.current fresh)
  -- the position is settled
  have hreconciles := h.reconciles
  rw [← hroot] at hreconciles
  obtain ⟨again, happly, hview⟩ := hreconciles.again
  have hcurrent := loadCurrent_of_files hagain happly
  -- and before all this the identity is read, and there is no swap to settle
  have hrecover : Task.eval after store'.recoverGeneration = (.ok (), after) := by
    refine recoverGeneration_untouched ?_
    have hsettled := (h.settled hsteady).2
    rw [← hroot] at hsettled
    exact hsettled
  have hgeneration : Replaying.eval after fresh store'.loadGeneration =
      ((.ok ⟨store'.config, partition.position, partition.stats⟩, final), again) := by
    have hbind := Replaying.eval_bind after fresh (Replaying.ofTask store'.recoverGeneration)
      fun _ => (store'.loadCurrent : Replaying τ LoadedPartition)
    rw [Replaying.eval_ofTask, hrecover] at hbind
    exact hbind.trans hcurrent
  have hidentity := h.identity_again hsteady
  rw [← hroot] at hidentity
  have hstore : ({ store' with config := partition.config } : Store) = store' := by
    rw [h.store_eq]
  have hconfig : store'.config = partition.config := by rw [h.store_eq]
  refine ⟨final, again, ?_, hview⟩
  rw [load_identified, hidentity]
  dsimp only
  rw [hstore, hgeneration, hconfig]

end

/-! ## Any number of loads -/

/-- A cursor that was there is there still, and has not moved back. -/
def Advances (stored stored' : Option UInt64) : Prop :=
  ∀ cursor, stored = some cursor → ∃ cursor', stored' = some cursor' ∧ cursor ≤ cursor'

theorem Advances.refl (stored : Option UInt64) : Advances stored stored :=
  fun cursor h => ⟨cursor, h, UInt64.le_refl cursor⟩

theorem Advances.trans {stored stored' stored'' : Option UInt64} (h : Advances stored stored')
    (h' : Advances stored' stored'') : Advances stored stored'' := by
  intro cursor hcursor
  obtain ⟨cursor', hcursor', hle⟩ := h cursor hcursor
  obtain ⟨cursor'', hcursor'', hle'⟩ := h' cursor' hcursor'
  exact ⟨cursor'', hcursor'', UInt64.le_trans hle hle'⟩

/-- Reconciling a position does not move the cursor back. -/
theorem advances_reconcile (index : UInt64) (stored : Option UInt64) (cursor : UInt64) :
    Advances stored (some (ApplyPosition.reconcile index stored cursor).cursor) := by
  rintro found rfl
  refine ⟨_, rfl, ?_⟩
  show found ≤ max found cursor
  simp only [Max.max]
  grind

/-- The apply file that the next load under a root finds, once it has settled the swap, says an
index, and a cursor if it has one. -/
def Persists (root : Path) (tree : FileTree) (index : UInt64) (stored : Option UInt64) : Prop :=
  ∃ mid content, Settles root tree mid ∧ mid.read (applyPath root) = .ok content ∧
    ApplyPosition.Says content (index, stored)

/-- What a tree may become by loads under a root, of any stores into any machines. -/
inductive Loaded (root : Path) (tree : FileTree) : FileTree → Prop
  | refl : Loaded root tree tree
  | load {σ : Type} [StateMachine σ] {before : FileTree} (store : Store) (state : σ) :
      Loaded root tree before → store.root = root →
      Loaded root tree (store.afterLoad state before)

section

variable {store : Store} {tree : FileTree} {place : List String} {index : UInt64}
variable {stored : Option UInt64}

/-- Where a swap has been settled, what is kept is what is read. -/
theorem persists_of_settled {root : Path} {content : Bytes}
    (hsettled : tree.hasDirectory (root.join Layout.backup) = false)
    (hread : tree.read (applyPath root) = .ok content)
    (hparsed : ApplyPosition.Says content (index, stored)) : Persists root tree index stored :=
  ⟨tree, content, .untouched hsettled, hread, hparsed⟩

theorem says_unique {content : Bytes} {parsed parsed' : UInt64 × Option UInt64}
    (h : ApplyPosition.Says content parsed) (h' : ApplyPosition.Says content parsed') :
    parsed' = parsed := by
  obtain ⟨text, htext, hparse⟩ := h
  obtain ⟨text', htext', hparse'⟩ := h'
  cases htext.symm.trans htext'
  exact Option.some.inj (hparse'.symm.trans hparse)

/-- A load keeps the index, does not move the cursor back, and leaves a steady root steady. -/
theorem persists_afterLoad {σ : Type} [StateMachine σ] (state : σ)
    (hsteady : tree.view.Steady store.root place) (h : Persists store.root tree index stored) :
    (store.afterLoad state tree).view.Steady store.root place ∧
      ∃ stored', Persists store.root (store.afterLoad state tree) index stored' ∧
        Advances stored stored' := by
  obtain ⟨mid, content, hmid, hread, hparsed⟩ := h
  have hleaves := hmid.steady hsteady
  rcases hload : (store.load state).eval tree with ⟨⟨error | partition, store', state'⟩, after⟩
  · have hafter : store.afterLoad state tree = after := by rw [afterLoad, hload]
    rw [hafter]
    -- a load that fails has settled the swap at most
    rcases load_refused hload with rfl | hsettles
    · exact ⟨hsteady, stored, ⟨mid, content, hmid, hread, hparsed⟩, .refl stored⟩
    · cases hmid.unique hsettles
      exact ⟨hleaves.steady, stored, persists_of_settled hleaves.settled hread hparsed,
        .refl stored⟩
  · have hafter : store.afterLoad state tree = after := by rw [afterLoad, hload]
    rw [hafter]
    obtain ⟨mid', cursor, hrestores, -⟩ := load_granted hload
    cases hmid.unique hrestores.settles
    obtain ⟨hsteady', hsettled⟩ := hrestores.settled hsteady
    refine ⟨hsteady', ?_⟩
    -- the apply file was found, so the position was written back
    have hreconciles := hrestores.reconciles
    generalize partition.position = position at hreconciles
    cases hreconciles with
    | absent hmissing => cases hmissing.symm.trans hread
    | @present content' index' stored' _ hread' hparsed' hwritten =>
      cases hread.symm.trans hread'
      cases says_unique hparsed hparsed'
      exact ⟨_, persists_of_settled hsettled
        (hwritten.read_self (Path.endsInSlash_join _ (by decide)))
        (ApplyPosition.says_text (.reconcile index stored cursor)),
        advances_reconcile index stored cursor⟩

/-- So does any number of loads. -/
theorem persists_of_loaded {root : Path} {after : FileTree} (hsteady : tree.view.Steady root place)
    (h : Persists root tree index stored) (hloaded : Loaded root tree after) :
    after.view.Steady root place ∧
      ∃ stored', Persists root after index stored' ∧ Advances stored stored' := by
  induction hloaded with
  | refl => exact ⟨hsteady, stored, h, .refl stored⟩
  | load store state _ hroot ih =>
    cases hroot
    obtain ⟨hsteady', stored', hpersists, hadvances⟩ := ih
    obtain ⟨hsteady'', stored'', hpersists', hadvances'⟩ :=
      persists_afterLoad state hsteady' hpersists
    exact ⟨hsteady'', stored'', hpersists', hadvances.trans hadvances'⟩

end

/-! ## All together -/

/-- **What a load does.** A load that fails has changed nothing or has settled an interrupted swap.
One that goes through has settled the swap and written back the position that it gives. From a
steady root a second load, with a machine that answers alike, comes to the same partition and
changes nothing; and over any number of loads the index that is kept stays, and the cursor does not
move back. -/
theorem load_effect {σ : Type} [StateMachine σ] (store : Store) (tree : FileTree) (state : σ) :
    (∀ error store' state' after,
      (store.load state).eval tree = ((.error error, store', state'), after) →
      after = tree ∨ Settles store.root tree after) ∧
    (∀ partition store' state' after,
      (store.load state).eval tree = ((.ok partition, store', state'), after) →
      (∃ mid cursor, store.Restores tree partition store' mid after cursor) ∧
      ∀ place, tree.view.Steady store.root place →
        ∀ {τ : Type} [StateMachine τ] (related : σ → τ → Prop) (fresh : τ),
          StateMachine.Alike related → related state fresh →
          ∃ state'' again,
            (store'.load fresh).eval after = ((.ok partition, store', state''), again) ∧
              again.view = after.view) ∧
    ∀ place after index stored, tree.view.Steady store.root place →
      Persists store.root tree index stored → Loaded store.root tree after →
      ∃ stored', Persists store.root after index stored' ∧ Advances stored stored' := by
  refine ⟨fun error store' state' after hload => load_refused hload,
    fun partition store' state' after hload => ⟨?_, ?_⟩,
    fun place after index stored hsteady hpersists hloaded =>
      (persists_of_loaded hsteady hpersists hloaded).2⟩
  · obtain ⟨mid, cursor, hrestores, -⟩ := load_granted hload
    exact ⟨mid, cursor, hrestores⟩
  · exact fun place hsteady τ _ related fresh halike hfresh =>
      load_again hload hsteady halike hfresh

/-- A cursor below the first number of the partition is raised by the first load, and the second one
finds it so; an apply file that is empty is refused and stays. -/
theorem load_effect_raised :
    let store := sample "p"
    let tree := identified [(Layout.current,
      .directory [(Layout.apply, .file (Bytes.ofString "42|0"))])]
    let empty := identified [(Layout.current, .directory [(Layout.apply, .file [])])]
    (∃ partition store' state' after, (store.load MemoryPartition.empty).eval tree =
        ((.ok partition, store', state'), after) ∧ partition.position = ⟨42, 1⟩ ∧
      (∃ mid cursor, store.Restores tree partition store' mid after cursor) ∧
      (∃ state'' again, (store'.load MemoryPartition.empty).eval after =
        ((.ok partition, store', state''), again) ∧ again.view = after.view) ∧
      ∃ stored, Persists store.root after 42 stored ∧ Advances (some 0) stored) ∧
    ∃ error store' state' after, (store.load MemoryPartition.empty).eval empty =
      ((.error error, store', state'), after) ∧
        (after = empty ∨ Settles store.root empty after) := by
  intro store tree empty
  have hsteady : tree.view.Steady store.root ["p"] := by decide +kernel
  have hposition : (store.restored MemoryPartition.empty tree).1 =
      .ok ⟨store.config, ⟨42, 1⟩, 0, 0, 0, 0, {}, false⟩ := eq_ok_of_toOption (by decide +kernel)
  have hrefused : (store.restored MemoryPartition.empty empty).1.toOption = none := by
    decide +kernel
  have hpersists : Persists store.root tree 42 (some 0) :=
    persists_of_settled (by decide +kernel)
      (eq_ok_of_toOption (by decide +kernel : _ = some (Bytes.ofString "42|0")))
      ⟨"42|0", Utf8.decode_ofString _, by decide +kernel⟩
  obtain ⟨-, hgranted, hkept⟩ := load_effect store tree MemoryPartition.empty
  obtain ⟨hfails, -⟩ := load_effect store empty MemoryPartition.empty
  constructor
  · rcases hload : (store.load MemoryPartition.empty).eval tree
      with ⟨⟨result, store', state'⟩, after⟩
    rw [restored, hload] at hposition
    cases hposition
    obtain ⟨heffect, hagain⟩ := hgranted _ _ _ _ hload
    have hafter : store.afterLoad MemoryPartition.empty tree = after := by rw [afterLoad, hload]
    exact ⟨_, store', state', after, rfl, rfl, heffect,
      hagain ["p"] hsteady Eq MemoryPartition.empty (StateMachine.alike_eq _) rfl,
      hkept ["p"] after 42 (some 0) hsteady hpersists
        (hafter ▸ .load store MemoryPartition.empty .refl rfl)⟩
  · rcases hload : (store.load MemoryPartition.empty).eval empty
      with ⟨⟨result, store', state'⟩, after⟩
    rw [restored, hload] at hrefused
    cases result with
    | ok partition => cases hrefused
    | error error => exact ⟨error, store', state', after, rfl, hfails _ _ _ _ hload⟩

/-- Under a root that is reached through its backup the first load comes to an empty partition, and
the second one to none: the recovery has cut off the way to the root. -/
theorem load_again_lost :
    let store := sample "p/.snapshot_backup/.."
    let tree := identified [(Layout.current, recordless ⟨3, 5⟩), (Layout.backup, .directory [])]
    (Task.eval tree (loadMetadata store.root)).1 = .ok store.config ∧
    (store.restored MemoryPartition.empty tree).1 =
      .ok ⟨store.config, ⟨0, 1⟩, 0, 0, 0, 0, {}, false⟩ ∧
    ∀ partition, (store.restored MemoryPartition.empty
      (store.afterLoad MemoryPartition.empty tree)).1 ≠ .ok partition := by
  intro store tree
  refine ⟨eq_ok_of_toOption (by decide +kernel), eq_ok_of_toOption (by decide +kernel),
    fun partition hpartition => ?_⟩
  have hrefused : (store.restored MemoryPartition.empty
      (store.afterLoad MemoryPartition.empty tree)).1.toOption = none := by decide +kernel
  rw [hpartition] at hrefused
  cases hrefused

end Store

end PartitionSnapshot
