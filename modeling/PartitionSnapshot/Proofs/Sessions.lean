import PartitionSnapshot.Proofs.Identity
import PartitionSnapshot.Proofs.Persisting

/-!
# Stores in use

A store is created for a configuration or opened on a root, and then called upon: its configuration
is replaced, a partition is loaded with it, its identity is persisted. Calls may fail, and whatever
else goes on in the file system, each of them may meet another tree.

However a store got where it is, its configuration is valid. So once persisting succeeds, the root
holds an identity from which just this configuration is read, whatever its texts consist of.

## Main statements

* `Store.InUse.identity_holds`: the configuration of a store in use is valid and outlasts the store.
-/

namespace PartitionSnapshot.Store

variable {store store' : Store} {tree : FileTree} {config : Config} {options : Options}

/-! ## Calls -/

/-- An action upon a store. -/
inductive Action where
  | replaceConfig (config : Config)
  | load (σ : Type) [machine : StateMachine σ] (state : σ)
  | persistMetadata

/-- How a call ends on a tree, and the store that its caller has from then on. -/
def Action.perform (tree : FileTree) (store : Store) : Action → Except Error Unit × Store
  | .replaceConfig config =>
    match store.replaceConfig config with
    | .ok store => (.ok (), store)
    | .error error => (.error error, store)
  | @Action.load _ _ state =>
    let outcome := ((store.load state).eval tree).1
    (outcome.1.map fun _ => (), outcome.2.1)
  | .persistMetadata => ((Task.eval tree store.persistMetadata).1, store)

/-- A store that was created or opened, and called upon any number of times. -/
inductive InUse : Store → Prop
  | new {config : Config} {options : Options} {store : Store}
      (h : Store.new config options = .ok store) : InUse store
  | opened {root : Path} {options : Options} {tree : FileTree} {store : Store}
      (h : (Task.eval tree (Store.open root options)).1 = .ok store) : InUse store
  | called {store : Store} (h : InUse store) (tree : FileTree) (call : Action) :
      InUse (call.perform tree store).2

/-! ## The configuration stays valid -/

theorem check_new (h : Store.new config options = .ok store) : store.config.check = .ok () := by
  unfold Store.new at h
  split at h
  · next hvalid =>
    cases h
    exact hvalid
  · cases h

theorem check_replaceConfig (h : store.replaceConfig config = .ok store') :
    store'.config.check = .ok () := by
  unfold replaceConfig at h
  split at h
  · next hvalid =>
    cases h
    exact hvalid
  · cases h

theorem check_open {root : Path} (h : (Task.eval tree (Store.open root options)).1 = .ok store) :
    store.config.check = .ok () := by
  unfold Store.open at h
  rw [Task.eval_bind, loadMetadata_run] at h
  -- a store is made only once the identity was read
  cases hidentity : identityOf root (tree.read (root.join Layout.metadata)) with
  | error error =>
    rw [hidentity] at h
    cases h
  | ok config =>
    rw [hidentity] at h
    simp only [Task.eval_ofExcept, mapError_id] at h
    exact check_new h

/-- A load leaves the configuration as it was, or has it replaced by the identity that it read. -/
theorem check_load {σ : Type} [StateMachine σ] (state : σ) (tree : FileTree)
    (h : store.config.check = .ok ()) :
    ((store.load state).eval tree).1.2.1.config.check = .ok () := by
  rw [load_identified]
  cases hidentity : identityOf store.root (tree.read (store.root.join Layout.metadata)) with
  | error error => exact h
  | ok config => exact (identityOf_eq_ok hidentity).2

theorem Action.check_perform (tree : FileTree) (call : Action) (h : store.config.check = .ok ()) :
    (call.perform tree store).2.config.check = .ok () := by
  cases call with
  | replaceConfig config =>
    cases hreplace : store.replaceConfig config with
    | ok replaced =>
      simp only [perform, hreplace]
      exact check_replaceConfig hreplace
    | error error =>
      simp only [perform, hreplace]
      exact h
  | load σ state =>
    simp only [perform]
    exact check_load state tree h
  | persistMetadata => exact h

theorem InUse.check (h : store.InUse) : store.config.check = .ok () := by
  -- along the calls
  induction h with
  | new hnew => exact check_new hnew
  | opened hopen => exact check_open hopen
  | called _ tree call ih => exact call.check_perform tree ih

/-! ## The identity that is persisted -/

/-- What was persisted is read back. -/
theorem loadMetadata_of_persistMetadata (hvalid : store.config.check = .ok ())
    (hdirectory : tree.isDirectory = true)
    (hpersist : (Task.eval tree store.persistMetadata).1 = .ok ()) :
    (Task.eval (Task.eval tree store.persistMetadata).2 (loadMetadata store.root)).1 =
      .ok store.config := by
  have htop : tree.view [] = some .directory := by
    cases tree with
    | file content => cases hdirectory
    | directory children => rfl
  obtain ⟨granted, hfinished⟩ := Execution.exists_finished store.persistMetadata.run tree
  -- persisting ends without an error only once the new identity is in its place
  cases persistMetadata_execution hvalid htop hfinished with
  | making _ _ _ hending =>
    obtain ⟨⟨error, herror⟩, -⟩ := hending _ rfl
    cases hpersist.symm.trans herror
  | writing _ _ _ hending =>
    obtain ⟨⟨error, herror⟩, -⟩ := hending _ rfl
    cases hpersist.symm.trans herror
  | replaced _ hcheck hentry _ => exact loadMetadata_of_hasEntry hvalid hcheck hentry

/-- **The configuration of a store in use is valid and outlasts the store.** A call that fails to
replace it leaves it as it was; and whenever persisting succeeds, the same configuration is read
under the root, whatever its numbers, texts and replicas are. -/
theorem InUse.identity_holds (store : Store) (h : store.InUse) :
    store.config.check = .ok () ∧
    (∀ (tree : FileTree) (config : Config) (error : Error),
      ((Action.replaceConfig config).perform tree store).1 = .error error →
        ((Action.replaceConfig config).perform tree store).2 = store) ∧
    ∀ tree : FileTree, tree.isDirectory = true →
      (Task.eval tree store.persistMetadata).1 = .ok () →
        (Task.eval (Task.eval tree store.persistMetadata).2 (loadMetadata store.root)).1 =
          .ok store.config := by
  refine ⟨h.check, ?_, fun tree => loadMetadata_of_persistMetadata h.check⟩
  intro tree config error herror
  cases hreplace : store.replaceConfig config with
  | ok replaced =>
    simp only [Action.perform, hreplace] at herror
    cases herror
  | error fault => simp only [Action.perform, hreplace]

/-- Quotes, backslashes, control characters and the greatest numbers are persisted and read back, by a
store that was to have an invalid configuration in between. -/
theorem InUse.identity_holds_escapes :
    let config : Config :=
      { partition := 0xFFFFFFFFFFFFFFFF, volume := "a\"b\\c\n", first := 1,
        last := 0xFFFFFFFFFFFFFFFF, peers := [⟨0, "é\t"⟩, ⟨0xFFFFFFFFFFFFFFFF, ""⟩], root := ⟨"p"⟩ }
    let call := Action.replaceConfig { config with volume := "" }
    let tree : FileTree := .directory []
    let store := (call.perform tree ⟨config, {}⟩).2
    store = ⟨config, {}⟩ ∧ store.InUse ∧ (Task.eval tree store.persistMetadata).1 = .ok () ∧
      (Task.eval (Task.eval tree store.persistMetadata).2 (loadMetadata store.root)).1 =
        .ok config := by
  intro config call tree store
  have hvalid : config.check = .ok () := by simp [config, Config.check]
  have hnew : InUse ⟨config, {}⟩ := .new (by rw [Store.new, hvalid])
  have hused : store.InUse := hnew.called tree call
  let fault : ConfigFault := .emptyVolume config.partition
  have hrefused : Config.check { config with volume := "" } = .error fault := by
    simp [config, fault, Config.check]
  have hkept : store = ⟨config, {}⟩ := by
    refine (identity_holds _ hnew).2.1 tree _
      (Context.wrap ⟨"replaceConfig", config.partition⟩ (.invalidConfig fault)) ?_
    simp only [Action.perform, replaceConfig, hrefused]
  have hpersist : (Task.eval tree store.persistMetadata).1 = .ok () := by
    rw [hkept]
    exact eq_ok_of_toOption (by decide +kernel)
  have hread := (identity_holds store hused).2.2 tree rfl hpersist
  refine ⟨hkept, hused, hpersist, hread.trans ?_⟩
  rw [hkept]

end PartitionSnapshot.Store
