import PartitionSnapshot.Proofs.Acceptance

/-!
# Which stored sources are loaded

Storing looks at less than loading. It decodes the records of inodes, and passes those of the other
kinds on as they are; whether an inode belongs to the partition it does not ask. So a source can be
stored, with the generation before it gone, and no load restores it.

Which sources this concerns is said exactly: those with a record that loading does not take in. All
others are restored with just their records.

## Main statements

* `Source.loadable_iff`: a source is loaded when all its records are taken in.
* `Store.storeSnapshot_loadable`: when a source that was stored is restored.
-/

namespace PartitionSnapshot

open FileTree (Holds)

/-- A source is loaded when all its records are taken in. -/
theorem Source.loadable_iff {source : Source} {config : Config}
    (haddressable : ∀ kind, ∀ record ∈ source.records kind, record.length < UInt64.size) :
    source.Loadable config ↔ ∀ kind, ∀ record ∈ source.records kind, config.Takes kind record := by
  constructor
  · refine fun hloadable kind record hrecord => ⟨hloadable.decodes kind record hrecord, ?_⟩
    rintro rfl inode hinode
    -- the inode of the record is one of those that the records stand for
    refine hloadable.owned inode (List.mem_filterMap.2 ⟨record, hrecord, ?_⟩)
    rw [hinode]
    rfl
  · refine fun htakes => ⟨fun kind record hrecord => (htakes kind record hrecord).decodes, ?_,
      haddressable⟩
    intro inode hinode
    obtain ⟨record, hrecord, hof⟩ := List.mem_filterMap.1 hinode
    exact (htakes .inode record hrecord).owned rfl inode (eq_ok_of_toOption hof)

namespace Store

variable {store : Store} {source : Source}

/-- A source that was stored is loaded only if all its records are taken in. -/
theorem loadable_of_restored {σ : Type} [StateMachine σ] [StateMachine.Accepting σ] {view : View}
    {place : List String} {g : Generations} {tree : FileTree}
    (hroot : view.Rooted store.root place) (hreadable : Layout.Readable store.root)
    (hpersisted : store.Persisted view place) (hbuffer : 1 ≤ store.options.readBuffer)
    (haddressable : ∀ kind, ∀ record ∈ source.records kind, record.length < UInt64.size)
    {store' : Store} (hstorable : source.Storable store') (h : Holds view place g tree)
    (hcurrent : g.current.NoFile) {position : ApplyPosition}
    (hgeneration : g.recovered.current = source.generation position) {state : σ}
    {partition : LoadedPartition} (hrestored : (store.restored state tree).1 = .ok partition) :
    source.Loadable store.config := by
  obtain ⟨hyields, -⟩ := (restored_eq_ok hroot hreadable hpersisted h hcurrent state).1
    ⟨partition, hrestored, rfl, rfl⟩
  refine (Source.loadable_iff haddressable).2 fun kind => ?_
  -- in the file of a kind the records of the source are found
  have hkind := hyields kind
  rw [hgeneration, Source.readFile_generation] at hkind
  exact hkind.accepted fun context path =>
    contentsOf_file hbuffer hstorable haddressable context path kind

/-- **When a source that was stored is restored.** A source has been stored, and its generation is
the only one that is left. Then a load into a machine that refuses no entity goes through if and
only if every record of the source decodes and every inode of it belongs to the partition, and the
machine has then taken in just the records of the source. -/
theorem storeSnapshot_loadable (store : Store) (source : Source) (position : ApplyPosition)
    {tree : FileTree} {place : List String} (hroot : tree.view.Rooted store.root place)
    (hpersisted : store.Persisted tree.view place) (hbuffer : 1 ≤ store.options.readBuffer)
    (haddressable : ∀ kind, ∀ record ∈ source.records kind, record.length < UInt64.size)
    {signs : Signs} {after : FileTree}
    (hstore : Task.eval tree (store.storeSnapshot source position) = (.ok signs, after))
    {σ : Type} [StateMachine σ] [StateMachine.Accepting σ] (state : σ) :
    Holds tree.view place ⟨source.generation position, View.nothing, View.nothing⟩ after ∧
      ((∃ partition, (store.restored state after).1 = .ok partition) ↔
        source.Loadable store.config) ∧
      (source.Loadable store.config → store.restored state after =
        (.ok (source.partition store position), source.replay state)) := by
  obtain ⟨hstorable, haccepted⟩ := storable_of_storeSnapshot hstore
  obtain ⟨rfl, hafter⟩ := holds_of_storeSnapshot hroot haccepted (Holds.self tree place) hstore
  have hdirectory : View.NoFile (source.generation position) := View.noFile_of_directory rfl
  have hgeneration := Generations.recovered_current_of_directory
    (rfl : (⟨source.generation position, View.nothing, View.nothing⟩ : Generations).current [] =
      some .directory)
  have hrestored (hloadable : source.Loadable store.config) := restored_generation hroot
    haccepted.readable hpersisted hbuffer hstorable hloadable hafter hdirectory hgeneration state
  refine ⟨hafter, ⟨?_, fun hloadable => ⟨_, congrArg Prod.fst (hrestored hloadable)⟩⟩, hrestored⟩
  rintro ⟨partition, hpartition⟩
  exact loadable_of_restored hroot haccepted.readable hpersisted hbuffer haddressable hstorable
    hafter hdirectory hgeneration hpartition

/-- An inode beyond the last number of the partition is stored, and not loaded. -/
theorem storeSnapshot_loadable_outside :
    let store := sample "p"
    let source := (Records.empty.pushEntity ({ id := 2000 } : Inode)).source
    let stored := Task.eval (identified []) (store.storeSnapshot source ⟨3, 5⟩)
    stored.1.isOk = true ∧
      ¬ ∃ partition, (store.restored MemoryPartition.empty stored.2).1 = .ok partition := by
  intro store source stored
  have hok : stored.1.isOk = true := by decide +kernel
  refine ⟨hok, ?_⟩
  rcases hstored : stored with ⟨error | signs, after⟩
  · rw [hstored] at hok
    cases hok
  have haddressable : ∀ kind, ∀ record ∈ source.records kind, record.length < UInt64.size := by
    intro kind
    cases kind <;> decide +kernel
  obtain ⟨-, hloads, -⟩ := storeSnapshot_loadable store source ⟨3, 5⟩ (by decide +kernel)
    (persisted_identified (by decide) _) (by decide) haddressable hstored MemoryPartition.empty
  rw [hloads]
  intro hloadable
  have howned : ∀ inode ∈ Entity.ofRecords Inode (source.records .inode),
      store.config.owns inode.id = true := hloadable.owned
  exact absurd howned (by decide +kernel)

end Store

end PartitionSnapshot
