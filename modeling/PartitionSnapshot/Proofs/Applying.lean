import PartitionSnapshot.Machine.Journal
import PartitionSnapshot.Proofs.Restoring

/-!
# What a load does to a machine

A load hands the records of a file to the state machine one after the other, as long as each of them
is taken in. The first that is not ends the load: a record that does not decode and an inode outside
the partition before the machine is called, an entry or attributes that the machine refuses with the
very call that it refuses. Where the file breaks off, no call is made for what is missing.

A machine that keeps all calls beside another one answers as that one does, and so shows which calls
are made.

## Main statements

* `Store.loadFile_of_absorbs`: what loading a file comes to when the machine takes in what is found.
* `Store.loadFile_of_stops`: what it comes to at the first record that is not taken in.
* `Store.loadFile_concludes`: how a load goes on behind the records that were taken in.
* `Store.load_applies_prefix`: what loading any file comes to, and which calls it makes.
-/

namespace PartitionSnapshot

/-- Checking a record is decoding it. -/
theorem Kind.check_eq_error {ε : Type} [Entity ε] {record : Bytes} {fault : DecodeFault} :
    (do let _ ← Entity.ofRecord ε record : Except DecodeFault Unit) = .error fault ↔
      Entity.ofRecord ε record = .error fault := by
  cases Entity.ofRecord ε record with
  | error other =>
    constructor <;> rintro ⟨⟩ <;> rfl
  | ok entity => exact iff_of_false nofun nofun

/-! ## Records that a machine takes in -/

namespace StateMachine

variable {σ : Type} [StateMachine σ] {config : Config} {context : Context} {kind : Kind}

/-- A record of a kind decodes, and the machine takes its entity in: an inode that belongs to the
partition, an entry that is not refused in replay, attributes that are not refused, or a multipart
session. -/
inductive Absorbs (config : Config) : Kind → Bytes → σ → σ → Prop
  | inode {record : Bytes} {inode : Inode} {before : σ} :
      Entity.ofRecord Inode record = .ok inode → config.owns inode.id = true →
      Absorbs config .inode record before (checkFree inode (createInode inode before))
  | dentry {record : Bytes} {dentry : Dentry} {before after : σ} :
      Entity.ofRecord Dentry record = .ok dentry →
      createDentry dentry true before = (.ok, after) → Absorbs config .dentry record before after
  | extend {record : Bytes} {extend : Extend} {before after : σ} :
      Entity.ofRecord Extend record = .ok extend →
      setAttributes extend before = (.ok (), after) → Absorbs config .extend record before after
  | multipart {record : Bytes} {multipart : Multipart} {before : σ} :
      Entity.ofRecord Multipart record = .ok multipart →
      Absorbs config .multipart record before (createMultipart multipart before)

/-- The records of a kind are taken in one after the other. -/
inductive AbsorbsAll (config : Config) (kind : Kind) : σ → List Bytes → σ → Prop
  | nil (state : σ) : AbsorbsAll config kind state [] state
  | cons {record : Bytes} {records : List Bytes} {before middle after : σ} :
      Absorbs config kind record before middle → AbsorbsAll config kind middle records after →
      AbsorbsAll config kind before (record :: records) after

/-- The first of some records that are taken in are taken in. -/
theorem AbsorbsAll.take {state final : σ} {records : List Bytes}
    (h : AbsorbsAll config kind state records final) (n : Nat) :
    ∃ after, AbsorbsAll config kind state (records.take n) after := by
  induction h generalizing n with
  | nil state => exact ⟨state, by rw [List.take_nil]; exact .nil state⟩
  | @cons record records before middle after hfirst _ ih =>
    cases n with
    | zero => exact ⟨before, .nil before⟩
    | succ n =>
      obtain ⟨state, hstate⟩ := ih n
      exact ⟨state, .cons hfirst hstate⟩

/-! ## Calls -/

/-- A call to a state machine, with all that it hands over. -/
inductive Operation where
  | createInode (inode : Inode)
  | checkFree (inode : Inode)
  | createDentry (dentry : Dentry) (replay : Bool)
  | setAttributes (extend : Extend)
  | createMultipart (multipart : Multipart)
  deriving DecidableEq

/-- A state machine beside the calls that have reached it, in order. -/
structure Traced (σ : Type) where
  machine : σ
  operations : List Operation

instance : StateMachine (Traced σ) where
  createInode inode state :=
    ⟨StateMachine.createInode inode state.machine, state.operations ++ [.createInode inode]⟩
  checkFree inode state :=
    ⟨StateMachine.checkFree inode state.machine, state.operations ++ [.checkFree inode]⟩
  createDentry dentry replay state :=
    let (status, machine) := StateMachine.createDentry dentry replay state.machine
    (status, ⟨machine, state.operations ++ [.createDentry dentry replay]⟩)
  setAttributes extend state :=
    let (result, machine) := StateMachine.setAttributes extend state.machine
    (result, ⟨machine, state.operations ++ [.setAttributes extend]⟩)
  createMultipart multipart state :=
    ⟨StateMachine.createMultipart multipart state.machine,
      state.operations ++ [.createMultipart multipart]⟩

/-- The calls for a record that is taken in. -/
def operations (kind : Kind) (record : Bytes) : List Operation :=
  match kind with
  | .inode =>
    ((Entity.ofRecord Inode record).toOption.toList).flatMap fun inode =>
      [.createInode inode, .checkFree inode]
  | .dentry => ((Entity.ofRecord Dentry record).toOption.toList).map (.createDentry · true)
  | .extend => ((Entity.ofRecord Extend record).toOption.toList).map .setAttributes
  | .multipart => ((Entity.ofRecord Multipart record).toOption.toList).map .createMultipart

theorem Absorbs.traced {record : Bytes} {before after : σ}
    (h : Absorbs config kind record before after) (calls : List Operation) :
    Absorbs config kind record (⟨before, calls⟩ : Traced σ)
      ⟨after, calls ++ operations kind record⟩ := by
  cases h with
  | inode hinode howned =>
    have h := @Absorbs.inode (Traced σ) _ config _ _ ⟨before, calls⟩ hinode howned
    simpa [operations, hinode, Except.toOption, createInode, checkFree] using h
  | dentry hdentry hcreate =>
    refine .dentry hdentry ?_
    simp [operations, hdentry, Except.toOption, createDentry, hcreate]
  | extend hextend hset =>
    refine .extend hextend ?_
    simp [operations, hextend, Except.toOption, setAttributes, hset]
  | multipart hmultipart =>
    have h := @Absorbs.multipart (Traced σ) _ config _ _ ⟨before, calls⟩ hmultipart
    simpa [operations, hmultipart, Except.toOption, createMultipart] using h

theorem AbsorbsAll.traced {records : List Bytes} {before after : σ}
    (h : AbsorbsAll config kind before records after) (calls : List Operation) :
    AbsorbsAll config kind (⟨before, calls⟩ : Traced σ) records
      ⟨after, calls ++ records.flatMap (operations kind)⟩ := by
  -- record by record, each of which adds its calls behind the others
  induction h generalizing calls with
  | nil state =>
    rw [List.flatMap_nil, List.append_nil]
    exact .nil _
  | cons hfirst _ ih =>
    rw [List.flatMap_cons, ← List.append_assoc]
    exact .cons (hfirst.traced calls) (ih _)

/-! ## Records that end a load -/

/-- A record of a kind is not taken in: for which error, after which calls, and in which state that
leaves the machine. -/
inductive Stops (config : Config) (context : Context) :
    Kind → Bytes → σ → Error → List Operation → σ → Prop
  | undecodable {kind : Kind} {record : Bytes} {fault : DecodeFault} {state : σ} :
      kind.check record = .error fault →
      Stops config context kind record state (.corrupt context (.undecodable kind fault)) [] state
  | outside {record : Bytes} {inode : Inode} {state : σ} :
      Entity.ofRecord Inode record = .ok inode → config.owns inode.id = false →
      Stops config context .inode record state
        (.corrupt context (.outsideRange inode.id config.first config.last)) [] state
  | dentry {record : Bytes} {dentry : Dentry} {status : Status} {before after : σ} :
      Entity.ofRecord Dentry record = .ok dentry →
      createDentry dentry true before = (status, after) → status ≠ .ok →
      Stops config context .dentry record before (.rejected context (.dentry dentry status))
        [.createDentry dentry true] after
  | extend {record : Bytes} {extend : Extend} {error : Error} {before after : σ} :
      Entity.ofRecord Extend record = .ok extend →
      setAttributes extend before = (.error error, after) →
      Stops config context .extend record before
        (.rejected context (.attributes extend.inode error.message)) [.setAttributes extend] after

theorem Stops.traced {record : Bytes} {before after : σ} {error : Error} {last : List Operation}
    (h : Stops config context kind record before error last after) (calls : List Operation) :
    Stops config context kind record (⟨before, calls⟩ : Traced σ) error last
      ⟨after, calls ++ last⟩ := by
  cases h with
  | undecodable hcheck =>
    rw [List.append_nil]
    exact .undecodable hcheck
  | outside hinode houtside =>
    rw [List.append_nil]
    exact .outside hinode houtside
  | dentry hdentry hcreate hstatus =>
    refine .dentry hdentry ?_ hstatus
    simp only [createDentry, hcreate]
  | extend hextend hset =>
    refine .extend hextend ?_
    simp only [setAttributes, hset]

/-- A record is taken in or ends the load. -/
theorem absorbs_or_stops (config : Config) (context : Context) (kind : Kind) (record : Bytes)
    (state : σ) : (∃ after, Absorbs config kind record state after) ∨
      ∃ error last after, Stops config context kind record state error last after := by
  -- what a record comes to is a matter of its kind
  cases kind with
  | inode =>
    cases hinode : Entity.ofRecord Inode record with
    | error fault => exact .inr ⟨_, _, _, .undecodable (Kind.check_eq_error.2 hinode)⟩
    | ok inode =>
      cases howned : config.owns inode.id with
      | true => exact .inl ⟨_, .inode hinode howned⟩
      | false => exact .inr ⟨_, _, _, .outside hinode howned⟩
  | dentry =>
    cases hdentry : Entity.ofRecord Dentry record with
    | error fault => exact .inr ⟨_, _, _, .undecodable (Kind.check_eq_error.2 hdentry)⟩
    | ok dentry =>
      rcases hcreate : createDentry dentry true state with ⟨status, after⟩
      by_cases hstatus : status = .ok
      · exact .inl ⟨after, .dentry hdentry (hstatus ▸ hcreate)⟩
      · exact .inr ⟨_, _, _, .dentry hdentry hcreate hstatus⟩
  | extend =>
    cases hextend : Entity.ofRecord Extend record with
    | error fault => exact .inr ⟨_, _, _, .undecodable (Kind.check_eq_error.2 hextend)⟩
    | ok extend =>
      rcases hset : setAttributes extend state with ⟨error | ⟨⟩, after⟩
      · exact .inr ⟨_, _, _, .extend hextend hset⟩
      · exact .inl ⟨after, .extend hextend hset⟩
  | multipart =>
    cases hmultipart : Entity.ofRecord Multipart record with
    | error fault => exact .inr ⟨_, _, _, .undecodable (Kind.check_eq_error.2 hmultipart)⟩
    | ok multipart => exact .inl ⟨_, .multipart hmultipart⟩

/-- Either all records are taken in, or those in front of one that ends the load. -/
theorem absorbsAll_or_stops (config : Config) (context : Context) (kind : Kind)
    (records : List Bytes) (state : σ) :
    (∃ final, AbsorbsAll config kind state records final) ∨
      ∃ taken record rest middle error last after, records = taken ++ record :: rest ∧
        AbsorbsAll config kind state taken middle ∧
        Stops config context kind record middle error last after := by
  -- along the records, up to the first that is not taken in
  induction records generalizing state with
  | nil => exact .inl ⟨state, .nil state⟩
  | cons record records ih =>
    rcases absorbs_or_stops config context kind record state with
      ⟨after, hfirst⟩ | ⟨error, last, after, hstops⟩
    · rcases ih after with ⟨final, hall⟩ |
        ⟨taken, other, rest, middle, error, last, final, rfl, htaken, hstops⟩
      · exact .inl ⟨final, .cons hfirst hall⟩
      · exact .inr ⟨record :: taken, other, rest, middle, error, last, final, rfl,
          .cons hfirst htaken, hstops⟩
    · exact .inr ⟨[], record, records, state, error, last, after, rfl, .nil state, hstops⟩

end StateMachine

/-! ## Handing records over -/

namespace Handled

open StateMachine (Absorbs AbsorbsAll Stops Operation)

variable {σ τ : Type} [StateMachine σ] {config : Config} {context : Context} {kind : Kind}

/-- Records are handed over to a machine, beside what else is kept. -/
structure Follows (handle : Bytes → τ → Handled τ) (machine : τ → σ) (config : Config)
    (context : Context) (kind : Kind) : Prop where
  takes : ∀ {record state after}, Absorbs config kind record (machine state) after →
    (handle record state).result = .ok () ∧ machine (handle record state).state = after
  stops : ∀ {record state error last after},
    Stops config context kind record (machine state) error last after →
    (handle record state).result = .error error ∧ machine (handle record state).state = after

variable {handle : Bytes → τ → Handled τ} {machine : τ → σ}

/-- A replay takes in what the machine takes in. -/
theorem Follows.each_of_absorbs (h : Follows handle machine config context kind) {state : τ}
    {final : σ} {records : List Bytes}
    (hall : AbsorbsAll config kind (machine state) records final) :
    (each handle state records).result = .ok () ∧
      machine (each handle state records).state = final := by
  -- along the records; the machine changes from record to record
  induction records generalizing state with
  | nil =>
    cases hall
    exact ⟨rfl, rfl⟩
  | cons record records ih =>
    cases hall with
    | cons hfirst hothers =>
      obtain ⟨hresult, hstate⟩ := h.takes hfirst
      rw [← hstate] at hothers
      obtain ⟨hrest, hfinal⟩ := each_cons_of_ok records hresult
      rw [hrest, hfinal]
      exact ih hothers

/-- A replay ends with the first record that is not taken in. -/
theorem Follows.each_of_stops (h : Follows handle machine config context kind) {state : τ}
    {middle after : σ} {taken : List Bytes} {record : Bytes} {error : Error}
    {last : List Operation} (htaken : AbsorbsAll config kind (machine state) taken middle)
    (hstops : Stops config context kind record middle error last after) (rest : List Bytes) :
    (each handle state (taken ++ record :: rest)).result = .error error ∧
      machine (each handle state (taken ++ record :: rest)).state = after := by
  -- along the records that are taken in
  induction taken generalizing state with
  | nil =>
    cases htaken
    obtain ⟨hresult, hstate⟩ := h.stops hstops
    simp only [List.nil_append, each, hresult]
    exact ⟨trivial, hstate⟩
  | cons first taken ih =>
    cases htaken with
    | cons hfirst hothers =>
      obtain ⟨hresult, hstate⟩ := h.takes hfirst
      rw [← hstate] at hothers
      obtain ⟨hrest, hfinal⟩ := each_cons_of_ok (taken ++ record :: rest) hresult
      rw [List.cons_append, hrest, hfinal]
      exact ih hothers

end Handled

namespace Store

open StateMachine (Absorbs AbsorbsAll Stops Operation Traced operations)
open Handled (Follows)

variable {σ : Type} [StateMachine σ] {store : Store} {kind : Kind}

/-- Beside the machine there is the cursor. -/
theorem follows_handleInode (config : Config) (context : Context) :
    Follows (handleInode config context : Bytes → UInt64 × σ → Handled (UInt64 × σ)) Prod.snd
      config context .inode where
  takes h := by
    cases h with
    | inode hinode howned => simp only [handleInode, hinode, howned, if_true]; exact ⟨rfl, rfl⟩
  stops h := by
    cases h with
    | undecodable hcheck =>
      simp only [handleInode, Kind.check_eq_error.1 hcheck]
      exact ⟨rfl, rfl⟩
    | outside hinode houtside =>
      simp only [handleInode, hinode, houtside]
      exact ⟨rfl, rfl⟩

theorem follows_handleDentry (config : Config) (context : Context) :
    Follows (handleDentry context : Bytes → σ → Handled σ) id config context .dentry where
  takes {record state after} h := by
    have h : Absorbs config .dentry record state after := h
    cases h with
    | dentry hdentry hcreate => simp only [handleDentry, hdentry, hcreate]; exact ⟨rfl, rfl⟩
  stops {record state error last after} h := by
    have h : Stops config context .dentry record state error last after := h
    cases h with
    | undecodable hcheck =>
      simp only [handleDentry, Kind.check_eq_error.1 hcheck]
      exact ⟨rfl, rfl⟩
    | @dentry _ _ status _ _ hdentry hcreate hstatus =>
      simp only [handleDentry, hdentry, hcreate]
      cases status with
      | ok => exact absurd rfl hstatus
      | _ => exact ⟨rfl, rfl⟩

theorem follows_handleExtend (store : Store) (context : Context) :
    Follows (store.handleExtend context : Bytes → σ → Handled σ) id store.config context
      .extend where
  takes {record state after} h := by
    have h : Absorbs store.config .extend record state after := h
    cases h with
    | extend hextend hset => simp only [handleExtend, hextend, hset]; exact ⟨rfl, rfl⟩
  stops {record state error last after} h := by
    have h : Stops store.config context .extend record state error last after := h
    cases h with
    | undecodable hcheck =>
      simp only [handleExtend, Kind.check_eq_error.1 hcheck]
      exact ⟨rfl, rfl⟩
    | extend hextend hset => simp only [handleExtend, hextend, hset]; exact ⟨rfl, rfl⟩

theorem follows_handleMultipart (store : Store) (context : Context) :
    Follows (store.handleMultipart context : Bytes → σ → Handled σ) id store.config context
      .multipart where
  takes {record state after} h := by
    have h : Absorbs store.config .multipart record state after := h
    cases h with
    | multipart hmultipart => simp only [handleMultipart, hmultipart]; exact ⟨rfl, rfl⟩
  stops {record state error last after} h := by
    have h : Stops store.config context .multipart record state error last after := h
    cases h with
    | undecodable hcheck =>
      simp only [handleMultipart, Kind.check_eq_error.1 hcheck]
      exact ⟨rfl, rfl⟩

/-! ## Loading the file of a kind -/

/-- The operation that loads the file of a kind. -/
def loadContext (store : Store) : Kind → Context
  | .inode => store.context "loadInode"
  | .dentry => store.context "loadDentry"
  | .extend => store.context "loadExtend"
  | .multipart => store.context "loadMultipart"

/-- Loads the file of a kind; inodes are loaded beside a cursor. -/
def loadFile (store : Store) (directory : Path) (cursor : UInt64) : Kind → Replaying σ LoadOutcome
  | .inode => do return (← store.loadInodes directory cursor).outcome
  | .dentry => store.loadDentries directory
  | .extend => store.loadExtends directory
  | .multipart => store.loadMultiparts directory

/-- Whichever kind a file is of, loading it is handing over its records to the machine. -/
theorem loadFile_follows (store : Store) (directory : Path) (cursor : UInt64) (kind : Kind)
    (state : σ) : ∃ (τ : Type) (handle : Bytes → τ → Handled τ) (machine : τ → σ) (start : τ),
      machine start = state ∧ Follows handle machine store.config (store.loadContext kind) kind ∧
      ∀ {tree content}, tree.read (Layout.entityFile directory kind) = .ok content →
        let replay := replayed (store.loadContext kind) handle start
          (.ok (some (.ofKind kind (store.source kind content))))
        Replaying.eval tree state (store.loadFile directory cursor kind) =
          ((replay.1, machine replay.2), tree) := by
  cases kind with
  | inode =>
    refine ⟨_, _, _, (cursor, state), rfl, follows_handleInode _ _, ?_⟩
    intro tree content hread replay
    have hload : Replaying.eval tree state (store.loadInodes directory cursor) =
        ((replay.1.map fun outcome => ⟨outcome, replay.2.1⟩, replay.2.2), tree) := by
      rw [loadInodes_eval, hread]
      rfl
    unfold loadFile
    rw [Replaying.eval_bind, hload]
    -- the cursor is not part of the outcome
    rcases replay with ⟨error | outcome, cursor', after⟩ <;> rfl
  | dentry =>
    refine ⟨_, _, _, state, rfl, follows_handleDentry _ _, ?_⟩
    intro tree content hread
    unfold loadFile loadDentries
    dsimp only
    rw [eval_loaded, loadKind_eval, hread]
    rfl
  | extend =>
    refine ⟨_, _, _, state, rfl, follows_handleExtend _ _, ?_⟩
    intro tree content hread
    unfold loadFile loadExtends
    dsimp only
    rw [eval_loaded, loadKind_eval, hread]
    rfl
  | multipart =>
    refine ⟨_, _, _, state, rfl, follows_handleMultipart _ _, ?_⟩
    intro tree content hread
    unfold loadFile loadMultiparts
    dsimp only
    rw [eval_loaded, loadKind_eval, hread]
    rfl

section

variable {tree : FileTree} {directory : Path} {content : Bytes} {state : σ}
variable (hread : tree.read (Layout.entityFile directory kind) = .ok content)
include hread

/-- **What loading a file comes to when the machine takes in all that is found in it**: the ending
of the file decides, and the machine has taken in the records either way. -/
theorem loadFile_of_absorbs {contents : Contents}
    (hcontents : Contents.ofKind kind (store.source kind content) = contents) {final : σ}
    (h : AbsorbsAll store.config kind state contents.records final) (cursor : UInt64) :
    Replaying.eval tree state (store.loadFile directory cursor kind) =
      (((contents.result (store.loadContext kind)).map (⟨true, contents.records.length, ·⟩),
        final), tree) := by
  obtain ⟨τ, handle, machine, start, rfl, hfollows, hload⟩ :=
    loadFile_follows store directory cursor kind state
  obtain ⟨hresult, hfinal⟩ := hfollows.each_of_absorbs h
  rw [hload hread, hcontents]
  -- the ending of the contents is read only after all records
  simp only [replayed, Contents.replay, hresult, Contents.result, hfinal]
  cases contents.ending <;> rfl

/-- **What loading a file comes to when a record in it is not taken in**: the error of that record,
and nothing behind it is handed over. -/
theorem loadFile_of_stops {taken rest : List Bytes} {record : Bytes}
    (hcontents : (Contents.ofKind kind (store.source kind content)).records =
      taken ++ record :: rest) {middle after : σ} {error : Error} {last : List Operation}
    (htaken : AbsorbsAll store.config kind state taken middle)
    (hstops : Stops store.config (store.loadContext kind) kind record middle error last after)
    (cursor : UInt64) :
    Replaying.eval tree state (store.loadFile directory cursor kind) =
      ((.error error, after), tree) := by
  obtain ⟨τ, handle, machine, start, rfl, hfollows, hload⟩ :=
    loadFile_follows store directory cursor kind state
  obtain ⟨hresult, hafter⟩ := hfollows.each_of_stops htaken hstops rest
  rw [hload hread]
  simp only [replayed, Contents.replay, hcontents, hresult, hafter]
  rfl

end

/-! ## Loading any file -/

/-- How a load goes on behind the records that were taken in: what it comes to, which calls it still
makes, and in which state that leaves the machine. -/
inductive Concludes (config : Config) (context : Context) (kind : Kind) (frames : List Bytes)
    (ending : Except Activity UInt32) (middle : σ) :
    List Bytes → Except Error LoadOutcome → List Operation → σ → Prop
  /-- All records of the file were taken in. -/
  | finished {sign : UInt32} (hending : ending = .ok sign) :
      Concludes config context kind frames ending middle frames (.ok ⟨true, frames.length, sign⟩)
        [] middle
  /-- The next record is missing or malformed, or so is the count. -/
  | broken {activity : Activity} {what : Corruption} (hending : ending = .error activity)
      (hwhat : Corruption.Breaks activity what) :
      Concludes config context kind frames ending middle frames (.error (.corrupt context what))
        [] middle
  /-- The next record is not taken in. -/
  | stopped {taken rest : List Bytes} {record : Bytes} {error : Error} {last : List Operation}
      {after : σ} (hframes : frames = taken ++ record :: rest)
      (hstops : Stops config context kind record middle error last after) :
      Concludes config context kind frames ending middle taken (.error error) last after

/-- Whatever is found in a file, a load applies the records in front of the first one that is not
taken in, and then comes to its conclusion. -/
theorem loadFile_concludes {tree : FileTree} {directory : Path} {content : Bytes}
    (hread : tree.read (Layout.entityFile directory kind) = .ok content) {contents : Contents}
    (hcontents : Contents.ofKind kind (store.source kind content) = contents)
    (hbreaks : ∀ step, contents.ending = .error step → step.2.Breaks) (state : σ)
    (cursor : UInt64) :
    ∃ taken middle result last after,
      AbsorbsAll store.config kind state taken middle ∧
      Concludes store.config (store.loadContext kind) kind contents.records
        (contents.ending.mapError Prod.fst) middle taken result last after ∧
      Replaying.eval tree state (store.loadFile directory cursor kind) = ((result, after), tree) ∧
      ∀ calls, Replaying.eval tree (⟨state, calls⟩ : Traced σ)
          (store.loadFile directory cursor kind) =
        ((result, ⟨after, calls ++ (taken.flatMap (operations kind) ++ last)⟩), tree) := by
  obtain ⟨frames, ending⟩ := contents
  rcases StateMachine.absorbsAll_or_stops store.config (store.loadContext kind) kind frames state
    with ⟨final, hall⟩ | ⟨taken, record, rest, middle, error, last, after, rfl, htaken, hstops⟩
  · -- the ending of the file decides
    have hload := loadFile_of_absorbs hread hcontents hall cursor
    have htraced := fun calls => loadFile_of_absorbs hread hcontents (hall.traced calls) cursor
    cases ending with
    | ok sign =>
      refine ⟨frames, final, _, [], final, hall, .finished rfl, hload, fun calls => ?_⟩
      rw [List.append_nil]
      exact htraced calls
    | error step =>
      obtain ⟨what, hwhat, herror⟩ := Context.reading_of_breaks (store.loadContext kind) step.1
        (hbreaks step rfl)
      have hresult : Contents.result ⟨frames, .error step⟩ (store.loadContext kind) =
          .error (.corrupt (store.loadContext kind) what) := congrArg Except.error herror
      rw [hresult] at hload
      refine ⟨frames, final, _, [], final, hall, .broken rfl hwhat, hload, fun calls => ?_⟩
      have htraced := htraced calls
      rw [hresult] at htraced
      rw [List.append_nil]
      exact htraced
  · have hrecords := congrArg Contents.records hcontents
    refine ⟨taken, middle, .error error, last, after, htaken, .stopped rfl hstops,
      loadFile_of_stops hread hrecords htaken hstops cursor, fun calls => ?_⟩
    rw [← List.append_assoc]
    exact loadFile_of_stops hread hrecords (htaken.traced calls) (hstops.traced _) cursor

/-- **A load applies the records in front of the first one that is bad.** For any content of a file
and any machine, the load makes the calls for the frames in front, in order, as long as each of
these decodes, belongs to the partition and is not refused. Behind them it comes to its end; or the
next record is missing or malformed, does not decode or lies outside the partition, and the load
finds the file corrupt without another call; or the call for the next record is refused, is the last
one made, and the replay is rejected. -/
theorem load_applies_prefix (store : Store) (hbuffer : 1 ≤ store.options.readBuffer) {kind : Kind}
    {tree : FileTree} {directory : Path} {content : Bytes}
    (hread : tree.read (Layout.entityFile directory kind) = .ok content) (state : σ)
    (cursor : UInt64) :
    ∃ frames ending taken middle result last after,
      (kind.Frames 0 content frames ending ∧
        ∀ frames' ending', kind.Frames 0 content frames' ending' →
          frames' = frames ∧ ending' = ending) ∧
      AbsorbsAll store.config kind state taken middle ∧
      Concludes store.config (store.loadContext kind) kind frames ending middle taken result last
        after ∧
      Replaying.eval tree state (store.loadFile directory cursor kind) = ((result, after), tree) ∧
      ∀ calls, Replaying.eval tree (⟨state, calls⟩ : Traced σ)
          (store.loadFile directory cursor kind) =
        ((result, ⟨after, calls ++ (taken.flatMap (operations kind) ++ last)⟩), tree) := by
  obtain ⟨hfaithful, hrest⟩ := faithful_source hbuffer kind content
  obtain ⟨hframes, hbreaks⟩ := Contents.frames_ofKind hfaithful kind
  rw [hrest, position_source] at hframes
  obtain ⟨taken, middle, result, last, after, htaken, hconcludes, hload, htraced⟩ :=
    loadFile_concludes hread rfl hbreaks state cursor
  exact ⟨_, _, taken, middle, result, last, after,
    ⟨hframes, fun _ _ hother => hother.unique hframes⟩, htaken, hconcludes, hload, htraced⟩

/-- A machine that refuses the second of three entries is not asked about the third. -/
theorem load_applies_prefix_refused :
    let store := sample "p"
    let entry (name : String) : Dentry := { parent := 1, name, inode := 5, fileType := 0 }
    let content := Framing.fixed.frames
      [(entry "a").toRecord, (entry "b").toRecord, (entry "c").toRecord]
    let tree : FileTree := .directory [("p", .directory [("dentry", .file content)])]
    let machine : Refusing MemoryPartition := ⟨.empty, some ⟨1, .notExist⟩, none, 0, 0⟩
    ∃ frames ending taken middle result last after,
      Kind.dentry.Frames 0 content frames ending ∧
      AbsorbsAll store.config .dentry machine taken middle ∧
      Concludes store.config (store.loadContext .dentry) .dentry frames ending middle taken result
        last after ∧
      Replaying.eval tree machine (store.loadFile store.root 1 .dentry) =
        ((result, after), tree) ∧
      result.toOption = none ∧ taken.flatMap (operations .dentry) ++ last =
        [.createDentry (entry "a") true, .createDentry (entry "b") true] := by
  intro store entry content tree machine
  have hread : tree.read (Layout.entityFile store.root .dentry) = .ok content :=
    eq_ok_of_toOption (by decide +kernel)
  obtain ⟨frames, ending, taken, middle, result, last, after, ⟨hframes, -⟩, htaken, hconcludes,
    hload, htraced⟩ := load_applies_prefix store (by decide) hread machine 1
  have hresult : (Replaying.eval tree machine
      (store.loadFile store.root 1 .dentry)).1.1.toOption = none := by decide +kernel
  have hcalls : (Replaying.eval tree (⟨machine, []⟩ : Traced (Refusing MemoryPartition))
      (store.loadFile store.root 1 .dentry)).1.2.operations =
        [.createDentry (entry "a") true, .createDentry (entry "b") true] := by decide +kernel
  rw [hload] at hresult
  rw [htraced, List.nil_append] at hcalls
  exact ⟨frames, ending, taken, middle, result, last, after, hframes, htaken, hconcludes, hload,
    hresult, hcalls⟩

end Store

end PartitionSnapshot
