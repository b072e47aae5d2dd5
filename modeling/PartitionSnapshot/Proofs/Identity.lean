import PartitionSnapshot.Proofs.Loading

/-!
# The identity that a load reads

A load reads the identity of the partition first, and the store has it from then on. The identity is
decoded from the metadata file, all but the root directory: that is the one under which the file was
looked for. So whatever the file holds, a load goes on under the root it was started with.

## Main statements

* `Config.root_of_decode`: a configuration is placed under the root that it was read for.
* `Store.load_identified`: a load is that of the generation, by the store with the identity read.
-/

namespace PartitionSnapshot

/-! ## Fields that are not read -/

namespace Json

variable {α β δ : Type}

/-- Whatever a scanner reads has a property. -/
def Scanner.Ends (property : α → Prop) (scanner : Scanner α) : Prop :=
  ∀ steps text value rest, scanner steps text = .ok (value, rest) → property value

namespace Scanner.Ends

variable {property : α → Prop} {property' : β → Prop}

theorem pure {value : α} (h : property value) : Ends property (Pure.pure value : Scanner α) := by
  intro steps text value' rest hread
  cases hread
  exact h

theorem stop (cause : Cause) : Ends property (Scanner.stop cause : Scanner α) :=
  fun _ _ _ _ hread => nomatch hread

theorem bind {first : Scanner α} {next : α → Scanner β} (h : Ends property first)
    (hnext : ∀ value, property value → Ends property' (next value)) :
    Ends property' (first >>= next) := by
  intro steps text value' rest hread
  have hbind : (first >>= next) steps text =
      (first steps text).bind fun result => next result.1 steps result.2 := rfl
  rw [hbind] at hread
  cases hfirst : first steps text with
  | error stop =>
    rw [hfirst] at hread
    cases hread
  | ok result =>
    rw [hfirst] at hread
    exact hnext _ (h _ _ _ _ hfirst) _ _ _ _ hread

/-- Nothing is known of what a scanner reads. -/
theorem any (scanner : Scanner α) : Ends (fun _ => True) scanner := fun _ _ _ _ _ => trivial

/-- A scanner goes on as it does whatever its first part reads. -/
theorem after {first : Scanner α} {next : α → Scanner β}
    (h : ∀ value, Ends property' (next value)) :
    Ends property' (first >>= next) :=
  (any first).bind fun value _ => h value

theorem stopBehind (cause : Cause) : Ends property (Scanner.stopBehind cause : Scanner α) :=
  fun _ _ _ _ hread => nomatch hread

/-- At a value of another type a scanner stops in any case. -/
theorem wrongType (wanted : String) : Ends property (Scanner.wrongType wanted : Scanner α) := by
  refine .after fun byte => ?_
  split
  · exact .after fun _ => .stop _
  · exact .after fun _ => .stop _
  · exact .after fun _ => .stop _
  · exact .after fun _ => .stop _
  · exact .stop _
  · exact .stop _
  · exact .after fun _ => .after fun _ => .stop _
  · split
    · exact .after fun _ => .stop _
    · exact .stopBehind _
  · exact .stop _

end Scanner.Ends

/-- A field keeps a property of the draft that it is read into. -/
def Field.Keeps (property : δ → Prop) (field : Field δ) : Prop :=
  ∀ draft, property draft → (field.read draft).Ends property

variable {property : δ → Prop}

theorem Field.keeps_required {name : String} {value : Scanner α} {set : δ → α → δ}
    (h : ∀ draft value, property draft → property (set draft value)) :
    (Field.required name value set).Keeps property :=
  fun draft hdraft => .after fun value => .pure (h draft value hdraft)

theorem Field.keeps_optional {name : String} {value : Scanner α} {set : δ → α → δ}
    (h : ∀ draft value, property draft → property (set draft value)) :
    (Field.optional name value set).Keeps property :=
  fun draft hdraft => .after fun value => .pure (h draft value hdraft)

namespace Scanner

/-- The draft, if the members or elements are not at fault as a whole, has the property. -/
def Drafted (property : δ → Prop) : Except Cause δ → Prop
  | .ok draft => property draft
  | .error _ => True

variable {fields : List (Field δ)} (hfields : ∀ field ∈ fields, field.Keeps property)
include hfields

theorem ends_members (steps : Nat) (isFirst : Bool) (seen : List String) {draft : δ}
    (h : property draft) :
    Ends (Drafted property) (members fields steps isFirst seen draft) := by
  -- member by member, each of which is a field that is read, or is passed over
  induction steps generalizing isFirst seen draft with
  | zero => exact .stop _
  | succ steps ih =>
    refine .after fun name => ?_
    cases name with
    | none =>
      dsimp only
      split
      · exact .pure trivial
      · exact .pure h
    | some name =>
      dsimp only
      split
      · exact .after fun _ => .after fun _ => ih _ _ h
      · next field hfield =>
        have hkeeps := hfields field (List.mem_of_find?_eq_some hfield)
        have hnext : Ends (Drafted property) (do
            colon
            let draft ← field.read draft
            members fields steps false (name :: seen) draft) :=
          .after fun _ => (hkeeps draft h).bind fun draft hdraft => ih _ _ hdraft
        split
        · exact .pure trivial
        · exact hnext

omit hfields in
theorem ends_elementsAsFields (wanted : String) (index : Nat)
    (hfields : ∀ field ∈ fields, field.Keeps property) {draft : δ} (h : property draft) :
    Ends (Drafted property) (elementsAsFields wanted index fields draft) := by
  -- field by field, each of which is read or left out
  induction fields generalizing index draft with
  | nil => exact .pure h
  | cons field fields ih =>
    have hrest : ∀ field ∈ fields, field.Keeps property :=
      fun field hfield => hfields field (List.mem_cons_of_mem _ hfield)
    refine .after fun found => ?_
    split
    · exact (hfields field List.mem_cons_self draft h).bind fun draft hdraft =>
        ih _ hrest hdraft
    · split
      · exact .pure trivial
      · exact ih _ hrest h

/-- A record has the properties of its draft that none of its fields changes. -/
theorem ends_record (name : String) {draft : δ} (h : property draft) :
    Ends property (record name fields draft) := by
  refine .after fun byte => ?_
  cases byte with
  | none => exact .stop _
  | some byte =>
    dsimp only
    split
    · -- the elements of an array
      refine .after fun _ => (ends_elementsAsFields _ _ hfields h).bind fun result hresult => ?_
      cases result with
      | ok draft => exact .after fun _ => .pure hresult
      | error cause => exact .after fun _ => .stop _
    · split
      · -- the members of an object
        refine .after fun _ => .after fun steps => ?_
        refine (ends_members hfields steps _ _ h).bind fun result hresult => ?_
        refine .after fun _ => ?_
        cases result with
        | ok draft => exact .pure hresult
        | error cause => exact .stop _
      · exact .wrongType _

end Scanner

theorem property_of_decode {scanner : Scanner α} {property : α → Prop} (h : scanner.Ends property)
    {text : Bytes} {value : α} (hdecode : decode scanner text = .ok value) : property value := by
  have hwhole : scanner.whole.Ends property := by
    refine Scanner.Ends.bind h fun value hvalue => .after fun byte => ?_
    cases byte with
    | none => exact .pure hvalue
    | some byte => exact .stopBehind _
  unfold decode at hdecode
  split at hdecode
  · next hread =>
    cases hdecode
    exact hwhole _ _ _ _ hread
  · cases hdecode

end Json

/-- A configuration is placed under the root that it was read for. -/
theorem Config.root_of_decode {root : Path} {content : Bytes} {config : Config}
    (h : Config.decode root content = .ok config) : config.root = root := by
  have hfields : ∀ field ∈ Config.fields, field.Keeps fun config => config.root = root := by
    -- no field of the text sets the root
    intro field hfield
    simp only [Config.fields, List.mem_cons, List.not_mem_nil, or_false] at hfield
    rcases hfield with rfl | rfl | rfl | rfl | rfl
    · exact Json.Field.keeps_required fun _ _ hroot => hroot
    · exact Json.Field.keeps_required fun _ _ hroot => hroot
    · exact Json.Field.keeps_required fun _ _ hroot => hroot
    · exact Json.Field.keeps_required fun _ _ hroot => hroot
    · exact Json.Field.keeps_optional fun _ _ hroot => hroot
  exact Json.property_of_decode (Json.Scanner.ends_record hfields _ rfl) h

/-! ## Reading the identity -/

namespace Store

theorem root_of_decodeMetadata {root : Path} {content : Bytes} {config : Config}
    (h : decodeMetadata root content = .ok config) : config.root = root := by
  unfold decodeMetadata at h
  dsimp only at h
  split at h
  · cases h
  · split at h
    · cases h
    · next hdecode =>
      split at h
      · cases h
      · cases h
        exact Config.root_of_decode hdecode

/-- The identity that reading the metadata file comes to. -/
def identityOf (root : Path) : Except Failure Bytes → Except Error Config
  | .error failure =>
    if failure.classify = .notFound then
      .error (.notFound ⟨"loadMetadata", 0⟩ (root.join Layout.metadata))
    else .error (.storage ⟨"loadMetadata", 0⟩ (.reading (root.join Layout.metadata)) failure)
  | .ok content => decodeMetadata root content

theorem identityOf_eq_ok {root : Path} {answer : Except Failure Bytes} {config : Config}
    (h : identityOf root answer = .ok config) :
    config.root = root ∧ config.check = .ok () := by
  cases answer with
  | error failure =>
    simp only [identityOf] at h
    split at h <;> cases h
  | ok content => exact ⟨root_of_decodeMetadata h, check_of_decodeMetadata h⟩

theorem loadMetadata_run (root : Path) (tree : FileTree) :
    Task.eval tree (loadMetadata root) =
      (identityOf root (tree.read (root.join Layout.metadata)), tree) := by
  unfold loadMetadata
  dsimp only
  rw [Task.eval_bind_ok _ (Task.eval_lift tree _), Procedure.eval_read]
  cases tree.read (root.join Layout.metadata) with
  | error failure =>
    dsimp only [identityOf]
    split <;> rfl
  | ok content =>
    dsimp only [identityOf]
    rw [Task.eval_bind, Task.eval_ofExcept, mapError_id]
    cases decodeMetadata root content <;> rfl

/-- Without an identity nothing is loaded, and else the generation is, by the store that has the
identity. -/
theorem load_identified {σ : Type} [StateMachine σ] (store : Store) (state : σ) (tree : FileTree) :
    (store.load state).eval tree =
      match identityOf store.root (tree.read (store.root.join Layout.metadata)) with
      | .error error => ((.error error, store, state), tree)
      | .ok config =>
        (((Replaying.eval tree state { store with config }.loadGeneration).1.1,
          { store with config },
          (Replaying.eval tree state { store with config }.loadGeneration).1.2),
          (Replaying.eval tree state { store with config }.loadGeneration).2) := by
  have hmetadata : (loadMetadata store.root).run.eval tree =
      (identityOf store.root (tree.read (store.root.join Layout.metadata)), tree) :=
    loadMetadata_run store.root tree
  unfold load
  rw [Procedure.eval_bind_of_eq _ hmetadata]
  cases hidentity : identityOf store.root (tree.read (store.root.join Layout.metadata)) with
  | error error => rfl
  | ok config =>
    have hreplace : store.replaceConfig config = .ok { store with config } := by
      rw [replaceConfig, (identityOf_eq_ok hidentity).2]
    simp only [hreplace]
    rw [Procedure.eval_bind, Procedure.eval_pure]
    rfl

end Store

end PartitionSnapshot
