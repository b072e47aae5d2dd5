import PartitionSnapshot.Proofs.Numerals

/-!
# The text of signs

The text is four numerals of 32 bits with blanks between them, any number of blanks each time, and
there may be blanks around the whole. Nothing else is read: neither fewer nor more numerals, nor one
that is too large. What is written for signs is read as these signs, and it is the same text in
whatever order the checksums were recorded.

## Main statements

* `Text.fields_eq_iff`: the fields of a text are what stands between its blanks.
* `Signs.parse?_eq_some_iff`, `Signs.parse?_eq_none_iff`: which texts are read, and as what.
* `Signs.setAll_get`: signs are put together from their checksums in any order.
* `Signs.sign_text_exact`: the text and its reading.
-/

namespace PartitionSnapshot

namespace Text

/-! ## Fields between blanks -/

/-- The characters are the fields, in order, and blanks: any number of them around the fields, and
at least one between two. -/
inductive SplitsInto : List Char → List (List Char) → Prop
  | blanks {cs : List Char} (hblank : AllBlank cs) : SplitsInto cs []
  | field {front field rest : List Char} {others : List (List Char)} (hfront : AllBlank front)
      (hfield : IsField field) (hends : ∀ c ∈ rest.head?, isBlank c = true)
      (hrest : SplitsInto rest others) : SplitsInto (front ++ field ++ rest) (field :: others)

/-- Blanks in front belong to no field. -/
theorem SplitsInto.append_blanks {front cs : List Char} {found : List (List Char)}
    (h : SplitsInto cs found) (hfront : AllBlank front) : SplitsInto (front ++ cs) found := by
  cases h with
  | blanks hblank => exact .blanks (hfront.append hblank)
  | field hfront' hfield hends hrest =>
    rw [List.append_assoc, ← List.append_assoc front, ← List.append_assoc]
    exact .field (hfront.append hfront') hfield hends hrest

/-- What is found from a field on that has been begun, or from between two fields. -/
theorem splitsInto_fieldsFrom {field : List Char} (hfield : ∀ c ∈ field, isBlank c = false)
    (cs : List Char) : SplitsInto (field.reverse ++ cs) (fieldsFrom field cs) := by
  have hnone : AllBlank [] := List.forall_mem_nil _
  have hend : ∀ c ∈ ([] : List Char).head?, isBlank c = true :=
    fun c hc => absurd hc (Option.not_mem_none c)
  have hreverse {field : List Char} (hne : ¬ field.isEmpty = true)
      (hfield : ∀ c ∈ field, isBlank c = false) : IsField field.reverse :=
    ⟨fun hnil => hne (List.isEmpty_iff.2 (List.reverse_eq_nil_iff.1 hnil)),
      fun c hc => hfield c (List.mem_reverse.1 hc)⟩
  -- along the characters, with the field so far
  induction cs generalizing field with
  | nil =>
    rw [fieldsFrom]
    split
    · next hempty =>
      rw [List.isEmpty_iff.1 hempty]
      exact .blanks hnone
    · next hne => exact .field hnone (hreverse hne hfield) hend (.blanks hnone)
  | cons c cs ih =>
    rw [fieldsFrom]
    split
    · next hblank =>
      -- a blank ends the field, if there is one
      have hothers : SplitsInto (c :: cs) (fieldsFrom [] cs) :=
        (ih (List.forall_mem_nil _)).append_blanks (List.forall_mem_singleton.2 hblank)
      split
      · next hempty =>
        rw [List.isEmpty_iff.1 hempty]
        exact hothers
      · next hne =>
        refine .field hnone (hreverse hne hfield) ?_ hothers
        intro other hother
        rw [← Option.mem_some.1 hother]
        exact hblank
    · next hmore =>
      have hmore : ∀ other ∈ c :: field, isBlank other = false :=
        List.forall_mem_cons.2 ⟨Bool.eq_false_iff.2 hmore, hfield⟩
      have hrest := ih hmore
      rwa [List.reverse_cons, List.append_assoc] at hrest

theorem fields_append_blanks {front : List Char} (h : AllBlank front) (cs : List Char) :
    fields (front ++ cs) = fields cs := by
  induction front with
  | nil => rfl
  | cons c front ih =>
    have hrest := ih fun other hother => h other (List.mem_cons_of_mem _ hother)
    rw [List.cons_append, fields, fieldsFrom, if_pos (h c List.mem_cons_self)]
    exact hrest

/-- **The fields of a text are what stands between its blanks**, and nothing else is. -/
theorem fields_eq_iff {cs : List Char} {found : List (List Char)} :
    fields cs = found ↔ SplitsInto cs found := by
  constructor
  · rintro rfl
    exact splitsInto_fieldsFrom (List.forall_mem_nil _) cs
  · intro h
    induction h with
    | @blanks cs hblank =>
      have hfields := fields_append_blanks hblank []
      rw [List.append_nil] at hfields
      exact hfields
    | @field front field rest others hfront hfield hends _ ih =>
      rw [List.append_assoc, fields_append_blanks hfront]
      cases rest with
      | nil =>
        cases ih
        rw [List.append_nil, fields_of_isField hfield]
        rfl
      | cons c rest =>
        have hblank : isBlank c = true := hends c rfl
        -- the blank that ends the field is in front of the others
        have hothers := fields_append_blanks (List.forall_mem_singleton.2 hblank) rest
        rw [fields_append_blank hfield hblank, ← ih]
        exact congrArg (field :: ·) hothers.symm

end Text

namespace Signs

open Text

variable {text : String} {signs : Signs}

/-! ## The texts that are read -/

/-- The text has four fields between its blanks, and they are numerals of the checksums in the order
of the kinds. -/
def Tells (text : String) (signs : Signs) : Prop :=
  ∃ inode dentry extend multipart,
    SplitsInto text.toList [inode, dentry, extend, multipart] ∧
      Numeral inode signs.inode.toNat ∧ Numeral dentry signs.dentry.toNat ∧
      Numeral extend signs.extend.toNat ∧ Numeral multipart signs.multipart.toNat

theorem parse?_eq_some_iff : parse? text = some signs ↔ Tells text signs := by
  unfold parse? Tells
  simp only [← fields_eq_iff]
  split
  · next inode dentry extend multipart hfields =>
    simp only [hfields, Option.bind_eq_bind, Option.pure_def, Option.bind_eq_some_iff,
      number32?_eq_some_iff, Option.some.injEq]
    constructor
    · rintro ⟨_, hinode, _, hdentry, _, hextend, _, hmultipart, rfl⟩
      exact ⟨inode, dentry, extend, multipart, rfl, hinode, hdentry, hextend, hmultipart⟩
    · rintro ⟨_, _, _, _, ⟨⟩, hinode, hdentry, hextend, hmultipart⟩
      exact ⟨_, hinode, _, hdentry, _, hextend, _, hmultipart, rfl⟩
  · next hfields =>
    -- there are fewer fields or more
    refine iff_of_false nofun ?_
    rintro ⟨_, _, _, _, hfour, -⟩
    exact hfields _ _ _ _ hfour

theorem parse?_eq_none_iff : parse? text = none ↔ ∀ signs, ¬ Tells text signs := by
  simp only [← parse?_eq_some_iff]
  exact Option.eq_none_iff_forall_ne_some

/-! ## Checksums in any order -/

/-- Records the checksums of kinds, one after the other. -/
def setAll (checksum : Kind → UInt32) (kinds : List Kind) (signs : Signs) : Signs :=
  kinds.foldl (fun signs kind => signs.set kind (checksum kind)) signs

theorem get_setAll (checksum : Kind → UInt32) (kinds : List Kind) (signs : Signs) (kind : Kind) :
    (setAll checksum kinds signs).get kind =
      if kind ∈ kinds then checksum kind else signs.get kind := by
  -- along the kinds; a checksum that is recorded once more is the same one
  induction kinds generalizing signs with
  | nil => rfl
  | cons first kinds ih =>
    have hrest := ih (signs.set first (checksum first))
    rw [get_set] at hrest
    refine hrest.trans ?_
    by_cases hfirst : kind = first
    · simp [hfirst]
    · simp [hfirst]

/-- Signs are put together from their checksums, in whatever order these come. -/
theorem setAll_get (signs start : Signs) {kinds : List Kind} (h : ∀ kind, kind ∈ kinds) :
    setAll signs.get kinds start = signs := by
  apply ext_get
  intro kind
  rw [get_setAll, if_pos (h kind)]

/-! ## The text and its reading -/

/-- **The text of signs is read exactly.** It is read as signs just when it is four numerals between
blanks that tell these signs, and no other text is read. What is written for signs is read as these
signs. Recording their checksums for the four kinds, in any order and on top of anything, leads to
the same text. -/
theorem sign_text_exact :
    (∀ text signs, parse? text = some signs ↔ Tells text signs) ∧
    (∀ text, parse? text = none ↔ ∀ signs, ¬ Tells text signs) ∧
    (∀ signs, parse? signs.text = some signs) ∧
    ∀ (signs start : Signs) (kinds : List Kind), kinds.Perm Kind.all →
      (setAll signs.get kinds start).text = signs.text := by
  refine ⟨fun text signs => parse?_eq_some_iff, fun text => parse?_eq_none_iff, parse?_text, ?_⟩
  intro signs start kinds hkinds
  rw [setAll_get signs start fun kind => hkinds.mem_iff.2 (Kind.mem_all kind)]

/-- Numerals with signs, zeros and blanks of several sorts, one that is too large, and checksums
that are recorded from the last kind to the first. -/
theorem sign_text_exact_blanks :
    let signs : Signs := { inode := 1, dentry := 4294967295, multipart := 77 }
    Tells "\t+1  4294967295\r\n0 0077 " signs ∧
    (∀ signs, ¬ Tells "1 4294967296 0 77" signs) ∧
    [Kind.multipart, .extend, .dentry, .inode].Perm Kind.all ∧
    (setAll signs.get [.multipart, .extend, .dentry, .inode] {}).text = "1 4294967295 0 77" := by
  intro signs
  obtain ⟨hread, hnone, -, horder⟩ := sign_text_exact
  have hreverse : [Kind.multipart, .extend, .dentry, .inode].Perm Kind.all := by decide
  refine ⟨(hread _ _).1 ?_, (hnone _).1 ?_, hreverse, ?_⟩
  · decide +kernel
  · decide +kernel
  · rw [horder signs {} _ hreverse]
    decide +kernel

end Signs

end PartitionSnapshot
