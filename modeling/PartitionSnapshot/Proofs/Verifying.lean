import PartitionSnapshot.Proofs.Acceptance

/-!
# What verification vouches for

Verification reads the entity files of the current generation to their ends, decodes every record in
them, and compares the checksums that this comes to with the recorded ones. So it vouches for the
bytes that are read: those of the records, and of their count where there is one. Of the files of
inodes and dentries these are all bytes. In the files of extends and multiparts the count says where
reading ends, and bytes that follow the last record are not vouched for: with any others in their
place, or none, verification comes to the same.

## Main statements

* `Store.verify_eq_ok`: when verification goes through.
* `Store.verify_vouches`: which bytes have the recorded checksums then.
-/

namespace PartitionSnapshot

theorem Kind.name_inj {kind kind' : Kind} (h : kind.name = kind'.name) : kind = kind' := by
  revert h
  cases kind <;> cases kind' <;> decide

namespace Store

variable {store : Store} {tree after : FileTree} {context : Context} {directory : Path}
variable {kind : Kind} {signs : Signs}

/-! ## Files that are scanned -/

theorem checkContents_eq_ok {contents : Contents} {checksum : UInt32} :
    checkContents context kind contents = .ok checksum ↔
      (∀ record ∈ contents.records, kind.check record = .ok ()) ∧
        contents.ending = .ok checksum := by
  have hcheck (record : Bytes) :
      (kind.check record).mapError (fun fault => Error.corrupt context (.undecodable kind fault)) =
        .ok () ↔ kind.check record = .ok () := by
    cases kind.check record with
    | error fault => exact ⟨nofun, nofun⟩
    | ok done => exact ⟨fun _ => rfl, fun _ => rfl⟩
  rw [← forall₂_congr fun record _ => hcheck record, ← forM_eq_ok]
  unfold checkContents
  -- first all records, and then the end of the file
  cases contents.records.forM fun record =>
      (kind.check record).mapError fun fault => Error.corrupt context (.undecodable kind fault) with
  | error error => exact ⟨nofun, fun h => nomatch h.1⟩
  | ok done =>
    cases contents.ending with
    | error failure => exact ⟨nofun, fun h => nomatch h.2⟩
    | ok found => exact ⟨fun h => ⟨rfl, by cases h; rfl⟩, fun h => by cases h.2; rfl⟩

/-- A file is scanned just when it yields a checksum with records that all decode. -/
theorem scan_eq_ok {checksum : UInt32} :
    Task.eval tree (store.scan context directory kind) = (.ok checksum, after) ↔
      after = tree ∧ store.Yields kind (fun record => kind.check record = .ok ())
        (tree.read (Layout.entityFile directory kind)) checksum := by
  unfold scan
  rw [Task.eval_bind, contents?_eval]
  constructor
  · intro hscan
    rcases hfound : store.contentsOf context (Layout.entityFile directory kind) kind
      (tree.read (Layout.entityFile directory kind)) with error | found
    · rw [hfound] at hscan
      cases hscan
    · rw [hfound] at hscan
      cases found with
      | none =>
        cases hscan
        exact ⟨rfl, .absent (finds_of_contentsOf hfound)⟩
      | some contents =>
        obtain ⟨hcheck, rfl⟩ := Prod.ext_iff.1 hscan
        obtain ⟨hrecords, hending⟩ := checkContents_eq_ok.1 ((mapError_id _).symm.trans hcheck)
        obtain ⟨records, ending⟩ := contents
        cases hending
        exact ⟨rfl, .present (finds_of_contentsOf hfound) hrecords⟩
  · rintro ⟨rfl, hyields⟩
    cases hyields with
    | absent hfound =>
      rw [hfound]
      rfl
    | present hfound haccepts =>
      rw [hfound]
      refine Prod.ext ?_ rfl
      exact (mapError_id _).trans (checkContents_eq_ok.2 ⟨haccepts, rfl⟩)

/-! ## Verification -/

/-- **When verification goes through**: the current generation is a directory, the files yield the
given checksums with records that all decode, and these checksums are recorded. -/
theorem verify_eq_ok : (Task.eval tree store.verify).1 = .ok signs ↔
    tree.hasDirectory store.current = true ∧
    (∀ kind, store.Yields kind (fun record => kind.check record = .ok ())
      (tree.read (Layout.entityFile store.current kind)) (signs.get kind)) ∧
    Signs.Recorded (tree.read (store.current.join Layout.signs)) signs := by
  constructor
  · intro hverify
    rcases heval : Task.eval tree store.verify with ⟨result, after⟩
    rw [heval] at hverify
    cases hverify
    unfold verify at heval
    dsimp only at heval
    rw [Task.eval_bind_ok _ (Task.eval_lift tree _), Procedure.eval_hasDirectory] at heval
    cases hdirectory : tree.hasDirectory store.current with
    | false =>
      rw [hdirectory] at heval
      cases heval
    | true =>
      simp only [hdirectory, if_true] at heval
      -- the four files one after the other, each of which leaves the tree as it is
      obtain ⟨inode, tree₁, hinode, heval₁⟩ := Task.eval_bind_eq_ok heval
      obtain ⟨rfl, hinode⟩ := scan_eq_ok.1 hinode
      obtain ⟨dentry, tree₂, hdentry, heval₂⟩ := Task.eval_bind_eq_ok heval₁
      obtain ⟨rfl, hdentry⟩ := scan_eq_ok.1 hdentry
      obtain ⟨extend, tree₃, hextend, heval₃⟩ := Task.eval_bind_eq_ok heval₂
      obtain ⟨rfl, hextend⟩ := scan_eq_ok.1 hextend
      obtain ⟨multipart, tree₄, hmultipart, heval₄⟩ := Task.eval_bind_eq_ok heval₃
      obtain ⟨rfl, hmultipart⟩ := scan_eq_ok.1 hmultipart
      obtain ⟨recorded, tree₅, hsigns, heval₅⟩ := Task.eval_bind_eq_ok heval₄
      rw [checkSigns_eval, Prod.mk.injEq] at hsigns
      cases recorded with
      | false => cases heval₅
      | true =>
        cases heval₅
        refine ⟨rfl, fun kind => ?_, judgeSigns_eq_true.1 hsigns.1⟩
        cases kind with
        | inode => exact hinode
        | dentry => exact hdentry
        | extend => exact hextend
        | multipart => exact hmultipart
  · rintro ⟨hdirectory, hyields, hrecorded⟩
    have hscan (context : Context) (kind : Kind) :
        Task.eval tree (store.scan context store.current kind) = (.ok (signs.get kind), tree) :=
      scan_eq_ok.2 ⟨rfl, hyields kind⟩
    have hsigns : (⟨signs.get .inode, signs.get .dentry, signs.get .extend,
        signs.get .multipart⟩ : Signs) = signs := rfl
    unfold verify
    dsimp only
    rw [Task.eval_bind_ok _ (Task.eval_lift tree _), Procedure.eval_hasDirectory, hdirectory]
    simp only [if_true]
    rw [Task.eval_bind_ok _ (hscan _ .inode), Task.eval_bind_ok _ (hscan _ .dentry),
      Task.eval_bind_ok _ (hscan _ .extend), Task.eval_bind_ok _ (hscan _ .multipart),
      Task.eval_bind, checkSigns_eval, hsigns, judgeSigns_eq_true.2 hrecorded]
    rfl

/-- **What verification vouches for.** When it goes through, the signs it gives are the recorded
ones, and of every file that is there the sign is the checksum of the bytes that belong to its
records. In a file without a count these are all its bytes. In one with a count others may follow,
and verification does not see them: whatever stands in their place, it comes to the same. -/
theorem verify_vouches (store : Store) (hbuffer : 1 ≤ store.options.readBuffer) {tree : FileTree}
    {signs : Signs} (hverify : (Task.eval tree store.verify).1 = .ok signs) :
    Signs.Recorded (tree.read (store.current.join Layout.signs)) signs ∧
    ∀ kind content, tree.read (Layout.entityFile store.current kind) = .ok content →
      ∃ front behind records, content = front ++ behind ∧ kind.Covers front records ∧
        signs.get kind = crc32 front ∧
        (kind.framing = .fixed ∨ behind = [] → signs.get kind = crc32 content) ∧
        (kind.framing = .varint → ∀ (other : Bytes) (tree' : FileTree),
          tree'.hasDirectory store.current = true →
          (∀ file ∈ Layout.files, tree'.read (store.current.join file) =
            if file = kind.name then .ok (front ++ other)
            else tree.read (store.current.join file)) →
          (Task.eval tree' store.verify).1 = .ok signs) := by
  obtain ⟨hdirectory, hyields, hrecorded⟩ := verify_eq_ok.1 hverify
  refine ⟨hrecorded, fun kind content hcontent => ?_⟩
  have hkind := hyields kind
  rw [hcontent] at hkind
  obtain ⟨front, behind, records, hsplit, hcovers, hdecodes, hsign, hbehind⟩ :=
    (yields_iff_covers hbuffer).1 hkind
  refine ⟨front, behind, records, hsplit, hcovers, hsign, fun hwhole => ?_,
    fun hframing other tree' hdirectory' hreads => ?_⟩
  · rw [hsign, hsplit, hwhole.elim hbehind id, List.append_nil]
  · -- the same records are found in front, and in the other files nothing has changed
    refine verify_eq_ok.2 ⟨hdirectory', fun kind' => ?_, ?_⟩
    · have hread := hreads kind'.name (Layout.mem_files kind')
      rw [Layout.entityFile, hread]
      split
      · next hname =>
        cases Kind.name_inj hname
        exact (yields_iff_covers hbuffer).2 ⟨front, other, records, rfl, hcovers, hdecodes, hsign,
          fun hfixed => absurd (hframing.symm.trans hfixed) (by decide)⟩
      · exact hyields kind'
    · have hread := hreads Layout.signs (by decide)
      rw [if_neg (by cases kind <;> decide)] at hread
      rw [hread]
      exact hrecorded

/-- A byte behind the counted extended attributes passes, and the file does not have the recorded
checksum. -/
theorem verify_vouches_trailing :
    let store := sample "p"
    let file := Layout.entityFile store.current .extend
    let tree := ((Procedure.append file [0xff]).eval
      (identified [(Layout.current, recordless ⟨3, 5⟩)])).2
    ∃ signs, (Task.eval tree store.verify).1 = .ok signs ∧ tree.read file = .ok [0, 0xff] ∧
      (∃ front behind records, [0, 0xff] = front ++ behind ∧ Kind.extend.Covers front records ∧
        signs.get .extend = crc32 front) ∧
      signs.get .extend ≠ crc32 [0, 0xff] := by
  intro store file tree
  have hverify : (Task.eval tree store.verify).1 = .ok ⟨0, 0, 3523407757, 3523407757⟩ :=
    eq_ok_of_toOption (by decide +kernel)
  have hread : tree.read file = .ok [0, 0xff] := eq_ok_of_toOption (by decide +kernel)
  obtain ⟨-, hvouches⟩ := verify_vouches store (by decide) hverify
  obtain ⟨front, behind, records, hsplit, hcovers, hsign, -⟩ := hvouches .extend _ hread
  exact ⟨_, hverify, hread, ⟨front, behind, records, hsplit, hcovers, hsign⟩, by decide +kernel⟩

end Store

end PartitionSnapshot
