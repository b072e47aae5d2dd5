import PartitionSnapshot.Proofs.Frames

/-!
# Canonical record forms

An inode, a directory entry and a multipart session have one record form each: a record decodes to
such an entity when it is its record form, and to nothing else otherwise. So writing a record that
was decoded first, as inodes are written, gives the record as it was.

Extended attributes may be listed in any order and with repeated keys. What they decode to is the map
of the last value under each key, whose record form is a normal form of all listings of it: keys
ascend in it, and no listing is shorter.

## Main statements

* `Entity.canonical`: records and entities of the other three kinds determine each other, and the
  inode records of a source are written unchanged.
* `Extend.normal_form`: what a listing of attributes decodes to, and how that is written.
-/

namespace PartitionSnapshot

/-! ## Entities with one record form -/

namespace Store

/-- An inode record that decodes is written as it is. -/
theorem writeInode_of_ofRecord (context : Context) (writer : FrameWriter) {record : Bytes}
    {inode : Inode} (h : Entity.ofRecord Inode record = .ok inode) :
    writeInode context writer record =
      (writer.writeRecord record).mapError (context.writing (.writingInode inode.id)) := by
  simp only [writeInode, h, Inode.toRecord_of_ofRecord h]

end Store

namespace FrameWriter

open Store (writeInode writeAsIs)

/-- Inode records that decode are written as they are, one after the other. -/
theorem writeEach_writeInode (context : Context) (writer : FrameWriter) {records : List Bytes}
    (h : ∀ record ∈ records, ∃ inode, Entity.ofRecord Inode record = .ok inode) :
    (writer.writeEach (writeInode context) records).1 =
      (writer.writeEach (writeAsIs context .inode) records).1 := by
  -- along the records; both writers stop at a record whose length cannot be expressed
  induction records generalizing writer with
  | nil => rfl
  | cons record records ih =>
    obtain ⟨inode, hinode⟩ := h record List.mem_cons_self
    have hrest := fun writer => ih writer fun other hother => h other (List.mem_cons_of_mem _ hother)
    rw [writeEach, writeEach, Store.writeInode_of_ofRecord context writer hinode, writeAsIs]
    cases writer.writeRecord record with
    | error failure => rfl
    | ok writer => exact hrest writer

end FrameWriter

namespace Entity

/-- A record decodes to an entity just when that is addressable and the record is its record form. -/
def Canonical (ε : Type) [Entity ε] (addressable : ε → Prop) : Prop :=
  ∀ record entity, ofRecord ε record = .ok entity ↔
    addressable entity ∧ toRecord entity = record

/-- **Records and entities determine each other**, but for extended attributes: what decodes is the
record form of what it decodes to, and of no other entity. Inode records of a source that decode are
therefore written as they are, each of them and all in a row. -/
theorem canonical :
    Canonical Inode Inode.Addressable ∧ Canonical Dentry Dentry.Addressable ∧
    Canonical Multipart Multipart.Addressable ∧
    (∀ context writer record inode, ofRecord Inode record = .ok inode →
      Store.writeInode context writer record =
        (writer.writeRecord record).mapError (context.writing (.writingInode inode.id))) ∧
    ∀ (context : Context) (writer : FrameWriter) (records : List Bytes),
      (∀ record ∈ records, ∃ inode, ofRecord Inode record = .ok inode) →
      (writer.writeEach (Store.writeInode context) records).1 =
        (writer.writeEach (Store.writeAsIs context .inode) records).1 := by
  refine ⟨?_, ?_, ?_, ?_, ?_⟩
  · exact fun _ _ => Inode.decoder_inverts.run_eq_ok
  · exact fun _ _ => Dentry.decoder_inverts.run_eq_ok
  · exact fun _ _ => Multipart.decoder_inverts.run_eq_ok
  · exact fun context writer _ _ h => Store.writeInode_of_ofRecord context writer h
  · exact fun context writer _ h => writer.writeEach_writeInode context h

/-- The record of a symbolic link is read back, and written as the source hands it over. -/
theorem canonical_link :
    let link : Inode := { id := 7, mode := 0o120777, linkTarget := [47, 97] }
    let context : Context := ⟨"storeInode", 1⟩
    ofRecord Inode link.toRecord = .ok link ∧
      Store.writeInode context (.create .fixed) link.toRecord =
        ((FrameWriter.create .fixed).writeRecord link.toRecord).mapError
          (context.writing (.writingInode link.id)) := by
  intro link context
  have haddressable : link.Addressable := by
    unfold Inode.Addressable
    decide
  have hread : ofRecord Inode link.toRecord = .ok link :=
    (canonical.1 _ _).2 ⟨haddressable, rfl⟩
  exact ⟨hread, canonical.2.2.2.1 context (.create .fixed) link.toRecord link hread⟩

end Entity

/-! ## The normal form of extended attributes -/

/-- The order of bytes by which attributes are sorted is the lexicographic one. -/
theorem Bytes.compare_eq_lt {a b : Bytes} : compare a b = .lt ↔ a < b := by
  -- along both sequences; the first bytes in which they differ decide
  induction a generalizing b with
  | nil => cases b <;> simp
  | cons x a ih =>
    cases b with
    | nil => simp
    | cons y b =>
      rw [List.compare_cons_cons, List.cons_lt_cons_iff, ← Std.compare_eq_lt,
        Ordering.then_eq_lt, Std.LawfulEqCmp.compare_eq_iff_eq, ih]

namespace Extend

variable {extend : Extend} {entries : List (Bytes × Bytes)}

/-- Each key is above those before it. -/
def Ascending (entries : List (Bytes × Bytes)) : Prop := entries.Pairwise fun a b => a.1 < b.1

theorem ascending_iff : Ascending entries ↔
    entries.Pairwise fun a b => compare a.1 b.1 = .lt := by
  simp only [Ascending, Bytes.compare_eq_lt]

theorem length_listing (inode : InodeId) (entries : List (Bytes × Bytes)) :
    (listing inode entries).length =
      16 + (entries.map fun entry => (attributeToRecord entry).length).sum := by
  simp only [listing, Record.list, Record.uint64, Record.length, List.length_append,
    List.length_flatMap, Bytes.length_ofNatLE]
  omega

/-- The last values of addressable entries are addressable. -/
theorem AddressableEntries.ofList (h : AddressableEntries entries) :
    AddressableEntries (OrderedMap.ofList entries).toList := by
  have hcount := OrderedMap.sum_ofList_le (fun _ => 1) entries
  simp only [List.map_const', List.sum_replicate_nat, Nat.mul_one] at hcount
  exact ⟨Nat.lt_of_le_of_lt hcount h.1, OrderedMap.forall_mem_ofList h.2⟩

/-- A listing determines what it lists. -/
theorem listing_inj {inode inode' : InodeId} {entries entries' : List (Bytes × Bytes)}
    (haddressable : AddressableEntries entries) (haddressable' : AddressableEntries entries')
    (h : listing inode entries = listing inode' entries') :
    inode = inode' ∧ entries = entries' := by
  have hlist : (Decoder.list attributeDecoder).Inverts AddressableEntries
      (Record.list attributeToRecord) := Decoder.list_inverts attributeDecoder_inverts
  -- the number is read back from the front of the listing, and then the entries
  have hinode := Decoder.uint64_reads inode (Record.list attributeToRecord entries)
  have hinode' := Decoder.uint64_reads inode' (Record.list attributeToRecord entries')
  rw [← listing, h, listing, hinode'] at hinode
  obtain ⟨rfl, htails⟩ := Prod.mk.inj (Except.ok.inj hinode)
  exact ⟨rfl, (hlist.unique haddressable haddressable'
    (congrArg (· ++ []) htails.symm)).1⟩

/-- **Attributes are written in a normal form.** Extended attributes are read back from their record
form; and what decodes is a listing of entries, unique to it, which decodes to the last value of each
key. Written again, keys ascend, nothing gets longer, and only ascending listings stay as they
are. -/
theorem normal_form :
    (∀ extend : Extend, extend.Addressable →
      Entity.ofRecord Extend extend.toRecord = .ok extend) ∧
    ∀ (record : Bytes) (extend : Extend), Entity.ofRecord Extend record = .ok extend →
      ∃ entries,
        (AddressableEntries entries ∧ record = listing extend.inode entries ∧
          ∀ inode entries', AddressableEntries entries' → record = listing inode entries' →
            inode = extend.inode ∧ entries' = entries) ∧
        (∀ key, extend.attributes.get? key =
          (OrderedMap.last? Prod.fst entries key).map Prod.snd) ∧
        (extend.toRecord = listing extend.inode extend.attributes.toList ∧
          Ascending extend.attributes.toList) ∧
        extend.toRecord.length ≤ record.length ∧
        (extend.toRecord = record ↔ Ascending entries) := by
  refine ⟨fun extend => ofRecord_toRecord_of_addressable, fun record extend h => ?_⟩
  obtain ⟨entries, haddressable, hattributes, rfl⟩ := ofRecord_eq_ok.1 h
  have hlength : extend.toRecord.length ≤ (listing extend.inode entries).length := by
    rw [toRecord_eq, hattributes, length_listing, length_listing]
    exact Nat.add_le_add_left (OrderedMap.sum_ofList_le _ entries) 16
  refine ⟨entries, ⟨haddressable, rfl, ?_⟩, ?_, ⟨toRecord_eq extend, ?_⟩, hlength, ?_⟩
  · exact fun inode entries' haddressable' hlisting =>
      listing_inj haddressable' haddressable hlisting.symm
  · intro key
    rw [hattributes, OrderedMap.get?_ofList]
  · exact ascending_iff.2 extend.attributes.ascending
  · rw [ascending_iff, ← OrderedMap.toList_ofList_iff, ← hattributes]
    constructor
    · intro hsame
      exact (listing_inj (hattributes ▸ haddressable.ofList) haddressable hsame).2
    · intro hsame
      rw [toRecord_eq, hsame]

/-- A listing with a repeated key decodes, and is shorter when it is written again. -/
theorem normal_form_repeated :
    let entries : List (Bytes × Bytes) := [([98], [1]), ([97], [2]), ([98], [3])]
    let extend : Extend := ⟨7, .ofList entries⟩
    Entity.ofRecord Extend (listing 7 entries) = .ok extend ∧
      Entity.ofRecord Extend extend.toRecord = .ok extend ∧
      extend.attributes.get? [98] = some [3] ∧
      extend.toRecord.length < (listing 7 entries).length ∧ ¬ Ascending entries := by
  intro entries extend
  have hentries : AddressableEntries entries := by
    unfold AddressableEntries AddressableEntry
    decide
  have hread : Entity.ofRecord Extend (listing 7 entries) = .ok extend :=
    ofRecord_eq_ok.2 ⟨entries, hentries, rfl, rfl⟩
  obtain ⟨_, ⟨-, -, hunique⟩, hget, -, hlength, hsame⟩ := normal_form.2 _ _ hread
  obtain ⟨-, rfl⟩ := hunique 7 entries hentries rfl
  refine ⟨hread, normal_form.1 extend hentries.ofList, ?_, ?_, ?_⟩
  · exact (hget [98]).trans (by decide)
  · exact Nat.lt_of_le_of_ne hlength (by decide)
  · exact fun hascending => absurd (hsame.2 hascending) (by decide)

end Extend

end PartitionSnapshot
