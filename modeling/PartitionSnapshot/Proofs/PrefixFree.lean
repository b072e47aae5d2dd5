import PartitionSnapshot.Error
import PartitionSnapshot.Proofs.Codec

/-!
# Records that end too early or too late

A record form says where it ends: every length and every count in it stands in front of what it
measures. Of a record that decodes, every byte is needed. Cut anywhere, inside a number, a length, a
text or an attribute or between two of them, it is found to end too early; and with anything behind
its last field it is found to go on too long. So no record form is the front of another one of the
same type.

That the bytes are needed is carried from decoder to decoder: a sequence of two needs what the first
takes and what the second takes of the rest, and a cut falls into one of these.

## Main statements

* `Decoder.Exact.bind`: decoders one after the other.
* `Entity.ofRecord_of_cut`, `Entity.ofRecord_append`: records that are cut or continued.
* `Entity.prefix_free`: the record forms of the four types.
-/

namespace PartitionSnapshot

/-- The record ends before a number, a length, a text or a sequence in it is complete. -/
def DecodeFault.EndsEarly (fault : DecodeFault) : Prop :=
  fault = .endOfRecord ∨ fault = .textPastEnd

/-! ## Decoders that need all they take -/

namespace Decoder

variable {α β : Type}

/-- With only some of the bytes in front of it, the decoder finds that the record ends too early. -/
def Needs (decoder : Decoder α) (bytes : Bytes) : Prop :=
  ∀ front, front <+: bytes → front ≠ bytes →
    ∃ fault, decoder front = .error fault ∧ fault.EndsEarly

/-- Whatever the decoder takes, it takes for the same value whatever follows, and needs all of. -/
def Exact (decoder : Decoder α) : Prop :=
  ∀ input value rest, decoder input = .ok (value, rest) →
    ∃ used, input = used ++ rest ∧ decoder.Reads used value ∧ decoder.Needs used

theorem needs_nil (decoder : Decoder α) : decoder.Needs [] :=
  fun _ hfront hne => absurd (List.prefix_nil.1 hfront) hne

theorem Exact.pure (value : α) : (Pure.pure value : Decoder α).Exact := by
  intro input value' rest h
  cases h
  exact ⟨[], rfl, Reads.pure value, needs_nil _⟩

theorem exact_throw (fault : DecodeFault) : (throw fault : Decoder α).Exact :=
  fun _ _ _ h => nomatch h

/-- A cut falls into what the first of two decoders takes or into what the second takes. -/
theorem Exact.bind {decoder : Decoder α} {next : α → Decoder β} (h : decoder.Exact)
    (hnext : ∀ value, (next value).Exact) : (decoder >>= next).Exact := by
  intro input value rest hread
  obtain ⟨first, middle, hfirst, hsecond⟩ := bind_eq_ok hread
  obtain ⟨used, rfl, hreads, hneeds⟩ := h _ _ _ hfirst
  obtain ⟨used', rfl, hreads', hneeds'⟩ := hnext first _ _ _ hsecond
  refine ⟨used ++ used', (List.append_assoc _ _ _).symm, hreads.bind hreads', ?_⟩
  intro front hfront hne
  by_cases hwhole : used <+: front
  · -- the first decoder has all it needs, and the second one has not
    obtain ⟨front', rfl⟩ := hwhole
    obtain ⟨fault, hfault, hearly⟩ := hneeds' front' ((List.prefix_append_right_inj used).1 hfront)
      (fun hsame => hne (congrArg (used ++ ·) hsame))
    refine ⟨fault, ?_, hearly⟩
    show (decoder (used ++ front') >>= fun result => next result.1 result.2) = _
    rw [hreads front']
    exact hfault
  · have hcut : front <+: used :=
      (List.prefix_or_prefix_of_prefix hfront (List.prefix_append used used')).resolve_right hwhole
    obtain ⟨fault, hfault, hearly⟩ := hneeds front hcut
      (fun hsame => hwhole (hsame ▸ List.prefix_rfl))
    refine ⟨fault, ?_, hearly⟩
    show (decoder front >>= fun result => next result.1 result.2) = _
    rw [hfault]
    rfl

/-- A decoder whose value is only changed. -/
theorem Exact.last {decoder : Decoder α} (change : α → β) (h : decoder.Exact) :
    (decoder >>= fun value => Pure.pure (change value)).Exact :=
  h.bind fun value => .pure (change value)

theorem take_exact (n : Nat) {fault : DecodeFault} (h : fault.EndsEarly) :
    (take n fault).Exact := by
  intro input bytes rest hread
  obtain ⟨rfl, rfl⟩ := take_eq_ok hread
  refine ⟨bytes, rfl, take_reads bytes fault, fun front hfront hne => ⟨fault, ?_, h⟩⟩
  have hshort : front.length < bytes.length :=
    Nat.lt_of_le_of_ne hfront.length_le fun hlength => hne (hfront.eq_of_length hlength)
  rw [take, Bytes.split?_eq_none.2 hshort]

theorem number_exact (width : Nat) : (number width).Exact := (take_exact width (.inl rfl)).last _

theorem uint16_exact : uint16.Exact := (number_exact 2).last _

theorem uint32_exact : uint32.Exact := (number_exact 4).last _

theorem uint64_exact : uint64.Exact := (number_exact 8).last _

theorem int64_exact : int64.Exact := uint64_exact.last _

theorem length_exact : length.Exact := number_exact 8

theorem bytes_exact : Decoder.bytes.Exact :=
  length_exact.bind fun n => take_exact n (.inl rfl)

theorem text_exact : Decoder.text.Exact := by
  refine length_exact.bind fun n => (take_exact n (.inr rfl)).bind fun bytes => ?_
  -- all bytes of the text are there; they are text, or the decoder fails
  cases Utf8.decode bytes with
  | ok text => exact .pure text
  | error fault => exact exact_throw _

theorem times_exact {element : Decoder α} (h : element.Exact) (count : Nat) :
    (times element count).Exact := by
  -- along the count, one element in front of the others
  induction count with
  | zero => exact .pure []
  | succ count ih => exact h.bind fun value => ih.last (value :: ·)

theorem list_exact {element : Decoder α} (h : element.Exact) : (list element).Exact :=
  length_exact.bind (times_exact h)

end Decoder

/-! ## The decoders of the four types -/

theorem Inode.decoder_exact : Inode.decoder.Exact := by
  unfold decoder
  refine Decoder.uint64_exact.bind fun id => ?_
  refine Decoder.uint32_exact.bind fun mode => ?_
  refine Decoder.uint32_exact.bind fun uid => ?_
  refine Decoder.uint32_exact.bind fun gid => ?_
  refine Decoder.uint64_exact.bind fun size => ?_
  refine Decoder.uint64_exact.bind fun generation => ?_
  refine Decoder.int64_exact.bind fun createTime => ?_
  refine Decoder.int64_exact.bind fun accessTime => ?_
  refine Decoder.int64_exact.bind fun modifyTime => ?_
  refine Decoder.bytes_exact.bind fun linkTarget => ?_
  refine Decoder.uint32_exact.bind fun nlink => ?_
  exact Decoder.uint32_exact.last _

theorem Dentry.decoder_exact : Dentry.decoder.Exact := by
  unfold decoder
  refine Decoder.uint64_exact.bind fun parent => ?_
  refine Decoder.text_exact.bind fun name => ?_
  refine Decoder.uint64_exact.bind fun inode => ?_
  exact Decoder.uint32_exact.last _

theorem Extend.decoder_exact : Extend.decoder.Exact := by
  have hattribute : attributeDecoder.Exact :=
    Decoder.bytes_exact.bind fun key => Decoder.bytes_exact.last (key, ·)
  exact Decoder.uint64_exact.bind fun inode => (Decoder.list_exact hattribute).last _

theorem Part.decoder_exact : Part.decoder.Exact := by
  unfold decoder
  refine Decoder.uint16_exact.bind fun id => ?_
  refine Decoder.int64_exact.bind fun uploadTime => ?_
  refine Decoder.text_exact.bind fun md5 => ?_
  refine Decoder.uint64_exact.bind fun size => ?_
  exact Decoder.uint64_exact.last _

theorem Multipart.decoder_exact : Multipart.decoder.Exact := by
  unfold decoder
  refine Decoder.text_exact.bind fun id => ?_
  refine Decoder.text_exact.bind fun key => ?_
  refine Decoder.int64_exact.bind fun initTime => ?_
  exact (Decoder.list_exact Part.decoder_exact).last _

/-! ## Records that are cut or continued -/

namespace Entity

section

variable {ε : Type} [Entity ε] (hexact : (decoder : Decoder ε).Exact)
variable {record : Bytes} {entity : ε} (h : ofRecord ε record = .ok entity)
include hexact h

/-- A record that decodes ends too early wherever it is cut. -/
theorem ofRecord_of_cut {front : Bytes} (hfront : front <+: record) (hne : front ≠ record) :
    ∃ fault, ofRecord ε front = .error fault ∧ fault.EndsEarly := by
  obtain ⟨used, hused, -, hneeds⟩ := hexact _ _ _ (Decoder.run_eq_ok.1 h)
  rw [List.append_nil] at hused
  subst hused
  obtain ⟨fault, hfault, hearly⟩ := hneeds front hfront hne
  refine ⟨fault, ?_, hearly⟩
  simp only [ofRecord, Decoder.run, StateT.run, hfault]

/-- A record that decodes may not be followed by anything. -/
theorem ofRecord_append {extra : Bytes} (hextra : extra ≠ []) :
    ofRecord ε (record ++ extra) = .error .trailing := by
  obtain ⟨used, hused, hreads, -⟩ := hexact _ _ _ (Decoder.run_eq_ok.1 h)
  rw [List.append_nil] at hused
  subst hused
  -- the decoder stops where the record ends, in front of at least a byte
  obtain ⟨byte, others, rfl⟩ := List.exists_cons_of_ne_nil hextra
  simp only [ofRecord, Decoder.run, StateT.run, hreads (byte :: others)]

end

/-- The error of decoding a record as one of a type. -/
def undecodable (ε : Type) [Entity ε] (fault : DecodeFault) : Error :=
  .decoding (.record (kind ε) fault)

/-- An addressable entity is decoded from its record form. It is not decoded from less of it, which
ends too early, and not from more of it, which goes on too long; both are corrupt. -/
def PrefixFree (ε : Type) [Entity ε] (addressable : ε → Prop) : Prop :=
  ∀ entity, addressable entity →
    ofRecord ε (toRecord entity) = .ok entity ∧
    (∀ front, front <+: toRecord entity → front ≠ toRecord entity →
      ∃ fault, ofRecord ε front = .error fault ∧ fault.EndsEarly ∧
        (undecodable ε fault).classify = .corrupt) ∧
    ∀ extra, extra ≠ [] →
      ofRecord ε (toRecord entity ++ extra) = .error .trailing ∧
        (undecodable ε .trailing).classify = .corrupt

theorem prefixFree_of_exact {ε : Type} [Entity ε] {addressable : ε → Prop}
    (hexact : (decoder : Decoder ε).Exact)
    (hdecodes : ∀ entity, addressable entity → ofRecord ε (toRecord entity) = .ok entity) :
    PrefixFree ε addressable := by
  intro entity haddressable
  have hrecord := hdecodes entity haddressable
  refine ⟨hrecord, fun front hfront hne => ?_, fun extra hextra => ?_⟩
  · obtain ⟨fault, hfault, hearly⟩ := ofRecord_of_cut hexact hrecord hfront hne
    exact ⟨fault, hfault, hearly, rfl⟩
  · exact ⟨ofRecord_append hexact hrecord hextra, rfl⟩

/-- **No record form is the front of another one.** The record form of an inode, a directory entry,
extended attributes or a multipart session does not decode when it is cut, wherever that is, and not
when anything at all follows it. -/
theorem prefix_free :
    PrefixFree Inode Inode.Addressable ∧ PrefixFree Dentry Dentry.Addressable ∧
    PrefixFree Extend Extend.Addressable ∧ PrefixFree Multipart Multipart.Addressable := by
  refine ⟨prefixFree_of_exact Inode.decoder_exact fun inode h => ?_,
    prefixFree_of_exact Dentry.decoder_exact fun dentry h => ?_,
    prefixFree_of_exact Extend.decoder_exact fun extend h => ?_,
    prefixFree_of_exact Multipart.decoder_exact fun multipart h => ?_⟩
  · exact (Inode.decoder_reads h).run
  · exact (Dentry.decoder_reads h).run
  · exact Extend.ofRecord_toRecord_of_addressable h
  · exact (Multipart.decoder_reads h).run

/-- A multipart session that is cut inside the digest of its part, and one that a zero follows. -/
theorem prefix_free_multipart :
    let session : Multipart := ⟨"u", "k", 0, [⟨1, 0, "d41d", 5, 300⟩]⟩
    session.Addressable ∧
    session.toRecord.take 54 <+: session.toRecord ∧
    session.toRecord.take 54 ≠ session.toRecord ∧
    (∃ fault, ofRecord Multipart (session.toRecord.take 54) = .error fault ∧ fault.EndsEarly) ∧
    ofRecord Multipart (session.toRecord ++ [0]) = .error .trailing := by
  intro session
  have haddressable : session.Addressable :=
    Multipart.addressable_of_length (by decide +kernel)
  obtain ⟨-, hcut, hmore⟩ := prefix_free.2.2.2 session haddressable
  have hfront : session.toRecord.take 54 <+: session.toRecord := List.take_prefix _ _
  have hne : session.toRecord.take 54 ≠ session.toRecord := by decide +kernel
  obtain ⟨fault, hfault, hearly, -⟩ := hcut _ hfront hne
  exact ⟨haddressable, hfront, hne, ⟨fault, hfault, hearly⟩, (hmore [0] (by decide)).1⟩

end Entity

end PartitionSnapshot
