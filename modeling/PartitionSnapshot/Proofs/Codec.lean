import PartitionSnapshot.Entity.Record
import PartitionSnapshot.Proofs.OrderedMap

/-!
# Record forms are read back

Every decoder takes from the front of a record just what the writing of a value put there, and
leaves what follows; and it takes nothing else. So decoding and writing are inverse to each other,
but for extended attributes: these are decoded from any listing of them, and written in one.

Lengths have 64 bits in a record. Values with longer sequences have no record form that could be
read back; all others are *addressable*, and no other values are ever read.

## Main statements

* `Inode.decoder_inverts`, `Dentry.decoder_inverts`, `Multipart.decoder_inverts`: the decoder takes
  the record forms of addressable entities and nothing else.
* `Extend.decoder_eq_ok`: the decoder takes listings of addressable attributes and nothing else.
* `Inode.ofRecord_toRecord`, `Dentry.ofRecord_toRecord`, `Extend.ofRecord_toRecord`,
  `Multipart.ofRecord_toRecord`: decoding undoes writing.
-/

namespace PartitionSnapshot

/-! ## Text -/

namespace Bytes

theorem toString?_ofString (text : String) : toString? (ofString text) = some text := by
  have h : (⟨(ofString text).toArray⟩ : ByteArray) = text.toByteArray := rfl
  unfold toString?
  rw [h, String.fromUTF8?, dif_pos text.isValidUTF8]
  rfl

theorem ofString_of_toString? {bytes : Bytes} {text : String} (h : toString? bytes = some text) :
    ofString text = bytes := by
  unfold toString? String.fromUTF8? at h
  split at h
  · cases h
    rfl
  · cases h

theorem ofString_append (front back : String) :
    ofString (front ++ back) = ofString front ++ ofString back := by
  unfold ofString
  rw [String.toByteArray_append, ByteArray.data_append, Array.toList_append]

/-- A text is encoded character by character. -/
theorem ofString_ofList (cs : List Char) :
    ofString (String.ofList cs) = cs.flatMap String.utf8EncodeChar := by
  unfold ofString
  rw [String.toByteArray_ofList, List.utf8Encode, List.toList_data_toByteArray]

end Bytes

theorem Utf8.decode_ofString (text : String) : Utf8.decode (Bytes.ofString text) = .ok text := by
  rw [decode, Bytes.toString?_ofString]

theorem Utf8.ofString_of_decode {bytes : Bytes} {text : String} (h : decode bytes = .ok text) :
    Bytes.ofString text = bytes := by
  unfold decode at h
  split at h
  · next htext =>
    cases h
    exact Bytes.ofString_of_toString? htext
  · cases h

theorem eq_ok_of_toOption {ε α : Type} {result : Except ε α} {value : α}
    (h : result.toOption = some value) : result = .ok value := by
  cases result with
  | error error => cases h
  | ok found => exact congrArg Except.ok (Option.some.inj h)

/-! ## Decoders that read what was written -/

namespace Decoder

variable {α β : Type}

/-- The decoder takes `bytes` for `value`, whatever follows them. -/
def Reads (decoder : Decoder α) (bytes : Bytes) (value : α) : Prop :=
  ∀ rest, decoder (bytes ++ rest) = .ok (value, rest)

theorem Reads.bind {decoder : Decoder α} {next : α → Decoder β} {bytes bytes' : Bytes} {value : α}
    {value' : β} (h : decoder.Reads bytes value) (hnext : (next value).Reads bytes' value') :
    (decoder >>= next).Reads (bytes ++ bytes') value' := by
  intro rest
  have hfirst : decoder (bytes ++ (bytes' ++ rest)) = .ok (value, bytes' ++ rest) := h _
  -- the second decoder starts where the first one stops
  rw [List.append_assoc]
  show (decoder (bytes ++ (bytes' ++ rest)) >>= fun result => next result.1 result.2) = _
  rw [hfirst]
  exact hnext rest

theorem Reads.pure (value : α) : (pure value : Decoder α).Reads [] value := fun _ => rfl

/-- The last of several decoders. -/
theorem Reads.last {decoder : Decoder α} {bytes : Bytes} {value : α} (change : α → β)
    (h : decoder.Reads bytes value) :
    (decoder >>= fun value => Pure.pure (change value)).Reads bytes (change value) := by
  -- nothing is read any more
  have hpure : (Pure.pure (change value) : Decoder β).Reads [] (change value) := fun _ => rfl
  have hbind : (decoder >>= fun value => Pure.pure (change value)).Reads (bytes ++ [])
      (change value) := h.bind hpure
  rwa [List.append_nil] at hbind

theorem Reads.run {decoder : Decoder α} {bytes : Bytes} {value : α}
    (h : decoder.Reads bytes value) : decoder.run bytes = .ok value := by
  have hall := h []
  rw [List.append_nil] at hall
  simp only [Decoder.run, StateT.run, hall]

theorem take_reads (bytes : Bytes) (fault : DecodeFault) :
    (take bytes.length fault).Reads bytes bytes := by
  intro rest
  simp only [take, Bytes.split?_append]

theorem number_reads (width : Nat) {n : Nat} (h : n < Nat.pow 256 width) :
    (number width).Reads (Bytes.ofNatLE width n) n := by
  have htake := take_reads (Bytes.ofNatLE width n) .endOfRecord
  rw [Bytes.length_ofNatLE] at htake
  -- the number fits into its bytes, so writing loses nothing
  have hvalue : Bytes.toNatLE (Bytes.ofNatLE width n) = n := by
    rw [Bytes.toNatLE_ofNatLE, Nat.mod_eq_of_lt h]
  have hlast := htake.last Bytes.toNatLE
  rwa [hvalue] at hlast

theorem uint16_reads (n : UInt16) : uint16.Reads (Record.uint16 n) n := by
  have h := (number_reads 2 n.toNat_lt).last UInt16.ofNat
  rwa [UInt16.ofNat_toNat] at h

theorem uint32_reads (n : UInt32) : uint32.Reads (Record.uint32 n) n := by
  have h := (number_reads 4 n.toNat_lt).last UInt32.ofNat
  rwa [UInt32.ofNat_toNat] at h

theorem uint64_reads (n : UInt64) : uint64.Reads (Record.uint64 n) n := by
  have h := (number_reads 8 n.toNat_lt).last UInt64.ofNat
  rwa [UInt64.ofNat_toNat] at h

theorem int64_reads (n : Int64) : int64.Reads (Record.int64 n) n := by
  have h := (uint64_reads n.toUInt64).last UInt64.toInt64
  rwa [Int64.toInt64_toUInt64] at h

theorem length_reads {n : Nat} (h : n < UInt64.size) : length.Reads (Record.length n) n :=
  number_reads 8 h

theorem bytes_reads {bytes : Bytes} (h : bytes.length < UInt64.size) :
    Decoder.bytes.Reads (Record.bytes bytes) bytes :=
  (length_reads h).bind (take_reads bytes .endOfRecord)

theorem text_reads {text : String} (h : (Bytes.ofString text).length < UInt64.size) :
    Decoder.text.Reads (Record.text text) text := by
  refine (length_reads h).bind ?_
  have htake := take_reads (Bytes.ofString text) .textPastEnd
  intro rest
  -- the bytes were written from text, so they are text
  show (take _ _ (Bytes.ofString text ++ rest) >>= _) = _
  rw [htake rest]
  simp only [bind, Except.bind, Utf8.decode_ofString]
  rfl

theorem times_reads {element : Decoder α} {encode : α → Bytes} {values : List α}
    (h : ∀ value ∈ values, element.Reads (encode value) value) :
    (times element values.length).Reads (values.flatMap encode) values := by
  -- one value is read, and those behind it by the hypothesis of the induction
  induction values with
  | nil => exact Reads.pure []
  | cons value values ih =>
    rw [List.flatMap_cons]
    have hvalues := ih fun other hother => h other (List.mem_cons_of_mem _ hother)
    exact (h value List.mem_cons_self).bind (hvalues.last (value :: ·))

theorem list_reads {element : Decoder α} {encode : α → Bytes} {values : List α}
    (hlength : values.length < UInt64.size)
    (h : ∀ value ∈ values, element.Reads (encode value) value) :
    (list element).Reads (Record.list encode values) values :=
  (length_reads hlength).bind (times_reads h)

end Decoder

/-! ## Lengths of record forms -/

namespace Record

theorem length_bytes (bytes : Bytes) : (Record.bytes bytes).length = 8 + bytes.length := by
  simp [Record.bytes, Record.length]

theorem length_text (text : String) :
    (Record.text text).length = 8 + (Bytes.ofString text).length :=
  length_bytes _

theorem length_list_le {α : Type} {encode : α → Bytes} {values : List α}
    (h : ∀ value ∈ values, 1 ≤ (encode value).length) :
    values.length ≤ (Record.list encode values).length := by
  -- every element takes at least one byte
  have hflat : values.length ≤ (values.flatMap encode).length := by
    induction values with
    | nil => simp
    | cons value values ih =>
      have hvalue := h value List.mem_cons_self
      have hvalues := ih fun other hother => h other (List.mem_cons_of_mem _ hother)
      simp only [List.flatMap_cons, List.length_append, List.length_cons]
      omega
  simp only [Record.list, Record.length, List.length_append]
  omega

/-- No element of a sequence is longer than the sequence. -/
theorem length_element_le {α : Type} (encode : α → Bytes) {values : List α} {value : α}
    (h : value ∈ values) : (encode value).length ≤ (Record.list encode values).length := by
  -- the element is part of the bytes of all elements
  have hflat : (encode value).length ≤ (values.flatMap encode).length := by
    induction values with
    | nil => cases h
    | cons head values ih =>
      simp only [List.flatMap_cons, List.length_append]
      rcases List.mem_cons.1 h with rfl | h
      · omega
      · have := ih h
        omega
  simp only [Record.list, Record.length, List.length_append]
  omega

end Record

/-! ## Decoders that take only what was written -/

namespace Decoder

variable {α β : Type}

/-- What the decoder takes for a value is the writing of that value. -/
def Takes (decoder : Decoder α) (encode : α → Bytes) : Prop :=
  ∀ {input value rest}, decoder input = .ok (value, rest) → input = encode value ++ rest

theorem bind_eq_ok {decoder : Decoder α} {next : α → Decoder β} {input rest : Bytes} {value : β}
    (h : (decoder >>= next) input = .ok (value, rest)) :
    ∃ first middle, decoder input = .ok (first, middle) ∧
      next first middle = .ok (value, rest) := by
  have h : (decoder input >>= fun result => next result.1 result.2) = .ok (value, rest) := h
  -- a fault of the first decoder would be one of both
  cases hfirst : decoder input with
  | error fault =>
    rw [hfirst] at h
    cases h
  | ok result =>
    rw [hfirst] at h
    exact ⟨result.1, result.2, rfl, h⟩

theorem take_eq_ok {n : Nat} {fault : DecodeFault} {input front rest : Bytes}
    (h : take n fault input = .ok (front, rest)) : front.length = n ∧ input = front ++ rest := by
  unfold take at h
  split at h
  · next hsplit =>
    cases h
    exact Bytes.split?_eq_some.1 hsplit
  · cases h

theorem number_takes (width : Nat) : (number width).Takes (Bytes.ofNatLE width) := by
  intro input value rest h
  obtain ⟨front, middle, htake, hpure⟩ := bind_eq_ok h
  cases hpure
  obtain ⟨hlength, rfl⟩ := take_eq_ok htake
  -- as many bytes were taken as the number has
  rw [← hlength, Bytes.ofNatLE_toNatLE]

theorem number_lt {width : Nat} {input rest : Bytes} {value : Nat}
    (h : number width input = .ok (value, rest)) : value < Nat.pow 256 width := by
  obtain ⟨front, middle, htake, hpure⟩ := bind_eq_ok h
  cases hpure
  have hlt := Bytes.toNatLE_lt front
  rwa [(take_eq_ok htake).1] at hlt

theorem uint16_takes : uint16.Takes Record.uint16 := by
  intro input value rest h
  obtain ⟨n, middle, hnumber, hpure⟩ := bind_eq_ok h
  cases hpure
  rw [Record.uint16, UInt16.toNat_ofNat_of_lt' (number_lt hnumber)]
  exact number_takes 2 hnumber

theorem uint32_takes : uint32.Takes Record.uint32 := by
  intro input value rest h
  obtain ⟨n, middle, hnumber, hpure⟩ := bind_eq_ok h
  cases hpure
  rw [Record.uint32, UInt32.toNat_ofNat_of_lt' (number_lt hnumber)]
  exact number_takes 4 hnumber

theorem uint64_takes : uint64.Takes Record.uint64 := by
  intro input value rest h
  obtain ⟨n, middle, hnumber, hpure⟩ := bind_eq_ok h
  cases hpure
  rw [Record.uint64, UInt64.toNat_ofNat_of_lt' (number_lt hnumber)]
  exact number_takes 8 hnumber

theorem int64_takes : int64.Takes Record.int64 := by
  intro input value rest h
  obtain ⟨n, middle, hnumber, hpure⟩ := bind_eq_ok h
  cases hpure
  rw [Record.int64, UInt64.toUInt64_toInt64]
  exact uint64_takes hnumber

/-- A whole record decodes when nothing is left behind the last field. -/
theorem run_eq_ok {decoder : Decoder α} {record : Bytes} {value : α} :
    decoder.run record = .ok value ↔ decoder record = .ok (value, []) := by
  simp only [run, StateT.run]
  constructor
  · intro h
    split at h
    · next hdecode =>
      cases h
      exact hdecode
    · cases h
    · cases h
  · intro h
    rw [h]

/-! ## Decoders that invert a writing -/

/-- The decoder takes the writing of a value that is addressable for that value, whatever follows,
and takes nothing else. -/
def Inverts (decoder : Decoder α) (addressable : α → Prop) (encode : α → Bytes) : Prop :=
  ∀ {input value rest}, decoder input = .ok (value, rest) ↔
    addressable value ∧ input = encode value ++ rest

namespace Inverts

variable {decoder : Decoder α} {addressable : α → Prop} {encode : α → Bytes}

theorem reads (h : decoder.Inverts addressable encode) {value : α} (hvalue : addressable value) :
    decoder.Reads (encode value) value :=
  fun _ => h.2 ⟨hvalue, rfl⟩

/-- The records that decode are the writings of addressable values. -/
theorem run_eq_ok (h : decoder.Inverts addressable encode) {record : Bytes} {value : α} :
    decoder.run record = .ok value ↔ addressable value ∧ encode value = record := by
  rw [Decoder.run_eq_ok, h, List.append_nil, eq_comm (a := record)]

/-- In front of some bytes stands the writing of one value at most. -/
theorem unique (h : decoder.Inverts addressable encode) {value value' : α} {rest rest' : Bytes}
    (hvalue : addressable value) (hvalue' : addressable value')
    (hsame : encode value ++ rest = encode value' ++ rest') : value = value' ∧ rest = rest' := by
  have hread := h.reads hvalue rest
  rw [hsame, h.reads hvalue' rest'] at hread
  cases hread
  exact ⟨rfl, rfl⟩

end Inverts

theorem bytes_inverts :
    Decoder.bytes.Inverts (fun bytes => bytes.length < UInt64.size) Record.bytes := by
  intro input value rest
  constructor
  · intro h
    obtain ⟨n, middle, hlength, htake⟩ := bind_eq_ok h
    obtain ⟨rfl, rfl⟩ := take_eq_ok htake
    exact ⟨number_lt hlength, by rw [number_takes 8 hlength, Record.bytes, Record.length,
      List.append_assoc]⟩
  · rintro ⟨hvalue, rfl⟩
    exact bytes_reads hvalue rest

theorem text_inverts :
    Decoder.text.Inverts (fun text => (Bytes.ofString text).length < UInt64.size) Record.text := by
  intro input value rest
  constructor
  · intro h
    obtain ⟨n, middle, hlength, h⟩ := bind_eq_ok h
    obtain ⟨front, last, htake, hdecode⟩ := bind_eq_ok h
    obtain ⟨rfl, rfl⟩ := take_eq_ok htake
    -- the bytes are those of the text that they decode to
    cases htext : Utf8.decode front with
    | error fault =>
      rw [htext] at hdecode
      cases hdecode
    | ok text =>
      rw [htext] at hdecode
      cases hdecode
      obtain rfl := Utf8.ofString_of_decode htext
      refine ⟨number_lt hlength, ?_⟩
      rw [number_takes 8 hlength, Record.text, Record.bytes, Record.length, List.append_assoc]
  · rintro ⟨hvalue, rfl⟩
    exact text_reads hvalue rest

theorem times_takes {element : Decoder α} {addressable : α → Prop} {encode : α → Bytes}
    (h : element.Inverts addressable encode) {count : Nat} {input rest : Bytes} {values : List α}
    (hread : times element count input = .ok (values, rest)) :
    values.length = count ∧ (∀ value ∈ values, addressable value) ∧
      input = values.flatMap encode ++ rest := by
  -- along the count, one element at a time
  induction count generalizing input values with
  | zero =>
    cases hread
    simp
  | succ count ih =>
    obtain ⟨value, middle, hvalue, hread⟩ := bind_eq_ok hread
    obtain ⟨others, last, hothers, hpure⟩ := bind_eq_ok hread
    cases hpure
    obtain ⟨haddressable, rfl⟩ := h.1 hvalue
    obtain ⟨rfl, hall, rfl⟩ := ih hothers
    refine ⟨List.length_cons, ?_, by simp⟩
    simpa using ⟨haddressable, hall⟩

theorem list_inverts {element : Decoder α} {addressable : α → Prop} {encode : α → Bytes}
    (h : element.Inverts addressable encode) :
    (list element).Inverts
      (fun values => values.length < UInt64.size ∧ ∀ value ∈ values, addressable value)
      (Record.list encode) := by
  intro input values rest
  constructor
  · intro hread
    obtain ⟨n, middle, hlength, htimes⟩ := bind_eq_ok hread
    obtain ⟨rfl, hall, rfl⟩ := times_takes h htimes
    refine ⟨⟨number_lt hlength, hall⟩, ?_⟩
    rw [number_takes 8 hlength, Record.list, Record.length, List.append_assoc]
  · rintro ⟨⟨hlength, hall⟩, rfl⟩
    exact list_reads hlength (fun value hvalue => h.reads (hall value hvalue)) rest

end Decoder

/-! ## Inodes -/

namespace Inode

/-- A record has room for the length of the link target. -/
def Addressable (inode : Inode) : Prop := inode.linkTarget.length < UInt64.size

variable {inode : Inode}

theorem addressable_of_length (h : inode.toRecord.length < UInt64.size) : inode.Addressable := by
  simp only [toRecord, List.length_append, Record.length_bytes] at h
  unfold Addressable
  omega

theorem decoder_reads (h : inode.Addressable) : decoder.Reads inode.toRecord inode := by
  -- the fields are read in the order in which they were written
  simp only [decoder, toRecord, List.append_assoc]
  refine (Decoder.uint64_reads inode.id).bind ?_
  refine (Decoder.uint32_reads inode.mode).bind ?_
  refine (Decoder.uint32_reads inode.uid).bind ?_
  refine (Decoder.uint32_reads inode.gid).bind ?_
  refine (Decoder.uint64_reads inode.size).bind ?_
  refine (Decoder.uint64_reads inode.generation).bind ?_
  refine (Decoder.int64_reads inode.createTime).bind ?_
  refine (Decoder.int64_reads inode.accessTime).bind ?_
  refine (Decoder.int64_reads inode.modifyTime).bind ?_
  refine (Decoder.bytes_reads h).bind ?_
  refine (Decoder.uint32_reads inode.nlink).bind ?_
  exact (Decoder.uint32_reads inode.flag).last _

theorem decoder_inverts : decoder.Inverts Addressable toRecord := by
  intro input inode rest
  constructor
  · intro h
    -- what each decoder took is the writing of what it gave
    obtain ⟨id, _, hid, h⟩ := Decoder.bind_eq_ok h
    obtain ⟨mode, _, hmode, h⟩ := Decoder.bind_eq_ok h
    obtain ⟨uid, _, huid, h⟩ := Decoder.bind_eq_ok h
    obtain ⟨gid, _, hgid, h⟩ := Decoder.bind_eq_ok h
    obtain ⟨size, _, hsize, h⟩ := Decoder.bind_eq_ok h
    obtain ⟨generation, _, hgeneration, h⟩ := Decoder.bind_eq_ok h
    obtain ⟨createTime, _, hcreate, h⟩ := Decoder.bind_eq_ok h
    obtain ⟨accessTime, _, haccess, h⟩ := Decoder.bind_eq_ok h
    obtain ⟨modifyTime, _, hmodify, h⟩ := Decoder.bind_eq_ok h
    obtain ⟨linkTarget, _, hlink, h⟩ := Decoder.bind_eq_ok h
    obtain ⟨nlink, _, hnlink, h⟩ := Decoder.bind_eq_ok h
    obtain ⟨flag, _, hflag, h⟩ := Decoder.bind_eq_ok h
    cases h
    obtain ⟨haddressable, hlink⟩ := Decoder.bytes_inverts.1 hlink
    refine ⟨haddressable, ?_⟩
    rw [Decoder.uint64_takes hid, Decoder.uint32_takes hmode, Decoder.uint32_takes huid,
      Decoder.uint32_takes hgid, Decoder.uint64_takes hsize, Decoder.uint64_takes hgeneration,
      Decoder.int64_takes hcreate, Decoder.int64_takes haccess, Decoder.int64_takes hmodify,
      hlink, Decoder.uint32_takes hnlink, Decoder.uint32_takes hflag]
    simp [toRecord, List.append_assoc]
  · rintro ⟨haddressable, rfl⟩
    exact decoder_reads haddressable rest

theorem ofRecord_toRecord (h : inode.toRecord.length < UInt64.size) :
    Entity.ofRecord Inode inode.toRecord = .ok inode :=
  (decoder_reads (addressable_of_length h)).run

/-- A record that decodes to an inode is its record form. -/
theorem toRecord_of_ofRecord {record : Bytes} (h : Entity.ofRecord Inode record = .ok inode) :
    inode.toRecord = record :=
  (decoder_inverts.run_eq_ok.1 h).2

end Inode

/-! ## Directory entries -/

namespace Dentry

/-- A record has room for the length of the name. -/
def Addressable (dentry : Dentry) : Prop := (Bytes.ofString dentry.name).length < UInt64.size

variable {dentry : Dentry}

theorem addressable_of_length (h : dentry.toRecord.length < UInt64.size) :
    dentry.Addressable := by
  simp only [toRecord, List.length_append, Record.length_text] at h
  unfold Addressable
  omega

theorem decoder_reads (h : dentry.Addressable) : decoder.Reads dentry.toRecord dentry := by
  simp only [decoder, toRecord, List.append_assoc]
  refine (Decoder.uint64_reads dentry.parent).bind ?_
  refine (Decoder.text_reads h).bind ?_
  refine (Decoder.uint64_reads dentry.inode).bind ?_
  exact (Decoder.uint32_reads dentry.fileType).last _

theorem decoder_inverts : decoder.Inverts Addressable toRecord := by
  intro input dentry rest
  constructor
  · intro h
    obtain ⟨parent, _, hparent, h⟩ := Decoder.bind_eq_ok h
    obtain ⟨name, _, hname, h⟩ := Decoder.bind_eq_ok h
    obtain ⟨inode, _, hinode, h⟩ := Decoder.bind_eq_ok h
    obtain ⟨fileType, _, htype, h⟩ := Decoder.bind_eq_ok h
    cases h
    obtain ⟨haddressable, hname⟩ := Decoder.text_inverts.1 hname
    refine ⟨haddressable, ?_⟩
    rw [Decoder.uint64_takes hparent, hname, Decoder.uint64_takes hinode,
      Decoder.uint32_takes htype]
    simp [toRecord, List.append_assoc]
  · rintro ⟨haddressable, rfl⟩
    exact decoder_reads haddressable rest

theorem ofRecord_toRecord (h : dentry.toRecord.length < UInt64.size) :
    Entity.ofRecord Dentry dentry.toRecord = .ok dentry :=
  (decoder_reads (addressable_of_length h)).run

end Dentry

/-! ## Extended attributes -/

namespace Extend

/-- A record has room for the lengths of the key and the value. -/
def AddressableEntry (entry : Bytes × Bytes) : Prop :=
  entry.1.length < UInt64.size ∧ entry.2.length < UInt64.size

/-- A record has room for the number of the attributes, and for the lengths in each of them. -/
def AddressableEntries (entries : List (Bytes × Bytes)) : Prop :=
  entries.length < UInt64.size ∧ ∀ entry ∈ entries, AddressableEntry entry

/-- A record has room for the number of the attributes, and for the lengths in each of them. -/
def Addressable (extend : Extend) : Prop := AddressableEntries extend.attributes.toList

/-- The bytes that list attributes of an inode, in the order in which they are given. -/
def listing (inode : InodeId) (entries : List (Bytes × Bytes)) : Bytes :=
  Record.uint64 inode ++ Record.list attributeToRecord entries

variable {extend : Extend} {entries : List (Bytes × Bytes)}

/-- Attributes are written by ascending key. -/
theorem toRecord_eq (extend : Extend) :
    extend.toRecord = listing extend.inode extend.attributes.toList := rfl

theorem length_attributeToRecord (entry : Bytes × Bytes) :
    (attributeToRecord entry).length = 16 + entry.1.length + entry.2.length := by
  simp only [attributeToRecord, List.length_append, Record.length_bytes]
  omega

theorem addressable_of_length (h : extend.toRecord.length < UInt64.size) :
    extend.Addressable := by
  have hlist : (Record.list attributeToRecord extend.attributes.toList).length < UInt64.size := by
    simp only [toRecord, List.length_append] at h
    omega
  have hpositive : ∀ entry ∈ extend.attributes.toList,
      1 ≤ (attributeToRecord entry).length := by
    intro entry _
    rw [length_attributeToRecord]
    omega
  -- neither the count nor an attribute is longer than the record
  refine ⟨Nat.lt_of_le_of_lt (Record.length_list_le hpositive) hlist, fun entry hentry => ?_⟩
  have hle := Record.length_element_le attributeToRecord hentry
  rw [length_attributeToRecord] at hle
  constructor <;> omega

theorem attributeDecoder_reads {entry : Bytes × Bytes} (h : AddressableEntry entry) :
    attributeDecoder.Reads (attributeToRecord entry) entry := by
  unfold attributeDecoder attributeToRecord
  refine (Decoder.bytes_reads h.1).bind ?_
  exact (Decoder.bytes_reads h.2).last (entry.1, ·)

theorem attributeDecoder_inverts :
    attributeDecoder.Inverts AddressableEntry attributeToRecord := by
  intro input entry rest
  constructor
  · intro h
    obtain ⟨key, _, hkey, h⟩ := Decoder.bind_eq_ok h
    obtain ⟨value, _, hvalue, h⟩ := Decoder.bind_eq_ok h
    cases h
    obtain ⟨hkeyLength, rfl⟩ := Decoder.bytes_inverts.1 hkey
    obtain ⟨hvalueLength, rfl⟩ := Decoder.bytes_inverts.1 hvalue
    exact ⟨⟨hkeyLength, hvalueLength⟩, by simp [attributeToRecord]⟩
  · rintro ⟨haddressable, rfl⟩
    exact attributeDecoder_reads haddressable rest

theorem decoder_reads (inode : InodeId) (h : AddressableEntries entries) :
    decoder.Reads (listing inode entries) ⟨inode, .ofList entries⟩ := by
  have hattributes : ∀ entry ∈ entries,
      attributeDecoder.Reads (attributeToRecord entry) entry := fun entry hentry =>
    attributeDecoder_reads (h.2 entry hentry)
  have hreads := (Decoder.list_reads h.1 hattributes).last fun attributes =>
    (⟨inode, .ofList attributes⟩ : Extend)
  exact (Decoder.uint64_reads inode).bind hreads

/-- What is read as extended attributes is a listing of some, in any order and with repetitions. -/
theorem decoder_eq_ok {input rest : Bytes} : decoder input = .ok (extend, rest) ↔
    ∃ entries, AddressableEntries entries ∧ extend.attributes = .ofList entries ∧
      input = listing extend.inode entries ++ rest := by
  have hlist : (Decoder.list attributeDecoder).Inverts AddressableEntries
      (Record.list attributeToRecord) := Decoder.list_inverts attributeDecoder_inverts
  constructor
  · intro h
    obtain ⟨inode, _, hinode, h⟩ := Decoder.bind_eq_ok h
    obtain ⟨entries, _, hentries, h⟩ := Decoder.bind_eq_ok h
    cases h
    obtain ⟨haddressable, rfl⟩ := hlist.1 hentries
    refine ⟨entries, haddressable, rfl, ?_⟩
    rw [Decoder.uint64_takes hinode, listing, List.append_assoc]
  · rintro ⟨entries, haddressable, hattributes, rfl⟩
    obtain ⟨inode, attributes⟩ := extend
    cases hattributes
    exact decoder_reads inode haddressable rest

theorem ofRecord_eq_ok {record : Bytes} : Entity.ofRecord Extend record = .ok extend ↔
    ∃ entries, AddressableEntries entries ∧ extend.attributes = .ofList entries ∧
      record = listing extend.inode entries := by
  have hrun : Entity.ofRecord Extend record = .ok extend ↔
      decoder record = .ok (extend, []) := Decoder.run_eq_ok
  simp only [hrun, decoder_eq_ok, List.append_nil]

theorem ofRecord_toRecord_of_addressable (h : extend.Addressable) :
    Entity.ofRecord Extend extend.toRecord = .ok extend :=
  ofRecord_eq_ok.2 ⟨_, h, (OrderedMap.ofList_toList _).symm, rfl⟩

theorem ofRecord_toRecord (h : extend.toRecord.length < UInt64.size) :
    Entity.ofRecord Extend extend.toRecord = .ok extend :=
  ofRecord_toRecord_of_addressable (addressable_of_length h)

end Extend

/-! ## Multipart sessions -/

namespace Part

/-- A record has room for the length of the digest. -/
def Addressable (part : Part) : Prop := (Bytes.ofString part.md5).length < UInt64.size

theorem decoder_reads {part : Part} (h : part.Addressable) :
    decoder.Reads part.toRecord part := by
  simp only [decoder, toRecord, List.append_assoc]
  refine (Decoder.uint16_reads part.id).bind ?_
  refine (Decoder.int64_reads part.uploadTime).bind ?_
  refine (Decoder.text_reads h).bind ?_
  refine (Decoder.uint64_reads part.size).bind ?_
  exact (Decoder.uint64_reads part.inode).last _

theorem decoder_inverts : decoder.Inverts Addressable toRecord := by
  intro input part rest
  constructor
  · intro h
    obtain ⟨id, _, hid, h⟩ := Decoder.bind_eq_ok h
    obtain ⟨uploadTime, _, htime, h⟩ := Decoder.bind_eq_ok h
    obtain ⟨md5, _, hmd5, h⟩ := Decoder.bind_eq_ok h
    obtain ⟨size, _, hsize, h⟩ := Decoder.bind_eq_ok h
    obtain ⟨inode, _, hinode, h⟩ := Decoder.bind_eq_ok h
    cases h
    obtain ⟨haddressable, hmd5⟩ := Decoder.text_inverts.1 hmd5
    refine ⟨haddressable, ?_⟩
    rw [Decoder.uint16_takes hid, Decoder.int64_takes htime, hmd5, Decoder.uint64_takes hsize,
      Decoder.uint64_takes hinode]
    simp [toRecord, List.append_assoc]
  · rintro ⟨haddressable, rfl⟩
    exact decoder_reads haddressable rest

end Part

namespace Multipart

/-- A record has room for the lengths of the texts, for the number of the parts, and for the lengths
in each of them. -/
structure Addressable (multipart : Multipart) : Prop where
  id : (Bytes.ofString multipart.id).length < UInt64.size
  key : (Bytes.ofString multipart.key).length < UInt64.size
  count : multipart.parts.length < UInt64.size
  parts : ∀ part ∈ multipart.parts, part.Addressable

variable {multipart : Multipart}

theorem addressable_of_length (h : multipart.toRecord.length < UInt64.size) :
    multipart.Addressable := by
  simp only [toRecord, List.length_append, Record.length_text] at h
  have hpositive : ∀ part ∈ multipart.parts, 1 ≤ part.toRecord.length := by
    intro part _
    simp only [Part.toRecord, List.length_append, Record.length_text]
    omega
  -- neither the count nor a part is longer than the record
  have hcount := Record.length_list_le hpositive
  refine ⟨by omega, by omega, by omega, fun part hpart => ?_⟩
  have hle := Record.length_element_le Part.toRecord hpart
  simp only [Part.toRecord, List.length_append, Record.length_text] at hle
  unfold Part.Addressable
  omega

theorem decoder_reads (h : multipart.Addressable) : decoder.Reads multipart.toRecord multipart := by
  have hparts : ∀ part ∈ multipart.parts, Part.decoder.Reads part.toRecord part :=
    fun part hpart => Part.decoder_reads (h.parts part hpart)
  simp only [decoder, toRecord, List.append_assoc]
  refine (Decoder.text_reads h.id).bind ?_
  refine (Decoder.text_reads h.key).bind ?_
  refine (Decoder.int64_reads multipart.initTime).bind ?_
  exact (Decoder.list_reads h.count hparts).last _

theorem decoder_inverts : decoder.Inverts Addressable toRecord := by
  intro input multipart rest
  constructor
  · intro h
    obtain ⟨id, _, hid, h⟩ := Decoder.bind_eq_ok h
    obtain ⟨key, _, hkey, h⟩ := Decoder.bind_eq_ok h
    obtain ⟨initTime, _, htime, h⟩ := Decoder.bind_eq_ok h
    obtain ⟨parts, _, hparts, h⟩ := Decoder.bind_eq_ok h
    cases h
    obtain ⟨hidLength, hid⟩ := Decoder.text_inverts.1 hid
    obtain ⟨hkeyLength, hkey⟩ := Decoder.text_inverts.1 hkey
    obtain ⟨⟨hcount, hall⟩, hparts⟩ := (Decoder.list_inverts Part.decoder_inverts).1 hparts
    refine ⟨⟨hidLength, hkeyLength, hcount, hall⟩, ?_⟩
    rw [hid, hkey, Decoder.int64_takes htime, hparts]
    simp [toRecord, List.append_assoc]
  · rintro ⟨haddressable, rfl⟩
    exact decoder_reads haddressable rest

theorem ofRecord_toRecord (h : multipart.toRecord.length < UInt64.size) :
    Entity.ofRecord Multipart multipart.toRecord = .ok multipart :=
  (decoder_reads (addressable_of_length h)).run

end Multipart

end PartitionSnapshot
