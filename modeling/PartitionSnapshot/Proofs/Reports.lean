import PartitionSnapshot.CommandLine.Report
import PartitionSnapshot.Proofs.Codec
import PartitionSnapshot.Proofs.Decimals

/-!
# What is printed

JSON is written as bytes and printed as text. Whatever strings it holds, these bytes are text: a
byte is escaped only when it is a character of its own, and all that stands around the strings are
such characters. So nothing of a report is lost.

What is printed of an apply position is given here in full, in both forms, so that what a command
reports does not rest on the functions that print it.

## Main statements

* `Json.isText_indented`, `CommandLine.ofString_jsonText`: JSON is printed as it is written.
* `CommandLine.StoredPosition.printed_eq`: what is printed of a position.
-/

namespace PartitionSnapshot

/-! ## Bytes that are text -/

namespace Bytes

/-- The bytes are the UTF-8 encoding of some text. -/
def IsText (bytes : Bytes) : Prop := ∃ text, ofString text = bytes

theorem isText_ofString (text : String) : IsText (ofString text) := ⟨text, rfl⟩

namespace IsText

theorem nil : IsText [] := isText_ofString ""

theorem append {front back : Bytes} (hfront : IsText front) (hback : IsText back) :
    IsText (front ++ back) := by
  obtain ⟨frontText, rfl⟩ := hfront
  obtain ⟨backText, rfl⟩ := hback
  exact ⟨frontText ++ backText, ofString_append _ _⟩

theorem flatMap {α : Type} {xs : List α} {encode : α → Bytes}
    (h : ∀ x ∈ xs, IsText (encode x)) : IsText (xs.flatMap encode) := by
  induction xs with
  | nil => exact nil
  | cons x xs ih =>
    have hrest := ih fun other hother => h other (List.mem_cons_of_mem _ hother)
    exact (h x List.mem_cons_self).append hrest

theorem utf8EncodeChar (c : Char) : IsText (String.utf8EncodeChar c) :=
  ⟨String.ofList [c], by rw [ofString_ofList, List.flatMap_singleton]⟩

end IsText

/-- A byte below 128 is a character of its own. -/
theorem isText_singleton {byte : UInt8} (h : byte < 0x80) : IsText [byte] := by
  have hlt : byte.toNat < 128 := UInt8.lt_iff_toNat_lt.1 h
  have hvalue : (Char.ofUInt8 byte).val.toNat = byte.toNat := UInt8.toNat_toUInt32 byte
  have hencoding : String.utf8EncodeChar (Char.ofUInt8 byte) = [byte] := by
    simp only [String.utf8EncodeChar, hvalue, if_pos (Nat.le_of_lt_succ hlt), UInt8.ofNat_toNat]
  rw [← hencoding]
  exact .utf8EncodeChar _

theorem IsText.cons {byte : UInt8} {bytes : Bytes} (h : IsText bytes) (hbyte : byte < 0x80) :
    IsText (byte :: bytes) :=
  (isText_singleton hbyte).append h

theorem isText_of_lt {bytes : Bytes} (h : ∀ byte ∈ bytes, byte < 0x80) : IsText bytes := by
  induction bytes with
  | nil => exact .nil
  | cons byte bytes ih =>
    have hrest := ih fun other hother => h other (List.mem_cons_of_mem _ hother)
    exact hrest.cons (h byte List.mem_cons_self)

/-- A character is one byte below 128, or several that are not. -/
theorem utf8EncodeChar_cases (c : Char) :
    (∃ byte, byte < 0x80 ∧ String.utf8EncodeChar c = [byte]) ∨
      ∀ byte ∈ String.utf8EncodeChar c, 0x80 ≤ byte := by
  have hhigh {n : Nat} (hlow : 128 ≤ n) (hbyte : n < 256) : 0x80 ≤ UInt8.ofNat n := by
    rw [UInt8.le_iff_toNat_le, UInt8.toNat_ofNat', Nat.mod_eq_of_lt hbyte]
    exact hlow
  unfold String.utf8EncodeChar
  dsimp only
  split
  · next hascii =>
    refine .inl ⟨_, ?_, rfl⟩
    rw [UInt8.lt_iff_toNat_lt, UInt8.toNat_ofNat', Nat.mod_eq_of_lt (by omega)]
    exact Nat.lt_succ_of_le hascii
  · refine .inr fun byte hbyte => ?_
    -- two, three or four bytes, each of which has its highest bit set
    split at hbyte
    · simp only [List.mem_cons, List.not_mem_nil, or_false] at hbyte
      rcases hbyte with rfl | rfl <;> exact hhigh (by omega) (by omega)
    · split at hbyte
      · simp only [List.mem_cons, List.not_mem_nil, or_false] at hbyte
        rcases hbyte with rfl | rfl | rfl <;> exact hhigh (by omega) (by omega)
      · simp only [List.mem_cons, List.not_mem_nil, or_false] at hbyte
        rcases hbyte with rfl | rfl | rfl | rfl <;> exact hhigh (by omega) (by omega)

end Bytes

/-! ## JSON is text -/

namespace Json

open Bytes

theorem hexByte_lt : ∀ digit < 16, hexByte digit < 0x80 := by decide

/-- What a byte below 128 is escaped to are such bytes. -/
theorem escapeByte_lt {byte : UInt8} (h : byte < 0x80) :
    ∀ escaped ∈ escapeByte byte, escaped < 0x80 := by
  have hbyte := byte.toNat_lt
  have hfirst : hexByte (byte.toNat / 16) < 0x80 := hexByte_lt _ (by omega)
  have hsecond : hexByte (byte.toNat % 16) < 0x80 := hexByte_lt _ (by omega)
  unfold escapeByte
  repeat' split
  all_goals simp [h, hfirst, hsecond]

/-- No other byte is escaped. -/
theorem escapeByte_of_le {byte : UInt8} (h : 0x80 ≤ byte) : escapeByte byte = [byte] := by
  have hne {other : UInt8} (hother : other < 0x80) : byte ≠ other := by
    rintro rfl
    exact absurd h (UInt8.not_le.2 hother)
  have hcontrol : ¬ byte < 0x20 := by
    rw [UInt8.not_lt]
    exact UInt8.le_trans (by decide) h
  rw [escapeByte, if_neg (hne (by decide)), if_neg (hne (by decide)), if_neg (hne (by decide)),
    if_neg (hne (by decide)), if_neg (hne (by decide)), if_neg (hne (by decide)),
    if_neg (hne (by decide)), if_neg hcontrol]

theorem escape_of_le {bytes : Bytes} (h : ∀ byte ∈ bytes, 0x80 ≤ byte) : escape bytes = bytes := by
  induction bytes with
  | nil => rfl
  | cons byte bytes ih =>
    have hrest := ih fun other hother => h other (List.mem_cons_of_mem _ hother)
    rw [escape, List.flatMap_cons, escapeByte_of_le (h byte List.mem_cons_self), ← escape, hrest]
    rfl

theorem isText_escape (text : String) : IsText (escape (ofString text)) := by
  obtain ⟨cs, rfl⟩ : ∃ cs, String.ofList cs = text := ⟨text.toList, String.ofList_toList⟩
  rw [ofString_ofList, escape, List.flatMap_assoc]
  -- character by character
  refine .flatMap fun c _ => ?_
  rcases utf8EncodeChar_cases c with ⟨byte, hbyte, hencoding⟩ | hhigh
  · rw [hencoding, List.flatMap_singleton]
    exact isText_of_lt (escapeByte_lt hbyte)
  · rw [← escape, escape_of_le hhigh]
    exact .utf8EncodeChar c

theorem isText_quotedBytes (text : String) : IsText (quotedBytes text) :=
  ((isText_escape text).cons (by decide)).append (isText_singleton (by decide))

theorem isText_lineBreak (depth : Nat) : IsText (lineBreak depth) := by
  refine .cons (isText_of_lt fun byte hspace => ?_) (by decide)
  rw [List.eq_of_mem_replicate hspace]
  decide

theorem isText_indentedName (depth : Nat) (name : String) : IsText (indentedName depth name) :=
  ((isText_lineBreak depth).append (isText_quotedBytes name)).append
    ((isText_singleton (by decide)).cons (by decide))

mutual

/-- The indented form of a value is text, at any depth. -/
theorem isText_indentedAt (depth : Nat) : ∀ value : Json, IsText (indentedAt depth value)
  | .null => by
    rw [indentedAt]
    exact isText_ofString _
  | .bool value => by
    rw [indentedAt]
    exact isText_ofString _
  | .natural value => by
    rw [indentedAt]
    exact isText_ofString _
  | .string text => by
    rw [indentedAt]
    exact isText_quotedBytes text
  | .array [] => by
    rw [indentedAt]
    exact (isText_singleton (by decide)).cons (by decide)
  | .array (element :: rest) => by
    have hfront : IsText (0x5B :: lineBreak (depth + 1)) :=
      (isText_lineBreak _).cons (by decide)
    rw [indentedAt]
    exact (hfront.append (isText_indentedAt _ element)).append (isText_indentedElements depth rest)
  | .object [] => by
    rw [indentedAt]
    exact (isText_singleton (by decide)).cons (by decide)
  | .object ((name, value) :: rest) => by
    have hfront : IsText (0x7B :: indentedName (depth + 1) name) :=
      (isText_indentedName _ name).cons (by decide)
    rw [indentedAt]
    exact (hfront.append (isText_indentedAt _ value)).append (isText_indentedMembers depth rest)

theorem isText_indentedElements (depth : Nat) :
    ∀ elements : List Json, IsText (indentedElements depth elements)
  | [] => by
    rw [indentedElements]
    exact (isText_lineBreak depth).append (isText_singleton (by decide))
  | element :: rest => by
    have hfront : IsText (0x2C :: lineBreak (depth + 1)) :=
      (isText_lineBreak _).cons (by decide)
    rw [indentedElements]
    exact (hfront.append (isText_indentedAt _ element)).append (isText_indentedElements depth rest)

theorem isText_indentedMembers (depth : Nat) :
    ∀ members : List (String × Json), IsText (indentedMembers depth members)
  | [] => by
    rw [indentedMembers]
    exact (isText_lineBreak depth).append (isText_singleton (by decide))
  | (name, value) :: rest => by
    have hfront : IsText (0x2C :: indentedName (depth + 1) name) :=
      (isText_indentedName _ name).cons (by decide)
    rw [indentedMembers]
    exact (hfront.append (isText_indentedAt _ value)).append (isText_indentedMembers depth rest)

end

theorem isText_indented (value : Json) : IsText value.indented :=
  isText_indentedAt 0 value

end Json

/-! ## Reports -/

namespace CommandLine

open Text (decimal)

theorem jsonText_of_indented {value : Json} {text : String}
    (h : Bytes.ofString text = value.indented) : jsonText value = text ++ "\n" := by
  rw [jsonText, ← h, Bytes.toString?_ofString, Option.getD_some]

/-- JSON is printed just as it is written, with a line end behind it. -/
theorem ofString_jsonText (value : Json) :
    Bytes.ofString (jsonText value) = value.indented ++ [0x0A] := by
  obtain ⟨text, htext⟩ := value.isText_indented
  rw [jsonText_of_indented htext, Bytes.ofString_append, htext]
  rfl

/-! ### Apply positions -/

/-- The report of an index and of the cursor that stands with it, if there is one: as JSON, or else
as a line of text. -/
def positionReport (json : Bool) (index : UInt64) (cursor : Option UInt64) : String :=
  match json, cursor with
  | false, some cursor =>
    "applyID=" ++ decimal index.toNat ++ " cursor=" ++ decimal cursor.toNat ++ "\n"
  | false, none => "applyID=" ++ decimal index.toNat ++ " (no cursor)\n"
  | true, cursor =>
    "\x7b\n  \"apply_id\": " ++ decimal index.toNat ++ ",\n  \"cursor\": " ++
      cursor.elim "null" (decimal ·.toNat) ++ "\n\x7d" ++ "\n"

namespace StoredPosition

theorem text_eq (position : StoredPosition) :
    position.text = positionReport false position.index position.cursor := by
  obtain ⟨index, cursor⟩ := position
  cases cursor <;> rfl

theorem indented_json (position : StoredPosition) :
    Bytes.ofString ("\x7b\n  \"apply_id\": " ++ decimal position.index.toNat ++
      ",\n  \"cursor\": " ++ position.cursor.elim "null" (decimal ·.toNat) ++ "\n\x7d") =
      position.json.indented := by
  -- what stands around the two values is fixed
  have hopen : Bytes.ofString "\x7b\n  \"apply_id\": " =
      0x7B :: Json.indentedName 1 "apply_id" := by decide +kernel
  have hnext : Bytes.ofString ",\n  \"cursor\": " = 0x2C :: Json.indentedName 1 "cursor" := by
    decide +kernel
  have hclose : Bytes.ofString "\n\x7d" = Json.lineBreak 0 ++ [0x7D] := by decide +kernel
  obtain ⟨index, cursor⟩ := position
  simp only [Bytes.ofString_append, hopen, hnext, hclose, List.append_assoc, List.cons_append]
  cases cursor <;>
    simp only [json, Json.indented, Json.indentedAt, Json.indentedMembers, List.append_assoc,
      List.cons_append] <;> rfl

theorem jsonText_json (position : StoredPosition) :
    jsonText position.json = positionReport true position.index position.cursor :=
  jsonText_of_indented (indented_json position)

/-- The report of a position is what is printed of it. -/
theorem printed_eq (json : Bool) (position : StoredPosition) :
    (if json then jsonText position.json else position.text) =
      positionReport json position.index position.cursor := by
  cases json with
  | false => exact text_eq position
  | true => exact jsonText_json position

end StoredPosition

end CommandLine

end PartitionSnapshot
