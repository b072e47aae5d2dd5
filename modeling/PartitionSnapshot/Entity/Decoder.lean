import PartitionSnapshot.Bytes
import PartitionSnapshot.Text.Utf8

/-!
# Decoding records

A decoder takes what it needs from the front of a record and leaves the rest. Numbers have a fixed
width with the least significant byte first, lengths are 64 bits wide, and a whole record has to
be used up.
-/

namespace PartitionSnapshot

/-- Why a record does not decode. -/
inductive DecodeFault where
  /-- The record ends inside a number, a length or the elements of a sequence. -/
  | endOfRecord
  /-- A text is longer than what is left of the record. -/
  | textPastEnd
  /-- The bytes of a text are not UTF-8. -/
  | badText (fault : Utf8.Fault)
  /-- Bytes are left over after the last field. -/
  | trailing
  deriving DecidableEq, Repr

/-- The fault in words. -/
def DecodeFault.message : DecodeFault → String
  | .endOfRecord => "io error: unexpected end of file"
  | .textPastEnd => "io error: "
  | .badText fault => "string is not valid utf8: " ++ fault.message
  | .trailing => "Slice had bytes remaining after deserialization"

/-- A reader of the front of a record. -/
abbrev Decoder := StateT Bytes (Except DecodeFault)

namespace Decoder

/-- The next `n` bytes, or the given fault when fewer are left. -/
def take (n : Nat) (fault : DecodeFault) : Decoder Bytes := fun bytes =>
  match bytes.split? n with
  | some (front, rest) => .ok (front, rest)
  | none => .error fault

/-- A number of `width` bytes, least significant first. -/
def number (width : Nat) : Decoder Nat := do
  return Bytes.toNatLE (← take width .endOfRecord)

/-- A number of 16 bits. -/
def uint16 : Decoder UInt16 := do return UInt16.ofNat (← number 2)

/-- A number of 32 bits. -/
def uint32 : Decoder UInt32 := do return UInt32.ofNat (← number 4)

/-- A number of 64 bits. -/
def uint64 : Decoder UInt64 := do return UInt64.ofNat (← number 8)

/-- A signed number in two's complement. -/
def int64 : Decoder Int64 := do return (← uint64).toInt64

/-- The length of what follows. -/
def length : Decoder Nat := number 8

/-- A sequence of bytes after its length. -/
def bytes : Decoder Bytes := do take (← length) .endOfRecord

/-- A text after its length in bytes. -/
def text : Decoder String := do
  match Utf8.decode (← take (← length) .textPastEnd) with
  | .ok text => return text
  | .error fault => throw (.badText fault)

/-- `count` elements, one after the other. -/
def times (element : Decoder α) : (count : Nat) → Decoder (List α)
  | 0 => return []
  | count + 1 => return (← element) :: (← times element count)

/-- A sequence of elements after their number. -/
def list (element : Decoder α) : Decoder (List α) := do times element (← length)

/-- Decodes a whole record. -/
def run (decoder : Decoder α) (record : Bytes) : Except DecodeFault α :=
  match StateT.run decoder record with
  | .ok (value, []) => .ok value
  | .ok (_, _ :: _) => .error .trailing
  | .error fault => .error fault

end Decoder

end PartitionSnapshot
