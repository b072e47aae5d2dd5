import PartitionSnapshot.Bytes

/-!
# Faults in UTF-8

Says where and how a sequence of bytes stops being UTF-8. A machine reads one byte at a time and
keeps what the current character still needs: how many bytes are owed and the bounds of the next.
A byte outside the bounds, or one that cannot begin a character, makes the bytes of the character
so far invalid; an end of input while bytes are owed makes the character incomplete.

Decoding itself is `Bytes.toString?`; `decode` joins the two.
-/

namespace PartitionSnapshot.Utf8

/-- The first place at which bytes are not UTF-8. -/
structure Fault where
  /-- The length of the longest valid front. -/
  index : Nat
  /-- How many bytes there are invalid, or none when the input ends inside a character. -/
  size : Option Nat
  deriving DecidableEq, Repr

namespace Fault

/-- The fault in words. -/
def message (fault : Fault) : String :=
  match fault.size with
  | some size => s!"invalid utf-8 sequence of {size} bytes from index {fault.index}"
  | none => s!"incomplete utf-8 byte sequence from index {fault.index}"

end Fault

/-! ## The machine -/

/-- What the current character needs: bytes owed, and the bounds of the next one. -/
structure Owed where
  count : Nat
  low : UInt8
  high : UInt8

/-- Between two characters. -/
def Owed.nothing : Owed := ⟨0, 0x80, 0xBF⟩

/-- What follows the first byte of a character, unless no character begins with it. -/
def Owed.after? (lead : UInt8) : Option Owed :=
  if lead ≤ 0x7F then some .nothing
  else if 0xC2 ≤ lead ∧ lead ≤ 0xDF then some ⟨1, 0x80, 0xBF⟩
  else if lead = 0xE0 then some ⟨2, 0xA0, 0xBF⟩
  else if lead = 0xED then some ⟨2, 0x80, 0x9F⟩
  else if 0xE1 ≤ lead ∧ lead ≤ 0xEF then some ⟨2, 0x80, 0xBF⟩
  else if lead = 0xF0 then some ⟨3, 0x90, 0xBF⟩
  else if lead = 0xF4 then some ⟨3, 0x80, 0x8F⟩
  else if 0xF1 ≤ lead ∧ lead ≤ 0xF3 then some ⟨3, 0x80, 0xBF⟩
  else none

/-- Reads on from inside a character that began at `start` and of which `seen` bytes were read;
`owed.count = 0` means that it is complete. -/
def scan (start seen : Nat) (owed : Owed) : Bytes → Option Fault
  | [] => if owed.count = 0 then none else some ⟨start, none⟩
  | byte :: rest =>
    match owed.count with
    | 0 =>
      match Owed.after? byte with
      | some next => scan (start + seen) 1 next rest
      | none => some ⟨start + seen, some 1⟩
    | count + 1 =>
      if owed.low ≤ byte ∧ byte ≤ owed.high then scan start (seen + 1) ⟨count, 0x80, 0xBF⟩ rest
      else some ⟨start, some seen⟩

/-- The first fault in a sequence of bytes. -/
def fault? (bytes : Bytes) : Option Fault :=
  scan 0 0 .nothing bytes

/-- The text that the bytes encode, or why they encode none. -/
def decode (bytes : Bytes) : Except Fault String :=
  match Bytes.toString? bytes with
  | some text => .ok text
  | none => .error ((fault? bytes).getD ⟨bytes.length, none⟩)

end PartitionSnapshot.Utf8
