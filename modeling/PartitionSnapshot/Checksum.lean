import PartitionSnapshot.Bytes

/-!
# Checksums

Snapshot files are signed with CRC-32: the reflected polynomial `0xEDB88320`, a register that
starts with all bits set, and a value that is the register's complement. `crc32` signs a whole
sequence of bytes at once; `Checksum` is the running form that readers and writers feed chunk
by chunk.
-/

namespace PartitionSnapshot

/-! ## The register -/

/-- The reflected generator polynomial. -/
def crcPolynomial : UInt32 := 0xEDB88320

/-- Shifts one bit out of the register, and folds the polynomial in when that bit was set. -/
def crcBit (register : UInt32) : UInt32 :=
  if register &&& 1 = 0 then register >>> 1 else (register >>> 1) ^^^ crcPolynomial

/-- Feeds one byte to the register: eight bit steps, least significant bit first. -/
def crcByte (register : UInt32) (byte : UInt8) : UInt32 :=
  crcBit (crcBit (crcBit (crcBit (crcBit (crcBit (crcBit (crcBit
    (register ^^^ byte.toUInt32))))))))

/-- The CRC-32 of a sequence of bytes. -/
def crc32 (bytes : Bytes) : UInt32 :=
  bytes.foldl crcByte 0xFFFFFFFF ^^^ 0xFFFFFFFF

/-! ## The running checksum -/

/-- A checksum in progress: the register and the number of bytes fed to it. -/
structure Checksum where
  register : UInt32
  size : Nat
  deriving DecidableEq, Repr

namespace Checksum

/-- The checksum of no bytes. -/
def empty : Checksum := ⟨0xFFFFFFFF, 0⟩

instance : Inhabited Checksum := ⟨empty⟩

/-- Feeds a chunk of bytes. -/
def update (sum : Checksum) (chunk : Bytes) : Checksum :=
  ⟨chunk.foldl crcByte sum.register, sum.size + chunk.length⟩

/-- Feeds a chunk that is written to the checksum, and gives how much of it was taken: all of it. -/
def write (sum : Checksum) (chunk : Bytes) : Nat × Checksum :=
  (chunk.length, sum.update chunk)

/-- The checksum for a new start, whatever was fed. -/
def reset (_sum : Checksum) : Checksum := empty

/-- The CRC-32 of the bytes fed so far. -/
def value (sum : Checksum) : UInt32 :=
  sum.register ^^^ 0xFFFFFFFF

/-- The running checksum after a whole sequence of bytes. -/
def ofBytes (bytes : Bytes) : Checksum :=
  empty.update bytes

@[simp] theorem update_nil (sum : Checksum) : sum.update [] = sum := rfl

theorem update_append (sum : Checksum) (front back : Bytes) :
    sum.update (front ++ back) = (sum.update front).update back := by
  simp [update, List.foldl_append, Nat.add_assoc]

theorem ofBytes_append (front back : Bytes) :
    ofBytes (front ++ back) = (ofBytes front).update back :=
  update_append empty front back

/-- Feeding a sequence chunk by chunk or at once gives the one-shot checksum. -/
theorem value_ofBytes (bytes : Bytes) : (ofBytes bytes).value = crc32 bytes := rfl

theorem size_ofBytes (bytes : Bytes) : (ofBytes bytes).size = bytes.length := by
  simp [ofBytes, update, empty]

end Checksum

end PartitionSnapshot
