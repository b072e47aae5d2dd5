import PartitionSnapshot.Entity.Kind
import PartitionSnapshot.Text.Decimal

/-!
# Signs

The signs of a snapshot are the checksums of its four entity files. They are kept in a text file as
four decimal numbers in the order of the kinds; reading allows any blanks between and around them.
-/

namespace PartitionSnapshot

/-- The checksums of the entity files of one snapshot. -/
structure Signs where
  inode : UInt32 := 0
  dentry : UInt32 := 0
  extend : UInt32 := 0
  multipart : UInt32 := 0
  deriving DecidableEq, Repr, Inhabited

namespace Signs

/-- The checksum of the file of a kind. -/
def get (signs : Signs) : Kind → UInt32
  | .inode => signs.inode
  | .dentry => signs.dentry
  | .extend => signs.extend
  | .multipart => signs.multipart

/-- Records the checksum of the file of a kind. -/
def set (signs : Signs) (kind : Kind) (checksum : UInt32) : Signs :=
  match kind with
  | .inode => { signs with inode := checksum }
  | .dentry => { signs with dentry := checksum }
  | .extend => { signs with extend := checksum }
  | .multipart => { signs with multipart := checksum }

theorem get_set (signs : Signs) (kind other : Kind) (checksum : UInt32) :
    (signs.set kind checksum).get other = if other = kind then checksum else signs.get other := by
  cases kind <;> cases other <;> rfl

/-- The checksums by kind are all that signs hold. -/
theorem ext_get {signs signs' : Signs} (h : ∀ kind, signs.get kind = signs'.get kind) :
    signs = signs' := by
  obtain ⟨inode, dentry, extend, multipart⟩ := signs
  rw [Signs.mk.injEq]
  exact ⟨h .inode, h .dentry, h .extend, h .multipart⟩

/-- The checksums as text: four numbers with single spaces between them. -/
def text (signs : Signs) : String :=
  s!"{signs.inode} {signs.dentry} {signs.extend} {signs.multipart}"

/-- Reads the checksums from a text with exactly four fields. -/
def parse? (text : String) : Option Signs :=
  match Text.fields text.toList with
  | [inode, dentry, extend, multipart] => do
    return {
      inode := ← Text.number32? inode
      dentry := ← Text.number32? dentry
      extend := ← Text.number32? extend
      multipart := ← Text.number32? multipart }
  | _ => none

end Signs

end PartitionSnapshot
