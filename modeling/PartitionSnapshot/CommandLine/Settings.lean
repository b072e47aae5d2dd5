import PartitionSnapshot.Options
import PartitionSnapshot.Toml.Reader
import PartitionSnapshot.Toml.Record

/-!
# Settings

The settings file of the program is a TOML document with two tables: `snapshot` holds options under
the names that they have elsewhere, and `logging` may hold a `level`. Everything may be left out.
-/

namespace PartitionSnapshot

/-- Reads options from a TOML record; the ones left out have their defaults. -/
def Options.ofToml (value : Toml) : Except Toml.Fault Options := do
  let fields ← value.fields Options.names
  let strategy := Toml.toChoice Options.strategies
  return {
    readBuffer := ← Toml.optional fields "read_buffer_size" 4194304 Toml.toUInt64
    writeBuffer := ← Toml.optional fields "write_buffer_size" 4194304 Toml.toUInt64
    inodeRead := ← Toml.optional fields "inode_read" .buffered strategy
    dentryRead := ← Toml.optional fields "dentry_read" .buffered strategy
    extendRead := ← Toml.optional fields "extend_read" .mapped strategy
    multipartRead := ← Toml.optional fields "multipart_read" .mapped strategy
    verifyChecksums := ← Toml.optional fields "verify_checksums" true Toml.toBool
    multipartCount :=
      ← Toml.optional fields "multipart_count_source" .multiparts
        (Toml.toChoice Options.counts) }

/-- The settings of the program. -/
structure Settings where
  options : Options := {}
  /-- The least level of the notes that are shown. -/
  logLevel : Option String := none
  deriving DecidableEq, Repr, Inhabited

namespace Settings

/-- Reads the table of the log. -/
def logLevelOf (value : Toml) : Except Toml.Fault (Option String) := do
  let fields ← value.fields ["level"]
  Toml.optional fields "level" none fun level => some <$> level.toText

/-- Reads settings from a TOML value. -/
def ofToml (value : Toml) : Except Toml.Fault Settings := do
  let fields ← value.fields ["snapshot", "logging"]
  return {
    options := ← Toml.optional fields "snapshot" {} Options.ofToml
    logLevel := ← Toml.optional fields "logging" none logLevelOf }

/-- Reads settings from a text. -/
def parse (text : String) : Except Toml.Fault Settings :=
  match Toml.parse? text with
  | some value => ofToml value
  | none => .error .malformed

end Settings

end PartitionSnapshot
