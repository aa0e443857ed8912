import SchemaForge.Archive.Crc
import SchemaForge.Archive.Number

/-!
# Records of an archive

An archive is a run of local records with the data of the members, the directory with one record for
each member, and an end record that says where the directory is. Times and permissions are fixed, so
an archive depends on nothing but the names, the contents and the way of packing.
-/

namespace SchemaForge.Archive

/-- How the data of members is packed. -/
inductive Compression
  | deflated
  | stored
  deriving DecidableEq, Repr

/-- A file to be put into an archive, under a name with slashes. -/
structure Entry where
  name : String
  content : Bytes
  deriving DecidableEq

/-- The number of a way of packing. -/
def Compression.method : Compression → Nat
  | deflated => 8
  | stored => 0

/-- The version of the format that a reader needs. -/
def Compression.version : Compression → Nat
  | deflated => 20
  | stored => 10

/-- A member as the records describe it. -/
structure Member where
  name : Bytes
  compression : Compression
  crc : UInt32
  size : Nat
  data : Bytes
  deriving DecidableEq

/-- A name that is not ASCII is marked as UTF-8. -/
def Member.flags (m : Member) : Nat := if m.name.all (· < 0x80) then 0 else 0x0800

/-- The first of January 1980. -/
def recordedDate : Nat := 0x0021

/-- Midnight. -/
def recordedTime : Nat := 0

/-- A regular file that its owner may write and all may read. -/
def recordedMode : Nat := 0o100644

/-- What the local record and the directory say alike. -/
def Member.common (m : Member) : Bytes :=
  number 2 m.compression.version ++ number 2 m.flags ++ number 2 m.compression.method
    ++ number 2 recordedTime ++ number 2 recordedDate ++ number 4 m.crc.toNat
    ++ number 4 m.data.length ++ number 4 m.size ++ number 2 m.name.length

/-- The first bytes of a local record. -/
def localMark : Bytes := [0x50, 0x4B, 0x03, 0x04]

/-- The first bytes of a record of the directory. -/
def directoryMark : Bytes := [0x50, 0x4B, 0x01, 0x02]

/-- The first bytes of the end record. -/
def endMark : Bytes := [0x50, 0x4B, 0x05, 0x06]

/-- The record before the data of a member, and the data. -/
def localRecord (m : Member) : Bytes :=
  localMark ++ m.common ++ number 2 0 ++ m.name ++ m.data

/-- The record of a member in the directory; its local record starts at `offset`. -/
def directoryRecord (m : Member) (offset : Nat) : Bytes :=
  directoryMark ++ number 2 (0x0300 + m.compression.version) ++ m.common ++ number 2 0 ++ number 2 0
    ++ number 2 0 ++ number 2 0 ++ number 4 (recordedMode * 0x10000) ++ number 4 offset ++ m.name

/-- The local records of members. -/
def localRecords (members : List Member) : Bytes := members.flatMap localRecord

/-- The directory of members whose local records start at `offset`. -/
def directory (offset : Nat) : List Member → Bytes
  | [] => []
  | m :: rest => directoryRecord m offset ++ directory (offset + (localRecord m).length) rest

/-- The last record: how many members there are, and how long the directory is and where it
starts. -/
def endRecord (count size offset : Nat) : Bytes :=
  endMark ++ number 2 0 ++ number 2 0 ++ number 2 count ++ number 2 count ++ number 4 size
    ++ number 4 offset ++ number 2 0

/-- The archive of the members. -/
def contents (members : List Member) : Bytes :=
  let files := localRecords members
  let listing := directory 0 members
  files ++ listing ++ endRecord members.length listing.length files.length

end SchemaForge.Archive
