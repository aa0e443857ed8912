import SchemaForge.Archive.Deflate
import SchemaForge.Archive.Record

/-!
# Reading an archive

A reader finds the end record, walks the directory it points to, and follows each record of the
directory to the local record of the member.
-/

namespace SchemaForge.Archive

/-- A member as a reader finds it. -/
structure Found where
  name : String
  compression : Compression
  size : Nat
  crc : Nat
  mode : Nat
  time : Nat
  date : Nat
  content : Bytes

/-- Year, month, day, hour, minute and second of the last change. -/
def Found.modified (m : Found) : List Nat :=
  [1980 + m.date / 512, m.date / 32 % 16, m.date % 32, m.time / 2048, m.time / 32 % 64,
    m.time % 32 * 2]

/-- The number in the bytes from `start` on. -/
def field (start width : Nat) (bytes : Bytes) : Nat := value ((bytes.drop start).take width)

/-- The bytes after a mark. -/
def afterMark? (mark bytes : Bytes) : Option Bytes :=
  if mark.isPrefixOf bytes then some (bytes.drop mark.length) else none

/-- The count of members and the place of the directory, if the bytes are an end record. -/
def endFields? (bytes : Bytes) : Option (Nat × Nat) := do
  let rest ← afterMark? endMark bytes
  if rest.length = 18 + field 16 2 rest then some (field 6 2 rest, field 12 4 rest) else none

/-- The end record: the last one that is followed by as much as it says. -/
def findEnd? (bytes : Bytes) : Option (Nat × Nat) :=
  (List.range (min 65536 (bytes.length - 21))).findSome? fun behind =>
    endFields? (bytes.drop (bytes.length - 22 - behind))

/-- The way of packing with this number. -/
def Compression.ofMethod? : Nat → Option Compression
  | 0 => some .stored
  | 8 => some .deflated
  | _ => none

/-- The data at the local record that starts at `offset`. -/
def dataAt? (archive : Bytes) (offset size : Nat) : Option Bytes := do
  let rest ← afterMark? localMark (archive.drop offset)
  let start := 26 + field 22 2 rest + field 24 2 rest
  if start + size ≤ rest.length then some ((rest.drop start).take size) else none

/-- The member that a record of the directory describes, and the bytes after the record. -/
def member? (archive bytes : Bytes) : Option (Found × Bytes) := do
  let rest ← afterMark? directoryMark bytes
  let compression ← Compression.ofMethod? (field 6 2 rest)
  let nameLength := field 24 2 rest
  let name ← Text.ofUtf8? ((rest.drop 42).take nameLength)
  let data ← dataAt? archive (field 38 4 rest) (field 16 4 rest)
  let content ← match compression with
    | .stored => some data
    | .deflated => Deflate.unpack? data
  let found : Found :=
    ⟨name, compression, field 20 4 rest, field 12 4 rest, field 36 2 rest, field 8 2 rest,
      field 10 2 rest, content⟩
  if found.size = content.length ∧ found.crc = (crc32 content).toNat then
    some (found, rest.drop (42 + nameLength + field 26 2 rest + field 28 2 rest))
  else none

/-- So many members of the directory. -/
def members? (archive : Bytes) : Nat → Bytes → Option (List Found)
  | 0, _ => some []
  | count + 1, bytes => do
    let (m, rest) ← member? archive bytes
    let ms ← members? archive count rest
    return m :: ms

/-- The members of an archive, in the order of the directory. -/
def unpack? (archive : Bytes) : Option (List Found) := do
  let (count, offset) ← findEnd? archive
  members? archive count (archive.drop offset)

end SchemaForge.Archive
