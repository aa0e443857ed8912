import SchemaForge.Text.Utf8

/-!
# Checksums

The CRC-32 of a sequence of bytes, with the reflected polynomial 0xEDB88320.
-/

namespace SchemaForge.Archive

/-- The remainder after one more bit. -/
def crcBit (r : UInt32) : UInt32 :=
  if r &&& 1 = 1 then (r >>> 1) ^^^ 0xEDB88320 else r >>> 1

/-- The remainder after one more byte. -/
def crcByte (r : UInt32) (b : UInt8) : UInt32 :=
  Nat.repeat crcBit 8 (r ^^^ b.toUInt32)

/-- The checksum of the bytes. -/
def crc32 (bytes : Bytes) : UInt32 := bytes.foldl crcByte 0xFFFFFFFF ^^^ 0xFFFFFFFF

end SchemaForge.Archive
