import SchemaForge.Archive.Number

/-!
# DEFLATE streams of stored blocks

Data in the DEFLATE format, made of blocks that hold their bytes as they are. Every reader of the
format takes such a stream; `unpack?` reads these streams and refuses blocks of other kinds.
-/

namespace SchemaForge.Archive.Deflate

/-- The greatest number of bytes in a stored block. -/
def blockLimit : Nat := 65535

/-- One block: whether it is the last one, its length and the complement of it, and its bytes. -/
def block (last : Bool) (data : Bytes) : Bytes :=
  (if last then 1 else 0) :: number 2 data.length ++ number 2 (blockLimit - data.length) ++ data

/-- The stream of the data. -/
def pack (data : Bytes) : Bytes :=
  if blockLimit < data.length then
    block false (data.take blockLimit) ++ pack (data.drop blockLimit)
  else block true data
termination_by data.length
decreasing_by simp [blockLimit] at *; omega

/-- The data of a stream of stored blocks. -/
def unpack? : Bytes → Option Bytes
  | head :: a :: b :: c :: d :: rest =>
    let length := value [a, b]
    if head.toNat ≤ 1 ∧ length + value [c, d] = blockLimit ∧ length ≤ rest.length then
      if head = 1 then some (rest.take length)
      else (unpack? (rest.drop length)).map (rest.take length ++ ·)
    else none
  | _ => none
termination_by stream => stream.length
decreasing_by simp; omega

end SchemaForge.Archive.Deflate
