import SchemaForge.Store.Codecs

/-!
# Dumps of a store

The rows of a store as JSON text, and a store read back from such a text. The text is read as a whole
before the rows are loaded.
-/

namespace SchemaForge

/-- Why a text is no dump of a store. -/
inductive DumpError
  | unreadable (error : JsonError)
  | refused (error : StoreError)

/-- The words for a refusal. -/
def DumpError.message : DumpError → String
  | unreadable error => s!"Invalid schema snapshot: {error.message}"
  | refused error => error.message

namespace Store

/-- The rows of a store as JSON. -/
def dumpValue (s : Store) : Json := (Snapshot.codec .epoch).encode s.snapshot

/-- The rows of a store as text. -/
def dump (s : Store) : String := s.dumpValue.render

/-- The store of a dump that is read at the instant `now`. -/
def ofDump (now : Instant) (bytes : Bytes) : Except DumpError Store := do
  let rows ← ((Snapshot.codec now).ofBytes bytes).mapError .unreadable
  (ofSnapshot rows).mapError .refused

end Store

end SchemaForge
