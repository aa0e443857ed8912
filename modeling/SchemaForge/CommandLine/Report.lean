import SchemaForge.Files.Path

/-!
# What a compile reports
-/

namespace SchemaForge.Report

/-- The report of a compile: where the archive is, its size and its members. -/
def summary (output : HostPath) (size : Nat) (members : List String) : String :=
  let head := s!"✅ Wrote {output.text} ({size} bytes, {members.length} model file(s))\n"
  head ++ String.join (members.map fun name => s!"  - {name}\n")

end SchemaForge.Report
