import SchemaForge.Files.Error
import SchemaForge.Files.Tree

/-!
# Where a path leads

A path is walked step by step from a directory. Links are followed on the way, but only so many of
them; whether a link at the end is followed depends on what the path is asked for.
-/

namespace SchemaForge

/-- What a path is asked for. -/
inductive Aim
  /-- What the path leads to. -/
  | node
  /-- The entry that the path names, also if it is a link, or the place for one. -/
  | entry
  /-- A file to be written, or the place for one. -/
  | output
  deriving DecidableEq

/-- Where a walk ends: at a node, or at a free place in a directory. -/
inductive Place
  | taken (l : Location) (n : Node)
  | free (l : Location)
  deriving DecidableEq

namespace FileTree

/-- The greatest number of bytes in a name. -/
def nameLimit : Nat := 255

/-- The number of bytes that a path must not reach. -/
def pathLimit : Nat := 4096

/-- The greatest number of links that a walk follows. -/
def linkLimit : Nat := 40

/-- The directory that a path starts from, seen from a directory. -/
def start (dir : Location) (p : HostPath) : Location := if p.rooted then [] else dir

/-- Is a step the last one? An entry may be named with a slash behind it. -/
def isLast (aim : Aim) (rest : List String) : Bool :=
  rest.isEmpty || (aim == .entry && rest == [""])

/-- The place that the steps lead to from the directory `dir`. Where a link is followed, `follow` is
given the directory that its target starts from, and the steps of the target before the others. -/
def walkWith (t : FileTree) (aim : Aim) (follow : Location → List String → Except OsError Place)
    (dir : Location) : List String → Except OsError Place
  | [] => .ok (.taken dir .directory)
  | step :: rest =>
    if step = "" ∨ step = "." then walkWith t aim follow dir rest
    else if step = ".." then walkWith t aim follow dir.dropLast rest
    else if aim = .output ∧ rest = [""] then .error .isDirectory
    else if nameLimit < (Text.utf8 step).length then .error .nameTooLong
    else
      let l := dir ++ [.text step]
      match t.get? l with
      | none => if isLast aim rest then .ok (.free l) else .error .notFound
      | some .directory => walkWith t aim follow l rest
      | some (.file content) =>
        if isLast aim rest then .ok (.taken l (.file content)) else .error .notDirectory
      | some (.link target) =>
        if aim = .entry ∧ isLast aim rest then .ok (.taken l (.link target))
        else follow (start dir target) (target.steps ++ rest)

/-- The place that the steps lead to from a directory, with so many links left to follow. -/
def walk (t : FileTree) (aim : Aim) : Nat → Location → List String → Except OsError Place
  | 0 => t.walkWith aim fun _ _ => .error .tooManyLinks
  | links + 1 => t.walkWith aim (t.walk aim links)

/-- The place that a path leads to. -/
def find (t : FileTree) (aim : Aim) (p : HostPath) : Except OsError Place :=
  if p.text.toList.contains '\x00' then .error .nulInPath
  else if p.text.isEmpty then .error .notFound
  else if pathLimit ≤ p.size then .error .nameTooLong
  else t.walk aim linkLimit (start t.here p) p.steps

end FileTree

end SchemaForge
