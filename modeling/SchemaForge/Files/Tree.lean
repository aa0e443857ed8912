import SchemaForge.Files.Path

/-!
# Trees of files

A file tree holds directories, files and symbolic links by their location, the list of names that
leads to them from the root. The root is a directory, and relative paths start from a working
directory.
-/

namespace SchemaForge

/-- The name of a file: a text, or bytes that are no text. -/
inductive FileName
  | text (s : String)
  | raw (bytes : Bytes)
  deriving DecidableEq, Repr

/-- The names that lead from the root to a node. -/
abbrev Location := List FileName

/-- What is at a location. -/
inductive Node
  | directory
  | file (content : Bytes)
  | link (target : HostPath)
  deriving DecidableEq, Repr

/-- Files by location, and the working directory. -/
structure FileTree where
  nodes : List (Location × Node)
  here : Location
  deriving DecidableEq

namespace FileTree

/-- What is at a location, if anything is. -/
def get? (t : FileTree) (l : Location) : Option Node :=
  if l = [] then some .directory else t.nodes.lookup l

/-- Nodes with one more, which takes the place of the node at its location. -/
def putNode (l : Location) (n : Node) : List (Location × Node) → List (Location × Node)
  | [] => [(l, n)]
  | (k, m) :: rest => if l = k then (k, n) :: rest else (k, m) :: putNode l n rest

/-- The tree with a node put at a location. -/
def put (t : FileTree) (l : Location) (n : Node) : FileTree :=
  { t with nodes := putNode l n t.nodes }

/-- The tree without the node at a location. -/
def erase (t : FileTree) (l : Location) : FileTree :=
  { t with nodes := t.nodes.filter fun node => node.1 ≠ l }

/-- The nodes in a directory, by name. -/
def children (t : FileTree) (l : Location) : List (FileName × Node) :=
  t.nodes.filterMap fun (k, n) =>
    match k.getLast? with
    | some name => if k.dropLast = l then some (name, n) else none
    | none => none

@[simp]
theorem get?_root (t : FileTree) : t.get? [] = some .directory := rfl

theorem lookup_cons_ite (k m : Location) (v : Node) (rest : List (Location × Node)) :
    ((m, v) :: rest).lookup k = if k = m then some v else rest.lookup k := by
  by_cases h : k = m
  · subst h; simp
  · have : (k == m) = false := by simpa using h
    simp [List.lookup_cons, this, h]

theorem lookup_putNode (l k : Location) (n : Node) (nodes : List (Location × Node)) :
    (putNode l n nodes).lookup k = if k = l then some n else nodes.lookup k := by
  induction nodes with
  | nil => simp [putNode, lookup_cons_ite]
  | cons head rest ih =>
    obtain ⟨m, v⟩ := head
    simp only [putNode]
    split
    · next h => subst h; by_cases h : k = l <;> simp [lookup_cons_ite, h]
    · next h =>
      simp only [lookup_cons_ite, ih]
      by_cases hm : k = m
      · subst hm; simp [Ne.symm h]
      · simp [hm]

theorem get?_put (t : FileTree) {l : Location} (hl : l ≠ []) (n : Node) (k : Location) :
    (t.put l n).get? k = if k = l then some n else t.get? k := by
  by_cases hk : k = []
  · subst hk; simp [Ne.symm hl]
  · simp [get?, hk, put, lookup_putNode]

theorem lookup_filter_ne (l k : Location) (nodes : List (Location × Node)) :
    (nodes.filter fun node => node.1 ≠ l).lookup k = if k = l then none else nodes.lookup k := by
  induction nodes with
  | nil => simp
  | cons head rest ih =>
    obtain ⟨m, v⟩ := head
    by_cases hm : m = l
    · subst hm
      rw [List.filter_cons_of_neg (by simp), ih, lookup_cons_ite]
      split <;> rfl
    · rw [List.filter_cons_of_pos (by simpa using hm), lookup_cons_ite, lookup_cons_ite, ih]
      by_cases hk : k = m
      · subst hk; simp [hm]
      · simp [hk]

theorem get?_erase (t : FileTree) {l : Location} (hl : l ≠ []) (k : Location) :
    (t.erase l).get? k = if k = l then none else t.get? k := by
  by_cases hk : k = []
  · subst hk; simp [Ne.symm hl]
  · have := lookup_filter_ne l k t.nodes
    simp only [get?, hk, if_false, erase]
    exact this

end FileTree

end SchemaForge
