import SchemaForge.Proofs.Except
import SchemaForge.Proofs.Files.Directories

/-!
# What calls to a file system do

One equation or one case distinction for each call. A change of the tree begins at a location if
something comes or goes there and whatever else changes is below it.
-/

namespace SchemaForge

namespace FileTree

variable {t t' : FileTree} {l : Location}

/-! ### Looking -/

@[simp]
theorem performWith_locate (canonical : FileTree → HostPath → Except OsError Location)
    (p : HostPath) : performWith canonical (.locate p) t = (canonical t p, t) := rfl

theorem locate_eq_ok_iff {p : HostPath} :
    t.locate p = .ok l ↔ ∃ n, t.find .node p = .ok (.taken l n) := by
  unfold locate
  rcases t.find .node p with e | (⟨k, n⟩ | k) <;> simp

theorem isThere_iff {p : HostPath} : t.isThere p ↔ ∃ l, t.locate p = .ok l := by
  simp only [locate_eq_ok_iff]
  unfold isThere
  rcases t.find .node p with e | (⟨k, n⟩ | k) <;> simp

theorem read_eq_ok_iff {p : HostPath} {content : Bytes} :
    t.read p = .ok content ↔ ∃ l, t.find .node p = .ok (.taken l (.file content)) := by
  unfold read
  rcases t.find .node p with e | (⟨k, _ | old | target⟩ | k) <;> simp

/-- The entries of the directory at a location. -/
def entries (t : FileTree) (l : Location) : List DirectoryEntry :=
  (t.children l).map fun (name, n) => ⟨name, n matches .file _⟩

theorem list_eq_ok_iff {p : HostPath} {es : List DirectoryEntry} :
    t.list p = .ok es ↔ ∃ l, t.find .node p = .ok (.taken l .directory) ∧ es = t.entries l := by
  unfold list
  rcases t.find .node p with e | (⟨k, _ | old | target⟩ | k)
  · simp
  · constructor
    · intro h
      exact ⟨k, rfl, (Except.ok.inj h).symm⟩
    · rintro ⟨l, h, rfl⟩
      cases h
      rfl
  · simp
  · simp
  · simp

theorem WellFormed.mem_entries_iff (ht : t.WellFormed) {name : FileName} {isFile : Bool} :
    ⟨name, isFile⟩ ∈ t.entries l ↔
      ∃ n, t.get? (l ++ [name]) = some n ∧ isFile = (n matches .file _) := by
  unfold entries
  rw [List.mem_map]
  constructor
  · rintro ⟨⟨name', n⟩, hmem, heq⟩
    obtain ⟨rfl, rfl⟩ := DirectoryEntry.mk.inj heq
    exact ⟨n, ht.mem_children_iff.mp hmem, rfl⟩
  · rintro ⟨n, hn, rfl⟩
    exact ⟨(name, n), ht.mem_children_iff.mpr hn, rfl⟩

/-! ### Changes that begin at a location -/

/-- Something comes or goes at a location, and whatever else changes is below it. -/
structure Opens (t t' : FileTree) (l : Location) : Prop where
  changed : t'.get? l ≠ t.get? l
  below : ∀ k, t'.get? k ≠ t.get? k → l <+: k

theorem opens_of_put (hmissing : t.get? l = none) (hl : l ≠ []) (n : Node) :
    Opens t (t.put l n) l := by
  refine ⟨?_, fun k hk => ?_⟩
  · rw [get?_put t hl, if_pos rfl, hmissing]
    nofun
  · rw [get?_put t hl] at hk
    by_cases hkl : k = l
    · exact hkl ▸ List.prefix_refl _
    · rw [if_neg hkl] at hk
      exact absurd rfl hk

theorem opens_of_erase {n : Node} (hn : t.get? l = some n) (hl : l ≠ []) :
    Opens t (t.erase l) l := by
  refine ⟨?_, fun k hk => ?_⟩
  · rw [get?_erase t hl, if_pos rfl, hn]
    nofun
  · rw [get?_erase t hl] at hk
    by_cases hkl : k = l
    · exact hkl ▸ List.prefix_refl _
    · rw [if_neg hkl] at hk
      exact absurd rfl hk

theorem Begun.opens {dir : Location} {names : List String} (h : t.Begun t' dir names l) :
    t.Opens t' l := by
  refine ⟨?_, h.below⟩
  rw [h.made, h.missing]
  nofun

/-- What begins inside stays inside, and what begins outside is seen outside. -/
theorem Opens.changes_outside_iff (h : t.Opens t' l) {b : Location} :
    (∃ k, ¬b <+: k ∧ t'.get? k ≠ t.get? k) ↔ ¬b <+: l := by
  constructor
  · rintro ⟨k, hk, hchanged⟩ hl
    exact hk (hl.trans (h.below k hchanged))
  · intro hl
    exact ⟨l, hl, h.changed⟩

/-! ### Writing and removing -/

/-- A file is written to the place that the path leads to, or nothing is done. -/
theorem settle_write_cases (t : FileTree) (p : HostPath) (content : Bytes) :
    (∃ place, t.find .output p = .ok place ∧ place ≠ .taken place.location .directory ∧
        (t.settle (t.write p content)).2 = t.put place.location (.file content)) ∨
      (t.settle (t.write p content)).2 = t := by
  unfold write
  rcases hfind : t.find .output p with e | (⟨l, _ | old | target⟩ | l)
  · exact .inr rfl
  · exact .inr rfl
  · exact .inl ⟨_, rfl, nofun, rfl⟩
  · exact .inr rfl
  · exact .inl ⟨_, rfl, nofun, rfl⟩

theorem write_eq_ok_iff {p : HostPath} {content : Bytes} :
    t.write p content = .ok t' ↔
      ∃ l,
        (t.find .output p = .ok (.free l) ∨
          ∃ old, t.find .output p = .ok (.taken l (.file old))) ∧
        t' = t.put l (.file content) := by
  unfold write
  rcases t.find .output p with e | (⟨k, _ | old | target⟩ | k)
  · simp
  · simp
  · simp [eq_comm]
  · simp
  · simp [eq_comm]

/-- The answer is that all went well if the call gives a tree. -/
theorem settle_mapError_eq_ok_iff {r : Except OsError FileTree} {ε : Type} {f : OsError → ε} :
    ((t.settle r).1.mapError f, (t.settle r).2) = (.ok (), t') ↔ r = .ok t' := by
  rcases r with e | t₁
  · simp [settle]
  · simp [settle]

/-- The free place that a file is to be written to. -/
def newFile? (t : FileTree) (p : HostPath) : Option Location :=
  match t.find .output p with
  | .ok (.free l) => some l
  | _ => none

theorem newFile?_eq_some_iff {p : HostPath} :
    t.newFile? p = some l ↔ t.find .output p = .ok (.free l) := by
  unfold newFile?
  rcases t.find .output p with e | (⟨k, n⟩ | k)
  · simp
  · simp
  · simp

/-- The location of the file or the link that is to be removed. -/
def removed? (t : FileTree) (p : HostPath) : Option Location :=
  match t.find .entry p with
  | .ok (.taken _ .directory) => none
  | .ok (.taken l _) => if p.steps.getLast? = some "" then none else some l
  | _ => none

theorem settle_remove (t : FileTree) (p : HostPath) :
    (t.settle (t.remove p)).2 =
      match t.removed? p with
      | some l => t.erase l
      | none => t := by
  unfold remove removed?
  rcases t.find .entry p with e | (⟨k, _ | content | target⟩ | k)
  · rfl
  · rfl
  · show (t.settle (if _ then _ else _)).2 = _
    split <;> rfl
  · show (t.settle (if _ then _ else _)).2 = _
    split <;> rfl
  · rfl

theorem removed?_eq_some {p : HostPath} (h : t.removed? p = some l) :
    ∃ n, t.find .entry p = .ok (.taken l n) ∧ n ≠ .directory := by
  unfold removed? at h
  split at h
  · cases h
  · next k n hdir hfind =>
    split at h
    · cases h
    · obtain rfl := Option.some.inj h
      exact ⟨n, hfind, fun heq => hdir heq⟩
  · cases h

theorem remove_of_error {p : HostPath} {e : OsError} (h : t.find .entry p = .error e) :
    t.remove p = .error e := by
  rw [remove, h]
  rfl

theorem remove_of_file {p : HostPath} {content : Bytes}
    (h : t.find .entry p = .ok (.taken l (.file content))) (hslash : p.steps.getLast? ≠ some "") :
    t.remove p = .ok (t.erase l) := by
  rw [remove, h]
  exact if_neg hslash

theorem opens_of_removed (ht : t.WellFormed) {p : HostPath} (h : t.removed? p = some l) :
    t.Opens (t.erase l) l := by
  obtain ⟨n, hfind, hdirectory⟩ := removed?_eq_some h
  have hget : t.get? l = some n := holds_of_find ht hfind
  apply opens_of_erase hget
  rintro rfl
  exact hdirectory (Option.some.inj hget).symm

theorem ne_nil_of_holds {p : Place} (h : t.Holds p) (hp : p ≠ .taken p.location .directory) :
    p.location ≠ [] := by
  intro hnil
  rcases p with ⟨k, n⟩ | k
  · obtain rfl : k = [] := hnil
    exact hp (congrArg _ (Option.some.inj (h.symm.trans t.get?_root)))
  · obtain rfl : k = [] := hnil
    obtain ⟨d, s, heq, -⟩ := h
    exact absurd heq (by simp)

/-- A file that is written below what has been begun belongs to the same change. -/
theorem Begun.opens_write {dir : Location} {names : List String} {x : String} {p : HostPath}
    (h : t.Begun t' dir names l) (ht : t.WellFormed) (hext : t.Extended t')
    (hnames : p.names = names ++ [x]) (hx : x ≠ "..") (hdir : start t.here p = dir)
    (content : Bytes) : t.Opens (t'.settle (t'.write p content)).2 l := by
  rcases t'.settle_write_cases p content with ⟨place, hfind, hplace, hput⟩ | hkeep
  · -- the path goes on from the directories that have been begun
    have hbelow := h.prefix_of_find ht hext hnames hx hdir hfind
    have hne := ne_nil_of_holds (holds_of_find hext.wellFormed hfind) hplace
    rw [hput]
    refine ⟨?_, fun k hk => ?_⟩
    · rw [get?_put t' hne, h.missing, h.made]
      split <;> nofun
    · rw [get?_put t' hne] at hk
      by_cases hkl : k = place.location
      · exact hkl ▸ hbelow
      · rw [if_neg hkl] at hk
        exact h.below k hk
  · rw [hkeep]
    exact h.opens

end FileTree

end SchemaForge
