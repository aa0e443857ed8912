import SchemaForge.Files.Walk
import SchemaForge.Proofs.Files.Tree

/-!
# Walks

`Leads` is the relation between the steps of a path and the place that they lead to; a walk finds
exactly that place. Steps in a row are walked one part after the other, and a walk that does not meet
a link or a step upwards goes nowhere but down.
-/

namespace SchemaForge

/-- The location of a place. -/
def Place.location : Place → Location
  | taken l _ => l
  | free l => l

namespace FileTree

/-- A step that gives a name, where a walk for this aim can use it. -/
structure Names (aim : Aim) (s : String) (rest : List String) : Prop where
  ne_empty : s ≠ ""
  ne_dot : s ≠ "."
  ne_up : s ≠ ".."
  usable : ¬(aim = .output ∧ rest = [""])
  short : (Text.utf8 s).length ≤ nameLimit

/-- The steps lead from a directory to a place, with so many links left to follow. -/
inductive Leads (t : FileTree) (aim : Aim) : Nat → Location → List String → Place → Prop
  | stay {links dir} : Leads t aim links dir [] (.taken dir .directory)
  | skip {links dir s rest p} : s = "" ∨ s = "." → Leads t aim links dir rest p →
    Leads t aim links dir (s :: rest) p
  | up {links dir rest p} : Leads t aim links dir.dropLast rest p →
    Leads t aim links dir (".." :: rest) p
  | enter {links dir s rest p} : Names aim s rest →
    t.get? (dir ++ [.text s]) = some .directory → Leads t aim links (dir ++ [.text s]) rest p →
    Leads t aim links dir (s :: rest) p
  | follow {links dir s rest p target} : Names aim s rest →
    t.get? (dir ++ [.text s]) = some (.link target) → ¬(aim = .entry ∧ isLast aim rest) →
    Leads t aim links (start dir target) (target.steps ++ rest) p →
    Leads t aim (links + 1) dir (s :: rest) p
  | file {links dir s rest content} : Names aim s rest →
    t.get? (dir ++ [.text s]) = some (.file content) → isLast aim rest →
    Leads t aim links dir (s :: rest) (.taken (dir ++ [.text s]) (.file content))
  | link {links dir s rest target} : Names aim s rest →
    t.get? (dir ++ [.text s]) = some (.link target) → aim = .entry → isLast aim rest →
    Leads t aim links dir (s :: rest) (.taken (dir ++ [.text s]) (.link target))
  | free {links dir s rest} : Names aim s rest →
    t.get? (dir ++ [.text s]) = none → isLast aim rest →
    Leads t aim links dir (s :: rest) (.free (dir ++ [.text s]))

/-! ### One step of a walk -/

section Steps

variable {t : FileTree} {aim : Aim} {links : Nat} {dir : Location} {s : String}
  {rest : List String}

/-- Where a walk goes on from a link. -/
def afterLink (t : FileTree) (aim : Aim) : Nat → Location → List String → Except OsError Place
  | 0, _, _ => .error .tooManyLinks
  | links + 1, dir, steps => t.walk aim links dir steps

theorem walk_eq_walkWith (t : FileTree) (aim : Aim) (links : Nat) :
    t.walk aim links = t.walkWith aim (t.afterLink aim links) := by
  cases links <;> rfl

@[simp]
theorem walk_nil : t.walk aim links dir [] = .ok (.taken dir .directory) := by
  rw [walk_eq_walkWith, walkWith]

theorem walk_skip (h : s = "" ∨ s = ".") :
    t.walk aim links dir (s :: rest) = t.walk aim links dir rest := by
  rw [walk_eq_walkWith, walkWith, if_pos h]

theorem walk_up :
    t.walk aim links dir (".." :: rest) = t.walk aim links dir.dropLast rest := by
  rw [walk_eq_walkWith, walkWith, if_neg (by decide), if_pos rfl]

/-- Where a walk gets from a directory with a name, by what has the name. It goes `down` into a
directory and `follows` a link. -/
def pass (aim : Aim) (down follow : Location → List String → Except OsError Place) (dir : Location)
    (s : String) (rest : List String) : Option Node → Except OsError Place
  | none => if isLast aim rest then .ok (.free (dir ++ [.text s])) else .error .notFound
  | some .directory => down (dir ++ [.text s]) rest
  | some (.file content) =>
    if isLast aim rest then .ok (.taken (dir ++ [.text s]) (.file content))
    else .error .notDirectory
  | some (.link target) =>
    if aim = .entry ∧ isLast aim rest then .ok (.taken (dir ++ [.text s]) (.link target))
    else follow (start dir target) (target.steps ++ rest)

theorem walk_name (h₀ : ¬(s = "" ∨ s = ".")) (h₁ : s ≠ "..") :
    t.walk aim links dir (s :: rest) =
      if aim = .output ∧ rest = [""] then .error .isDirectory
      else if nameLimit < (Text.utf8 s).length then .error .nameTooLong
      else
        pass aim (t.walk aim links) (t.afterLink aim links) dir s rest
          (t.get? (dir ++ [.text s])) := by
  rw [walk_eq_walkWith, walkWith, if_neg h₀, if_neg h₁]
  rfl

theorem Names.walk_eq_pass (h : Names aim s rest) :
    t.walk aim links dir (s :: rest) =
      pass aim (t.walk aim links) (t.afterLink aim links) dir s rest
        (t.get? (dir ++ [.text s])) := by
  rw [walk_name (not_or.mpr ⟨h.ne_empty, h.ne_dot⟩) h.ne_up, if_neg h.usable,
    if_neg (Nat.not_lt.mpr h.short)]

end Steps

/-- A case for each kind of step; a name may start a walk with fewer links left. -/
theorem walk_induct {motive : Nat → Location → List String → Prop}
    (nil : ∀ links dir, motive links dir [])
    (skip : ∀ links dir s rest, s = "" ∨ s = "." → motive links dir rest →
      motive links dir (s :: rest))
    (up : ∀ links dir rest, motive links dir.dropLast rest → motive links dir (".." :: rest))
    (name : ∀ links dir s rest, ¬(s = "" ∨ s = ".") → s ≠ ".." →
      motive links (dir ++ [.text s]) rest → (∀ k < links, ∀ d steps, motive k d steps) →
      motive links dir (s :: rest))
    (links : Nat) (dir : Location) (steps : List String) : motive links dir steps := by
  induction links using Nat.strongRecOn generalizing dir steps with
  | ind links ih =>
    induction steps generalizing dir with
    | nil => exact nil links dir
    | cons s rest ihs =>
      by_cases h₀ : s = "" ∨ s = "."
      · exact skip links dir s rest h₀ (ihs dir)
      · by_cases h₁ : s = ".."
        · subst h₁
          exact up links dir rest (ihs _)
        · exact name links dir s rest h₀ h₁ (ihs _) ih

/-! ### The place that a walk finds -/

section Place

variable {t : FileTree} {aim : Aim} {links : Nat} {dir : Location} {steps : List String} {p : Place}

theorem Leads.walk_eq (h : t.Leads aim links dir steps p) :
    t.walk aim links dir steps = .ok p := by
  induction h with
  | stay => exact walk_nil
  | skip hs _ ih => rw [walk_skip hs, ih]
  | up _ ih => rw [walk_up, ih]
  | enter hs hget _ ih =>
    rw [hs.walk_eq_pass, hget]
    exact ih
  | follow hs hget hlast _ ih =>
    rw [hs.walk_eq_pass, hget]
    exact (if_neg hlast).trans ih
  | file hs hget hlast =>
    rw [hs.walk_eq_pass, hget]
    exact if_pos hlast
  | link hs hget haim hlast =>
    rw [hs.walk_eq_pass, hget]
    exact if_pos ⟨haim, hlast⟩
  | free hs hget hlast =>
    rw [hs.walk_eq_pass, hget]
    exact if_pos hlast

theorem leads_of_walk_eq (h : t.walk aim links dir steps = .ok p) :
    t.Leads aim links dir steps p := by
  induction links, dir, steps using walk_induct with
  | nil links dir =>
    rw [walk_nil] at h
    cases h
    exact .stay
  | skip links dir s rest hs ih =>
    rw [walk_skip hs] at h
    exact .skip hs (ih h)
  | up links dir rest ih =>
    rw [walk_up] at h
    exact .up (ih h)
  | name links dir s rest h₀ h₁ ih ihl =>
    rw [walk_name h₀ h₁] at h
    split at h
    · cases h
    split at h
    · cases h
    next husable hshort =>
    have hs : Names aim s rest :=
      ⟨fun he => h₀ (.inl he), fun hd => h₀ (.inr hd), h₁, husable, Nat.not_lt.mp hshort⟩
    -- one case for each thing that can have the name, and one for nothing
    rcases hget : t.get? (dir ++ [.text s]) with _ | (_ | content | target) <;>
      rw [hget] at h <;> simp only [pass] at h
    · split at h
      · next hlast =>
        cases h
        exact .free hs hget hlast
      · cases h
    · exact .enter hs hget (ih h)
    · split at h
      · next hlast =>
        cases h
        exact .file hs hget hlast
      · cases h
    · split at h
      · next hlast =>
        cases h
        exact .link hs hget hlast.1 hlast.2
      · next hlast =>
        cases links with
        | zero => cases h
        | succ k => exact .follow hs hget hlast (ihl k (Nat.lt_succ_self k) _ _ h)

theorem walk_eq_ok_iff : t.walk aim links dir steps = .ok p ↔ t.Leads aim links dir steps p :=
  ⟨leads_of_walk_eq, Leads.walk_eq⟩

theorem Leads.unique {q : Place} (h : t.Leads aim links dir steps p)
    (h' : t.Leads aim links dir steps q) : p = q :=
  Except.ok.inj (h.walk_eq.symm.trans h'.walk_eq)

end Place

/-! ### Steps in a row -/

/-- Behind the last name there is at most a slash, if an entry is looked for. -/
theorem isLast_iff {aim : Aim} {rest : List String} :
    isLast aim rest ↔ rest = [] ∨ aim = .entry ∧ rest = [""] := by
  simp [isLast]

/-- Before a name, what is left of the steps is not just a slash at the end. -/
theorem append_ne_blank {ys : List String} (h : ∃ y ∈ ys, y ≠ "") (xs : List String) :
    xs ++ ys ≠ [""] := by
  obtain ⟨y, hy, hne⟩ := h
  intro heq
  have hmem : y ∈ xs ++ ys := List.mem_append_right xs hy
  rw [heq] at hmem
  exact hne (List.mem_singleton.mp hmem)

theorem not_isLast_append {aim : Aim} {xs ys : List String} (h : ∃ y ∈ ys, y ≠ "") :
    ¬isLast aim (xs ++ ys) := by
  intro hlast
  rcases isLast_iff.mp hlast with hnil | ⟨-, hblank⟩
  · obtain ⟨y, hy, -⟩ := h
    rw [(List.append_eq_nil_iff.mp hnil).2] at hy
    cases hy
  · exact append_ne_blank h xs hblank

theorem Names.append {aim aim' : Aim} {s : String} {rest ys : List String}
    (hs : Names aim s rest) (h : ∃ y ∈ ys, y ≠ "") : Names aim' s (rest ++ ys) :=
  { hs with usable := fun heq => append_ne_blank h rest heq.2 }

theorem Names.node {aim : Aim} {s : String} {rest rest' : List String} (hs : Names aim s rest) :
    Names .node s rest' :=
  { hs with usable := fun h => Aim.noConfusion h.1 }

/-- Steps that lead to a directory are walked first. -/
theorem Leads.walk_append {t : FileTree} {links : Nat} {dir d : Location} {xs : List String}
    (h : t.Leads .node links dir xs (.taken d .directory)) :
    ∃ k, ∀ aim ys, (∃ y ∈ ys, y ≠ "") → t.walk aim links dir (xs ++ ys) = t.walk aim k d ys := by
  generalize hp : Place.taken d .directory = p at h
  induction h with
  | @stay links dir =>
    cases hp
    exact ⟨links, fun aim ys _ => rfl⟩
  | skip hs _ ih =>
    obtain ⟨k, hk⟩ := ih hp
    refine ⟨k, fun aim ys hys => ?_⟩
    rw [List.cons_append, walk_skip hs, hk aim ys hys]
  | up _ ih =>
    obtain ⟨k, hk⟩ := ih hp
    refine ⟨k, fun aim ys hys => ?_⟩
    rw [List.cons_append, walk_up, hk aim ys hys]
  | enter hs hget _ ih =>
    obtain ⟨k, hk⟩ := ih hp
    refine ⟨k, fun aim ys hys => ?_⟩
    rw [List.cons_append, (hs.append hys).walk_eq_pass, hget]
    exact hk aim ys hys
  | @follow links dir s rest _ target hs hget hlast _ ih =>
    obtain ⟨k, hk⟩ := ih hp
    refine ⟨k, fun aim ys hys => ?_⟩
    have hmore : ¬(aim = .entry ∧ isLast aim (rest ++ ys)) := fun h => not_isLast_append hys h.2
    -- the target is walked before the steps that are left, `ys` among them
    rw [List.cons_append, (hs.append hys).walk_eq_pass, hget]
    refine (if_neg hmore).trans ?_
    rw [← List.append_assoc]
    exact hk aim ys hys
  | file => cases hp
  | link => cases hp
  | free => cases hp

/-- Before a name, steps must lead to a directory. -/
theorem Leads.append_inv {t : FileTree} {aim : Aim} {links : Nat} {dir : Location}
    {xs ys : List String} {p : Place} (h : t.Leads aim links dir (xs ++ ys) p)
    (hys : ∃ y ∈ ys, y ≠ "") :
    ∃ d, t.Leads .node links dir xs (.taken d .directory) := by
  -- induction on the way; it reaches the directory when no step of `xs` is left
  generalize hzs : xs ++ ys = zs at h
  induction h generalizing xs with
  | stay =>
    rw [(List.append_eq_nil_iff.mp hzs).1]
    exact ⟨_, .stay⟩
  | skip hs _ ih =>
    rcases xs with _ | ⟨x, xs⟩
    · exact ⟨_, .stay⟩
    · obtain ⟨rfl, rfl⟩ := List.cons.inj hzs
      obtain ⟨d, hd⟩ := ih rfl
      exact ⟨d, .skip hs hd⟩
  | up _ ih =>
    rcases xs with _ | ⟨x, xs⟩
    · exact ⟨_, .stay⟩
    · obtain ⟨rfl, rfl⟩ := List.cons.inj hzs
      obtain ⟨d, hd⟩ := ih rfl
      exact ⟨d, .up hd⟩
  | enter hs hget _ ih =>
    rcases xs with _ | ⟨x, xs⟩
    · exact ⟨_, .stay⟩
    · obtain ⟨rfl, rfl⟩ := List.cons.inj hzs
      obtain ⟨d, hd⟩ := ih rfl
      exact ⟨d, .enter hs.node hget hd⟩
  | follow hs hget hlast _ ih =>
    rcases xs with _ | ⟨x, xs⟩
    · exact ⟨_, .stay⟩
    · obtain ⟨rfl, rfl⟩ := List.cons.inj hzs
      obtain ⟨d, hd⟩ := ih (List.append_assoc ..)
      exact ⟨d, .follow hs.node hget (fun h => Aim.noConfusion h.1) hd⟩
  | file _ _ hlast | link _ _ _ hlast | free _ _ hlast =>
    rcases xs with _ | ⟨x, xs⟩
    · exact ⟨_, .stay⟩
    · obtain ⟨rfl, rfl⟩ := List.cons.inj hzs
      exact absurd hlast (not_isLast_append hys)

/-- Names that lead to a directory lead through directories. -/
theorem Leads.of_prefix {t : FileTree} {links : Nat} {dir d : Location} {ns zs : List String}
    (h : t.Leads .node links dir zs (.taken d .directory)) (hns : ns <+: zs)
    (hzs : ∀ z ∈ zs, z ≠ "") : ∃ d', t.Leads .node links dir ns (.taken d' .directory) := by
  obtain ⟨ms, rfl⟩ := hns
  rcases ms with _ | ⟨m, ms⟩
  · rw [List.append_nil] at h
    exact ⟨d, h⟩
  · exact h.append_inv ⟨m, List.mem_cons_self, hzs m (List.mem_append_right _ List.mem_cons_self)⟩

end FileTree

end SchemaForge
