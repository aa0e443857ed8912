import Mathlib.Data.List.Flatten
import SchemaForge.Proofs.Files.Path
import SchemaForge.Proofs.Files.Walk

/-!
# Where paths lead

What is known about the place that a path leads to: what is there, how the places for different aims
agree, what becomes of the place when the tree changes, and that a path without links and steps
upwards leads to where its names say.
-/

namespace SchemaForge

open HostPath (moves)

namespace FileTree

variable {t t' : FileTree} {aim : Aim} {links : Nat} {dir d l : Location} {steps : List String}
  {p : Place} {n : Node}

/-! ### What is at the place -/

/-- A place is as a tree has it: what is taken is there, and what is free could be put there. -/
def Holds (t : FileTree) : Place → Prop
  | .taken l n => t.get? l = some n
  | .free l => ∃ d s, l = d ++ [.text s] ∧ t.get? d = some .directory ∧ IsName s ∧ t.get? l = none

theorem get?_start (hdir : t.get? dir = some .directory) (q : HostPath) :
    t.get? (start dir q) = some .directory := by
  unfold start
  split
  · exact t.get?_root
  · exact hdir

theorem Names.isName {s : String} {rest : List String} (h : Names aim s rest)
    (hs : s = "" ∨ Text.IsSegment s) : IsName s :=
  ⟨hs.resolve_left h.ne_empty, h.ne_dot, h.ne_up⟩

theorem Leads.holds (h : t.Leads aim links dir steps p) (ht : t.WellFormed)
    (hdir : t.get? dir = some .directory) (hsteps : ∀ s ∈ steps, s = "" ∨ Text.IsSegment s) :
    t.Holds p := by
  induction h with
  | stay => exact hdir
  | skip _ _ ih => exact ih hdir fun s hs => hsteps s (List.mem_cons_of_mem _ hs)
  | up _ ih => exact ih (ht.housed _ _ hdir) fun s hs => hsteps s (List.mem_cons_of_mem _ hs)
  | enter _ hget _ ih => exact ih hget fun s hs => hsteps s (List.mem_cons_of_mem _ hs)
  | follow _ _ _ _ ih =>
    apply ih (get?_start hdir _)
    intro s hs
    rcases List.mem_append.mp hs with hs | hs
    · exact HostPath.mem_steps hs
    · exact hsteps s (List.mem_cons_of_mem _ hs)
  | file _ hget _ => exact hget
  | link _ hget _ _ => exact hget
  | free hs hget _ =>
    exact ⟨_, _, rfl, hdir, hs.isName (hsteps _ List.mem_cons_self), hget⟩

/-! ### Other aims -/

theorem Leads.node_of_output (h : t.Leads .output links dir steps (.taken l n)) :
    t.Leads .node links dir steps (.taken l n) := by
  generalize hp : Place.taken l n = p at h
  induction h with
  | stay => exact .stay
  | skip hs _ ih => exact .skip hs (ih hp)
  | up _ ih => exact .up (ih hp)
  | enter hs hget _ ih => exact .enter hs.node hget (ih hp)
  | follow hs hget _ _ ih => exact .follow hs.node hget (fun h => Aim.noConfusion h.1) (ih hp)
  | file hs hget hlast => exact .file hs.node hget hlast
  | link _ _ haim _ => cases haim
  | free => cases hp

/-- A path to a directory names an entry, which may be a link to the directory. -/
theorem Leads.entry_of_node (h : t.Leads .node links dir steps (.taken d .directory)) :
    ∃ l n, t.Leads .entry links dir steps (.taken l n) := by
  generalize hp : Place.taken d .directory = p at h
  induction h with
  | stay => exact ⟨_, _, .stay⟩
  | skip hs _ ih =>
    obtain ⟨l, n, h⟩ := ih hp
    exact ⟨l, n, .skip hs h⟩
  | up _ ih =>
    obtain ⟨l, n, h⟩ := ih hp
    exact ⟨l, n, .up h⟩
  | enter hs hget _ ih =>
    obtain ⟨l, n, h⟩ := ih hp
    exact ⟨l, n, .enter ⟨hs.1, hs.2, hs.3, nofun, hs.5⟩ hget h⟩
  | @follow links dir s rest _ target hs hget _ _ ih =>
    have hs' : Names .entry s rest := { hs with usable := fun h => Aim.noConfusion h.1 }
    by_cases hlast : isLast .entry rest
    · exact ⟨_, _, .link hs' hget rfl hlast⟩
    · obtain ⟨l, n, h⟩ := ih hp
      exact ⟨l, n, .follow hs' hget (fun h => hlast h.2) h⟩
  | file => cases hp
  | link => cases hp
  | free => cases hp

/-! ### Changes -/

/-- The way to a directory stays. -/
theorem Leads.kept (h : t.Leads .node links dir steps (.taken d .directory)) (hk : t.Kept t') :
    t'.Leads .node links dir steps (.taken d .directory) := by
  generalize hp : Place.taken d .directory = p at h ⊢
  induction h with
  | stay => exact .stay
  | skip hs _ ih => exact .skip hs (ih hp)
  | up _ ih => exact .up (ih hp)
  | enter hs hget _ ih => exact .enter hs (hk.directory _ hget) (ih hp)
  | follow hs hget hlast _ ih => exact .follow hs (hk.link _ _ hget) hlast (ih hp)
  | file => cases hp
  | link => cases hp
  | free => cases hp

/-- The way to a free place leads to the directory that is made there. -/
theorem Leads.made (h : t.Leads .entry links dir steps (.free l)) (hk : t.Kept t')
    (hl : t'.get? l = some .directory) :
    t'.Leads .node links dir steps (.taken l .directory) := by
  generalize hp : Place.free l = p at h
  induction h with
  | stay => cases hp
  | skip hs _ ih => exact .skip hs (ih hp)
  | up _ ih => exact .up (ih hp)
  | enter hs hget _ ih => exact .enter hs.node (hk.directory _ hget) (ih hp)
  | follow hs hget _ _ ih =>
    exact .follow hs.node (hk.link _ _ hget) (fun h => Aim.noConfusion h.1) (ih hp)
  | file => cases hp
  | link => cases hp
  | @free links dir s rest hs hget hlast =>
    cases hp
    refine .enter hs.node hl ?_
    rcases isLast_iff.mp hlast with rfl | ⟨-, rfl⟩
    · exact .stay
    · exact .skip (.inl rfl) .stay

/-! ### Where names lead -/

/-- Without links and steps upwards a path leads to where its names say. -/
theorem Leads.location_eq (h : t.Leads aim links dir steps p) (hfree : t.LinkFree dir)
    (hup : ".." ∉ steps) : p.location = dir ++ (steps.filter moves).map .text := by
  have deeper : ∀ {dir s}, t.LinkFree dir → t.LinkFree (dir ++ [FileName.text s]) :=
    fun hfree k target hk => hfree k target ((List.prefix_append _ _).trans hk)
  have stop : ∀ {dir : Location} {s rest}, Names aim s rest → isLast aim rest →
      dir ++ [FileName.text s] = dir ++ ((s :: rest).filter moves).map .text := by
    intro dir s rest hs hlast
    rw [List.filter_cons_of_pos (HostPath.moves_iff.mpr ⟨hs.ne_empty, hs.ne_dot⟩)]
    have hrest : rest.filter moves = [] := by
      rcases isLast_iff.mp hlast with rfl | ⟨-, rfl⟩
      · rfl
      · rfl
    rw [hrest]
    rfl
  induction h with
  | stay => simp [Place.location]
  | skip hs _ ih =>
    rw [ih hfree fun hmem => hup (List.mem_cons_of_mem _ hmem), List.filter_cons_of_neg]
    simpa using HostPath.moves_eq_false_iff.mpr hs
  | up => exact absurd List.mem_cons_self hup
  | enter hs _ _ ih =>
    rw [ih (deeper hfree) fun hmem => hup (List.mem_cons_of_mem _ hmem),
      List.filter_cons_of_pos (HostPath.moves_iff.mpr ⟨hs.ne_empty, hs.ne_dot⟩), List.map_cons,
      List.append_assoc]
    rfl
  -- there is no link to follow below the directory
  | follow _ hget _ _ _ => exact absurd hget (hfree _ _ (List.prefix_append _ _))
  | file hs _ hlast => exact stop hs hlast
  | link _ hget _ _ => exact absurd hget (hfree _ _ (List.prefix_append _ _))
  | free hs _ hlast => exact stop hs hlast

/-! ### Steps that do not move -/

theorem walk_of_filter_eq_nil {trail : List String} (h : trail.filter moves = []) :
    t.walk aim links dir trail = .ok (.taken dir .directory) := by
  induction trail with
  | nil => exact walk_nil
  | cons s rest ih =>
    obtain ⟨hs, hrest⟩ := List.forall_mem_cons.mp (List.filter_eq_nil_iff.mp h)
    rw [walk_skip (HostPath.moves_eq_false_iff.mp (Bool.eq_false_iff.mpr hs))]
    exact ih (List.filter_eq_nil_iff.mpr hrest)

/-- Before a name they can be left out. -/
theorem walk_filter_moves {x : String} (hx : moves x) (rest : List String) (links : Nat)
    (dir : Location) (front : List String) :
    t.walk aim links dir (front ++ x :: rest) =
      t.walk aim links dir (front.filter moves ++ x :: rest) := by
  have hmore : ∃ y ∈ x :: rest, y ≠ "" := ⟨x, List.mem_cons_self, (HostPath.moves_iff.mp hx).1⟩
  induction links, dir, front using walk_induct with
  | nil links dir => rfl
  | skip links dir s front hs ih =>
    rw [List.cons_append, walk_skip hs, ih, List.filter_cons_of_neg]
    simpa using HostPath.moves_eq_false_iff.mpr hs
  | up links dir front ih =>
    rw [List.filter_cons_of_pos (by decide), List.cons_append, List.cons_append, walk_up, walk_up,
      ih]
  | name links dir s front h₀ h₁ ih ihl =>
    have hs : moves s := HostPath.moves_iff.mpr (not_or.mp h₀)
    rw [List.filter_cons_of_pos hs, List.cons_append, List.cons_append, walk_name h₀ h₁,
      walk_name h₀ h₁]
    have husable : ∀ front : List String, ¬(aim = .output ∧ front ++ x :: rest = [""]) :=
      fun front h => append_ne_blank hmore front h.2
    rw [if_neg (husable _), if_neg (husable _)]
    split
    · rfl
    generalize t.get? (dir ++ [.text s]) = there
    rcases there with _ | (_ | content | target) <;> simp only [pass]
    · rw [if_neg (not_isLast_append hmore), if_neg (not_isLast_append hmore)]
    · exact ih
    · rw [if_neg (not_isLast_append hmore), if_neg (not_isLast_append hmore)]
    · rw [if_neg fun h => not_isLast_append hmore h.2, if_neg fun h => not_isLast_append hmore h.2]
      rcases links with _ | k
      · rfl
      · -- both walks go on with the same names behind those of the target
        have hk := ihl k (Nat.lt_succ_self k) (start dir target)
        show t.walk _ _ _ _ = t.walk _ _ _ _
        rw [← List.append_assoc, hk, ← List.append_assoc, hk (target.steps ++ front.filter moves),
          List.filter_append, List.filter_append, List.filter_filter]
        simp only [Bool.and_self]

/-- After steps to a directory they do not matter. -/
theorem walk_append_trail_iff {trail : List String} (h : trail.filter moves = []) (links : Nat)
    (dir : Location) (xs : List String) :
    t.walk .node links dir (xs ++ trail) = .ok (.taken d .directory) ↔
      t.walk .node links dir xs = .ok (.taken d .directory) := by
  induction links, dir, xs using walk_induct with
  | nil links dir => rw [List.nil_append, walk_of_filter_eq_nil h, walk_nil]
  | skip links dir s xs hs ih => rw [List.cons_append, walk_skip hs, walk_skip hs, ih]
  | up links dir xs ih => rw [List.cons_append, walk_up, walk_up, ih]
  | name links dir s xs h₀ h₁ ih ihl =>
    have houtput : ∀ P, ¬(Aim.node = .output ∧ P) := fun _ h => Aim.noConfusion h.1
    have hentry : ∀ P, ¬(Aim.node = .entry ∧ P) := fun _ h => Aim.noConfusion h.1
    rw [List.cons_append, walk_name h₀ h₁, walk_name h₀ h₁, if_neg (houtput _),
      if_neg (houtput _)]
    split
    · rfl
    generalize t.get? (dir ++ [.text s]) = there
    rcases there with _ | (_ | content | target) <;> simp only [pass]
    · split <;> split <;> simp
    · exact ih
    · split <;> split <;> simp
    · rw [if_neg (hentry _), if_neg (hentry _)]
      rcases links with _ | k
      · rfl
      · show t.walk _ _ _ _ = _ ↔ t.walk _ _ _ _ = _
        rw [← List.append_assoc]
        exact ihl k (Nat.lt_succ_self k) _ _

/-! ### Names of a path -/

/-- A path is walked by its names, with nothing behind the last one that moves. -/
theorem exists_walk_steps {q : HostPath} {ns : List String} {x : String}
    (h : q.names = ns ++ [x]) :
    ∃ trail, trail.filter moves = [] ∧ moves x ∧ ∀ (t : FileTree) aim links dir,
      t.walk aim links dir q.steps = t.walk aim links dir (ns ++ x :: trail) := by
  obtain ⟨front, trail, hsteps, hfront, htrail, hx⟩ := HostPath.exists_steps h
  refine ⟨trail, htrail, hx, fun t aim links dir => ?_⟩
  rw [hsteps, walk_filter_moves hx, hfront]

/-- Whether a path leads to a directory is a matter of its names. -/
theorem leads_steps_iff {q : HostPath} :
    t.Leads .node links dir q.steps (.taken d .directory) ↔
      t.Leads .node links dir q.names (.taken d .directory) := by
  rw [← walk_eq_ok_iff, ← walk_eq_ok_iff]
  rcases List.eq_nil_or_concat q.names with hnil | ⟨ns, x, hx⟩
  · rw [hnil, walk_nil, walk_of_filter_eq_nil ((HostPath.filter_steps q).trans hnil)]
  · rw [List.concat_eq_append] at hx
    obtain ⟨trail, htrail, -, hwalk⟩ := exists_walk_steps hx
    rw [hwalk, hx, List.append_cons]
    exact walk_append_trail_iff htrail _ _ _

end FileTree

/-! ### Finding a place -/

/-- A path that a file system is ready to walk. -/
structure HostPath.Sound (q : HostPath) : Prop where
  no_nul : '\x00' ∉ q.text.toList
  ne_empty : q.text ≠ ""
  short : q.size < FileTree.pathLimit

theorem HostPath.Sound.of_sublist {q r : HostPath} (h : q.Sound)
    (hsub : r.text.toList.Sublist q.text.toList) (hne : r.text ≠ "") : r.Sound where
  no_nul hmem := h.no_nul (hsub.subset hmem)
  ne_empty := hne
  short := by
    apply Nat.lt_of_le_of_lt _ h.short
    exact (hsub.flatMap String.utf8EncodeChar).length_le

namespace FileTree

theorem find_of_sound {t : FileTree} {aim : Aim} {q : HostPath} (h : q.Sound) :
    t.find aim q = t.walk aim linkLimit (start t.here q) q.steps := by
  unfold find
  rw [if_neg (by simpa using h.no_nul), if_neg (by simpa using h.ne_empty),
    if_neg (Nat.not_le.mpr h.short)]

/-- Other paths are refused, and only the empty one as if something were missing. -/
theorem find_of_not_sound (t : FileTree) (aim : Aim) {q : HostPath} (hq : ¬q.Sound) :
    ∃ e, t.find aim q = .error e ∧ (e = .notFound → q.text = "") := by
  unfold find
  split
  · exact ⟨_, rfl, nofun⟩
  split
  · next hempty => exact ⟨_, rfl, fun _ => by simpa using hempty⟩
  split
  · exact ⟨_, rfl, nofun⟩
  next hnul hempty hsize =>
  exact absurd ⟨by simpa using hnul, by simpa using hempty, Nat.not_le.mp hsize⟩ hq

theorem find_eq_ok_iff {t : FileTree} {aim : Aim} {q : HostPath} {p : Place} :
    t.find aim q = .ok p ↔ q.Sound ∧ t.Leads aim linkLimit (start t.here q) q.steps p := by
  by_cases hq : q.Sound
  · rw [find_of_sound hq, walk_eq_ok_iff, and_iff_right hq]
  · obtain ⟨e, he, -⟩ := find_of_not_sound t aim hq
    rw [he]
    exact iff_of_false nofun fun h => hq h.1

/-- Whatever a path is asked for, the place that is found is as the tree has it. -/
theorem holds_of_find {t : FileTree} {aim : Aim} {q : HostPath} {p : Place} (ht : t.WellFormed)
    (h : t.find aim q = .ok p) : t.Holds p :=
  (find_eq_ok_iff.mp h).2.holds ht (get?_start ht.here q) fun _ => HostPath.mem_steps

/-- A path to a directory leads there as long as no directory and no link goes away. -/
theorem find_kept {t t' : FileTree} {q : HostPath} {d : Location}
    (h : t.find .node q = .ok (.taken d .directory)) (hk : t.Kept t') :
    t'.find .node q = .ok (.taken d .directory) := by
  rw [find_eq_ok_iff] at h ⊢
  rw [start, hk.here]
  exact ⟨h.1, h.2.kept hk⟩

theorem sound_of_find_eq_notFound {t : FileTree} {aim : Aim} {q : HostPath}
    (h : t.find aim q = .error .notFound) (hne : q.text ≠ "") : q.Sound := by
  by_contra hq
  obtain ⟨e, he, hempty⟩ := find_of_not_sound t aim hq
  exact hne (hempty (Except.error.inj (he.symm.trans h)))

/-- The path of a directory on the way is found if the whole path is. -/
theorem find_of_names_append {t : FileTree} {aim : Aim} {q r : HostPath} {ms : List String}
    {p : Place} (h : t.find aim q = .ok p) (hnames : q.names = r.names ++ ms) (hms : ms ≠ [])
    (hrooted : q.rooted = r.rooted) (hr : r.Sound) :
    ∃ d, t.find .node r = .ok (.taken d .directory) := by
  obtain ⟨ns, x, rfl⟩ := (List.eq_nil_or_concat' ms).resolve_left hms
  rw [← List.append_assoc] at hnames
  obtain ⟨trail, -, hx, hwalk⟩ := exists_walk_steps hnames
  obtain ⟨-, hleads⟩ := find_eq_ok_iff.mp h
  rw [← walk_eq_ok_iff, hwalk, List.append_assoc, walk_eq_ok_iff] at hleads
  have hmore : ∃ y ∈ ns ++ x :: trail, y ≠ "" :=
    ⟨x, List.mem_append_right _ List.mem_cons_self, (HostPath.moves_iff.mp hx).1⟩
  -- the steps before a name lead to a directory, whatever becomes of the name
  obtain ⟨d, hd⟩ := hleads.append_inv hmore
  refine ⟨d, find_eq_ok_iff.mpr ⟨hr, leads_steps_iff.mpr ?_⟩⟩
  rwa [start, hrooted] at hd

end FileTree

end SchemaForge
