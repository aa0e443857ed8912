import Mathlib.Data.List.Basic
import SchemaForge.Files.Call
import SchemaForge.Proofs.Files.Places
import SchemaForge.Proofs.Script

/-!
# Directories that are made with those they are in

Making a directory with those it is in puts directories at free places and does nothing else. The
first place that it puts one at is the first free one on the way, and all others are below that.
-/

namespace SchemaForge

open HostPath (moves)

namespace FileTree

variable {t t' : FileTree} {p q : HostPath} {l : Location} {ps : List HostPath}

/-- The answer when a directory was to be made: one that is there already will do. -/
def accepted (t : FileTree) (p : HostPath) : Except OsError Unit → Except OsError Unit
  | .ok () => .ok ()
  | .error e => if t.isDirectory p then .ok () else .error e

/-- One directory is made. -/
def attempt (t : FileTree) (p : HostPath) : Except OsError Unit × FileTree :=
  ((t.settle (t.makeDirectory p)).2.accepted p (t.settle (t.makeDirectory p)).1,
    (t.settle (t.makeDirectory p)).2)

/-- The answer and the tree after directories are made as far as they are missing. -/
def afterDirectories (t : FileTree) (ps : List HostPath) : Except OsError Unit × FileTree :=
  (makeDirectories ps).run perform t

@[simp]
theorem afterDirectories_nil : t.afterDirectories [] = (.ok (), t) := rfl

theorem run_accept (r : Except OsError Unit) :
    (makeDirectories.accept p r).run perform t = (t.accepted p r, t) := by
  rcases r with e | ⟨⟩
  · show (Script.run perform (if t.isDirectory p then _ else _) t) = _
    unfold accepted
    dsimp only
    split <;> rfl
  · rfl

/-- One directory is made after others, unless these could not be made. -/
def attemptAfter (p : HostPath) : Except OsError Unit × FileTree → Except OsError Unit × FileTree
  | (.error e, t) => (.error e, t)
  | (.ok (), t) => t.attempt p

theorem afterDirectories_cons :
    t.afterDirectories (p :: ps) =
      if t.makeDirectory p = .error .notFound then attemptAfter p (t.afterDirectories ps)
      else t.attempt p := by
  rw [afterDirectories, makeDirectories, Script.run_ask_bind, perform, performWith, attempt]
  rcases t.makeDirectory p with e | t₁
  · by_cases he : e = .notFound
    · subst he
      rw [if_pos rfl]
      show Script.run perform (Script.bind (makeDirectories ps) _) t = _
      rw [Script.run_bind, ← afterDirectories]
      rcases t.afterDirectories ps with ⟨e | ⟨⟩, t'⟩
      · rfl
      · exact run_accept _
    · rw [if_neg fun h => he (Except.error.inj h)]
      show _ = (t.accepted p (.error e), t)
      rw [← run_accept]
      cases e <;> first | exact absurd rfl he | rfl
  · rfl

/-! ### One directory -/

theorem makeDirectory_of_taken {n : Node} (h : t.find .entry p = .ok (.taken l n)) :
    t.makeDirectory p = .error .alreadyThere := by
  rw [makeDirectory, h]
  rfl

theorem makeDirectory_of_free (h : t.find .entry p = .ok (.free l)) :
    t.makeDirectory p = .ok (t.put l .directory) := by
  rw [makeDirectory, h]
  rfl

theorem makeDirectory_of_error {e : OsError} (h : t.find .entry p = .error e) :
    t.makeDirectory p = .error e := by
  rw [makeDirectory, h]
  rfl

theorem isDirectory_iff : t.isDirectory p ↔ ∃ l, t.find .node p = .ok (.taken l .directory) := by
  unfold isDirectory
  split
  · next l h => exact ⟨fun _ => ⟨l, h⟩, fun _ => rfl⟩
  · next hno =>
    refine ⟨fun h => absurd h Bool.false_ne_true, ?_⟩
    rintro ⟨l, h⟩
    exact absurd h (hno l)

/-- An attempt makes the directory at the free place that the path names, or changes nothing. -/
theorem attempt_cases (t : FileTree) (p : HostPath) :
    (∃ l, t.find .entry p = .ok (.free l) ∧ t.attempt p = (.ok (), t.put l .directory)) ∨
      (∃ e, t.makeDirectory p = .error e ∧ t.attempt p = (t.accepted p (.error e), t)) := by
  rcases hfind : t.find .entry p with e | (⟨l, n⟩ | l)
  · have h := makeDirectory_of_error hfind
    exact .inr ⟨e, h, by rw [attempt, h]; rfl⟩
  · have h := makeDirectory_of_taken hfind
    exact .inr ⟨_, h, by rw [attempt, h]; rfl⟩
  · have h := makeDirectory_of_free hfind
    exact .inl ⟨l, rfl, by rw [attempt, h]; rfl⟩

theorem accepted_error_eq_ok_iff {e : OsError} :
    t.accepted p (.error e) = .ok () ↔ t.isDirectory p := by
  unfold accepted
  dsimp only
  split
  · next h => simp [h]
  · next h => simp [h]

/-! ### What is new -/

/-- A tree with more directories in it, at places that were free. -/
structure Extended (t t' : FileTree) : Prop where
  wellFormed : t'.WellFormed
  here : t'.here = t.here
  new : ∀ k, t'.get? k = t.get? k ∨ t.get? k = none ∧ t'.get? k = some .directory

theorem Extended.refl (ht : t.WellFormed) : t.Extended t := ⟨ht, rfl, fun _ => .inl rfl⟩

theorem Extended.trans {t₁ t₂ t₃ : FileTree} (h₁ : t₁.Extended t₂) (h₂ : t₂.Extended t₃) :
    t₁.Extended t₃ := by
  refine ⟨h₂.wellFormed, h₂.here.trans h₁.here, fun k => ?_⟩
  rcases h₁.new k with hk₁ | ⟨hk₁, hd₁⟩
  · rcases h₂.new k with hk₂ | ⟨hk₂, hd₂⟩
    · exact .inl (hk₂.trans hk₁)
    · exact .inr ⟨hk₁.symm.trans hk₂, hd₂⟩
  · rcases h₂.new k with hk₂ | ⟨hk₂, -⟩
    · exact .inr ⟨hk₁, hk₂.trans hd₁⟩
    · rw [hd₁] at hk₂
      cases hk₂

theorem Extended.get? (h : t.Extended t') {k : Location} {n : Node} (hn : t.get? k = some n) :
    t'.get? k = some n := by
  rcases h.new k with hk | ⟨hk, -⟩
  · exact hk.trans hn
  · rw [hn] at hk
    cases hk

theorem Extended.kept (h : t.Extended t') : t.Kept t' :=
  ⟨h.here, fun _ => h.get?, fun _ _ => h.get?⟩

theorem Extended.linkFree (h : t.Extended t') {k : Location} (hk : t.LinkFree k) :
    t'.LinkFree k := by
  intro j target hkj hj
  rcases h.new j with hold | ⟨-, hdir⟩
  · exact hk j target hkj (hold.symm.trans hj)
  · rw [hdir] at hj
    cases hj

theorem extended_put (ht : t.WellFormed) (h : t.Holds (.free l)) :
    t.Extended (t.put l .directory) := by
  obtain ⟨d, s, rfl, hd, hs, hfree⟩ := h
  have hne : d ++ [FileName.text s] ≠ [] := by simp
  refine ⟨ht.put _ hd hs (by rw [hfree]; nofun), rfl, fun k => ?_⟩
  rw [get?_put t hne]
  by_cases hk : k = d ++ [.text s]
  · rw [if_pos hk, hk]
    exact .inr ⟨hfree, rfl⟩
  · rw [if_neg hk]
    exact .inl rfl

theorem extended_attempt (ht : t.WellFormed) (p : HostPath) : t.Extended (t.attempt p).2 := by
  rcases t.attempt_cases p with ⟨l, hfind, h⟩ | ⟨e, -, h⟩
  · rw [h]
    exact extended_put ht (holds_of_find ht hfind)
  · rw [h]
    exact .refl ht

theorem extended_afterDirectories (ht : t.WellFormed) (ps : List HostPath) :
    t.Extended (t.afterDirectories ps).2 := by
  induction ps with
  | nil => exact .refl ht
  | cons p outer ih =>
    rw [afterDirectories_cons]
    split
    · rcases hrun : t.afterDirectories outer with ⟨e | ⟨⟩, t₁⟩
      · rw [hrun] at ih
        exact ih
      · rw [hrun] at ih
        exact ih.trans (extended_attempt ih.wellFormed p)
    · exact extended_attempt ht p

/-! ### The answer -/

/-- A path that has led to a free place leads to the directory that is put there. -/
theorem find_put_of_free (ht : t.WellFormed) (h : t.find .entry p = .ok (.free l)) :
    (t.put l .directory).find .node p = .ok (.taken l .directory) := by
  have hholds := holds_of_find ht h
  obtain ⟨hsound, hleads⟩ := find_eq_ok_iff.mp h
  have hmade : (t.put l .directory).get? l = some .directory := by
    obtain ⟨d, s, rfl, -⟩ := hholds
    rw [get?_put t (by simp), if_pos rfl]
  exact find_eq_ok_iff.mpr ⟨hsound, hleads.made (extended_put ht hholds).kept hmade⟩

theorem isDirectory_of_attempt_eq_ok (ht : t.WellFormed) (h : t.attempt p = (.ok (), t')) :
    t'.isDirectory p := by
  rcases t.attempt_cases p with ⟨l, hfind, hput⟩ | ⟨e, -, hkeep⟩
  · obtain ⟨-, rfl⟩ := Prod.mk.inj (hput.symm.trans h)
    exact isDirectory_iff.mpr ⟨l, find_put_of_free ht hfind⟩
  · obtain ⟨hok, rfl⟩ := Prod.mk.inj (hkeep.symm.trans h)
    exact accepted_error_eq_ok_iff.mp hok

/-- After the answer that all went well, the directory is there. -/
theorem isDirectory_of_afterDirectories_eq_ok (ht : t.WellFormed)
    (h : t.afterDirectories (p :: ps) = (.ok (), t')) : t'.isDirectory p := by
  rw [afterDirectories_cons] at h
  split at h
  · have hext := extended_afterDirectories ht ps
    rcases hrun : t.afterDirectories ps with ⟨e | ⟨⟩, t₁⟩
    · rw [hrun] at h
      cases h
    · rw [hrun] at h hext
      exact isDirectory_of_attempt_eq_ok hext.wellFormed h
  · exact isDirectory_of_attempt_eq_ok ht h

/-- Whatever is new after an attempt is the directory that the path leads to. -/
theorem find_of_attempt (ht : t.WellFormed) (h : (t.attempt p).2.get? l ≠ t.get? l) :
    (t.attempt p).2.find .node p = .ok (.taken l .directory) := by
  rcases t.attempt_cases p with ⟨k, hfind, hput⟩ | ⟨e, -, hkeep⟩
  · rw [hput] at h ⊢
    obtain ⟨d, s, rfl, -⟩ := holds_of_find ht hfind
    dsimp only at h ⊢
    rw [get?_put t (by simp)] at h
    split at h
    · next hl =>
      subst hl
      exact find_put_of_free ht hfind
    · exact absurd rfl h
  · rw [hkeep] at h
    exact absurd rfl h

/-- Whatever is new after directories are made is the directory that one of the paths leads to. -/
theorem exists_find_of_afterDirectories (ht : t.WellFormed)
    (h : (t.afterDirectories ps).2.get? l ≠ t.get? l) :
    ∃ p ∈ ps, (t.afterDirectories ps).2.find .node p = .ok (.taken l .directory) := by
  induction ps with
  | nil => exact absurd rfl h
  | cons p outer ih =>
    have hext := extended_afterDirectories ht outer
    rw [afterDirectories_cons] at h ⊢
    split at h
    · next hmissing =>
      rw [if_pos hmissing]
      rcases hrun : t.afterDirectories outer with ⟨e | ⟨⟩, t₁⟩
      · rw [hrun] at h ih
        obtain ⟨q, hq, hfind⟩ := ih h
        exact ⟨q, List.mem_cons_of_mem _ hq, hfind⟩
      · rw [hrun] at h ih hext
        dsimp only [attemptAfter] at h ih hext ⊢
        -- what is new was there before the last attempt, or is what this attempt has made
        by_cases hsame : (t₁.attempt p).2.get? l = t₁.get? l
        · rw [hsame] at h
          obtain ⟨q, hq, hfind⟩ := ih h
          have hkept := (extended_attempt hext.wellFormed p).kept
          exact ⟨q, List.mem_cons_of_mem _ hq, find_kept hfind hkept⟩
        · exact ⟨p, List.mem_cons_self, find_of_attempt hext.wellFormed hsame⟩
    · next hthere =>
      rw [if_neg hthere]
      exact ⟨p, List.mem_cons_self, find_of_attempt ht h⟩

/-- Nothing is done for a directory that is there. -/
theorem afterDirectories_of_isDirectory (h : t.isDirectory p) :
    t.afterDirectories (p :: ps) = (.ok (), t) := by
  obtain ⟨d, hfind⟩ := isDirectory_iff.mp h
  obtain ⟨hsound, hleads⟩ := find_eq_ok_iff.mp hfind
  obtain ⟨l, n, hentry⟩ := hleads.entry_of_node
  have hmake := makeDirectory_of_taken (find_eq_ok_iff.mpr ⟨hsound, hentry⟩)
  rw [afterDirectories_cons, hmake, if_neg nofun, attempt, hmake]
  show (t.accepted p (.error .alreadyThere), t) = _
  rw [accepted_error_eq_ok_iff.mpr h]

/-- Nothing is done for the directories that an entry is in if its place is found. -/
theorem afterDirectories_tail_of_find {aim : Aim} {place : Place}
    (h : t.find aim p = .ok place) : t.afterDirectories p.ancestors.tail = (.ok (), t) := by
  rcases hp : p.parent? with _ | q
  · rw [HostPath.ancestors_of_parent_eq_none hp]
    rfl
  rw [HostPath.ancestors_of_parent hp, List.tail_cons]
  rcases hq : q.parent? with _ | r
  · rw [HostPath.ancestors_of_parent_eq_none hq]
    rfl
  rw [HostPath.ancestors_of_parent hq]
  have hne := HostPath.components_ne_nil hq
  obtain ⟨x, hx⟩ := HostPath.exists_names_eq hp hne
  have hsound : q.Sound := (find_eq_ok_iff.mp h).1.of_sublist
    (HostPath.prefix_text_parent hp).sublist (HostPath.text_ne_empty hne)
  have hrooted := (HostPath.rooted_parent hp).symm
  -- the directory that the entry is in is found on the way to it
  exact afterDirectories_of_isDirectory
    (isDirectory_iff.mpr (find_of_names_append h hx (List.cons_ne_nil x []) hrooted hsound))

/-! ### The first place -/

/-- The first free place on the way to a directory, if the way to it is there. The paths are those
of the directory and of the ones that it is in, from the inside out. -/
def firstMissing (t : FileTree) : List HostPath → Option Location
  | [] => none
  | p :: outer =>
    match t.find .entry p with
    | .ok (.free l) => some l
    | .ok (.taken _ _) => none
    | .error e => if e = .notFound then t.firstMissing outer else none

theorem afterDirectories_of_firstMissing_eq_none (h : t.firstMissing ps = none) :
    (t.afterDirectories ps).2 = t := by
  induction ps with
  | nil => rfl
  | cons p outer ih =>
    -- an attempt where something is already, or where the way fails, leaves the tree as it is
    have hkeep : (∃ l n, t.find .entry p = .ok (.taken l n)) ∨ (∃ e, t.find .entry p = .error e) →
        (t.attempt p).2 = t := by
      intro hp
      rcases t.attempt_cases p with ⟨l, hfind, -⟩ | ⟨e, -, hattempt⟩
      · rw [hfind] at hp
        rcases hp with ⟨l, n, hp⟩ | ⟨e, hp⟩ <;> cases hp
      · rw [hattempt]
    rw [afterDirectories_cons]
    rw [firstMissing] at h
    rcases hfind : t.find .entry p with e | (⟨l, n⟩ | l)
    · rw [makeDirectory_of_error hfind]
      by_cases he : e = .notFound
      · rw [hfind] at h
        have houter := ih ((if_pos he).symm.trans h)
        rw [if_pos (congrArg Except.error he)]
        rcases hrun : t.afterDirectories outer with ⟨e' | ⟨⟩, t₁⟩
        · rw [hrun] at houter
          exact houter
        · rw [hrun] at houter
          obtain rfl : t₁ = t := houter
          exact hkeep (.inr ⟨e, hfind⟩)
      · rw [if_neg fun heq => he (Except.error.inj heq)]
        exact hkeep (.inr ⟨e, hfind⟩)
    · rw [makeDirectory_of_taken hfind, if_neg nofun]
      exact hkeep (.inl ⟨l, n, hfind⟩)
    · rw [hfind] at h
      cases h

/-- A path that goes on without steps upwards from a directory without links leads to where its
names say. -/
theorem Leads.location_eq_append {aim : Aim} {links : Nat} {dir : Location} {ns ms : List String}
    {place : Place}
    (h : t.Leads .node links dir ns (.taken l .directory)) (hfree : t.LinkFree l)
    (hnames : q.names = ns ++ ms) (hne : ms ≠ []) (hup : ".." ∉ ms)
    (hq : t.Leads aim links dir q.steps place) : place.location = l ++ ms.map .text := by
  have hmoves : ∀ m ∈ ms, moves m := by
    intro m hm
    have hname := HostPath.isSegment_of_mem_names (hnames ▸ List.mem_append_right ns hm)
    exact HostPath.moves_iff.mpr ⟨hname.1.1, hname.2⟩
  obtain ⟨front, x, rfl⟩ := (List.eq_nil_or_concat' ms).resolve_left hne
  rw [← List.append_assoc] at hnames
  obtain ⟨trail, htrail, hx, hwalk⟩ := exists_walk_steps hnames
  obtain ⟨k, hk⟩ := h.walk_append
  have hsteps : t.Leads aim k l (front ++ x :: trail) place := by
    rw [← walk_eq_ok_iff, ← hk, ← List.append_assoc, ← hwalk]
    · exact hq.walk_eq
    · exact ⟨x, List.mem_append_right _ List.mem_cons_self, (HostPath.moves_iff.mp hx).1⟩
  have hfilter : (front ++ x :: trail).filter moves = front ++ [x] := by
    rw [List.append_cons, List.filter_append, htrail, List.append_nil,
      List.filter_eq_self.mpr hmoves]
  rw [hsteps.location_eq hfree, hfilter]
  -- a step upwards would be one that moves
  intro hmem
  have hmoved : ".." ∈ (front ++ x :: trail).filter moves :=
    List.mem_filter.mpr ⟨hmem, by decide⟩
  exact hup (hfilter ▸ hmoved)

/-- So it leads to somewhere below the directory. -/
theorem Leads.location_below {aim : Aim} {links : Nat} {dir : Location} {ns ms : List String}
    {place : Place}
    (h : t.Leads .node links dir ns (.taken l .directory)) (hfree : t.LinkFree l)
    (hnames : q.names = ns ++ ms) (hne : ms ≠ []) (hup : ".." ∉ ms)
    (hq : t.Leads aim links dir q.steps place) : l <+: place.location :=
  h.location_eq_append hfree hnames hne hup hq ▸ List.prefix_append _ _

/-- A free place has become a directory, everything else that is new is below it, and names lead
through it. -/
structure Begun (t t' : FileTree) (dir : Location) (names : List String) (l : Location) :
    Prop where
  missing : t.get? l = none
  made : t'.get? l = some .directory
  below : ∀ k, t'.get? k ≠ t.get? k → l <+: k
  way : ∃ ns ms, names = ns ++ ms ∧ ".." ∉ ms ∧
    t'.Leads .node linkLimit dir ns (.taken l .directory)

theorem Begun.linkFree {dir : Location} {names : List String} (h : t.Begun t' dir names l)
    (ht : t.WellFormed) (hext : t.Extended t') : t'.LinkFree l := by
  apply hext.linkFree
  intro k target hlk hk
  have hmissing : t.get? k = none := by
    by_cases hne : l = k
    · exact hne ▸ h.missing
    · exact ht.nothing_below (by rw [h.missing]; nofun) hlk hne
  rw [hmissing] at hk
  cases hk

/-- A path with more names leads to somewhere below. -/
theorem Begun.location_below {dir : Location} {names more : List String} {aim : Aim} {place : Place}
    (h : t.Begun t' dir names l) (ht : t.WellFormed) (hext : t.Extended t')
    (hnames : q.names = names ++ more) (hne : more ≠ []) (hup : ".." ∉ more)
    (hq : t'.Leads aim linkLimit dir q.steps place) : l <+: place.location := by
  obtain ⟨ns, ms, rfl, hms, hleads⟩ := h.way
  rw [List.append_assoc] at hnames
  apply hleads.location_below (h.linkFree ht hext) hnames _ _ hq
  · simp [hne]
  · intro hmem
    exact (List.mem_append.mp hmem).elim hms hup

/-- So does a path with one more name. -/
theorem Begun.prefix_of_find {dir : Location} {names : List String} {x : String} {aim : Aim}
    {place : Place} (h : t.Begun t' dir names l) (ht : t.WellFormed) (hext : t.Extended t')
    (hnames : p.names = names ++ [x]) (hx : x ≠ "..") (hdir : start t.here p = dir)
    (hfind : t'.find aim p = .ok place) : l <+: place.location := by
  apply h.location_below ht hext hnames (List.cons_ne_nil x [])
  · exact fun hmem => hx (List.mem_singleton.mp hmem).symm
  · rw [← hdir, ← hext.here]
    exact (find_eq_ok_iff.mp hfind).2

theorem Begun.more {dir : Location} {names : List String} {x : String}
    (h : t.Begun t' dir names l) (hx : x ≠ "..") : t.Begun t' dir (names ++ [x]) l := by
  obtain ⟨ns, ms, rfl, hms, hleads⟩ := h.way
  refine { h with way := ⟨ns, ms ++ [x], List.append_assoc .., ?_, hleads⟩ }
  intro hmem
  rcases List.mem_append.mp hmem with hmem | hmem
  · exact hms hmem
  · exact hx (List.mem_singleton.mp hmem).symm

theorem Begun.attempt {dir : Location} {names : List String} {x : String} {t₁ : FileTree}
    (h : t.Begun t₁ dir names l) (ht : t.WellFormed) (hext : t.Extended t₁)
    (hnames : p.names = names ++ [x]) (hx : x ≠ "..") (hdir : start t.here p = dir) :
    t.Begun (t₁.attempt p).2 dir p.names l := by
  rw [hnames]
  rcases t₁.attempt_cases p with ⟨l', hfind, hattempt⟩ | ⟨e, -, hattempt⟩
  · rw [hattempt]
    have hholds := holds_of_find hext.wellFormed hfind
    have hnext := extended_put hext.wellFormed hholds
    have hplace : l <+: l' := h.prefix_of_find ht hext hnames hx hdir hfind
    have hmore := h.more hx
    obtain ⟨ns, ms, hcut, hms, hleads⟩ := hmore.way
    refine ⟨h.missing, hnext.get? h.made, fun k hk => ?_, ns, ms, hcut, hms, hleads.kept hnext.kept⟩
    by_cases hkl : k = l'
    · exact hkl ▸ hplace
    · apply h.below
      obtain ⟨d, s, rfl, -⟩ := hholds
      rwa [get?_put t₁ (by simp), if_neg hkl] at hk
  · rw [hattempt]
    exact h.more hx

/-- What is begun on the way to a directory goes on with the directory. -/
theorem Begun.outer {dir : Location} {names : List String} {x : String} {outer : List HostPath}
    (h : t.Begun (t.afterDirectories outer).2 dir names l) (ht : t.WellFormed)
    (hfind : t.find .entry p = .error .notFound) (hnames : p.names = names ++ [x])
    (hx : x ≠ "..") (hdir : start t.here p = dir) :
    t.Begun (t.afterDirectories (p :: outer)).2 dir p.names l := by
  have hext := extended_afterDirectories ht outer
  rw [afterDirectories_cons, makeDirectory_of_error hfind, if_pos rfl]
  rcases hrun : t.afterDirectories outer with ⟨e | ⟨⟩, t₁⟩
  · rw [hrun] at h
    rw [hnames]
    exact h.more hx
  · rw [hrun] at h hext
    exact h.attempt ht hext hnames hx hdir

theorem begun_put (ht : t.WellFormed) (h : t.find .entry p = .ok (.free l)) :
    t.Begun (t.put l .directory) (start t.here p) p.names l := by
  have hfind := find_put_of_free ht h
  obtain ⟨d, s, rfl, -, -, hmissing⟩ := holds_of_find ht h
  have hput := get?_put t (l := d ++ [.text s]) (by simp) .directory
  have hmade : (t.put (d ++ [.text s]) .directory).get? (d ++ [.text s]) = some .directory := by
    rw [hput, if_pos rfl]
  refine ⟨hmissing, hmade, fun k hk => ?_, p.names, [], (List.append_nil _).symm, nofun, ?_⟩
  · rw [hput] at hk
    by_cases hkl : k = d ++ [.text s]
    · exact hkl ▸ List.prefix_refl _
    · rw [if_neg hkl] at hk
      exact absurd rfl hk
  · exact leads_steps_iff.mp (find_eq_ok_iff.mp hfind).2

/-- The entry for a directory is found. -/
theorem find_ne_notFound {d : Location}
    (h : t.Leads .node linkLimit (start t.here p) p.names (.taken d .directory))
    (hne : p.components ≠ []) : t.find .entry p ≠ .error .notFound := by
  intro hfind
  have hsound : p.Sound := by
    exact sound_of_find_eq_notFound hfind (HostPath.text_ne_empty hne)
  obtain ⟨l', n', hentry⟩ := (leads_steps_iff.mpr h).entry_of_node
  rw [find_eq_ok_iff.mpr ⟨hsound, hentry⟩] at hfind
  cases hfind

/-- Where the way to a directory is there, none is missing. -/
theorem firstMissing_of_leads {p : HostPath} {d : Location}
    (h : t.Leads .node linkLimit (start t.here p) p.names (.taken d .directory)) :
    t.firstMissing p.ancestors = none := by
  rcases hp : p.parent? with _ | q
  · rw [HostPath.ancestors_of_parent_eq_none hp]
    rfl
  rw [HostPath.ancestors_of_parent hp, firstMissing]
  rcases hfind : t.find .entry p with e | (⟨k, n⟩ | k)
  · -- whatever the refusal is, it is not that something is missing
    refine if_neg ?_
    rintro rfl
    exact find_ne_notFound h (HostPath.components_ne_nil hp) hfind
  · rfl
  · obtain ⟨k', n, hentry⟩ := (leads_steps_iff.mpr h).entry_of_node
    cases hentry.unique (find_eq_ok_iff.mp hfind).2

/-- The first place on the way to a directory is that of the directory itself, if the way to it is
there, or else one on the way to the directories that it is in. -/
theorem of_firstMissing_cons (h : t.firstMissing (p :: ps) = some l) :
    t.find .entry p = .ok (.free l) ∨
      t.find .entry p = .error .notFound ∧ t.firstMissing ps = some l := by
  rw [firstMissing] at h
  rcases hfind : t.find .entry p with e | (⟨k, n⟩ | k)
  · rw [hfind] at h
    dsimp only at h
    split at h
    · next he => exact .inr ⟨congrArg Except.error he, h⟩
    · cases h
  · rw [hfind] at h
    cases h
  · rw [hfind] at h
    cases h
    exact .inl rfl

theorem begun_of_free (ht : t.WellFormed) (h : t.find .entry p = .ok (.free l)) :
    t.Begun (t.afterDirectories (p :: ps)).2 (start t.here p) p.names l := by
  have hattempt : t.attempt p = (.ok (), t.put l .directory) := by
    rw [attempt, makeDirectory_of_free h]
    rfl
  rw [afterDirectories_cons, makeDirectory_of_free h, if_neg nofun, hattempt]
  exact begun_put ht h

/-- Making a directory below one that is there, on a way without steps upwards, changes nothing but
the first missing place and what is below it. -/
theorem begun_of_firstMissing (ht : t.WellFormed) {base : HostPath} {b : Location}
    {zs : List String}
    (hbase : t.Leads .node linkLimit (start t.here base) base.names (.taken b .directory))
    (hrooted : p.rooted = base.rooted) (hnames : p.names = base.names ++ zs) (hup : ".." ∉ zs)
    (h : t.firstMissing p.ancestors = some l) :
    t.Begun (t.afterDirectories p.ancestors).2 (start t.here base) p.names l := by
  have hstart : start t.here p = start t.here base := by
    rw [start, start, hrooted]
  -- induction on the names below the base: the directory that `p` is in has one less
  induction zs using List.reverseRecOn generalizing p with
  | nil =>
    rw [List.append_nil] at hnames
    rw [firstMissing_of_leads (hstart ▸ hnames ▸ hbase)] at h
    cases h
  | append_singleton ys x ih =>
    rcases hq : p.parent? with _ | q
    · rw [HostPath.ancestors_of_parent_eq_none hq] at h
      cases h
    rw [HostPath.ancestors_of_parent hq] at h ⊢
    have hqrooted := (HostPath.rooted_parent hq).trans hrooted
    have hqnames : q.names = base.names ++ ys := by
      rw [HostPath.names_parent hq, hnames, ← List.append_assoc, List.dropLast_concat]
    rcases of_firstMissing_cons h with hfree | ⟨hmissing, hfirst⟩
    · rw [← hstart]
      exact begun_of_free ht hfree
    · have hbegun : t.Begun (t.afterDirectories q.ancestors).2 (start t.here base) q.names l := by
        apply ih hqrooted hqnames (fun hmem => hup (List.mem_append_left _ hmem)) hfirst
        rw [start, start, hqrooted]
      have hx : x ≠ ".." := by
        rintro rfl
        exact hup (List.mem_append_right _ List.mem_cons_self)
      refine hbegun.outer ht hmissing ?_ hx hstart
      rw [hnames, hqnames, List.append_assoc]

end FileTree

end SchemaForge
