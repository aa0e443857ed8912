import SchemaForge.Proofs.Except
import SchemaForge.Proofs.Files.Calls
import SchemaForge.Proofs.Script
import SchemaForge.Staging.Area

/-!
# What requests to a staging area do

Every request begins with a verdict on its path, which looks at the tree and leaves it alone. What is
done after it is a call to the file system, or directories are made and then there is a call.
-/

namespace SchemaForge.StagingArea

open Script (outcome)

variable {area : StagingArea} {t t' : FileTree} {path : String} {full : HostPath} {b l : Location}

/-- The location that a path leads to. -/
def target? (t : FileTree) (p : HostPath) : Option Location := (t.locate p).toOption

/-- Is a location in the area? -/
def contains (area : StagingArea) (t : FileTree) (l : Location) : Bool :=
  match target? t area.root with
  | some root => root.isPrefixOf l
  | none => area.spells l

/-- The location that is looked at for a path: where it leads, or else where the directory that it is
in is. -/
def anchor? (t : FileTree) (p : HostPath) : Option Location :=
  (target? t p).or (p.parent?.bind (target? t))

/-- What becomes of the path of a request. -/
def verdict (area : StagingArea) (t : FileTree) (path : String) : Except StagingError HostPath :=
  if (Text.segments path).contains ".." then .error (.leavesRoot path)
  else if (anchor? t (area.hostPath path)).all (area.contains t) then .ok (area.hostPath path)
  else .error (.escapesRoot path)

/-! ### Canonical paths -/

/-- What there is to look at for a path: the path itself, or else the directory that it is in. -/
def anchorPath? (t : FileTree) (p : HostPath) : Option HostPath :=
  if t.isThere p then some p else p.parent?.filter t.isThere

/-- Is a location in the area, where canonical paths are what a system answers? -/
def containsWith (canonical : FileTree → HostPath → Except OsError Location) (area : StagingArea)
    (t : FileTree) (l : Location) : Bool :=
  match canonical t area.root with
  | .ok root => root.isPrefixOf l
  | .error _ => area.spells l

/-- What becomes of the path of a request, where canonical paths are what a system answers. -/
def verdictWith (canonical : FileTree → HostPath → Except OsError Location) (area : StagingArea)
    (t : FileTree) (path : String) : Except StagingError HostPath :=
  if (Text.segments path).contains ".." then .error (.leavesRoot path)
  else
    match anchorPath? t (area.hostPath path) with
    | none => .ok (area.hostPath path)
    | some p =>
      match canonical t p with
      | .error e => .error (.failed .resolve path e)
      | .ok l =>
        if area.containsWith canonical t l then .ok (area.hostPath path)
        else .error (.escapesRoot path)

/-- What a verdict goes by: a step upwards, what there is to look at, its canonical path, and whether
this is in the area. -/
inductive Judged (canonical : FileTree → HostPath → Except OsError Location) (area : StagingArea)
    (t : FileTree) (path : String) : Except StagingError HostPath → Prop
  | up : ".." ∈ Text.segments path → Judged canonical area t path (.error (.leavesRoot path))
  | unseen : ".." ∉ Text.segments path → anchorPath? t (area.hostPath path) = none →
    Judged canonical area t path (.ok (area.hostPath path))
  | unnamed {p e} : ".." ∉ Text.segments path → anchorPath? t (area.hostPath path) = some p →
    canonical t p = .error e → Judged canonical area t path (.error (.failed .resolve path e))
  | inside {p l} : ".." ∉ Text.segments path → anchorPath? t (area.hostPath path) = some p →
    canonical t p = .ok l → area.containsWith canonical t l →
    Judged canonical area t path (.ok (area.hostPath path))
  | outside {p l} : ".." ∉ Text.segments path → anchorPath? t (area.hostPath path) = some p →
    canonical t p = .ok l → ¬area.containsWith canonical t l →
    Judged canonical area t path (.error (.escapesRoot path))

section Verdicts

variable {canonical : FileTree → HostPath → Except OsError Location}

theorem judged_verdictWith (canonical : FileTree → HostPath → Except OsError Location)
    (area : StagingArea) (t : FileTree) (path : String) :
    area.Judged canonical t path (area.verdictWith canonical t path) := by
  unfold verdictWith
  by_cases hup : ".." ∈ Text.segments path
  · rw [if_pos (by simpa using hup)]
    exact .up hup
  rw [if_neg (by simpa using hup)]
  rcases hp : anchorPath? t (area.hostPath path) with _ | p
  · exact .unseen hup hp
  dsimp only
  rcases hl : canonical t p with e | l
  · exact .unnamed hup hp hl
  dsimp only
  split
  · next hin => exact .inside hup hp hl hin
  · next hout => exact .outside hup hp hl hout

theorem verdictWith_eq_leavesRoot_iff :
    area.verdictWith canonical t path = .error (.leavesRoot path) ↔ ".." ∈ Text.segments path := by
  have hjudged := area.judged_verdictWith canonical t path
  generalize area.verdictWith canonical t path = r at hjudged
  cases hjudged with
  | up hup => simp [hup]
  | unseen hup => simp [hup]
  | unnamed hup => simp [hup]
  | inside hup => simp [hup]
  | outside hup => simp [hup]

theorem verdictWith_eq_failed_iff {e : OsError} :
    area.verdictWith canonical t path = .error (.failed .resolve path e) ↔
      ".." ∉ Text.segments path ∧
        ∃ p, anchorPath? t (area.hostPath path) = some p ∧ canonical t p = .error e := by
  have hjudged := area.judged_verdictWith canonical t path
  generalize area.verdictWith canonical t path = r at hjudged
  cases hjudged with
  | up hup => simp [hup]
  | unseen _ hp => simp [hp]
  | unnamed hup hp hl => simp [hup, hp, hl]
  | inside _ hp hl => simp [hp, hl]
  | outside _ hp hl => simp [hp, hl]

theorem verdictWith_eq_escapesRoot_iff :
    area.verdictWith canonical t path = .error (.escapesRoot path) ↔
      ".." ∉ Text.segments path ∧
        ∃ p l, anchorPath? t (area.hostPath path) = some p ∧ canonical t p = .ok l ∧
          ¬area.containsWith canonical t l := by
  have hjudged := area.judged_verdictWith canonical t path
  generalize area.verdictWith canonical t path = r at hjudged
  cases hjudged with
  | up hup => simp [hup]
  | unseen _ hp => simp [hp]
  | unnamed _ hp hl => simp [hp, hl]
  | inside _ hp hl hin => simp [hp, hl, hin]
  | outside hup hp hl hout => simp [hup, hp, hl, hout]

/-- There are three ways for a path to be refused. -/
theorem verdictWith_eq_error {e : StagingError}
    (h : area.verdictWith canonical t path = .error e) :
    e = .leavesRoot path ∨ e = .escapesRoot path ∨ ∃ o, e = .failed .resolve path o := by
  have hjudged := h ▸ area.judged_verdictWith canonical t path
  cases hjudged with
  | up => exact .inl rfl
  | unnamed => exact .inr (.inr ⟨_, rfl⟩)
  | outside => exact .inr (.inl rfl)

/-- A path that is not refused is taken from where the area is, and has no step upwards. -/
theorem verdictWith_eq_ok (h : area.verdictWith canonical t path = .ok full) :
    full = area.hostPath path ∧ ".." ∉ Text.segments path := by
  have hjudged := h ▸ area.judged_verdictWith canonical t path
  cases hjudged with
  | unseen hup => exact ⟨rfl, hup⟩
  | inside hup => exact ⟨rfl, hup⟩

end Verdicts

theorem target?_eq_some_iff {p : HostPath} : target? t p = some l ↔ t.locate p = .ok l := by
  rw [target?]
  rcases t.locate p with e | k
  · simp [Except.toOption]
  · simp [Except.toOption]

theorem isSome_target? (t : FileTree) (p : HostPath) : (target? t p).isSome = t.isThere p := by
  unfold target? FileTree.locate FileTree.isThere
  rcases t.find .node p with e | (⟨k, n⟩ | k)
  · rfl
  · rfl
  · rfl

/-- What is looked at is there. -/
theorem locate_of_anchorPath? {p q : HostPath} (h : anchorPath? t p = some q) :
    ∃ l, t.locate q = .ok l := by
  have hthere : t.isThere q := by
    unfold anchorPath? at h
    split at h
    · next hp => exact Option.some.inj h ▸ hp
    · exact (Option.filter_eq_some_iff.mp h).2
  rw [← isSome_target?] at hthere
  obtain ⟨l, hl⟩ := Option.isSome_iff_exists.mp hthere
  exact ⟨l, target?_eq_some_iff.mp hl⟩

theorem anchor?_eq (t : FileTree) (p : HostPath) :
    anchor? t p = (anchorPath? t p).bind (target? t) := by
  unfold anchor? anchorPath?
  rw [← isSome_target?]
  rcases hp : target? t p with _ | l
  · rw [Option.none_or, if_neg (by simp)]
    rcases p.parent? with _ | q
    · rfl
    · rw [Option.bind_some, Option.filter_some, ← isSome_target?]
      rcases hq : target? t q with _ | l
      · rfl
      · exact hq.symm
  · rw [Option.some_or, if_pos (by simp), Option.bind_some, hp]

theorem containsWith_locate : area.containsWith FileTree.locate t = area.contains t := by
  funext l
  unfold containsWith contains target?
  rcases t.locate area.root with e | root
  · rfl
  · rfl

/-- A system that names every place that is there comes to the verdict that the tree determines. -/
theorem verdictWith_locate : area.verdictWith FileTree.locate t path = area.verdict t path := by
  unfold verdictWith verdict
  rw [anchor?_eq, containsWith_locate]
  rcases hp : anchorPath? t (area.hostPath path) with _ | p
  · rfl
  obtain ⟨l, hl⟩ := locate_of_anchorPath? hp
  rw [Option.bind_some, target?_eq_some_iff.mpr hl, Option.all_some]
  dsimp only
  rw [hl]

/-! ### Paths of requests -/

theorem head?_dropWhile_ne (path : String) :
    (String.ofList (path.toList.dropWhile (· == '/'))).toList.head? ≠ some '/' := by
  rw [String.toList_ofList]
  intro h
  have := List.head?_dropWhile_not (· == '/') path.toList
  rw [h] at this
  exact absurd this (by decide)

theorem rooted_hostPath (path : String) : (area.hostPath path).rooted = area.root.rooted :=
  HostPath.rooted_join (head?_dropWhile_ne path)

theorem start_hostPath (dir : Location) (path : String) :
    FileTree.start dir (area.hostPath path) = FileTree.start dir area.root := by
  rw [FileTree.start, FileTree.start, rooted_hostPath]

theorem start_parent_hostPath {q : HostPath} (hq : (area.hostPath path).parent? = some q)
    (dir : Location) : FileTree.start dir q = FileTree.start dir area.root := by
  rw [FileTree.start, FileTree.start, HostPath.rooted_parent hq, rooted_hostPath]

theorem names_hostPath (path : String) :
    (area.hostPath path).names = area.root.names ++ (Text.segments path).filter (· ≠ ".") := by
  unfold hostPath
  rw [HostPath.names_join (head?_dropWhile_ne path), Text.segments_dropWhile, String.ofList_toList]

theorem verdict_eq_ok (h : area.verdict t path = .ok full) :
    full = area.hostPath path ∧ ".." ∉ Text.segments path ∧
      ∀ l, t.locate full = .ok l → area.contains t l := by
  unfold verdict at h
  split at h
  · cases h
  split at h
  · next hup hall =>
    cases h
    refine ⟨rfl, by simpa using hup, fun l hl => ?_⟩
    have hanchor : anchor? t (area.hostPath path) = some l := by
      rw [anchor?, target?, hl]
      rfl
    rw [hanchor] at hall
    exact hall
  · cases h

theorem verdict_eq_ok_of (hup : ".." ∉ Text.segments path)
    (htarget : ∀ l, t.locate (area.hostPath path) = .ok l → area.contains t l)
    (hparent : (∀ l, t.locate (area.hostPath path) ≠ .ok l) →
      ∀ q l, (area.hostPath path).parent? = some q → t.locate q = .ok l → area.contains t l) :
    area.verdict t path = .ok (area.hostPath path) := by
  have hanchor : (anchor? t (area.hostPath path)).all (area.contains t) := by
    rw [Option.all_eq_true]
    intro l hl
    rcases Option.or_eq_some_iff.mp hl with hl | ⟨hnone, hl⟩
    · exact htarget l (target?_eq_some_iff.mp hl)
    · obtain ⟨q, hq, hl⟩ := Option.bind_eq_some_iff.mp hl
      refine hparent (fun k hk => ?_) q l hq (target?_eq_some_iff.mp hl)
      rw [target?_eq_some_iff.mpr hk] at hnone
      cases hnone
  rw [verdict, if_neg (by simpa using hup), if_pos hanchor]

/-- In an area that is there, the locations that it contains are those below its own. -/
theorem contains_iff (hroot : t.find .node area.root = .ok (.taken b .directory)) :
    area.contains t l ↔ b <+: l := by
  have htarget : target? t area.root = some b := by
    rw [target?, FileTree.locate_eq_ok_iff.mpr ⟨_, hroot⟩]
    rfl
  rw [contains, htarget]
  exact List.isPrefixOf_iff_prefix

/-! ### Scripts for a path -/

section Script

variable (canonical : FileTree → HostPath → Except OsError Location)

theorem run_anchor (full : HostPath) :
    (anchor full).run (FileTree.performWith canonical) t = (anchorPath? t full, t) := by
  unfold anchor anchorPath?
  rw [Script.run_ask_bind]
  show Script.run _ (if t.isThere full then _ else _) t = _
  by_cases hfull : t.isThere full
  · rw [if_pos hfull, if_pos hfull]
    rfl
  · rw [if_neg hfull, if_neg hfull]
    rcases full.parent? with _ | parent
    · rfl
    · rw [Option.filter_some]
      rfl

theorem outcome_demandInside (l : Location) :
    outcome (FileTree.performWith canonical) (area.demandInside path l) t =
      (if area.containsWith canonical t l then .ok () else .error (.escapesRoot path), t) := by
  unfold demandInside containsWith
  rw [Script.outcome_bind, Script.outcome_lift, FileTree.performWith_locate]
  rcases canonical t area.root with e | root
  · exact Script.outcome_demand _ _ _ _
  · exact Script.outcome_demand _ _ _ _

theorem outcome_askWith {α : Type} (c : FileCall (Except OsError α))
    (refusal : OsError → StagingError) :
    outcome (FileTree.performWith canonical) (ask c refusal) t =
      ((FileTree.performWith canonical c t).1.mapError refusal,
        (FileTree.performWith canonical c t).2) := by
  unfold ask
  rw [Script.outcome_bind, Script.outcome_lift]
  rcases FileTree.performWith canonical c t with ⟨e | a, t'⟩
  · rfl
  · rfl

theorem outcome_resolveWith (path : String) :
    outcome (FileTree.performWith canonical) (area.resolve path) t =
      (area.verdictWith canonical t path, t) := by
  unfold resolve verdictWith
  dsimp only
  by_cases hup : (Text.segments path).contains ".."
  · rw [if_pos hup, if_pos hup]
    rfl
  rw [if_neg hup, if_neg hup, Script.outcome_bind, Script.outcome_monadLift, run_anchor]
  rcases anchorPath? t (area.hostPath path) with _ | p
  · rfl
  dsimp only
  rw [Script.outcome_bind, outcome_askWith, FileTree.performWith_locate]
  rcases canonical t p with e | l
  · rfl
  · dsimp only [Except.mapError]
    rw [Script.outcome_bind, outcome_demandInside]
    by_cases h : area.containsWith canonical t l
    · rw [if_pos h, if_pos h]
      rfl
    · rw [if_neg h, if_neg h]

end Script

theorem outcome_resolve (path : String) :
    outcome FileTree.perform (area.resolve path) t = (area.verdict t path, t) := by
  rw [← verdictWith_locate]
  exact outcome_resolveWith FileTree.locate path

/-! ### Requests -/

theorem outcome_ask {α : Type} (c : FileCall (Except OsError α))
    (refusal : OsError → StagingError) :
    outcome FileTree.perform (ask c refusal) t =
      ((t.perform c).1.mapError refusal, (t.perform c).2) :=
  outcome_askWith FileTree.locate c refusal

theorem outcome_makeAll (p : HostPath) (refusal : OsError → StagingError) :
    outcome FileTree.perform (makeAll p refusal) t =
      ((t.afterDirectories p.ancestors).1.mapError refusal,
        (t.afterDirectories p.ancestors).2) := by
  unfold makeAll
  rw [Script.outcome_bind, Script.outcome_monadLift, ← FileTree.afterDirectories]
  rcases t.afterDirectories p.ancestors with ⟨e | ⟨⟩, t'⟩
  · rfl
  · rfl

/-- The steps after the verdict. -/
theorem outcome_resolve_bind {α : Type} (f : HostPath → Steps α) :
    outcome FileTree.perform (area.resolve path >>= f) t =
      match area.verdict t path with
      | .ok full => outcome FileTree.perform (f full) t
      | .error e => (.error e, t) := by
  rw [Script.outcome_bind, outcome_resolve]
  rcases area.verdict t path with e | full
  · rfl
  · rfl

theorem perform_read :
    area.perform (.read path) t =
      match area.verdict t path with
      | .ok full =>
        ((t.read full).mapError (missingOr (.fileNotFound path) .readFile path), t)
      | .error e => (.error e, t) := by
  show outcome FileTree.perform (area.read path) t = _
  unfold read
  rw [outcome_resolve_bind]
  rcases area.verdict t path with e | full
  · rfl
  · exact outcome_ask _ _

theorem perform_list :
    area.perform (.list path) t =
      match area.verdict t path with
      | .ok full =>
        (((t.list full).mapError (missingOr (.directoryNotFound path) .readDirectory path)).map
          fileNames, t)
      | .error e => (.error e, t) := by
  show outcome FileTree.perform (area.list path) t = _
  unfold list
  rw [outcome_resolve_bind]
  rcases area.verdict t path with e | full
  · rfl
  · dsimp only
    have hcall : t.perform (.list full) = ((t.list full).map .ok, t) := rfl
    rw [Script.outcome_bind, outcome_ask, hcall]
    rcases t.list full with e | entries
    · rfl
    · rfl

theorem perform_delete :
    area.perform (.delete path) t =
      match area.verdict t path with
      | .ok full =>
        ((t.settle (t.remove full)).1.mapError (missingOr (.fileNotFound path) .deleteFile path),
          (t.settle (t.remove full)).2)
      | .error e => (.error e, t) := by
  show outcome FileTree.perform (area.delete path) t = _
  unfold delete
  rw [outcome_resolve_bind]
  rcases area.verdict t path with e | full
  · rfl
  · exact outcome_ask _ _

theorem perform_makeDirectory :
    area.perform (.makeDirectory path) t =
      match area.verdict t path with
      | .ok full =>
        ((t.afterDirectories full.ancestors).1.mapError (deniedOr path),
          (t.afterDirectories full.ancestors).2)
      | .error e => (.error e, t) := by
  show outcome FileTree.perform (area.makeDirectory path) t = _
  unfold makeDirectory
  rw [outcome_resolve_bind]
  rcases area.verdict t path with e | full
  · rfl
  · exact outcome_makeAll _ _

/-- A file is written once the directories that it is in are there. -/
theorem perform_write {content : Bytes} :
    area.perform (.write path content) t =
      match area.verdict t path with
      | .ok full =>
        match t.afterDirectories full.ancestors.tail with
        | (.ok (), t₁) =>
          ((t₁.settle (t₁.write full content)).1.mapError (.failed .writeFile path),
            (t₁.settle (t₁.write full content)).2)
        | (.error e, t₁) => (.error (.failed .makeDirectoryFor path e), t₁)
      | .error e => (.error e, t) := by
  show outcome FileTree.perform (area.write path content) t = _
  unfold write
  rw [outcome_resolve_bind]
  rcases area.verdict t path with e | full
  · rfl
  · dsimp only
    rcases hparent : full.parent? with _ | parent
    · rw [HostPath.ancestors_of_parent_eq_none hparent]
      exact outcome_ask _ _
    · rw [HostPath.ancestors_of_parent hparent, List.tail_cons]
      dsimp only
      rw [Script.outcome_bind, outcome_makeAll]
      rcases t.afterDirectories parent.ancestors with ⟨e | ⟨⟩, t₁⟩
      · rfl
      · exact outcome_ask _ _

/-! ### Answers -/

/-- Reading and listing change nothing. -/
theorem perform_read_snd (path : String) : (area.perform (.read path) t).2 = t := by
  rw [perform_read]
  rcases area.verdict t path with e | full
  · rfl
  · rfl

theorem perform_list_snd (path : String) : (area.perform (.list path) t).2 = t := by
  rw [perform_list]
  rcases area.verdict t path with e | full
  · rfl
  · rfl

theorem perform_read_eq_ok_iff {content : Bytes} :
    (area.perform (.read path) t).1 = .ok content ↔
      ∃ full, area.verdict t path = .ok full ∧ t.read full = .ok content := by
  rw [perform_read]
  rcases area.verdict t path with e | full
  · simp
  · simp

theorem perform_list_eq_ok_iff {names : List String} :
    (area.perform (.list path) t).1 = .ok names ↔
      ∃ full es, area.verdict t path = .ok full ∧ t.list full = .ok es ∧
        fileNames es = names := by
  rw [perform_list]
  rcases area.verdict t path with e | full
  · simp
  · simp

/-- The names that a listing shows are those of the files in the directory. -/
theorem mem_fileNames_entries_iff (ht : t.WellFormed) {l : Location} {name : String} :
    name ∈ fileNames (t.entries l) ↔
      ∃ content, t.get? (l ++ [.text name]) = some (.file content) := by
  unfold fileNames
  rw [List.mem_mergeSort, List.mem_filterMap]
  constructor
  · rintro ⟨⟨s | raw, isFile⟩, hmem, heq⟩
    · obtain ⟨n, hn, rfl⟩ := ht.mem_entries_iff.mp hmem
      rcases n with _ | content | target
      · cases heq
      · obtain rfl := Option.some.inj heq
        exact ⟨content, hn⟩
      · cases heq
    · cases heq
  · rintro ⟨content, hcontent⟩
    exact ⟨⟨.text name, true⟩, ht.mem_entries_iff.mpr ⟨_, hcontent, rfl⟩, rfl⟩

theorem nodup_fileNames_entries (ht : t.WellFormed) : (fileNames (t.entries l)).Nodup := by
  have hchildren : (t.children l).Pairwise fun a b => a.1 ≠ b.1 := by
    apply (List.pairwise_map.mp ht.distinct).filterMap
    rintro ⟨k, n⟩ ⟨k', n'⟩ hne ⟨name, m⟩ hname ⟨name', m'⟩ hname' rfl
    rcases hlast : k.getLast? with _ | last
    · simp [hlast] at hname
    rcases hlast' : k'.getLast? with _ | last'
    · simp [hlast'] at hname'
    simp only [hlast, hlast', Option.ite_none_right_eq_some, Option.some.injEq,
      Prod.mk.injEq] at hname hname'
    -- both are the same name in the same directory
    obtain ⟨rfl, rfl, -⟩ := hname
    obtain ⟨hdir, rfl, -⟩ := hname'
    obtain ⟨front, rfl⟩ := List.getLast?_eq_some_iff.mp hlast
    obtain ⟨front', rfl⟩ := List.getLast?_eq_some_iff.mp hlast'
    rw [List.dropLast_concat, List.dropLast_concat] at hdir
    exact hne (hdir ▸ rfl)
  have hentries : (t.entries l).Pairwise fun a b => a.name ≠ b.name :=
    List.pairwise_map.mpr hchildren
  unfold fileNames
  rw [(List.mergeSort_perm _ _).nodup_iff]
  apply hentries.filterMap
  rintro ⟨a, fa⟩ ⟨b, fb⟩ hne s hs s' hs' rfl
  rcases a with a | a
  · rcases b with b | b
    · simp only [Option.ite_none_right_eq_some, Option.some.injEq] at hs hs'
      exact hne (congrArg FileName.text (hs.2.trans hs'.2.symm))
    · cases hs'
  · cases hs

/-- A listing is known once it is known which names have files. -/
theorem fileNames_entries_eq (ht : t.WellFormed) {names : List String} (hnames : names.Nodup)
    (h : ∀ name, name ∈ names ↔ ∃ content, t.get? (l ++ [.text name]) = some (.file content)) :
    fileNames (t.entries l) = names.mergeSort fun a b => decide (a ≤ b) := by
  have hsorted : ∀ ns : List String,
      (ns.mergeSort fun a b => decide (a ≤ b)).Pairwise fun a b => decide (a ≤ b) := by
    apply List.pairwise_mergeSort
    · intro a b c hab hbc
      exact decide_eq_true (String.le_trans (of_decide_eq_true hab) (of_decide_eq_true hbc))
    · intro a b
      simpa using String.le_total a b
  have hperm : (fileNames (t.entries l)).Perm (names.mergeSort fun a b => decide (a ≤ b)) := by
    rw [List.perm_ext_iff_of_nodup (nodup_fileNames_entries ht)
      ((List.mergeSort_perm _ _).nodup_iff.mpr hnames)]
    intro name
    rw [mem_fileNames_entries_iff ht, List.mem_mergeSort, h]
  refine List.Perm.eq_of_pairwise ?_ (hsorted _) (hsorted _) hperm
  intro a b _ _ hab hba
  exact String.le_antisymm (of_decide_eq_true hab) (of_decide_eq_true hba)

end SchemaForge.StagingArea
