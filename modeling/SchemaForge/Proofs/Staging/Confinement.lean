import SchemaForge.Proofs.Staging.Resolve

/-!
# What stays inside a staging area

Files and directories are read inside the area only, and a path that leads out of it is refused. But
the verdict on a path looks no further than the directory that the path is in: if that is missing
too, directories are made from the first missing one on, wherever it is, and a link at the end of the
path can lead to a free place outside. Whether a request changes anything outside is decided by the
first place where something comes or goes.
-/

namespace SchemaForge

/-- The path that a request is about. -/
def StagingCall.path : {β : Type} → StagingCall β → String
  | _, .read path => path
  | _, .write path _ => path
  | _, .list path => path
  | _, .delete path => path
  | _, .makeDirectory path => path

/-- The answer to a request that is a refusal. -/
def StagingCall.refusal : {β : Type} → StagingCall β → StagingError → β
  | _, .read _, e => .error e
  | _, .write _ _, e => .error e
  | _, .list _, e => .error e
  | _, .delete _, e => .error e
  | _, .makeDirectory _, e => .error e

namespace StagingArea

variable {area : StagingArea} {t t' : FileTree} {path : String} {full : HostPath} {b l : Location}

/-! ### The first place -/

/-- The first location where something comes or goes in a request, if there is one. -/
def firstChange (area : StagingArea) (t : FileTree) : {β : Type} → StagingCall β → Option Location
  | _, .read _ => none
  | _, .list _ => none
  | _, .write path _ =>
    match area.verdict t path with
    | .ok full => (t.firstMissing full.ancestors.tail).or (t.newFile? full)
    | .error _ => none
  | _, .delete path =>
    match area.verdict t path with
    | .ok full => t.removed? full
    | .error _ => none
  | _, .makeDirectory path =>
    match area.verdict t path with
    | .ok full => t.firstMissing full.ancestors
    | .error _ => none

/-- A refused request has no effect. -/
theorem perform_of_refused {β : Type} {c : StagingCall β} {e : StagingError}
    (h : area.verdict t c.path = .error e) : area.perform c t = (c.refusal e, t) := by
  cases c with
  | read path => rw [perform_read, show area.verdict t path = _ from h]; rfl
  | write path content => rw [perform_write, show area.verdict t path = _ from h]; rfl
  | list path => rw [perform_list, show area.verdict t path = _ from h]; rfl
  | delete path => rw [perform_delete, show area.verdict t path = _ from h]; rfl
  | makeDirectory path =>
    rw [perform_makeDirectory, show area.verdict t path = _ from h]; rfl

theorem firstChange_of_refused {β : Type} {c : StagingCall β} {e : StagingError}
    (h : area.verdict t c.path = .error e) : area.firstChange t c = none := by
  cases c with
  | read | list => rfl
  | write path content => rw [firstChange, show area.verdict t path = _ from h]
  | delete path => rw [firstChange, show area.verdict t path = _ from h]
  | makeDirectory path => rw [firstChange, show area.verdict t path = _ from h]

/-! ### What a request changes -/

section Changes

variable (ht : t.WellFormed) (hroot : t.find .node area.root = .ok (.taken b .directory))

include hroot

theorem leads_root :
    t.Leads .node FileTree.linkLimit (FileTree.start t.here area.root) area.root.names
      (.taken b .directory) :=
  FileTree.leads_steps_iff.mp (FileTree.find_eq_ok_iff.mp hroot).2

include ht

theorem begun_directory (hup : ".." ∉ Text.segments path)
    (h : t.firstMissing (area.hostPath path).ancestors = some l) :
    t.Begun (t.afterDirectories (area.hostPath path).ancestors).2
      (FileTree.start t.here area.root) (area.hostPath path).names l := by
  apply FileTree.begun_of_firstMissing ht (leads_root hroot) (rooted_hostPath path)
    (names_hostPath path) _ h
  exact fun hmem => hup (List.mem_filter.mp hmem).1

/-- The directories that a file is in are made below the area's own, or are there. -/
theorem begun_parent (hup : ".." ∉ Text.segments path)
    (h : t.firstMissing (area.hostPath path).ancestors.tail = some l) :
    ∃ names x, (area.hostPath path).names = names ++ [x] ∧ x ≠ ".." ∧
      t.Begun (t.afterDirectories (area.hostPath path).ancestors.tail).2
        (FileTree.start t.here area.root) names l := by
  have hleads := leads_root hroot
  have hrooted : (area.hostPath path).rooted = area.root.rooted := rooted_hostPath path
  have hnames : (area.hostPath path).names =
      area.root.names ++ (Text.segments path).filter (· ≠ ".") := names_hostPath path
  have hzs : ".." ∉ (Text.segments path).filter (· ≠ ".") :=
    fun hmem => hup (List.mem_filter.mp hmem).1
  generalize area.hostPath path = full at *
  generalize (Text.segments path).filter (· ≠ ".") = zs at *
  rcases hq : full.parent? with _ | q
  · rw [HostPath.ancestors_of_parent_eq_none hq] at h
    cases h
  rw [HostPath.ancestors_of_parent hq, List.tail_cons] at h ⊢
  have hqrooted := (HostPath.rooted_parent hq).trans hrooted
  rcases List.eq_nil_or_concat' zs with rfl | ⟨ys, x, rfl⟩
  · -- the path is one of the area itself, and so the directory that it is in is there
    exfalso
    have hqnames : q.names = area.root.names.dropLast := by
      rw [HostPath.names_parent hq, hnames, List.append_nil]
    have hstart : FileTree.start t.here q = FileTree.start t.here area.root := by
      rw [FileTree.start, FileTree.start, hqrooted]
    obtain ⟨d, hd⟩ := hleads.of_prefix (List.dropLast_prefix _)
      fun _ hz => (HostPath.isSegment_of_mem_names hz).1.1
    rw [FileTree.firstMissing_of_leads (hstart ▸ hqnames ▸ hd)] at h
    cases h
  · have hqnames : q.names = area.root.names ++ ys := by
      rw [HostPath.names_parent hq, hnames, ← List.append_assoc, List.dropLast_concat]
    refine ⟨q.names, x, by rw [hnames, hqnames, List.append_assoc], ?_, ?_⟩
    · rintro rfl
      exact hzs (List.mem_append_right _ List.mem_cons_self)
    · apply FileTree.begun_of_firstMissing ht hleads hqrooted hqnames _ h
      exact fun hmem => hzs (List.mem_append_left _ hmem)

theorem opens_of_firstChange_write {content : Bytes} (hverdict : area.verdict t path = .ok full)
    (h : area.firstChange t (.write path content) = some l) :
    t.Opens (area.perform (.write path content) t).2 l := by
  rw [firstChange, hverdict] at h
  rw [perform_write, hverdict]
  dsimp only at h ⊢
  obtain ⟨rfl, hup, -⟩ := verdict_eq_ok hverdict
  have hext := FileTree.extended_afterDirectories ht (area.hostPath path).ancestors.tail
  -- either a directory above the file is missing and made first, or only the file is new
  rcases Option.or_eq_some_iff.mp h with hfirst | ⟨hnone, hnew⟩
  · obtain ⟨names, x, hnames, hx, hbegun⟩ := begun_parent ht hroot hup hfirst
    have hstart : FileTree.start t.here (area.hostPath path) =
        FileTree.start t.here area.root := start_hostPath _ _
    rcases hrun : t.afterDirectories (area.hostPath path).ancestors.tail with ⟨e | ⟨⟩, t₁⟩
    · rw [hrun] at hbegun
      exact hbegun.opens
    · rw [hrun] at hbegun hext
      dsimp only at hbegun hext ⊢
      exact hbegun.opens_write ht hext hnames hx hstart content
  · have hfind := FileTree.newFile?_eq_some_iff.mp hnew
    obtain ⟨d, s, rfl, -, -, hmissing⟩ := FileTree.holds_of_find ht hfind
    have hput : (t.settle (t.write (area.hostPath path) content)).2 =
        t.put (d ++ [.text s]) (.file content) := by
      rw [FileTree.write, hfind]
      rfl
    rw [FileTree.afterDirectories_tail_of_find hfind]
    dsimp only
    rw [hput]
    exact FileTree.opens_of_put hmissing (by simp) _

theorem opens_of_firstChange {β : Type} {c : StagingCall β}
    (h : area.firstChange t c = some l) : t.Opens (area.perform c t).2 l := by
  rcases hverdict : area.verdict t c.path with e | full
  · rw [firstChange_of_refused hverdict] at h
    cases h
  cases c with
  | read | list => cases h
  | write path content => exact opens_of_firstChange_write ht hroot hverdict h
  | delete path =>
    replace hverdict : area.verdict t path = .ok full := hverdict
    rw [firstChange, hverdict] at h
    rw [perform_delete, hverdict]
    dsimp only at h ⊢
    rw [FileTree.settle_remove, h]
    exact FileTree.opens_of_removed ht h
  | makeDirectory path =>
    replace hverdict : area.verdict t path = .ok full := hverdict
    rw [firstChange, hverdict] at h
    rw [perform_makeDirectory, hverdict]
    dsimp only at h ⊢
    obtain ⟨rfl, hup, -⟩ := verdict_eq_ok hverdict
    exact (begun_directory ht hroot hup h).opens

/-- Where no file is new, at most an old one inside is written anew. -/
theorem unchanged_write {content : Bytes} (hverdict : area.verdict t path = .ok full)
    (h : area.firstChange t (.write path content) = none) {k : Location} (hk : ¬b <+: k) :
    (area.perform (.write path content) t).2.get? k = t.get? k := by
  rw [firstChange, hverdict] at h
  rw [perform_write, hverdict]
  dsimp only at h ⊢
  obtain ⟨hfirst, hnew⟩ := Option.or_eq_none_iff.mp h
  have hkeep := FileTree.afterDirectories_of_firstMissing_eq_none hfirst
  rcases hrun : t.afterDirectories full.ancestors.tail with ⟨e | ⟨⟩, t₁⟩
  · rw [hrun] at hkeep
    exact congrArg (fun t => t.get? k) hkeep
  · rw [hrun] at hkeep
    obtain rfl : t₁ = t := hkeep
    dsimp only
    rcases t₁.settle_write_cases full content with ⟨place, hfind, hplace, hput⟩ | hsame
    · -- what is not new is an old file, which the verdict has found inside
      rw [hput]
      rcases place with ⟨l, n⟩ | l
      · have hinside : b <+: l := by
          apply (contains_iff hroot).mp ((verdict_eq_ok hverdict).2.2 l _)
          obtain ⟨hsound, hleads⟩ := FileTree.find_eq_ok_iff.mp hfind
          exact FileTree.locate_eq_ok_iff.mpr
            ⟨n, FileTree.find_eq_ok_iff.mpr ⟨hsound, hleads.node_of_output⟩⟩
        have hne : l ≠ [] :=
          FileTree.ne_nil_of_holds (FileTree.holds_of_find ht hfind) hplace
        show (t₁.put l (.file content)).get? k = _
        rw [FileTree.get?_put t₁ hne, if_neg]
        rintro rfl
        exact hk hinside
      · rw [FileTree.newFile?_eq_some_iff.mpr hfind] at hnew
        cases hnew
    · rw [hsame]

/-- Without a first place where something comes or goes, at most a file inside is written anew. -/
theorem unchanged_of_firstChange_eq_none {β : Type} {c : StagingCall β}
    (h : area.firstChange t c = none) {k : Location} (hk : ¬b <+: k) :
    (area.perform c t).2.get? k = t.get? k := by
  rcases hverdict : area.verdict t c.path with e | full
  · rw [perform_of_refused hverdict]
  cases c with
  | read path => rw [perform_read_snd]
  | list path => rw [perform_list_snd]
  | write path content => exact unchanged_write ht hroot hverdict h hk
  | delete path =>
    replace hverdict : area.verdict t path = .ok full := hverdict
    rw [firstChange, hverdict] at h
    rw [perform_delete, hverdict]
    dsimp only at h ⊢
    rw [FileTree.settle_remove, h]
  | makeDirectory path =>
    replace hverdict : area.verdict t path = .ok full := hverdict
    rw [firstChange, hverdict] at h
    rw [perform_makeDirectory, hverdict]
    dsimp only at h ⊢
    rw [FileTree.afterDirectories_of_firstMissing_eq_none h]

/-- A request changes something outside of the area exactly if the first location where something
comes or goes is outside. -/
theorem changes_outside_iff {β : Type} (c : StagingCall β) :
    (∃ k, ¬b <+: k ∧ (area.perform c t).2.get? k ≠ t.get? k) ↔
      ∃ l, area.firstChange t c = some l ∧ ¬b <+: l := by
  rcases hfirst : area.firstChange t c with _ | l
  · constructor
    · rintro ⟨k, hk, hchanged⟩
      exact absurd (unchanged_of_firstChange_eq_none ht hroot hfirst hk) hchanged
    · rintro ⟨l, hl, -⟩
      cases hl
  · rw [(opens_of_firstChange ht hroot hfirst).changes_outside_iff]
    constructor
    · intro hl
      exact ⟨l, rfl, hl⟩
    · rintro ⟨k, hk, hout⟩
      exact Option.some.inj hk ▸ hout

end Changes

/-! ### What a request reads, and what is refused -/

section Reading

variable (ht : t.WellFormed) (hroot : t.find .node area.root = .ok (.taken b .directory))

include hroot

theorem prefix_of_find {n : Node} (hverdict : area.verdict t path = .ok full)
    (hfind : t.find .node full = .ok (.taken l n)) : b <+: l := by
  apply (contains_iff hroot).mp
  exact (verdict_eq_ok hverdict).2.2 l (FileTree.locate_eq_ok_iff.mpr ⟨n, hfind⟩)

theorem refused_of_locate {β : Type} {c : StagingCall β}
    (hl : t.locate (area.hostPath c.path) = .ok l) (hout : ¬b <+: l) :
    ∃ e, (e = .leavesRoot c.path ∨ e = .escapesRoot c.path) ∧
      area.perform c t = (c.refusal e, t) := by
  have hverdict : ∃ e, (e = .leavesRoot c.path ∨ e = .escapesRoot c.path) ∧
      area.verdict t c.path = .error e := by
    have hanchor : anchor? t (area.hostPath c.path) = some l := by
      rw [anchor?, target?, hl]
      rfl
    have hcontains : ¬area.contains t l := fun h => hout ((contains_iff hroot).mp h)
    unfold verdict
    by_cases hup : (Text.segments c.path).contains ".."
    · exact ⟨_, .inl rfl, if_pos hup⟩
    · refine ⟨_, .inr rfl, ?_⟩
      rw [if_neg hup, hanchor, Option.all_some, if_neg hcontains]
  obtain ⟨e, he, hverdict⟩ := hverdict
  exact ⟨e, he, perform_of_refused hverdict⟩

include ht

theorem read_inside {content : Bytes} (h : (area.perform (.read path) t).1 = .ok content) :
    ∃ l, b <+: l ∧ t.get? l = some (.file content) := by
  obtain ⟨full, hverdict, hread⟩ := perform_read_eq_ok_iff.mp h
  obtain ⟨l, hfind⟩ := FileTree.read_eq_ok_iff.mp hread
  exact ⟨l, prefix_of_find hroot hverdict hfind, FileTree.holds_of_find ht hfind⟩

theorem list_inside {names : List String} (h : (area.perform (.list path) t).1 = .ok names) :
    ∃ l, b <+: l ∧ t.get? l = some .directory ∧
      ∀ name ∈ names, ∃ content, t.get? (l ++ [.text name]) = some (.file content) := by
  obtain ⟨full, entries, hverdict, hlist, rfl⟩ := perform_list_eq_ok_iff.mp h
  obtain ⟨l, hfind, rfl⟩ := FileTree.list_eq_ok_iff.mp hlist
  refine ⟨l, prefix_of_find hroot hverdict hfind, FileTree.holds_of_find ht hfind, ?_⟩
  intro name hname
  exact (mem_fileNames_entries_iff ht).mp hname

end Reading

/-! ### The area as a whole -/

/-- Only what is in the area is read or listed, and a path that leads to a location outside is
refused without any effect. A request changes something outside exactly if the first location where
something comes or goes is outside. -/
theorem requests_stay_inside_up_to_first_change {area : StagingArea} {t : FileTree} {b : Location}
    (ht : t.WellFormed) (hroot : t.find .node area.root = .ok (.taken b .directory)) :
    (∀ path content, (area.perform (.read path) t).1 = .ok content →
        ∃ l, b <+: l ∧ t.get? l = some (.file content)) ∧
      (∀ path names, (area.perform (.list path) t).1 = .ok names →
        ∃ l, b <+: l ∧ t.get? l = some .directory ∧
          ∀ name ∈ names, ∃ content, t.get? (l ++ [.text name]) = some (.file content)) ∧
      (∀ (β : Type) (c : StagingCall β) (l : Location),
        t.locate (area.hostPath c.path) = .ok l → ¬b <+: l →
          ∃ e, (e = .leavesRoot c.path ∨ e = .escapesRoot c.path) ∧
            area.perform c t = (c.refusal e, t)) ∧
      ∀ (β : Type) (c : StagingCall β),
        (∃ k, ¬b <+: k ∧ (area.perform c t).2.get? k ≠ t.get? k) ↔
          ∃ l, area.firstChange t c = some l ∧ ¬b <+: l := by
  refine ⟨?_, ?_, ?_, ?_⟩
  · intro path content h
    exact read_inside ht hroot h
  · intro path names h
    exact list_inside ht hroot h
  · intro β c l hl hout
    exact refused_of_locate hroot hl hout
  · intro β c
    exact changes_outside_iff ht hroot c

/-- In a tree with a link out of the area, a file two levels behind the link is written outside of
it, and one beside the link is not. -/
theorem link_out_of_area_is_followed_to_missing_directories :
    ∃ (t : FileTree) (area : StagingArea) (b : Location),
      t = ⟨[([.text "root"], .directory), ([.text "outside"], .directory),
        ([.text "root", .text "link"], .link ⟨"../outside"⟩)], []⟩ ∧
      area = ⟨⟨"/root"⟩⟩ ∧ t.WellFormed ∧ t.find .node area.root = .ok (.taken b .directory) ∧
      (∃ k, ¬b <+: k ∧ (area.perform (.write "link/a/b.js" []) t).2.get? k ≠ t.get? k) ∧
      ¬∃ k, ¬b <+: k ∧ (area.perform (.write "a/b.js" []) t).2.get? k ≠ t.get? k := by
  let t : FileTree := ⟨[([.text "root"], .directory), ([.text "outside"], .directory),
    ([.text "root", .text "link"], .link ⟨"../outside"⟩)], []⟩
  let area : StagingArea := ⟨⟨"/root"⟩⟩
  have ht : t.WellFormed := by decide +kernel
  have hroot : t.find .node area.root = .ok (.taken [.text "root"] .directory) := by decide +kernel
  have h := requests_stay_inside_up_to_first_change ht hroot
  refine ⟨t, area, _, rfl, rfl, ht, hroot, ?_, ?_⟩
  · rw [h.2.2.2]
    exact ⟨[.text "outside", .text "a"], by decide +kernel, by decide⟩
  · rw [h.2.2.2]
    rintro ⟨l, hl, hout⟩
    have hfirst : area.firstChange t (.write "a/b.js" []) = some [.text "root", .text "a"] := by
      decide +kernel
    rw [hfirst] at hl
    exact hout (Option.some.inj hl ▸ by decide)

/-- A file is written outside of the area, and the answer is that all went well. -/
theorem file_is_written_behind_link :
    ∃ (t : FileTree) (area : StagingArea) (b : Location), t.WellFormed ∧
      t.find .node area.root = .ok (.taken b .directory) ∧
      (area.perform (.write "link/a/b.js" []) t).1 = .ok () ∧
      ¬b <+: [.text "outside", .text "a", .text "b.js"] ∧
      t.get? [.text "outside", .text "a", .text "b.js"] = none ∧
      (area.perform (.write "link/a/b.js" []) t).2.get?
        [.text "outside", .text "a", .text "b.js"] = some (.file []) := by
  refine ⟨⟨[([.text "root"], .directory), ([.text "outside"], .directory),
    ([.text "root", .text "link"], .link ⟨"../outside"⟩)], []⟩, ⟨⟨"/root"⟩⟩, [.text "root"], ?_⟩
  decide +kernel

end StagingArea

end SchemaForge
