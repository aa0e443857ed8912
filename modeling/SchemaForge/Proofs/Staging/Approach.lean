import SchemaForge.Proofs.Staging.Apart
import SchemaForge.Proofs.Staging.Ways

/-!
# The way to an area

The directory of an area may be missing. If its path goes on from a directory that is there by names on
a clear way, it is known where the area will be, and making any directory of the area makes this one
as well.
-/

namespace SchemaForge

namespace FileTree

variable {t t' : FileTree} {base : HostPath} {d c : Location} {ys zs : List String} {x : String}

/-- A clear way goes on clearly. -/
theorem Clear.append (h : t.Clear d ys) (h' : t.Clear (d ++ ys.map .text) zs) :
    t.Clear d (ys ++ zs) := by
  intro xs hxs n hn
  rcases List.prefix_or_prefix_of_prefix hxs (List.prefix_append ys zs) with hxs' | ⟨ws, rfl⟩
  · exact h xs hxs' n hn
  · apply h' ws ((List.prefix_append_right_inj ys).mp hxs) n
    rw [← hn, List.map_append, List.append_assoc]

/-- Names on a clear way behind the path of a directory. -/
theorem LeadsTo.walk_names (hbase : t.LeadsTo base d) (hclear : t.Clear d (ys ++ [x]))
    (hshort : ∀ z ∈ ys ++ [x], ShortName z) :
    t.walk .node linkLimit (start t.here base) (base.names ++ (ys ++ [x])) =
      if t.get? (d ++ ys.map .text) = some .directory then
        .ok (t.placeAt (d ++ (ys ++ [x]).map .text))
      else .error .notFound := by
  have hx := hshort x (List.mem_append_right _ (List.mem_singleton_self x))
  obtain ⟨k, hk⟩ := hbase.leads.walk_append
  rw [hk _ _ ⟨x, List.mem_append_right _ (List.mem_singleton_self x), hx.isName.1.1⟩]
  apply FileTree.walk_names hbase.wellFormed hbase.directory
    (hclear.shorter (List.prefix_append _ _)) (fun y hy => hshort y (List.mem_append_left _ hy)) hx
  intro target hlink
  cases hclear _ (List.prefix_refl _) _ hlink

/-- Names on a clear way lead to the directory that they name. -/
theorem LeadsTo.leads_names (hbase : t.LeadsTo base d) (hclear : t.Clear d ys)
    (hshort : ∀ y ∈ ys, ShortName y) (hdir : t.get? (d ++ ys.map .text) = some .directory) :
    t.Leads .node linkLimit (start t.here base) (base.names ++ ys)
      (.taken (d ++ ys.map .text) .directory) := by
  rcases List.eq_nil_or_concat' ys with rfl | ⟨ys, x, rfl⟩
  · simpa using hbase.leads
  · have hparent : t.get? (d ++ ys.map .text) = some .directory := by
      apply hbase.wellFormed.get?_of_append (List.cons_ne_nil (FileName.text x) [])
      rw [List.append_assoc]
      simpa using hdir
    rw [← walk_eq_ok_iff, hbase.walk_names hclear hshort, if_pos hparent]
    exact congrArg _ (placeAt_eq_taken_iff.mpr ⟨rfl, hdir⟩)

/-- Names on a clear way lead to no other directory. -/
theorem LeadsTo.eq_of_leads (hbase : t.LeadsTo base d) (hclear : t.Clear d ys)
    (hshort : ∀ y ∈ ys, ShortName y)
    (h : t.Leads .node linkLimit (start t.here base) (base.names ++ ys) (.taken c .directory)) :
    c = d ++ ys.map .text := by
  rcases List.eq_nil_or_concat' ys with rfl | ⟨ys, x, rfl⟩
  · rw [List.append_nil] at h
    cases h.unique hbase.leads
    simp
  · rw [← walk_eq_ok_iff, hbase.walk_names hclear hshort] at h
    split at h
    · exact (placeAt_eq_taken_iff.mp (Except.ok.inj h)).1
    · cases h

end FileTree

namespace StagingArea

open FileTree (LeadsTo)

variable {area : StagingArea} {t t' : FileTree} {b c : Location} {names : List String}

/-- The area is at a location, or will be once its directory is made: from the path of a directory
that is there, its own path goes on by names on a clear way. -/
def Approach (area : StagingArea) (t : FileTree) (b : Location) : Prop :=
  ∃ (base : HostPath) (d : Location) (ns : List String), t.LeadsTo base d ∧
    area.root.rooted = base.rooted ∧ area.root.names = base.names ++ ns ∧
    (∀ n ∈ ns, ShortName n) ∧ t.Clear d ns ∧ b = below d ns

/-- An area that is there has been approached. -/
theorem Based.approach (based : area.Based t b) (ht : t.WellFormed) : area.Approach t b := by
  refine ⟨area.root, b, [], ⟨ht, based.leads⟩, rfl, (List.append_nil _).symm, nofun, ?_,
    (List.append_nil _).symm⟩
  intro ys hys n hn
  rw [List.prefix_nil.mp hys, List.map_nil, List.append_nil,
    (LeadsTo.mk ht based.leads).directory] at hn
  exact (Option.some.inj hn).symm

namespace Approach

variable (h : area.Approach t b)

include h

theorem wellFormed : t.WellFormed := by
  obtain ⟨_, _, _, hbase, -⟩ := h
  exact hbase.wellFormed

/-- The area is there if its directory is. -/
theorem based (hroot : area.root.text ≠ "" → area.root.Sound)
    (hdir : t.get? b = some .directory) : area.Based t b := by
  obtain ⟨base, d, ns, hbase, hrooted, hnames, hshort, hclear, rfl⟩ := h
  have hleads := hbase.leads_names hclear hshort hdir
  rw [← hnames, FileTree.start, ← hrooted, ← FileTree.start] at hleads
  unfold Based
  split
  · next hempty =>
    rw [FileTree.start, HostPath.names, HostPath.rooted, hempty] at hleads
    exact (Place.taken.inj (hleads.unique .stay)).1
  · next hne => exact FileTree.find_eq_ok_iff.mpr ⟨hroot hne, FileTree.leads_steps_iff.mpr hleads⟩

/-- There is one place only where the area can be. -/
theorem eq_of_settles (hc : area.Settles t c) : c = b := by
  obtain ⟨base, d, ns, hbase, hrooted, hnames, hshort, hclear, rfl⟩ := h
  obtain ⟨t', hext, based⟩ := hc
  have hleads := based.leads
  rw [hnames, FileTree.start, hrooted, ← FileTree.start] at hleads
  exact (hbase.extended hext).eq_of_leads (hclear.extended hext) hshort hleads

theorem extended (hext : t.Extended t') : area.Approach t' b := by
  obtain ⟨base, d, ns, hbase, hrooted, hnames, hshort, hclear, hb⟩ := h
  exact ⟨base, d, ns, hbase.extended hext, hrooted, hnames, hshort, hclear.extended hext, hb⟩

/-- Once the directory of the area is there, it does not matter what happens to files. -/
theorem refiled (hdir : t.get? b = some .directory) (ht' : t.Refiled t') : area.Approach t' b := by
  obtain ⟨base, d, ns, hbase, hrooted, hnames, hshort, -, rfl⟩ := h
  have hkept := ht'.kept
  refine ⟨base, d, ns, ⟨ht'.wellFormed, hkept.here ▸ hbase.leads.kept hkept⟩, hrooted, hnames,
    hshort, fun ys hys n hn => ?_, rfl⟩
  have hthere : t.get? (d ++ ys.map .text) = some .directory := by
    obtain ⟨zs, rfl⟩ := hys
    by_cases hnil : zs.map FileName.text = []
    · rw [List.map_eq_nil_iff.mp hnil, List.append_nil] at hdir
      exact hdir
    · apply hbase.wellFormed.get?_of_append hnil
      rw [← hdir, below, List.map_append, List.append_assoc]
  exact (Option.some.inj ((hkept.directory _ hthere).symm.trans hn)).symm

/-- Names of an area without links are what they are, wherever the area will be. -/
theorem verdict_intercalate (hfree : t.LinkFree b) (hisName : ∀ n ∈ names, IsName n)
    (hlong : 2 ≤ names.length) :
    area.verdict t ("/".intercalate names) = .ok (area.hostPath ("/".intercalate names)) := by
  have hresolve := outcome_resolve_intercalate h.wellFormed
    (fun c hc => h.eq_of_settles hc ▸ hfree) hisName hlong
  rw [outcome_resolve] at hresolve
  exact congrArg Prod.fst hresolve

/-- A directory behind a clear way can be made, and whatever is new is on the way to it. -/
theorem makeDirectory (hfree : t.LinkFree b) (hclear : t.Clear b names)
    (hshort : ∀ n ∈ names, ShortName n) (hlong : 2 ≤ names.length)
    (hsound : (area.hostPath ("/".intercalate names)).Sound) :
    ∃ t', area.perform (.makeDirectory ("/".intercalate names)) t = (.ok (), t') ∧
      t.Extended t' ∧ t'.get? (below b names) = some .directory ∧
      ∀ k, t'.get? k ≠ t.get? k → k <+: below b names := by
  have hisName : ∀ n ∈ names, IsName n := fun n hn => (hshort n hn).isName
  have hne : names ≠ [] := by
    rintro rfl
    cases hlong
  have hverdict := h.verdict_intercalate hfree hisName hlong
  obtain ⟨base, d, ns, hbase, hrooted, hnames, hshort', hclear', rfl⟩ := h
  have hgoesOn : (area.hostPath ("/".intercalate names)).GoesOn base (ns ++ names) := by
    refine ⟨(rooted_hostPath _).trans hrooted, ?_, fun _ => ?_, fun _ => hsound⟩
    · rw [names_hostPath_intercalate hisName, hnames, List.append_assoc]
    · rw [steps_hostPath_intercalate hisName hne, List.getLast?_append_of_ne_nil _ hne,
        List.getLast?_append_of_ne_nil _ hne]
  -- from the directory that is there, the way leads through the area to the new one
  obtain ⟨t', hrun, hmade⟩ := FileTree.afterDirectories_of_clear hbase hgoesOn
    (hclear'.append hclear) fun n hn => (List.mem_append.mp hn).elim (hshort' n) (hshort n)
  have hbelow : below (below d ns) names = d ++ (ns ++ names).map .text := by
    simp [below]
  refine ⟨t', ?_, hmade.extended, by rw [hbelow]; exact hmade.made, fun k hk => ?_⟩
  · rw [perform_makeDirectory, hverdict]
    dsimp only
    rw [hrun]
    rfl
  · obtain ⟨ys, hys, rfl⟩ := hmade.new k hk
    rw [hbelow, List.prefix_append_right_inj]
    exact hys.map _

end Approach

end StagingArea

end SchemaForge
