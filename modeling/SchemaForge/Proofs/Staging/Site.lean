import SchemaForge.Proofs.Staging.Resolve

/-!
# Directories of a staging area

Where there are no links, names lead from the directory of an area straight down. A request for a
name in a directory that is there is about that name and nothing else, so that each request has one
lemma on what it answers and what it changes.
-/

namespace SchemaForge

namespace FileTree

/-- The place at a location. -/
def placeAt (t : FileTree) (l : Location) : Place :=
  match t.get? l with
  | some n => .taken l n
  | none => .free l

variable {t : FileTree} {l k : Location} {n : Node}

theorem placeAt_eq_taken_iff : t.placeAt l = .taken k n ↔ k = l ∧ t.get? l = some n := by
  unfold placeAt
  rcases t.get? l with _ | m
  · simp
  · simp [eq_comm]

theorem placeAt_eq_free_iff : t.placeAt l = .free k ↔ k = l ∧ t.get? l = none := by
  unfold placeAt
  rcases t.get? l with _ | m
  · simp [eq_comm]
  · simp

/-- A name leads to whatever has it, where no link does. -/
theorem walk_singleton {aim : Aim} {links : Nat} {dir : Location} {x : String} (hx : IsName x)
    (hlink : ∀ target, t.get? (dir ++ [.text x]) ≠ some (.link target)) :
    t.walk aim links dir [x] =
      if nameLimit < (Text.utf8 x).length then .error .nameTooLong
      else .ok (t.placeAt (dir ++ [.text x])) := by
  have hmoves : ¬(x = "" ∨ x = ".") := not_or.mpr ⟨hx.1.1, hx.2.1⟩
  rw [walk_name hmoves hx.2.2, if_neg fun h => List.cons_ne_nil _ _ h.2.symm]
  unfold placeAt
  generalize t.get? (dir ++ [.text x]) = there at hlink ⊢
  rcases there with _ | (_ | content | target)
  · rfl
  · simp only [pass, walk_nil]
  · rfl
  · exact absurd rfl (hlink target)

end FileTree

namespace StagingArea

open HostPath (moves)

variable {area : StagingArea} {t t' : FileTree} {b l : Location} {names : List String} {x : String}

/-! ### Where an area is -/

/-- The area is at a directory. With the empty path it is at the working directory. -/
def Based (area : StagingArea) (t : FileTree) (b : Location) : Prop :=
  if area.root.text = "" then b = t.here else t.find .node area.root = .ok (.taken b .directory)

theorem Based.leads (h : area.Based t b) :
    t.Leads .node FileTree.linkLimit (FileTree.start t.here area.root) area.root.names
      (.taken b .directory) := by
  unfold Based at h
  split at h
  · next hempty =>
    rw [h, FileTree.start, HostPath.names, HostPath.rooted, hempty]
    exact .stay
  · exact FileTree.leads_steps_iff.mp (FileTree.find_eq_ok_iff.mp h).2

theorem Based.contains (h : area.Based t b) (hl : b <+: l) : area.contains t l := by
  unfold Based at h
  split at h
  · next hempty =>
    have htarget : target? t area.root = none := by
      rw [target?, FileTree.locate, FileTree.find, hempty]
      rfl
    rw [StagingArea.contains, htarget]
    dsimp only
    rw [spells, HostPath.rooted, hempty]
    rfl
  · exact (contains_iff h).mpr hl

theorem Based.kept (h : area.Based t b) (hk : t.Kept t') : area.Based t' b := by
  unfold Based at h ⊢
  split
  · next hempty => rw [hk.here, ← (if_pos hempty).mp h]
  · next hne => exact FileTree.find_kept ((if_neg hne).mp h) hk

/-- The area is at a directory, or will be once directories that are missing are made. -/
def Settles (area : StagingArea) (t : FileTree) (b : Location) : Prop :=
  ∃ t', t.Extended t' ∧ area.Based t' b

/-- The location that names lead to from the directory of the area. -/
def below (b : Location) (names : List String) : Location := b ++ names.map .text

theorem location_of_leads (h : area.Based t b) (hfree : t.LinkFree b)
    (hnames : ∀ n ∈ names, IsName n) {p : Place}
    (hleads : t.Leads .node FileTree.linkLimit (FileTree.start t.here area.root)
      (area.root.names ++ names) p) : p.location = below b names := by
  have hfilter : names.filter moves = names := by
    apply List.filter_eq_self.mpr
    exact fun n hn => HostPath.moves_iff.mpr ⟨(hnames n hn).1.1, (hnames n hn).2.1⟩
  rcases names with _ | ⟨n, rest⟩
  · rw [List.append_nil] at hleads
    cases hleads.unique h.leads
    simp [Place.location, below]
  · obtain ⟨k, hk⟩ := h.leads.walk_append
    have hn := hnames n List.mem_cons_self
    rw [← FileTree.walk_eq_ok_iff, hk _ _ ⟨n, List.mem_cons_self, hn.1.1⟩,
      FileTree.walk_eq_ok_iff] at hleads
    rw [hleads.location_eq hfree fun hup => (hnames _ hup).2.2 rfl, hfilter, below]

/-! ### Paths of names -/

theorem hostPath_intercalate (h : ∀ n ∈ names, IsName n) :
    area.hostPath ("/".intercalate names) = area.root.join ("/".intercalate names) := by
  unfold hostPath
  rw [List.dropWhile_beq_eq_self_of_head?_ne, String.ofList_toList]
  exact Text.head?_intercalate_ne fun n hn => (h n hn).1

theorem segments_intercalate (h : ∀ n ∈ names, IsName n) :
    Text.segments ("/".intercalate names) = names :=
  Text.segments_intercalate fun n hn => (h n hn).1

theorem up_not_mem_segments (h : ∀ n ∈ names, IsName n) :
    ".." ∉ Text.segments ("/".intercalate names) := by
  rw [segments_intercalate h]
  exact fun hmem => (h _ hmem).2.2 rfl

theorem names_hostPath_intercalate (h : ∀ n ∈ names, IsName n) :
    (area.hostPath ("/".intercalate names)).names = area.root.names ++ names := by
  rw [names_hostPath, segments_intercalate h, List.filter_eq_self.mpr]
  exact fun n hn => decide_eq_true (h n hn).2.1

theorem steps_hostPath_intercalate (h : ∀ n ∈ names, IsName n) (hne : names ≠ []) :
    (area.hostPath ("/".intercalate names)).steps = Text.segments area.root.text ++ names := by
  have hhead : ("/".intercalate names).toList.head? ≠ some '/' :=
    Text.head?_intercalate_ne fun n hn => (h n hn).1
  have hlast : (area.root.join ("/".intercalate names)).text.toList.getLast? ≠ some '/' := by
    rw [HostPath.getLast?_text_join hhead]
    · exact Text.getLast?_intercalate_ne fun n hn => (h n hn).1
    · intro hempty
      apply hne
      rw [← segments_intercalate h, hempty, Text.segments_empty]
  rw [hostPath_intercalate h, HostPath.steps, HostPath.segments_join hhead, segments_intercalate h]
  exact if_neg (by simp [hlast])

/-- Where there are no links, a path with names leads nowhere but into the area. -/
theorem Based.verdict_eq_of_names {path : String} (based : area.Based t b) (hfree : t.LinkFree b)
    (hup : ".." ∉ Text.segments path) (hne : (Text.segments path).filter (· ≠ ".") ≠ []) :
    area.verdict t path = .ok (area.hostPath path) := by
  have hnames : (area.hostPath path).names =
      area.root.names ++ (Text.segments path).filter (· ≠ ".") := names_hostPath path
  have hup' : ".." ∉ (Text.segments path).filter (· ≠ ".") :=
    fun hmem => hup (List.mem_of_mem_filter hmem)
  generalize (Text.segments path).filter (· ≠ ".") = names at hne hnames hup'
  apply verdict_eq_ok_of hup
  · intro l hl
    obtain ⟨n, hfind⟩ := FileTree.locate_eq_ok_iff.mp hl
    have hleads := (FileTree.find_eq_ok_iff.mp hfind).2
    rw [start_hostPath] at hleads
    exact based.contains (based.leads.location_below hfree hnames hne hup' hleads)
  · intro _ q l hq hl
    obtain ⟨n, hfind⟩ := FileTree.locate_eq_ok_iff.mp hl
    have hleads := (FileTree.find_eq_ok_iff.mp hfind).2
    rw [start_parent_hostPath hq] at hleads
    have hqnames : q.names = area.root.names ++ names.dropLast := by
      rw [HostPath.names_parent hq, hnames, List.dropLast_append_of_ne_nil hne]
    by_cases hnil : names.dropLast = []
    · -- the directory that is looked at is that of the area
      rw [hnil, List.append_nil] at hqnames
      have hroot := FileTree.leads_steps_iff.mpr (hqnames ▸ based.leads)
      cases hroot.unique hleads
      exact based.contains (List.prefix_refl _)
    · exact based.contains (based.leads.location_below hfree hqnames hnil
        (fun hmem => hup' (List.dropLast_subset _ hmem)) hleads)

theorem Based.verdict_eq (based : area.Based t b) (hfree : t.LinkFree b)
    (h : ∀ n ∈ names, IsName n) (hne : names ≠ []) :
    area.verdict t ("/".intercalate names) = .ok (area.hostPath ("/".intercalate names)) := by
  apply based.verdict_eq_of_names hfree (up_not_mem_segments h)
  rw [segments_intercalate h, List.filter_eq_self.mpr]
  · exact hne
  · exact fun n hn => decide_eq_true (h n hn).2.1

/-- If names lead anywhere from the area, it is at a directory. -/
theorem exists_based_of_find {aim : Aim} {p : Place} (h : ∀ n ∈ names, IsName n) (hne : names ≠ [])
    (hfind : t.find aim (area.hostPath ("/".intercalate names)) = .ok p) :
    ∃ b, area.Based t b := by
  by_cases hempty : area.root.text = ""
  · exact ⟨t.here, (if_pos hempty).mpr rfl⟩
  · have hroot : area.root.Sound := (FileTree.find_eq_ok_iff.mp hfind).1.of_sublist
      (HostPath.text_prefix_join (head?_dropWhile_ne _)).sublist hempty
    obtain ⟨b, hb⟩ := FileTree.find_of_names_append hfind (names_hostPath_intercalate h) hne
      (rooted_hostPath _) hroot
    exact ⟨b, (if_neg hempty).mpr hb⟩

/-- The path of a file in the directory that names lead to. -/
abbrev pathTo (names : List String) (x : String) : String := "/".intercalate (names ++ [x])

/-! ### Sites -/

/-- Names lead to a directory of the area, where there are no links. -/
structure Site (area : StagingArea) (t : FileTree) (b : Location) (names : List String) : Prop where
  wellFormed : t.WellFormed
  linkFree : t.LinkFree b
  based : area.Based t b
  named : ∀ n ∈ names, IsName n
  leads : t.Leads .node FileTree.linkLimit (FileTree.start t.here area.root)
    (area.root.names ++ names) (.taken (below b names) .directory)

/-- A file system is ready to take the path of a file in a directory, and its name. -/
def Fits (area : StagingArea) (names : List String) (x : String) : Prop :=
  (area.hostPath (pathTo names x)).Sound ∧
    (Text.utf8 x).length ≤ FileTree.nameLimit

namespace Site

/-- Files that come and go leave a site as it is. -/
theorem refiled (site : area.Site t b names) (h : t.Refiled t') : area.Site t' b names where
  wellFormed := h.wellFormed
  linkFree := h.linkFree site.linkFree
  based := site.based.kept h.kept
  named := site.named
  leads := h.here ▸ site.leads.kept h.kept

theorem get?_below (site : area.Site t b names) : t.get? (below b names) = some .directory := by
  apply site.leads.holds site.wellFormed (FileTree.get?_start site.wellFormed.here _)
  intro s hs
  rcases List.mem_append.mp hs with hs | hs
  · exact .inr (HostPath.isSegment_of_mem_names hs).1
  · exact .inr (site.named s hs).1

section Named

variable (site : area.Site t b names) (hx : IsName x)

include site hx

theorem named_concat : ∀ n ∈ names ++ [x], IsName n := by
  intro n hn
  rcases List.mem_append.mp hn with hn | hn
  · exact site.named n hn
  · exact List.mem_singleton.mp hn ▸ hx

/-- The path of a name in the directory leads to the name. -/
theorem find_of_sound {aim : Aim}
    (h : (area.hostPath (pathTo names x)).Sound) :
    t.find aim (area.hostPath (pathTo names x)) =
      if FileTree.nameLimit < (Text.utf8 x).length then .error .nameTooLong
      else .ok (t.placeAt (below b names ++ [.text x])) := by
  have hmoves : moves x := HostPath.moves_iff.mpr ⟨hx.1.1, hx.2.1⟩
  have hfilter : (Text.segments area.root.text ++ names).filter moves =
      area.root.names ++ names := by
    rw [List.filter_append, HostPath.filter_segments, List.filter_eq_self.mpr]
    exact fun n hn => HostPath.moves_iff.mpr ⟨(site.named n hn).1.1, (site.named n hn).2.1⟩
  -- the steps of the root and of the names lead to the directory, and one step is left
  obtain ⟨k, hk⟩ := site.leads.walk_append
  rw [FileTree.find_of_sound h, start_hostPath,
    steps_hostPath_intercalate (site.named_concat hx) (by simp), ← List.append_assoc,
    FileTree.walk_filter_moves hmoves, hfilter, hk _ _ ⟨x, List.mem_singleton_self x, hx.1.1⟩]
  apply FileTree.walk_singleton hx
  intro target
  apply site.linkFree
  rw [below, List.append_assoc]
  exact List.prefix_append _ _

theorem find_eq_ok_iff {aim : Aim} {p : Place} :
    t.find aim (area.hostPath (pathTo names x)) = .ok p ↔
      area.Fits names x ∧ t.placeAt (below b names ++ [.text x]) = p := by
  constructor
  · intro h
    have hsound := (FileTree.find_eq_ok_iff.mp h).1
    rw [site.find_of_sound hx hsound] at h
    split at h
    · cases h
    · next hshort => exact ⟨⟨hsound, Nat.not_lt.mp hshort⟩, Except.ok.inj h⟩
  · rintro ⟨⟨hsound, hshort⟩, rfl⟩
    rw [site.find_of_sound hx hsound, if_neg (Nat.not_lt.mpr hshort)]

/-- A path that is refused is refused for its length. -/
theorem find_ne_notFound {aim : Aim} :
    t.find aim (area.hostPath (pathTo names x)) ≠ .error .notFound := by
  intro h
  have hsound : (area.hostPath (pathTo names x)).Sound := by
    apply FileTree.sound_of_find_eq_notFound h
    intro hempty
    have hnames : (area.hostPath (pathTo names x)).names =
        area.root.names ++ (names ++ [x]) := names_hostPath_intercalate (site.named_concat hx)
    rw [HostPath.names, hempty, Text.segments_empty] at hnames
    simp at hnames
  rw [site.find_of_sound hx hsound] at h
  split at h
  · cases h
  · cases h

/-- The path of the directory that a name is in leads to the directory. -/
theorem leads_parent {q : HostPath} (hq : (area.hostPath (pathTo names x)).parent? = some q) :
    t.Leads .node FileTree.linkLimit (FileTree.start t.here q) q.names
      (.taken (below b names) .directory) := by
  rw [start_parent_hostPath hq, HostPath.names_parent hq,
    names_hostPath_intercalate (site.named_concat hx), ← List.append_assoc, List.dropLast_concat]
  exact site.leads

/-- The directories that a file is in are there, so that none are made before the file. -/
theorem afterDirectories_tail :
    (t.afterDirectories (area.hostPath (pathTo names x)).ancestors.tail).2 = t := by
  apply FileTree.afterDirectories_of_firstMissing_eq_none
  rcases hq : (area.hostPath (pathTo names x)).parent? with _ | q
  · rw [HostPath.ancestors_of_parent_eq_none hq]
    rfl
  · rw [HostPath.ancestors_of_parent hq, List.tail_cons]
    exact FileTree.firstMissing_of_leads (site.leads_parent hx hq)

/-- The verdict on the path of a name is that the request may go there. -/
theorem verdict_eq :
    area.verdict t (pathTo names x) = .ok (area.hostPath (pathTo names x)) :=
  site.based.verdict_eq site.linkFree (site.named_concat hx) (by simp)

/-! ### Requests for a file -/

theorem read_eq_ok_iff {content : Bytes} :
    area.perform (.read (pathTo names x)) t = (.ok content, t') ↔
      t' = t ∧ area.Fits names x ∧
        t.get? (below b names ++ [.text x]) = some (.file content) := by
  rw [perform_read, site.verdict_eq hx, Prod.mk.injEq, mapError_eq_ok_iff, FileTree.read_eq_ok_iff]
  constructor
  · rintro ⟨⟨l, hfind⟩, rfl⟩
    obtain ⟨hfits, hplace⟩ := (site.find_eq_ok_iff hx).mp hfind
    exact ⟨rfl, hfits, (FileTree.placeAt_eq_taken_iff.mp hplace).2⟩
  · rintro ⟨rfl, hfits, hfile⟩
    refine ⟨⟨below b names ++ [.text x], (site.find_eq_ok_iff hx).mpr ⟨hfits, ?_⟩⟩, rfl⟩
    exact FileTree.placeAt_eq_taken_iff.mpr ⟨rfl, hfile⟩

/-- After the answer that all went well, the file is there and nothing else has changed. -/
theorem of_write_eq_ok {content : Bytes}
    (h : area.perform (.write (pathTo names x) content) t = (.ok (), t')) :
    area.Fits names x ∧ t' = t.put (below b names ++ [.text x]) (.file content) ∧
      t.Refiled t' := by
  have hparents := site.afterDirectories_tail hx
  rw [perform_write, site.verdict_eq hx] at h
  dsimp only at h
  rcases hrun : t.afterDirectories
    (area.hostPath (pathTo names x)).ancestors.tail with ⟨e | ⟨⟩, t₁⟩
  · rw [hrun] at h
    cases h
  rw [hrun] at h hparents
  obtain rfl : t₁ = t := hparents
  obtain ⟨l, hplace, rfl⟩ := FileTree.write_eq_ok_iff.mp (FileTree.settle_mapError_eq_ok_iff.mp h)
  have hfree : area.Fits names x ∧ l = below b names ++ [.text x] ∧
      ∀ n, t₁.get? l = some n → ∃ content, n = .file content := by
    rcases hplace with hfind | ⟨old, hfind⟩
    · obtain ⟨hfits, hplace⟩ := (site.find_eq_ok_iff hx).mp hfind
      obtain ⟨rfl, hget⟩ := FileTree.placeAt_eq_free_iff.mp hplace
      exact ⟨hfits, rfl, by rw [hget]; nofun⟩
    · obtain ⟨hfits, hplace⟩ := (site.find_eq_ok_iff hx).mp hfind
      obtain ⟨rfl, hget⟩ := FileTree.placeAt_eq_taken_iff.mp hplace
      exact ⟨hfits, rfl, fun n hn => ⟨old, Option.some.inj (hn.symm.trans hget)⟩⟩
  obtain ⟨hfits, rfl, hfree⟩ := hfree
  exact ⟨hfits, rfl, .put site.wellFormed content site.get?_below hx hfree⟩

/-- A file is written if a path may be so long and there is at most a file in its place. -/
theorem write_of_fits {content : Bytes} (hfits : area.Fits names x)
    (hfree : ∀ n, t.get? (below b names ++ [.text x]) = some n → ∃ old, n = .file old) :
    area.perform (.write (pathTo names x) content) t =
      (.ok (), t.put (below b names ++ [.text x]) (.file content)) := by
  have hfind : t.find .output (area.hostPath (pathTo names x)) =
      .ok (t.placeAt (below b names ++ [.text x])) :=
    (site.find_eq_ok_iff hx).mpr ⟨hfits, rfl⟩
  rw [perform_write, site.verdict_eq hx]
  dsimp only
  rw [FileTree.afterDirectories_tail_of_find hfind]
  apply FileTree.settle_mapError_eq_ok_iff.mpr
  rw [FileTree.write_eq_ok_iff]
  refine ⟨_, ?_, rfl⟩
  rcases hget : t.get? (below b names ++ [.text x]) with _ | n
  · rw [FileTree.placeAt_eq_free_iff.mpr ⟨rfl, hget⟩] at hfind
    exact .inl hfind
  · obtain ⟨old, rfl⟩ := hfree n hget
    rw [FileTree.placeAt_eq_taken_iff.mpr ⟨rfl, hget⟩] at hfind
    exact .inr ⟨old, hfind⟩

/-- No slash stands behind the name. -/
theorem getLast?_steps_ne : (area.hostPath (pathTo names x)).steps.getLast? ≠ some "" := by
  rw [steps_hostPath_intercalate (site.named_concat hx) (by simp), ← List.append_assoc,
    List.getLast?_concat]
  exact fun heq => hx.1.1 (Option.some.inj heq)

/-- A file is removed if a path may be so long. -/
theorem delete_of_fits {content : Bytes} (hfits : area.Fits names x)
    (hfile : t.get? (below b names ++ [.text x]) = some (.file content)) :
    area.perform (.delete (pathTo names x)) t =
      (.ok (), t.erase (below b names ++ [.text x])) := by
  have hfind : t.find .entry (area.hostPath (pathTo names x)) =
      .ok (.taken (below b names ++ [.text x]) (.file content)) :=
    (site.find_eq_ok_iff hx).mpr ⟨hfits, FileTree.placeAt_eq_taken_iff.mpr ⟨rfl, hfile⟩⟩
  rw [perform_delete, site.verdict_eq hx]
  dsimp only
  rw [FileTree.remove_of_file hfind (site.getLast?_steps_ne hx)]
  rfl

/-- A file goes away, also if the answer would be that there is none. -/
theorem of_delete {content : Bytes} {r : Except StagingError Unit}
    (hfile : t.get? (below b names ++ [.text x]) = some (.file content))
    (h : area.perform (.delete (pathTo names x)) t = (r, t'))
    (hr : r = .ok () ∨ ∃ path, r = .error (.fileNotFound path)) :
    t' = t.erase (below b names ++ [.text x]) := by
  rw [perform_delete, site.verdict_eq hx] at h
  dsimp only at h
  obtain ⟨hanswer, htree⟩ := Prod.mk.inj h
  rcases hfind : t.find .entry (area.hostPath (pathTo names x)) with e | p
  · -- the file is not missing, and any other refusal is passed on
    have hmissing : e ≠ .notFound := by
      rintro rfl
      exact site.find_ne_notFound hx hfind
    rw [FileTree.remove_of_error hfind] at hanswer
    rw [← hanswer] at hr
    rcases hr with hr | ⟨path, hr⟩
    · cases hr
    · cases (if_neg hmissing).symm.trans (Except.error.inj hr)
  · obtain ⟨-, rfl⟩ := (site.find_eq_ok_iff hx).mp hfind
    rw [FileTree.placeAt_eq_taken_iff.mpr ⟨rfl, hfile⟩] at hfind
    rw [FileTree.remove_of_file hfind (site.getLast?_steps_ne hx)] at htree
    exact htree.symm

end Named

/-! ### Requests for the directory -/

theorem find_directory_iff (site : area.Site t b names) {p : Place} :
    t.find .node (area.hostPath ("/".intercalate names)) = .ok p ↔
      (area.hostPath ("/".intercalate names)).Sound ∧ p = .taken (below b names) .directory := by
  have hleads : t.Leads .node FileTree.linkLimit
      (FileTree.start t.here (area.hostPath ("/".intercalate names)))
      (area.hostPath ("/".intercalate names)).steps (.taken (below b names) .directory) := by
    rw [FileTree.leads_steps_iff, names_hostPath_intercalate site.named, start_hostPath]
    exact site.leads
  rw [FileTree.find_eq_ok_iff]
  refine and_congr_right fun _ => ⟨fun h => h.unique hleads, ?_⟩
  rintro rfl
  exact hleads

/-- The path leads to the directory, and so nothing else is looked at for the verdict. -/
theorem verdict_directory (site : area.Site t b names)
    (hsound : (area.hostPath ("/".intercalate names)).Sound) :
    area.verdict t ("/".intercalate names) = .ok (area.hostPath ("/".intercalate names)) := by
  have hfind := site.find_directory_iff.mpr ⟨hsound, rfl⟩
  apply verdict_eq_ok_of (up_not_mem_segments site.named)
  · intro l hl
    obtain ⟨n, hn⟩ := FileTree.locate_eq_ok_iff.mp hl
    cases (site.find_directory_iff.mp hn).2
    exact site.based.contains (List.prefix_append _ _)
  · intro hnone
    exact absurd (FileTree.locate_eq_ok_iff.mpr ⟨_, hfind⟩) (hnone _)

theorem list_eq_ok_iff (site : area.Site t b names) {files : List String} :
    area.perform (.list ("/".intercalate names)) t = (.ok files, t') ↔
      t' = t ∧ (area.hostPath ("/".intercalate names)).Sound ∧
        fileNames (t.entries (below b names)) = files := by
  constructor
  · intro h
    obtain ⟨full, entries, hverdict, hlist, hfiles⟩ :=
      perform_list_eq_ok_iff.mp (congrArg Prod.fst h)
    obtain ⟨rfl, -⟩ := verdict_eq_ok hverdict
    obtain ⟨l, hfind, rfl⟩ := FileTree.list_eq_ok_iff.mp hlist
    obtain ⟨hsound, hplace⟩ := site.find_directory_iff.mp hfind
    cases hplace
    have htree : t = t' := (perform_list_snd _).symm.trans (congrArg Prod.snd h)
    exact ⟨htree.symm, hsound, hfiles⟩
  · rintro ⟨rfl, hsound, hfiles⟩
    have hfind := site.find_directory_iff.mpr ⟨hsound, rfl⟩
    rw [perform_list, site.verdict_directory hsound]
    dsimp only
    rw [FileTree.list_eq_ok_iff.mpr ⟨_, hfind, rfl⟩, ← hfiles]
    rfl

/-- The directories on the way are sites as well. -/
theorem outer {more : List String} (site : area.Site t b (names ++ more)) :
    area.Site t b names := by
  have hnames : ∀ n ∈ names, IsName n := fun n hn => site.named n (List.mem_append_left _ hn)
  obtain ⟨d, hd⟩ : ∃ d, t.Leads .node FileTree.linkLimit (FileTree.start t.here area.root)
      (area.root.names ++ names) (.taken d .directory) := by
    apply site.leads.of_prefix
    · exact (List.prefix_append_right_inj _).mpr (List.prefix_append _ _)
    · intro z hz
      rcases List.mem_append.mp hz with hz | hz
      · exact (HostPath.isSegment_of_mem_names hz).1.1
      · exact (site.named z hz).1.1
  have hlocation := location_of_leads site.based site.linkFree hnames hd
  exact ⟨site.wellFormed, site.linkFree, site.based, hnames, hlocation ▸ hd⟩

end Site

/-- After a directory is made, the area is somewhere, and the directory is a site if there are no
links where the area is. -/
theorem exists_site_of_makeDirectory (ht : t.WellFormed) (hnames : ∀ n ∈ names, IsName n)
    (hne : names ≠ [])
    (h : area.perform (.makeDirectory ("/".intercalate names)) t = (.ok (), t')) :
    t.Extended t' ∧ ∃ b, area.Based t' b ∧ (t.LinkFree b → area.Site t' b names) := by
  rw [perform_makeDirectory] at h
  rcases hverdict : area.verdict t ("/".intercalate names) with e | full
  · rw [hverdict] at h
    cases h
  rw [hverdict] at h
  obtain ⟨rfl, -⟩ := verdict_eq_ok hverdict
  have hpnames : (area.hostPath ("/".intercalate names)).names = area.root.names ++ names :=
    names_hostPath_intercalate hnames
  have hpstart : FileTree.start t'.here (area.hostPath ("/".intercalate names)) =
      FileTree.start t'.here area.root := start_hostPath _ _
  have hbased : ∀ {aim p}, t'.find aim (area.hostPath ("/".intercalate names)) = .ok p →
      ∃ b, area.Based t' b := exists_based_of_find hnames hne
  generalize area.hostPath ("/".intercalate names) = p at *
  obtain ⟨hanswer, htree⟩ := Prod.mk.inj h
  have hrun : t.afterDirectories p.ancestors = (.ok (), t') :=
    Prod.ext (mapError_eq_ok_iff.mp hanswer) htree
  have hext : t.Extended t' := htree ▸ FileTree.extended_afterDirectories ht p.ancestors
  obtain ⟨q, hq⟩ : ∃ q, p.parent? = some q := by
    apply HostPath.exists_parent
    intro hnil
    rcases p.components_eq with hc | ⟨-, hc⟩
    · rw [hnil, hpnames] at hc
      exact hne (List.append_eq_nil_iff.mp hc.symm).2
    · rw [hnil] at hc
      cases hc
  rw [HostPath.ancestors_of_parent hq] at hrun
  obtain ⟨d, hfind⟩ :=
    FileTree.isDirectory_iff.mp (FileTree.isDirectory_of_afterDirectories_eq_ok ht hrun)
  obtain ⟨hsound, hleads⟩ := FileTree.find_eq_ok_iff.mp hfind
  rw [FileTree.leads_steps_iff, hpnames, hpstart] at hleads
  -- the directory of the area is on the way to the one that is there now
  obtain ⟨b, hb⟩ := hbased hfind
  refine ⟨hext, b, hb, fun hfree => ?_⟩
  have hfree' := hext.linkFree hfree
  have hlocation := location_of_leads hb hfree' hnames hleads
  exact ⟨hext.wellFormed, hfree', hb, hnames, hlocation ▸ hleads⟩

end StagingArea

end SchemaForge
