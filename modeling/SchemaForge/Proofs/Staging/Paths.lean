import SchemaForge.Proofs.Staging.Site

/-!
# Paths that are refused

Where an area is there and has no links, the verdict on a path is a matter of its text: a path with
a step upwards is refused, and any other one stands for the directory of the area followed by the
names in the path. There are two exceptions. A path without names that is longer than a file system
takes does not lead to the directory of the area; the directory that this one is in is looked at
instead, and it is outside. And a system may fail to tell the canonical path of what is there to be
looked at, as it does where this path would be too long.
-/

namespace SchemaForge

namespace FileTree

/-! ### Canonical paths -/

/-- The canonical path that a system answers for a place that is there is that of the place. -/
def Truthful (t : FileTree) (canonical : FileTree → HostPath → Except OsError Location) : Prop :=
  ∀ p l k, t.locate p = .ok l → canonical t p = .ok k → k = l

theorem truthful_locate (t : FileTree) : t.Truthful locate :=
  fun _ _ _ hl hk => Except.ok.inj (hk.symm.trans hl)

/-- The path from the root to a location. -/
def fromRoot (l : Location) : Bytes :=
  l.flatMap fun
    | .text s => Text.utf8 ("/" ++ s)
    | .raw bytes => Text.utf8 "/" ++ bytes

theorem length_fromRoot_le {l k : Location} (h : l <+: k) :
    (fromRoot l).length ≤ (fromRoot k).length := by
  obtain ⟨rest, rfl⟩ := h
  rw [fromRoot, fromRoot, List.flatMap_append, List.length_append]
  exact Nat.le_add_right _ _

/-- The canonical paths of a system that takes no path from the root beyond its limit. -/
def realPath (t : FileTree) (p : HostPath) : Except OsError Location := do
  let l ← t.locate p
  if pathLimit ≤ (fromRoot l).length then throw .nameTooLong else return l

theorem truthful_realPath (t : FileTree) : t.Truthful realPath := by
  intro p l k hl hk
  rw [realPath, hl, ok_bind] at hk
  split at hk
  · cases hk
  · exact (Except.ok.inj hk).symm

/-- A path that is too long leads nowhere. -/
theorem not_isThere_of_long {t : FileTree} {p : HostPath} (h : pathLimit ≤ p.size) :
    ¬t.isThere p := by
  rw [isThere_iff]
  rintro ⟨l, hl⟩
  obtain ⟨n, hfind⟩ := locate_eq_ok_iff.mp hl
  exact Nat.not_lt.mpr h (find_eq_ok_iff.mp hfind).1.short

/-! ### Directories in each other -/

/-- So many directories of one name, each in the one before. The working directory is the last. -/
def nested (name : String) : Nat → FileTree
  | 0 => ⟨[], []⟩
  | n + 1 =>
    let t := nested name n
    { t.put (t.here ++ [.text name]) .directory with here := t.here ++ [.text name] }

section Nested

variable {name : String} {n : Nat}

theorem get?_nested_succ (k : Location) :
    (nested name (n + 1)).get? k =
      if k = (nested name n).here ++ [.text name] then some .directory
      else (nested name n).get? k :=
  get?_put _ (by simp) _ _

/-- There are directories only, and the working directory is in all of them. -/
theorem eq_directory_of_get?_nested {k : Location} {m : Node}
    (h : (nested name n).get? k = some m) : m = .directory ∧ k <+: (nested name n).here := by
  induction n with
  | zero =>
    by_cases hk : k = []
    · subst hk
      exact ⟨(Option.some.inj h).symm, List.nil_prefix⟩
    · rw [get?, if_neg hk] at h
      cases h
  | succ n ih =>
    rw [get?_nested_succ] at h
    split at h
    · next hk => exact ⟨(Option.some.inj h).symm, hk ▸ List.prefix_rfl⟩
    · exact ⟨(ih h).1, (ih h).2.trans (List.prefix_append _ _)⟩

theorem linkFree_nested (l : Location) : (nested name n).LinkFree l := by
  intro k target _ hlink
  cases (eq_directory_of_get?_nested hlink).1

theorem wellFormed_nested (hname : IsName name) (n : Nat) : (nested name n).WellFormed := by
  induction n with
  | zero => exact ⟨by simp [nested, get?], rfl, List.nodup_nil, by simp [nested, get?]⟩
  | succ n ih =>
    have hput := ih.put .directory ih.here hname fun h =>
      absurd (eq_directory_of_get?_nested h).2.length_le (by simp)
    exact ⟨hput.housed, by rw [get?_nested_succ]; exact if_pos rfl, hput.distinct, hput.named⟩

theorem length_fromRoot_here_nested :
    (fromRoot (nested name n).here).length = n * (Text.utf8 ("/" ++ name)).length := by
  induction n with
  | zero => rw [Nat.zero_mul]; rfl
  | succ n ih =>
    show (fromRoot ((nested name n).here ++ [.text name])).length = _
    rw [fromRoot, List.flatMap_append, List.length_append, ← fromRoot, ih, Nat.succ_mul,
      List.flatMap_singleton]

end Nested

end FileTree

namespace StagingArea

open Script (outcome)

variable {canonical : FileTree → HostPath → Except OsError Location} {area : StagingArea}
  {t : FileTree} {path : String} {full : HostPath} {b l : Location} {names : List String}

/-- The path adds no name to that of the area but makes it so long that it leads nowhere, and the
directory that the path of the area is in is there, with a canonical path outside of the area. -/
structure Outgrown (canonical : FileTree → HostPath → Except OsError Location) (area : StagingArea)
    (t : FileTree) (b : Location) (path : String) : Prop where
  idle : (Text.segments path).filter (· ≠ ".") = []
  long : FileTree.pathLimit ≤ (area.hostPath path).size
  outer : ∃ q l, area.root.parent? = some q ∧ t.isThere q ∧ canonical t q = .ok l ∧ ¬b <+: l

/-- The area has no canonical path to compare with, and what is looked at for the path is not below
what the path of the area spells out. -/
structure Unplaced (canonical : FileTree → HostPath → Except OsError Location) (area : StagingArea)
    (t : FileTree) (path : String) : Prop where
  unnamed : ∃ e, canonical t area.root = .error e
  outer : ∃ p l, anchorPath? t (area.hostPath path) = some p ∧ canonical t p = .ok l ∧
    ¬area.spells l

/-- The path stands for the directory of the area followed by names: it is written so, and whatever
it leads to is there. A link to the directory of the area may be an entry elsewhere. -/
structure Denotes (area : StagingArea) (t : FileTree) (b : Location) (names : List String)
    (full : HostPath) : Prop where
  rooted : full.rooted = area.root.rooted
  names_eq : full.names = area.root.names ++ names
  location : ∀ aim place, aim = .node ∨ names ≠ [] → t.find aim full = .ok place →
    place.location = below b names

/-- So it is in the area. -/
theorem Denotes.inside (h : area.Denotes t b names full) (hl : t.locate full = .ok l) :
    b <+: l := by
  obtain ⟨n, hfind⟩ := FileTree.locate_eq_ok_iff.mp hl
  obtain rfl : l = below b names := h.location .node _ (.inl rfl) hfind
  exact List.prefix_append _ _

/-! ### Paths without names -/

section Idle

variable (hidle : (Text.segments path).filter (· ≠ ".") = [])

include hidle

theorem names_relative_eq_nil :
    (HostPath.mk (String.ofList (path.toList.dropWhile (· == '/')))).names = [] := by
  rw [HostPath.names, Text.segments_dropWhile, String.ofList_toList]
  exact hidle

theorem up_not_mem_of_idle : ".." ∉ Text.segments path :=
  fun hmem => List.filter_eq_nil_iff.mp hidle _ hmem (by decide)

theorem sound_hostPath_of_idle (hroot : area.root.Sound)
    (hshort : (area.hostPath path).size < FileTree.pathLimit) : (area.hostPath path).Sound where
  no_nul hnul := by
    rcases HostPath.mem_text_join hnul with h | h | h
    · exact hroot.no_nul h
    · cases h
    · rcases HostPath.eq_of_mem_text (names_relative_eq_nil hidle) h with h | h
      · cases h
      · cases h
  ne_empty := HostPath.text_join_ne_empty (head?_dropWhile_ne path) hroot.ne_empty
  short := hshort

end Idle

section Verdicts

variable (hroot : t.find .node area.root = .ok (.taken b .directory))

include hroot

theorem text_root_ne_empty : area.root.text ≠ "" := (FileTree.find_eq_ok_iff.mp hroot).1.ne_empty

theorem based_of_find : area.Based t b := (if_neg (text_root_ne_empty hroot)).mpr hroot

/-- The directory that a path without names is in is the one that the path of the area is in. -/
theorem parent?_hostPath_of_idle (hidle : (Text.segments path).filter (· ≠ ".") = []) :
    (area.hostPath path).parent? = area.root.parent? :=
  HostPath.parent?_join_of_idle (head?_dropWhile_ne path) (text_root_ne_empty hroot)
    (HostPath.idle_of_names_eq_nil (names_relative_eq_nil hidle))

theorem find_hostPath_of_idle (hidle : (Text.segments path).filter (· ≠ ".") = [])
    (hshort : (area.hostPath path).size < FileTree.pathLimit) :
    t.find .node (area.hostPath path) = .ok (.taken b .directory) := by
  obtain ⟨hsound, hleads⟩ := FileTree.find_eq_ok_iff.mp hroot
  refine FileTree.find_eq_ok_iff.mpr ⟨sound_hostPath_of_idle hidle hsound hshort, ?_⟩
  rw [FileTree.leads_steps_iff, start_hostPath, names_hostPath, hidle, List.append_nil]
  exact FileTree.leads_steps_iff.mp hleads

theorem anchorPath?_of_long (hidle : (Text.segments path).filter (· ≠ ".") = [])
    (hlong : FileTree.pathLimit ≤ (area.hostPath path).size) :
    anchorPath? t (area.hostPath path) = area.root.parent?.filter t.isThere := by
  rw [anchorPath?, if_neg (FileTree.not_isThere_of_long hlong),
    parent?_hostPath_of_idle hroot hidle]

/-- What is looked at for a path is in the area, unless the path has no names and is too long. -/
theorem inside_or_long (hfree : t.LinkFree b) (hup : ".." ∉ Text.segments path) {p : HostPath}
    (hp : anchorPath? t (area.hostPath path) = some p) (hl : t.locate p = .ok l) :
    b <+: l ∨ (Text.segments path).filter (· ≠ ".") = [] ∧
      FileTree.pathLimit ≤ (area.hostPath path).size ∧ area.root.parent? = some p := by
  by_cases hidle : (Text.segments path).filter (· ≠ ".") = []
  · by_cases hshort : (area.hostPath path).size < FileTree.pathLimit
    · -- the path leads to the directory of the area
      have hfind := find_hostPath_of_idle hroot hidle hshort
      have hthere : t.isThere (area.hostPath path) :=
        FileTree.isThere_iff.mpr ⟨b, FileTree.locate_eq_ok_iff.mpr ⟨_, hfind⟩⟩
      rw [anchorPath?, if_pos hthere] at hp
      obtain rfl := Option.some.inj hp
      obtain ⟨n, hfind'⟩ := FileTree.locate_eq_ok_iff.mp hl
      cases hfind.symm.trans hfind'
      exact .inl List.prefix_rfl
    · have hlong := Nat.not_lt.mp hshort
      rw [anchorPath?_of_long hroot hidle hlong] at hp
      exact .inr ⟨hidle, hlong, (Option.filter_eq_some_iff.mp hp).1⟩
  · -- a system that names every place does not refuse the path
    left
    have hv := (based_of_find hroot).verdict_eq_of_names hfree hup hidle
    by_contra hout
    rw [← verdictWith_locate, verdictWith_eq_escapesRoot_iff.mpr ⟨hup, p, l, hp, hl, ?_⟩] at hv
    · cases hv
    · rw [containsWith_locate]
      exact fun hin => hout ((contains_iff hroot).mp hin)

theorem verdictWith_eq_escapesRoot_iff_of_linkFree (hcanonical : t.Truthful canonical)
    (hfree : t.LinkFree b) :
    area.verdictWith canonical t path = .error (.escapesRoot path) ↔
      ".." ∉ Text.segments path ∧
        ((∃ k, canonical t area.root = .ok k) ∧ area.Outgrown canonical t b path ∨
          area.Unplaced canonical t path) := by
  rw [verdictWith_eq_escapesRoot_iff]
  refine and_congr_right fun hup => ?_
  rcases hname : canonical t area.root with e | k
  · have hspelled : ∀ l, area.containsWith canonical t l ↔ area.spells l := fun l => by
      rw [containsWith, hname]
    constructor
    · rintro ⟨p, l, hp, hl, hout⟩
      exact .inr ⟨⟨e, hname⟩, p, l, hp, hl, fun hin => hout ((hspelled l).mpr hin)⟩
    · rintro (⟨⟨k, hk⟩, -⟩ | h)
      · cases hk
      · obtain ⟨p, l, hp, hl, hout⟩ := h.outer
        exact ⟨p, l, hp, hl, fun hin => hout ((hspelled l).mp hin)⟩
  · have hbelow : ∀ l, area.containsWith canonical t l ↔ b <+: l := fun l => by
      obtain rfl := hcanonical _ _ _ (FileTree.locate_eq_ok_iff.mpr ⟨_, hroot⟩) hname
      rw [containsWith, hname]
      exact List.isPrefixOf_iff_prefix
    constructor
    · rintro ⟨p, l, hp, hl, hout⟩
      rw [hbelow] at hout
      obtain ⟨l', hl'⟩ := locate_of_anchorPath? hp
      obtain rfl := hcanonical _ _ _ hl' hl
      obtain ⟨hidle, hlong, hparent⟩ := (inside_or_long hroot hfree hup hp hl').resolve_left hout
      have hthere := FileTree.isThere_iff.mpr ⟨l, hl'⟩
      exact .inl ⟨⟨k, rfl⟩, hidle, hlong, p, l, hparent, hthere, hl, hout⟩
    · rintro (⟨-, h⟩ | h)
      · obtain ⟨q, l, hq, hthere, hl, hout⟩ := h.outer
        refine ⟨q, l, ?_, hl, fun hin => hout ((hbelow l).mp hin)⟩
        rw [anchorPath?_of_long hroot h.idle h.long, hq, Option.filter_some, if_pos hthere]
      · obtain ⟨e, he⟩ := h.unnamed
        cases hname.symm.trans he

theorem denotes_hostPath (hfree : t.LinkFree b) (hup : ".." ∉ Text.segments path) :
    area.Denotes t b ((Text.segments path).filter (· ≠ ".")) (area.hostPath path) where
  rooted := rooted_hostPath path
  names_eq := names_hostPath path
  location aim place haim hfind := by
    obtain ⟨hsound, hleads⟩ := FileTree.find_eq_ok_iff.mp hfind
    by_cases hidle : (Text.segments path).filter (· ≠ ".") = []
    · obtain rfl : aim = .node := haim.resolve_right fun hne => hne hidle
      cases (find_hostPath_of_idle hroot hidle hsound.short).symm.trans hfind
      rw [hidle, below, List.map_nil, List.append_nil]
      rfl
    · rw [start_hostPath] at hleads
      exact (based_of_find hroot).leads.location_eq_append hfree (names_hostPath path) hidle
        (fun hmem => hup (List.mem_of_mem_filter hmem)) hleads

/-- A path in an area that is there, with no links in it, is refused if a segment is a step upwards,
if it has outgrown the area, or if a canonical path is missing; otherwise it stands for the directory
of the area followed by its names. Canonical paths may be missing anywhere, as long as those that a
system does tell are right. -/
theorem paths_are_resolved_by_their_segments (hcanonical : t.Truthful canonical)
    (hfree : t.LinkFree b) (path : String) :
    ∃ r, outcome (FileTree.performWith canonical) (area.resolve path) t = (r, t) ∧
      (r = .error (.leavesRoot path) ↔ ".." ∈ Text.segments path) ∧
      (r = .error (.escapesRoot path) ↔ ".." ∉ Text.segments path ∧
        ((∃ k, canonical t area.root = .ok k) ∧ area.Outgrown canonical t b path ∨
          area.Unplaced canonical t path)) ∧
      (∀ e, r = .error (.failed .resolve path e) ↔ ".." ∉ Text.segments path ∧
        ∃ p, anchorPath? t (area.hostPath path) = some p ∧ canonical t p = .error e) ∧
      (∀ e, r = .error e →
        e = .leavesRoot path ∨ e = .escapesRoot path ∨ ∃ o, e = .failed .resolve path o) ∧
      ∀ full, r = .ok full →
        area.Denotes t b ((Text.segments path).filter (· ≠ ".")) full ∧
          ∀ l, t.locate full = .ok l → b <+: l := by
  refine ⟨_, outcome_resolveWith canonical path, verdictWith_eq_leavesRoot_iff,
    verdictWith_eq_escapesRoot_iff_of_linkFree hroot hcanonical hfree,
    fun _ => verdictWith_eq_failed_iff, fun _ => verdictWith_eq_error, fun full hfull => ?_⟩
  obtain ⟨rfl, hup⟩ := verdictWith_eq_ok hfull
  have hdenotes := denotes_hostPath hroot hfree hup
  exact ⟨hdenotes, fun _ => hdenotes.inside⟩

end Verdicts

/-- A path with dots and slashes more than it needs stands for a file, and one that steps upwards
inside the area is refused. -/
theorem path_with_spare_slashes_is_resolved :
    ∃ (t : FileTree) (area : StagingArea) (b : Location),
      t = ⟨[([.text "root"], .directory), ([.text "root", .text "a"], .directory)], []⟩ ∧
      area = ⟨⟨"/root"⟩⟩ ∧ t.find .node area.root = .ok (.taken b .directory) ∧ t.LinkFree b ∧
      t.Truthful FileTree.realPath ∧
      (∃ full,
        outcome (FileTree.performWith FileTree.realPath) (area.resolve "//a/./b..c/") t =
          (.ok full, t) ∧
        area.Denotes t b ["a", "b..c"] full) ∧
      outcome (FileTree.performWith FileTree.realPath) (area.resolve "a/../b") t =
        (.error (.leavesRoot "a/../b"), t) := by
  let t : FileTree :=
    ⟨[([.text "root"], .directory), ([.text "root", .text "a"], .directory)], []⟩
  let area : StagingArea := ⟨⟨"/root"⟩⟩
  have hroot : t.find .node area.root = .ok (.taken [.text "root"] .directory) := by decide +kernel
  have hfree : t.LinkFree [.text "root"] := by
    apply FileTree.linkFree_of_nodes
    simp [t]
  have hname : t.realPath area.root = .ok [.text "root"] := by decide +kernel
  have hdirectory : t.realPath ⟨"/root/a"⟩ = .ok [.text "root", .text "a"] := by decide +kernel
  refine ⟨t, area, _, rfl, rfl, hroot, hfree, t.truthful_realPath, ?_, ?_⟩
  · obtain ⟨r, hr, hup, houter, hfailed, herror, hdenotes⟩ :=
      paths_are_resolved_by_their_segments hroot t.truthful_realPath hfree "//a/./b..c/"
    rcases r with e | full
    · rcases herror e rfl with rfl | rfl | ⟨o, rfl⟩
      · exact absurd (hup.mp rfl) (by decide +kernel)
      · -- the path has names, and the area has a canonical path
        rcases (houter.mp rfl).2 with ⟨-, houtgrown⟩ | hunplaced
        · exact absurd houtgrown.idle (by decide +kernel)
        · obtain ⟨e, he⟩ := hunplaced.unnamed
          cases hname.symm.trans he
      · -- the directory that the file is to be in is looked at
        obtain ⟨-, p, hp, ho⟩ := (hfailed o).mp rfl
        have hparent : anchorPath? t (area.hostPath "//a/./b..c/") = some ⟨"/root/a"⟩ := by
          decide +kernel
        obtain rfl := Option.some.inj (hparent.symm.trans hp)
        cases hdirectory.symm.trans ho
    · refine ⟨full, hr, ?_⟩
      have hnames : (Text.segments "//a/./b..c/").filter (· ≠ ".") = ["a", "b..c"] := by
        decide +kernel
      exact hnames ▸ (hdenotes full rfl).1
  · obtain ⟨r, hr, hup, -⟩ :=
      paths_are_resolved_by_their_segments hroot t.truthful_realPath hfree "a/../b"
    obtain rfl := hup.mpr (by decide +kernel)
    exact hr

/-! ### Areas in deep directories -/

/-- In an area so deep that the paths from the root to what is in it are too long, whatever is there
is refused, and not because of where it is. -/
theorem deep_area_is_not_resolved (hroot : t.find .node area.root = .ok (.taken b .directory))
    (hfree : t.LinkFree b) (hdeep : FileTree.pathLimit ≤ (FileTree.fromRoot b).length)
    (hup : ".." ∉ Text.segments path) (hthere : t.isThere (area.hostPath path)) :
    outcome (FileTree.performWith FileTree.realPath) (area.resolve path) t =
      (.error (.failed .resolve path .nameTooLong), t) := by
  obtain ⟨l, hl⟩ := FileTree.isThere_iff.mp hthere
  have hinside : b <+: l := (denotes_hostPath hroot hfree hup).inside hl
  have hlong : t.realPath (area.hostPath path) = .error .nameTooLong := by
    rw [FileTree.realPath, hl]
    exact if_pos (Nat.le_trans hdeep (FileTree.length_fromRoot_le hinside))
  rw [outcome_resolveWith, verdictWith_eq_failed_iff.mpr ⟨hup, _, if_pos hthere, hlong⟩]

/-- The directory of an area is there, and yet it is refused: it is in so many others that the path
from the root to it is too long. -/
theorem deep_root_is_refused :
    ∃ (t : FileTree) (area : StagingArea) (b : Location),
      t.WellFormed ∧ t.LinkFree [] ∧ t.find .node area.root = .ok (.taken b .directory) ∧
      outcome (FileTree.performWith FileTree.realPath) (area.resolve "") t =
        (.error (.failed .resolve "" .nameTooLong), t) := by
  let t := FileTree.nested "d" 2048
  have hdeep : FileTree.pathLimit ≤ (FileTree.fromRoot t.here).length := by
    rw [FileTree.length_fromRoot_here_nested]
    decide
  have hroot : t.find .node ⟨"."⟩ = .ok (.taken t.here .directory) := rfl
  refine ⟨t, ⟨⟨"."⟩⟩, t.here, FileTree.wellFormed_nested (by decide) 2048,
    FileTree.linkFree_nested [], hroot, ?_⟩
  exact deep_area_is_not_resolved hroot (FileTree.linkFree_nested _) hdeep (by decide +kernel)
    (by decide +kernel)

/-! ### Paths that have outgrown an area -/

/-- So many slashes that a path leads nowhere. -/
theorem outgrown_of_slashes {n : Nat} (hn : FileTree.pathLimit ≤ n)
    (houter : ∃ q l, area.root.parent? = some q ∧ t.isThere q ∧ canonical t q = .ok l ∧ ¬b <+: l) :
    area.Outgrown canonical t b (String.ofList ('.' :: List.replicate n '/')) where
  idle := by
    rw [← List.singleton_append, Text.segments_append_replicate]
    decide
  long := by
    have hhost : area.hostPath (String.ofList ('.' :: List.replicate n '/')) =
        area.root.join (String.ofList ('.' :: List.replicate n '/')) := by
      rw [hostPath, String.toList_ofList, List.dropWhile_cons_of_neg (by decide)]
    have hslashes : (List.replicate n '/').Sublist
        (area.hostPath (String.ofList ('.' :: List.replicate n '/'))).text.toList := by
      have hsuffix := HostPath.suffix_text_join area.root
        (String.ofList ('.' :: List.replicate n '/'))
      rw [String.toList_ofList] at hsuffix
      rw [hhost]
      exact (List.sublist_cons_self _ _).trans hsuffix.sublist
    have hbyte : '/'.utf8Size = 1 := rfl
    calc FileTree.pathLimit ≤ n := hn
      _ = ((List.replicate n '/').flatMap String.utf8EncodeChar).length := by
        simp [List.length_flatMap, hbyte]
      _ ≤ _ := (hslashes.flatMap String.utf8EncodeChar).length_le
  outer := houter

/-- A path without a step upwards is refused. -/
theorem path_of_slashes_is_refused :
    ∃ (t : FileTree) (area : StagingArea) (b : Location) (path : String),
      t.WellFormed ∧ t.LinkFree [] ∧ t.find .node area.root = .ok (.taken b .directory) ∧
      path = String.ofList ('.' :: List.replicate 4096 '/') ∧ ".." ∉ Text.segments path ∧
      outcome FileTree.perform (area.resolve path) t = (.error (.escapesRoot path), t) := by
  let t : FileTree := ⟨[([.text "root"], .directory)], []⟩
  let area : StagingArea := ⟨⟨"/root"⟩⟩
  have hroot : t.find .node area.root = .ok (.taken [.text "root"] .directory) := by decide +kernel
  have hname : t.locate area.root = .ok [.text "root"] := by decide +kernel
  have hfree : ∀ l, t.LinkFree l := fun l => FileTree.linkFree_of_nodes (by simp [t])
  have houtgrown : area.Outgrown FileTree.locate t [.text "root"]
      (String.ofList ('.' :: List.replicate 4096 '/')) :=
    outgrown_of_slashes (Nat.le_refl _) ⟨⟨"/"⟩, [], by decide +kernel⟩
  have hup := up_not_mem_of_idle houtgrown.idle
  refine ⟨t, area, _, _, by decide +kernel, hfree [], hroot, rfl, hup, ?_⟩
  rw [outcome_resolve, ← verdictWith_locate]
  rw [(verdictWith_eq_escapesRoot_iff_of_linkFree hroot t.truthful_locate (hfree _)).mpr
    ⟨hup, .inl ⟨⟨_, hname⟩, houtgrown⟩⟩]

end StagingArea

end SchemaForge
