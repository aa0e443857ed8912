import Mathlib.Data.List.Induction
import Mathlib.Data.List.Nodup
import SchemaForge.Files.Tree
import SchemaForge.Proofs.Lookup
import SchemaForge.Proofs.Text.Segments

/-!
# Well-formed file trees

In a well-formed tree everything is in a directory, so nothing is below a file, a link or a free
place. Both ways of changing a tree keep it well-formed, as long as no directory goes away.
-/

namespace SchemaForge

/-- Names that a step of a path can give to a file. -/
def IsName (s : String) : Prop := Text.IsSegment s ∧ s ≠ "." ∧ s ≠ ".."

instance (s : String) : Decidable (IsName s) := inferInstanceAs (Decidable (_ ∧ _))

namespace FileTree

/-- What all trees of files have in common. -/
structure WellFormed (t : FileTree) : Prop where
  /-- Everything is in a directory. -/
  housed : ∀ l n, t.get? l = some n → t.get? l.dropLast = some .directory
  /-- The working directory is there. -/
  here : t.get? t.here = some .directory
  /-- There is one node at a location. -/
  distinct : (t.nodes.map Prod.fst).Nodup
  /-- Names that are texts can be written as steps of a path. -/
  named : ∀ l n, t.get? l = some n → ∀ s, FileName.text s ∈ l → IsName s

/-- No link is at a location or below it. -/
def LinkFree (t : FileTree) (l : Location) : Prop :=
  ∀ k target, l <+: k → t.get? k ≠ some (.link target)

/-! ### Above and below -/

namespace WellFormed

variable {t : FileTree}

theorem get?_of_append (h : t.WellFormed) {l k : Location} {n : Node} (hk : k ≠ [])
    (hn : t.get? (l ++ k) = some n) : t.get? l = some .directory := by
  induction k using List.reverseRecOn generalizing n with
  | nil => exact absurd rfl hk
  | append_singleton k name ih =>
    have hparent : t.get? (l ++ k) = some .directory := by
      have := h.housed _ _ hn
      rwa [← List.append_assoc, List.dropLast_concat] at this
    by_cases hnil : k = []
    · rwa [hnil, List.append_nil] at hparent
    · exact ih hnil hparent

/-- Whatever is above something is a directory. -/
theorem directory_above (h : t.WellFormed) {l k : Location} {n : Node} (hlk : l <+: k)
    (hne : l ≠ k) (hn : t.get? k = some n) : t.get? l = some .directory := by
  obtain ⟨rest, rfl⟩ := hlk
  apply h.get?_of_append _ hn
  rintro rfl
  exact hne (List.append_nil l).symm

/-- Nothing is below a place that holds no directory. -/
theorem nothing_below (h : t.WellFormed) {l k : Location} (hl : t.get? l ≠ some .directory)
    (hlk : l <+: k) (hne : l ≠ k) : t.get? k = none := by
  rcases hk : t.get? k with _ | n
  · rfl
  · exact absurd (h.directory_above hlk hne hk) hl

end WellFormed

/-! ### Changes -/

theorem mem_map_fst_putNode {l k : Location} {n : Node} {nodes : List (Location × Node)} :
    k ∈ (putNode l n nodes).map Prod.fst ↔ k = l ∨ k ∈ nodes.map Prod.fst := by
  induction nodes with
  | nil => simp [putNode]
  | cons head rest ih =>
    obtain ⟨m, v⟩ := head
    rw [putNode]
    split
    · next h => subst h; simp
    · rw [List.map_cons, List.map_cons, List.mem_cons, List.mem_cons, ih]
      exact or_left_comm

theorem nodup_map_fst_putNode {l : Location} {n : Node} {nodes : List (Location × Node)}
    (h : (nodes.map Prod.fst).Nodup) : ((putNode l n nodes).map Prod.fst).Nodup := by
  induction nodes with
  | nil => exact List.nodup_singleton l
  | cons head rest ih =>
    obtain ⟨m, v⟩ := head
    obtain ⟨hm, hrest⟩ := List.nodup_cons.mp h
    rw [putNode]
    split
    · exact h
    · next hne =>
      refine List.nodup_cons.mpr ⟨?_, ih hrest⟩
      rw [mem_map_fst_putNode]
      exact not_or.mpr ⟨fun heq => hne heq.symm, hm⟩

/-- All directories and links are still there. -/
structure Kept (t t' : FileTree) : Prop where
  here : t'.here = t.here
  directory : ∀ l, t.get? l = some .directory → t'.get? l = some .directory
  link : ∀ l target, t.get? l = some (.link target) → t'.get? l = some (.link target)

theorem Kept.refl (t : FileTree) : t.Kept t := ⟨rfl, fun _ h => h, fun _ _ h => h⟩

theorem Kept.trans {t₁ t₂ t₃ : FileTree} (h₁ : t₁.Kept t₂) (h₂ : t₂.Kept t₃) : t₁.Kept t₃ where
  here := h₂.here.trans h₁.here
  directory l h := h₂.directory l (h₁.directory l h)
  link l target h := h₂.link l target (h₁.link l target h)

/-- Something new in a directory, or something in the place of what is no directory. -/
theorem WellFormed.put {t : FileTree} (h : t.WellFormed) {l : Location} {s : String} (n : Node)
    (hl : t.get? l = some .directory) (hs : IsName s)
    (hfree : t.get? (l ++ [.text s]) ≠ some .directory) :
    (t.put (l ++ [.text s]) n).WellFormed := by
  have hne : l ++ [FileName.text s] ≠ [] := by simp
  -- what is replaced is no directory, so every directory is still there to house what it housed
  have keep : ∀ k, t.get? k = some .directory →
      (t.put (l ++ [.text s]) n).get? k = some .directory := by
    intro k hk
    rw [get?_put t hne, if_neg, hk]
    rintro rfl
    exact hfree hk
  constructor
  · intro k m hm
    rw [get?_put t hne] at hm
    split at hm
    · next heq =>
      apply keep
      rw [heq, List.dropLast_concat]
      exact hl
    · exact keep _ (h.housed k m hm)
  · exact keep _ h.here
  · exact nodup_map_fst_putNode h.distinct
  · intro k m hm name hmem
    rw [get?_put t hne] at hm
    split at hm
    · next heq =>
      rw [heq] at hmem
      rcases List.mem_append.mp hmem with hmem | hmem
      · exact h.named l _ hl name hmem
      · obtain rfl := FileName.text.inj (List.mem_singleton.mp hmem)
        exact hs
    · exact h.named k m hm name hmem

/-- What is no directory goes away. -/
theorem WellFormed.erase {t : FileTree} (h : t.WellFormed) {l : Location}
    (hl : t.get? l ≠ some .directory) : (t.erase l).WellFormed := by
  have hne : l ≠ [] := by
    rintro rfl
    exact hl t.get?_root
  have keep : ∀ k, t.get? k = some .directory → (t.erase l).get? k = some .directory := by
    intro k hk
    rw [get?_erase t hne, if_neg, hk]
    rintro rfl
    exact hl hk
  have old : ∀ k m, (t.erase l).get? k = some m → t.get? k = some m := by
    intro k m hm
    rw [get?_erase t hne] at hm
    split at hm
    · cases hm
    · exact hm
  constructor
  · intro k m hm
    exact keep _ (h.housed k m (old k m hm))
  · exact keep _ h.here
  · exact List.Nodup.sublist (List.Sublist.map _ List.filter_sublist) h.distinct
  · intro k m hm
    exact h.named k m (old k m hm)

/-! ### Changes of files -/

/-- Only files come and go: where something changes there was at most a file before, and there is at
most a file now. -/
structure Refiled (t t' : FileTree) : Prop where
  wellFormed : t'.WellFormed
  here : t'.here = t.here
  changed : ∀ l, t'.get? l ≠ t.get? l →
    (∀ n, t.get? l = some n → ∃ content, n = .file content) ∧
      ∀ n, t'.get? l = some n → ∃ content, n = .file content

theorem Refiled.refl {t : FileTree} (ht : t.WellFormed) : t.Refiled t :=
  ⟨ht, rfl, fun _ h => absurd rfl h⟩

theorem Refiled.trans {t₁ t₂ t₃ : FileTree} (h₁ : t₁.Refiled t₂) (h₂ : t₂.Refiled t₃) :
    t₁.Refiled t₃ := by
  refine ⟨h₂.wellFormed, h₂.here.trans h₁.here, fun l hl => ?_⟩
  by_cases hfirst : t₂.get? l = t₁.get? l
  · rw [← hfirst] at hl ⊢
    exact h₂.changed l hl
  · by_cases hsecond : t₃.get? l = t₂.get? l
    · rw [hsecond]
      exact h₁.changed l hfirst
    · exact ⟨(h₁.changed l hfirst).1, (h₂.changed l hsecond).2⟩

theorem Refiled.kept {t t' : FileTree} (h : t.Refiled t') : t.Kept t' := by
  have keep : ∀ l n, t.get? l = some n → (∀ content, n ≠ .file content) →
      t'.get? l = some n := by
    intro l n hn hfile
    by_contra hne
    rw [← hn] at hne
    obtain ⟨content, hcontent⟩ := (h.changed l hne).1 n hn
    exact hfile content hcontent
  exact ⟨h.here, fun l hl => keep l _ hl nofun, fun l _ hl => keep l _ hl nofun⟩

theorem Refiled.linkFree {t t' : FileTree} (h : t.Refiled t') {l : Location} (hl : t.LinkFree l) :
    t'.LinkFree l := by
  intro k target hk hlink
  by_cases hsame : t'.get? k = t.get? k
  · exact hl k target hk (hsame.symm.trans hlink)
  · obtain ⟨content, hcontent⟩ := (h.changed k hsame).2 _ hlink
    cases hcontent

/-- A file is written in a directory, where there is at most a file. -/
theorem Refiled.put {t : FileTree} (ht : t.WellFormed) {l : Location} {s : String} (content : Bytes)
    (hl : t.get? l = some .directory) (hs : IsName s)
    (hfree : ∀ n, t.get? (l ++ [.text s]) = some n → ∃ content, n = .file content) :
    t.Refiled (t.put (l ++ [.text s]) (.file content)) := by
  have hput := get?_put t (l := l ++ [.text s]) (by simp) (.file content)
  refine ⟨ht.put _ hl hs ?_, rfl, fun k hk => ?_⟩
  · intro hdir
    obtain ⟨old, hold⟩ := hfree _ hdir
    cases hold
  · rw [hput] at hk ⊢
    split at hk
    · next heq =>
      rw [if_pos heq, heq]
      exact ⟨hfree, fun n hn => ⟨content, (Option.some.inj hn).symm⟩⟩
    · exact absurd rfl hk

/-- A file goes away. -/
theorem Refiled.erase {t : FileTree} (ht : t.WellFormed) {l : Location} {content : Bytes}
    (hl : t.get? l = some (.file content)) : t.Refiled (t.erase l) := by
  have hne : l ≠ [] := by
    rintro rfl
    cases hl
  refine ⟨ht.erase (by rw [hl]; nofun), rfl, fun k hk => ?_⟩
  rw [get?_erase t hne] at hk ⊢
  split at hk
  · next heq =>
    rw [if_pos heq, heq, hl]
    exact ⟨fun n hn => ⟨content, (Option.some.inj hn).symm⟩, nofun⟩
  · exact absurd rfl hk

/-! ### What is in a directory -/

theorem WellFormed.mem_children_iff {t : FileTree} (h : t.WellFormed) {l : Location}
    {name : FileName} {n : Node} :
    (name, n) ∈ t.children l ↔ t.get? (l ++ [name]) = some n := by
  have hget : t.get? (l ++ [name]) = t.nodes.lookup (l ++ [name]) := by simp [get?]
  rw [hget, lookup_eq_some_iff_of_nodup h.distinct, children, List.mem_filterMap]
  constructor
  · rintro ⟨⟨k, m⟩, hmem, hk⟩
    rcases hlast : k.getLast? with _ | last
    · simp [hlast] at hk
    · simp only [hlast, Option.ite_none_right_eq_some, Option.some.injEq, Prod.mk.injEq] at hk
      obtain ⟨rfl, rfl, rfl⟩ := hk
      obtain ⟨front, rfl⟩ := List.getLast?_eq_some_iff.mp hlast
      rwa [List.dropLast_concat]
  · intro hmem
    exact ⟨_, hmem, by simp⟩

/-! ### Trees that can be looked through -/

/-- A tree that lists no links has none. -/
theorem linkFree_of_nodes {t : FileTree} {l : Location}
    (h : ∀ node ∈ t.nodes, ∀ target, node.2 ≠ .link target) : t.LinkFree l := by
  have hlookup : ∀ {nodes : List (Location × Node)} {k : Location} {n : Node},
      nodes.lookup k = some n → (k, n) ∈ nodes := by
    intro nodes k n hn
    obtain ⟨front, back, rfl, -⟩ := List.lookup_eq_some_iff.mp hn
    exact List.mem_append_right _ List.mem_cons_self
  intro k target _ hlink
  by_cases hk : k = []
  · rw [hk, get?_root] at hlink
    cases hlink
  · rw [get?, if_neg hk] at hlink
    exact h _ (hlookup hlink) target rfl

/-- Well-formedness is a matter of the nodes that a tree lists. -/
theorem wellFormed_iff {t : FileTree} :
    t.WellFormed ↔
      (∀ node ∈ t.nodes, t.get? node.1.dropLast = some .directory) ∧
        t.get? t.here = some .directory ∧ (t.nodes.map Prod.fst).Nodup ∧
        ∀ node ∈ t.nodes, ∀ name ∈ node.1, ∀ s, name = .text s → IsName s := by
  constructor
  · intro h
    have hget : ∀ node ∈ t.nodes, ∃ n, t.get? node.1 = some n := by
      intro node hnode
      by_cases hnil : node.1 = []
      · exact ⟨_, hnil ▸ t.get?_root⟩
      · exact ⟨node.2, by
          rw [get?, if_neg hnil]
          exact (lookup_eq_some_iff_of_nodup h.distinct).mpr hnode⟩
    refine ⟨fun node hnode => ?_, h.here, h.distinct, fun node hnode name hname s hs => ?_⟩
    · obtain ⟨n, hn⟩ := hget node hnode
      exact h.housed _ _ hn
    · obtain ⟨n, hn⟩ := hget node hnode
      exact h.named _ _ hn s (hs ▸ hname)
  · rintro ⟨hhoused, hhere, hdistinct, hnamed⟩
    have hmem : ∀ l n, t.get? l = some n → l ≠ [] → (l, n) ∈ t.nodes := by
      intro l n hn hne
      rw [get?, if_neg hne] at hn
      exact (lookup_eq_some_iff_of_nodup hdistinct).mp hn
    refine ⟨fun l n hn => ?_, hhere, hdistinct, fun l n hn s hs => ?_⟩
    · by_cases hne : l = []
      · subst hne
        exact t.get?_root
      · exact hhoused _ (hmem l n hn hne)
    · exact hnamed _ (hmem l n hn (List.ne_nil_of_mem hs)) _ hs s rfl

instance (name : FileName) : Decidable (∀ s, name = .text s → IsName s) :=
  match name with
  | .text s =>
    decidable_of_iff (IsName s) ⟨fun h _ heq => FileName.text.inj heq ▸ h, fun h => h s rfl⟩
  | .raw _ => isTrue nofun

instance (t : FileTree) : Decidable t.WellFormed := decidable_of_iff' _ wellFormed_iff

end FileTree

end SchemaForge
