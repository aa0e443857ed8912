import SchemaForge.Proofs.Staging.Site

/-!
# What requests leave alone

A request for a file in a directory that is there changes that file or nothing, whatever it answers,
and making a directory does nothing but put directories on the way to it.
-/

namespace SchemaForge

namespace FileTree

variable {P Q : Location → Prop} {t t' t₁ : FileTree}

/-- Is there a file at a location, or nothing? -/
def AtMostFile (t : FileTree) (l : Location) : Prop :=
  ∀ n, t.get? l = some n → ∃ content, n = .file content

/-- Only files come and go, and only at some locations. -/
structure RefiledAt (P : Location → Prop) (t t' : FileTree) : Prop extends Refiled t t' where
  only : ∀ l, t'.get? l ≠ t.get? l → P l

namespace RefiledAt

theorem refl (ht : t.WellFormed) : RefiledAt P t t := ⟨.refl ht, fun _ h => absurd rfl h⟩

theorem trans (h : RefiledAt P t t₁) (h' : RefiledAt P t₁ t') : RefiledAt P t t' := by
  refine ⟨h.toRefiled.trans h'.toRefiled, fun l hl => ?_⟩
  by_cases hsame : t'.get? l = t₁.get? l
  · exact h.only l (hsame ▸ hl)
  · exact h'.only l hsame

theorem imp (h : RefiledAt P t t') (hPQ : ∀ l, P l → Q l) : RefiledAt Q t t' :=
  ⟨h.toRefiled, fun l hl => hPQ l (h.only l hl)⟩

theorem put {l : Location} {s : String} (ht : t.WellFormed) (content : Bytes)
    (hl : t.get? l = some .directory) (hs : IsName s) (hfree : t.AtMostFile (l ++ [.text s])) :
    RefiledAt (· = l ++ [.text s]) t (t.put (l ++ [.text s]) (.file content)) := by
  refine ⟨.put ht content hl hs hfree, fun k hk => ?_⟩
  rw [get?_put t (by simp)] at hk
  by_contra hne
  rw [if_neg hne] at hk
  exact hk rfl

theorem erase {l : Location} {content : Bytes} (ht : t.WellFormed)
    (hl : t.get? l = some (.file content)) : RefiledAt (· = l) t (t.erase l) := by
  have hroot : l ≠ [] := by
    rintro rfl
    cases hl
  refine ⟨.erase ht hl, fun k hk => ?_⟩
  rw [get?_erase t hroot] at hk
  by_contra hne
  rw [if_neg hne] at hk
  exact hk rfl

end RefiledAt

end FileTree

namespace StagingArea

open FileTree (RefiledAt)

variable {area : StagingArea} {t t' : FileTree} {b l : Location} {names ys zs : List String}
  {x : String}

/-! ### Locations in an area -/

theorem below_prefix_below : below b ys <+: below b zs ↔ ys <+: zs := by
  rw [below, below, List.prefix_append_right_inj]
  exact List.prefix_map_iff_of_injective fun _ _ => FileName.text.inj

theorem below_concat : below b (names ++ [x]) = below b names ++ [.text x] := by
  rw [below, below, List.map_append, List.append_assoc]
  rfl

theorem Based.unique {c : Location} (h : area.Based t b) (h' : area.Based t c) : b = c := by
  cases h.leads.unique h'.leads
  rfl

/-! ### Requests for a file -/

namespace Site

variable (site : area.Site t b names) (hx : IsName x)

include site hx

/-- What a path finds is a directory, a file or a free place, but no link. -/
theorem atMostFile_of_find {aim : Aim} {place : Place}
    (hfind : t.find aim (area.hostPath (pathTo names x)) = .ok place)
    (hplace : place ≠ .taken place.location .directory) :
    place.location = below b names ++ [.text x] ∧
      t.AtMostFile (below b names ++ [.text x]) := by
  obtain ⟨-, rfl⟩ := (site.find_eq_ok_iff hx).mp hfind
  rcases hget : t.get? (below b names ++ [.text x]) with _ | n
  · rw [FileTree.placeAt_eq_free_iff.mpr ⟨rfl, hget⟩]
    refine ⟨rfl, fun n hn => ?_⟩
    rw [hget] at hn
    cases hn
  · rw [FileTree.placeAt_eq_taken_iff.mpr ⟨rfl, hget⟩] at hplace ⊢
    refine ⟨rfl, fun m hm => ?_⟩
    obtain rfl := Option.some.inj (hm.symm.trans hget)
    rcases m with _ | content | target
    · exact absurd rfl hplace
    · exact ⟨content, rfl⟩
    · have hbelow : b <+: below b names ++ [.text x] := by
        rw [below, List.append_assoc]
        exact List.prefix_append _ _
      exact absurd hget (site.linkFree _ target hbelow)

theorem refiledAt_write (content : Bytes) :
    RefiledAt (· = below b names ++ [.text x]) t
      (area.perform (.write (pathTo names x) content) t).2 := by
  -- the directories on the way are there, so that making them comes to nothing
  have hparents := site.afterDirectories_tail hx
  rw [perform_write, site.verdict_eq hx]
  dsimp only
  rcases hrun : t.afterDirectories
    (area.hostPath (pathTo names x)).ancestors.tail with ⟨e | ⟨⟩, t₁⟩
  · rw [hrun] at hparents
    obtain rfl : t₁ = t := hparents
    exact .refl site.wellFormed
  · rw [hrun] at hparents
    obtain rfl : t₁ = t := hparents
    dsimp only
    rcases t₁.settle_write_cases (area.hostPath (pathTo names x)) content with
      ⟨place, hfind, hplace, hput⟩ | hsame
    · obtain ⟨hlocation, hfree⟩ := site.atMostFile_of_find hx hfind hplace
      rw [hput, hlocation]
      exact .put site.wellFormed content site.get?_below hx hfree
    · rw [hsame]
      exact .refl site.wellFormed

theorem refiledAt_delete :
    RefiledAt (· = below b names ++ [.text x]) t
      (area.perform (.delete (pathTo names x)) t).2 := by
  rw [perform_delete, site.verdict_eq hx]
  dsimp only
  rw [FileTree.settle_remove]
  rcases hremoved : t.removed? (area.hostPath (pathTo names x)) with _ | l
  · exact .refl site.wellFormed
  · obtain ⟨n, hfind, hdirectory⟩ := FileTree.removed?_eq_some hremoved
    obtain ⟨rfl, hfile⟩ := site.atMostFile_of_find hx hfind (by simpa [Place.location] using hdirectory)
    have hget : t.get? (below b names ++ [.text x]) = some n :=
      FileTree.holds_of_find site.wellFormed hfind
    obtain ⟨content, rfl⟩ := hfile n hget
    exact .erase site.wellFormed hget

end Site

/-! ### Directories that are made -/

/-- Whatever is new after a directory is made, whether or not this succeeds, is a directory that the
path or that of one of the directories on the way leads to. -/
theorem made_of_makeDirectory (ht : t.WellFormed) (path : String)
    (hmade : (area.perform (.makeDirectory path) t).2 = t') :
    t.Extended t' ∧ ∀ l, t'.get? l ≠ t.get? l →
      ∃ q ∈ (area.hostPath path).ancestors, t'.find .node q = .ok (.taken l .directory) := by
  rw [perform_makeDirectory] at hmade
  rcases hverdict : area.verdict t path with e | full
  · rw [hverdict] at hmade
    obtain rfl : t = t' := hmade
    exact ⟨.refl ht, fun _ hl => absurd rfl hl⟩
  · obtain ⟨rfl, -⟩ := verdict_eq_ok hverdict
    rw [hverdict] at hmade
    dsimp only at hmade
    have hext := FileTree.extended_afterDirectories ht (area.hostPath path).ancestors
    rw [hmade] at hext
    refine ⟨hext, fun l hl => ?_⟩
    have hfind := FileTree.exists_find_of_afterDirectories ht (hmade.symm ▸ hl)
    rwa [hmade] at hfind

/-- If the area was there before, the way to names begins at its directory. -/
theorem Based.eq_below_of_new (based : area.Based t b) (ht : t.WellFormed) (hk : t.Kept t')
    (hfree : t'.LinkFree b) (hnames : ∀ n ∈ names, IsName n) {q : HostPath}
    (hq : q ∈ (area.hostPath ("/".intercalate names)).ancestors)
    (hfind : t'.find .node q = .ok (.taken l .directory)) (hnew : t.get? l = none) :
    ∃ ys, ys <+: names ∧ l = below b ys := by
  obtain ⟨hrooted, hfront⟩ := HostPath.of_mem_ancestors hq
  rw [rooted_hostPath] at hrooted
  rw [names_hostPath_intercalate hnames] at hfront
  have hleads := (FileTree.find_eq_ok_iff.mp hfind).2
  rw [FileTree.leads_steps_iff, FileTree.start, hrooted, ← FileTree.start] at hleads
  rcases List.prefix_or_prefix_of_prefix hfront (List.prefix_append area.root.names names) with
    habove | ⟨ys, hys⟩
  · -- the directory of the area and those that it is in were there before
    exfalso
    have hsegment : ∀ n ∈ area.root.names, Text.IsSegment n :=
      fun _ hn => (HostPath.isSegment_of_mem_names hn).1
    obtain ⟨d, hd⟩ := based.leads.of_prefix habove fun z hz => (hsegment z hz).1
    have hthere : t.get? d = some .directory := hd.holds ht (FileTree.get?_start ht.here _)
      fun s hs => .inr (hsegment s (habove.subset hs))
    have hd' := hd.kept hk
    rw [← hk.here] at hd'
    cases hleads.unique hd'
    rw [hthere] at hnew
    cases hnew
  · rw [← hys, List.prefix_append_right_inj] at hfront
    rw [← hys] at hleads
    refine ⟨ys, hfront, ?_⟩
    exact location_of_leads (based.kept hk) hfree
      (fun n hn => hnames n (hfront.subset hn)) hleads

end StagingArea

end SchemaForge
