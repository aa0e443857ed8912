import SchemaForge.Proofs.Staging.Site

/-!
# Ways that are clear

A way is clear if there are only directories on it, as far as there is anything. On a clear way from
a directory nothing gets in the way of a path, and directories that are missing can be made. The way
to the directory may go through links; the names behind it may not.
-/

namespace SchemaForge

/-- A name that is not too long for a file system. -/
structure ShortName (s : String) : Prop where
  isName : IsName s
  short : (Text.utf8 s).length ≤ FileTree.nameLimit

namespace HostPath

variable {p q : HostPath}

/-- The last step of the path of a directory is its last name. -/
theorem getLast?_steps_parent {ns : List String} {x : String} (h : p.parent? = some q)
    (hnames : q.names = ns ++ [x]) : q.steps.getLast? = some x := by
  rw [(endsInName_parent h (by simp [hnames])).getLast?_steps, hnames, List.getLast?_concat]

/-- A path goes on from another one by names, and a file system is ready to take it. -/
structure GoesOn (p base : HostPath) (names : List String) : Prop where
  rooted : p.rooted = base.rooted
  names_eq : p.names = base.names ++ names
  last : names ≠ [] → p.steps.getLast? = names.getLast?
  sound : p.components ≠ [] → p.Sound

namespace GoesOn

variable {base : HostPath} {ns : List String} {x : String}

theorem components_ne_nil (h : p.GoesOn base (ns ++ [x])) : p.components ≠ [] := by
  intro hnil
  rcases p.components_eq with hc | ⟨-, hc⟩
  · rw [hnil, h.names_eq] at hc
    simp at hc
  · rw [hnil] at hc
    cases hc

/-- The path of the directory that it is in goes on by all names but the last. -/
theorem parent (h : p.GoesOn base (ns ++ [x])) (hq : p.parent? = some q) : q.GoesOn base ns := by
  have hnames : q.names = base.names ++ ns := by
    rw [names_parent hq, h.names_eq, ← List.append_assoc, List.dropLast_concat]
  refine ⟨(rooted_parent hq).trans h.rooted, hnames, fun hne => ?_, fun hne => ?_⟩
  · obtain ⟨zs, z, rfl⟩ := (List.eq_nil_or_concat' ns).resolve_left hne
    rw [List.getLast?_concat,
      getLast?_steps_parent hq (hnames.trans (List.append_assoc ..).symm)]
  · exact (h.sound h.components_ne_nil).of_sublist (prefix_text_parent hq).sublist
      (text_ne_empty hne)

end GoesOn

end HostPath

namespace FileTree

open HostPath (moves)

variable {t t' : FileTree} {aim : Aim} {links : Nat} {b l : Location} {ys zs : List String}
  {x : String} {base p : HostPath}

/-- On the way that names give from a directory there is nothing but directories. -/
def Clear (t : FileTree) (b : Location) (names : List String) : Prop :=
  ∀ ys, ys <+: names → ∀ n, t.get? (b ++ ys.map .text) = some n → n = .directory

theorem Clear.shorter (h : t.Clear b zs) (hys : ys <+: zs) : t.Clear b ys :=
  fun ys' hys' => h ys' (hys'.trans hys)

theorem Clear.tail {y : String} (h : t.Clear b (y :: ys)) : t.Clear (b ++ [.text y]) ys := by
  intro ys' hys' n hn
  apply h (y :: ys') (List.cons_prefix_cons.mpr ⟨rfl, hys'⟩) n
  rw [List.map_cons, ← hn, List.append_assoc]
  rfl

/-! ### A clear way -/

/-- Names on a clear way lead to whatever has the last of them, if all of the way is there. -/
theorem walk_names (ht : t.WellFormed) (hb : t.get? b = some .directory) (hclear : t.Clear b ys)
    (hys : ∀ y ∈ ys, ShortName y) (hx : ShortName x)
    (hlink : ∀ target, t.get? (b ++ (ys ++ [x]).map .text) ≠ some (.link target)) :
    t.walk aim links b (ys ++ [x]) =
      if t.get? (b ++ ys.map .text) = some .directory then
        .ok (t.placeAt (b ++ (ys ++ [x]).map .text))
      else .error .notFound := by
  induction ys generalizing b with
  | nil =>
    rw [List.nil_append, walk_singleton hx.isName hlink, if_neg (Nat.not_lt.mpr hx.short),
      List.map_nil, List.append_nil, if_pos hb]
    rfl
  | cons y rest ih =>
    have hy := hys y List.mem_cons_self
    have hmore : ∃ z ∈ [x], z ≠ "" := ⟨x, List.mem_singleton_self x, hx.isName.1.1⟩
    have hname : Names aim y (rest ++ [x]) := ⟨hy.isName.1.1, hy.isName.2.1, hy.isName.2.2,
      fun h => append_ne_blank hmore rest h.2, hy.short⟩
    have hstep : ∀ ns : List String,
        b ++ (y :: ns).map FileName.text = b ++ [.text y] ++ ns.map .text := fun ns => by
      rw [List.map_cons, List.append_assoc]
      rfl
    rw [List.cons_append, hname.walk_eq_pass, hstep, hstep]
    rcases hget : t.get? (b ++ [.text y]) with _ | n
    · -- where the way ends there is nothing behind it
      have hnone : t.get? (b ++ [.text y] ++ rest.map .text) = none := by
        by_cases hnil : rest = []
        · rw [hnil, List.map_nil, List.append_nil, hget]
        · apply ht.nothing_below (by rw [hget]; simp) (List.prefix_append _ _)
          simpa using hnil
      rw [hget, hnone, if_neg (by simp)]
      exact if_neg (not_isLast_append hmore)
    · obtain rfl := hclear [y] ⟨rest, rfl⟩ n hget
      rw [hget]
      apply ih hget hclear.tail (fun z hz => hys z (List.mem_cons_of_mem _ hz))
      rw [← hstep]
      exact hlink

/-- A path leads to a directory of a well-formed tree. -/
structure LeadsTo (t : FileTree) (base : HostPath) (b : Location) : Prop where
  wellFormed : t.WellFormed
  leads : t.Leads .node linkLimit (start t.here base) base.names (.taken b .directory)

theorem LeadsTo.directory (h : t.LeadsTo base b) : t.get? b = some .directory :=
  h.leads.holds h.wellFormed (get?_start h.wellFormed.here _)
    fun _ hs => .inr (HostPath.isSegment_of_mem_names hs).1

theorem LeadsTo.extended (h : t.LeadsTo base b) (hext : t.Extended t') : t'.LeadsTo base b :=
  ⟨hext.wellFormed, hext.here ▸ h.leads.kept hext.kept⟩

/-- A path that ends in a name on a clear way leads to the name. -/
theorem find_of_clear (hbase : t.LeadsTo base b) (hp : p.GoesOn base (ys ++ [x]))
    (hclear : t.Clear b ys) (hshort : ∀ z ∈ ys ++ [x], ShortName z)
    (hlink : ∀ target, t.get? (b ++ (ys ++ [x]).map .text) ≠ some (.link target)) :
    t.find aim p =
      if t.get? (b ++ ys.map .text) = some .directory then
        .ok (t.placeAt (b ++ (ys ++ [x]).map .text))
      else .error .notFound := by
  have hx := hshort x (List.mem_append_right _ (List.mem_singleton_self x))
  have hmoves : moves x := HostPath.moves_iff.mpr ⟨hx.isName.1.1, hx.isName.2.1⟩
  obtain ⟨front, hfront⟩ : ∃ front, p.steps = front ++ [x] := by
    apply List.getLast?_eq_some_iff.mp
    rw [hp.last (by simp), List.getLast?_concat]
  have hfilter : front.filter moves = base.names ++ ys := by
    have hsteps := p.filter_steps
    rw [hfront, List.filter_append, List.filter_cons_of_pos hmoves, List.filter_nil, hp.names_eq,
      ← List.append_assoc] at hsteps
    exact List.append_cancel_right hsteps
  -- the steps before the last lead to where the base leads, and on by the names
  obtain ⟨k, hk⟩ := hbase.leads.walk_append
  rw [find_of_sound (hp.sound hp.components_ne_nil), start, hp.rooted, ← start, hfront,
    walk_filter_moves hmoves, hfilter, List.append_assoc, hk _ _ ⟨x, by simp, hx.isName.1.1⟩]
  exact walk_names hbase.wellFormed hbase.directory hclear
    (fun y hy => hshort y (List.mem_append_left _ hy)) hx hlink

/-! ### Directories on a clear way -/

/-- A place behind a clear way has a directory now, and nothing is new but directories on the
way. -/
structure Made (t t' : FileTree) (b : Location) (names : List String) : Prop where
  extended : t.Extended t'
  made : t'.get? (b ++ names.map .text) = some .directory
  new : ∀ k, t'.get? k ≠ t.get? k → ∃ ys, ys <+: names ∧ k = b ++ ys.map .text

theorem Made.trans {t₁ : FileTree} (h : t.Made t₁ b ys) (h' : t₁.Made t' b zs) (hys : ys <+: zs) :
    t.Made t' b zs := by
  refine ⟨h.extended.trans h'.extended, h'.made, fun k hk => ?_⟩
  by_cases hsame : t'.get? k = t₁.get? k
  · rw [hsame] at hk
    obtain ⟨xs, hxs, rfl⟩ := h.new k hk
    exact ⟨xs, hxs.trans hys, rfl⟩
  · exact h'.new k hsame

/-- Only directories are made, so a clear way stays clear. -/
theorem Clear.extended (h : t.Clear b zs) (hext : t.Extended t') : t'.Clear b zs := by
  intro ys hys n hn
  rcases hext.new (b ++ ys.map .text) with hold | ⟨-, hdir⟩
  · exact h ys hys n (hold.symm.trans hn)
  · exact (Option.some.inj (hdir.symm.trans hn)).symm

/-- A directory is made, or is there already, if the one that it is to be in is there. -/
theorem attempt_of_clear (hbase : t.LeadsTo base b) (hp : p.GoesOn base (ys ++ [x]))
    (hclear : t.Clear b (ys ++ [x])) (hshort : ∀ z ∈ ys ++ [x], ShortName z)
    (hparent : t.get? (b ++ ys.map .text) = some .directory) :
    t.makeDirectory p ≠ .error .notFound ∧
      ∃ t', t.attempt p = (.ok (), t') ∧ t.Made t' b (ys ++ [x]) := by
  have hlink : ∀ target, t.get? (b ++ (ys ++ [x]).map .text) ≠ some (.link target) := by
    intro target hl
    cases hclear _ (List.prefix_refl _) _ hl
  have hfind : ∀ aim, t.find aim p = .ok (t.placeAt (b ++ (ys ++ [x]).map .text)) := by
    intro aim
    rw [find_of_clear hbase hp (hclear.shorter (List.prefix_append _ _)) hshort hlink,
      if_pos hparent]
  rcases hget : t.get? (b ++ (ys ++ [x]).map .text) with _ | n
  · -- the place is free, and the directory is put there
    have hfree := hfind .entry
    rw [placeAt_eq_free_iff.mpr ⟨rfl, hget⟩] at hfree
    have hmake := makeDirectory_of_free hfree
    have hne : b ++ (ys ++ [x]).map FileName.text ≠ [] := by simp
    refine ⟨by rw [hmake]; simp, t.put _ .directory, by rw [attempt, hmake]; rfl,
      extended_put hbase.wellFormed (holds_of_find hbase.wellFormed hfree),
      by rw [get?_put t hne, if_pos rfl], fun k hk => ?_⟩
    rw [get?_put t hne] at hk
    split at hk
    · next heq => exact ⟨_, List.prefix_refl _, heq⟩
    · exact absurd rfl hk
  · obtain rfl := hclear _ (List.prefix_refl _) n hget
    have hplace := placeAt_eq_taken_iff.mpr ⟨rfl, hget⟩
    have hmake := makeDirectory_of_taken ((hfind .entry).trans (congrArg _ hplace))
    have hthere : t.isDirectory p :=
      isDirectory_iff.mpr ⟨_, (hfind .node).trans (congrArg _ hplace)⟩
    refine ⟨by rw [hmake]; simp, t, ?_, .refl hbase.wellFormed, hget, fun k hk => absurd rfl hk⟩
    rw [attempt, hmake]
    exact Prod.ext (accepted_error_eq_ok_iff.mpr hthere) rfl

/-- On a clear way all directories that are missing are made. -/
theorem afterDirectories_of_clear (hbase : t.LeadsTo base b) (hp : p.GoesOn base zs)
    (hclear : t.Clear b zs) (hshort : ∀ z ∈ zs, ShortName z) :
    ∃ t', t.afterDirectories p.ancestors = (.ok (), t') ∧ t.Made t' b zs := by
  -- induction on the names behind those of the base, from the last one
  induction zs using List.reverseRecOn generalizing p with
  | nil =>
    refine ⟨t, ?_, .refl hbase.wellFormed, by simpa using hbase.directory,
      fun k hk => absurd rfl hk⟩
    rcases hparent : p.parent? with _ | q
    · rw [HostPath.ancestors_of_parent_eq_none hparent]
      rfl
    · have hsound := hp.sound (HostPath.components_ne_nil hparent)
      rw [HostPath.ancestors_of_parent hparent]
      apply afterDirectories_of_isDirectory
      refine isDirectory_iff.mpr ⟨b, find_eq_ok_iff.mpr ⟨hsound, leads_steps_iff.mpr ?_⟩⟩
      rw [hp.names_eq, List.append_nil, start, hp.rooted]
      exact hbase.leads
  | append_singleton ys x ih =>
    have hys : ys <+: ys ++ [x] := List.prefix_append _ _
    obtain ⟨q, hq⟩ := HostPath.exists_parent hp.components_ne_nil
    rw [HostPath.ancestors_of_parent hq, afterDirectories_cons]
    by_cases hparent : t.get? (b ++ ys.map .text) = some .directory
    · obtain ⟨hmake, t', hattempt, hmade⟩ := attempt_of_clear hbase hp hclear hshort hparent
      exact ⟨t', by rw [if_neg hmake, hattempt], hmade⟩
    · -- the directory that it is to be in is made first
      have hnone : t.get? (b ++ (ys ++ [x]).map .text) = none := by
        apply hbase.wellFormed.nothing_below hparent
        · rw [List.map_append, ← List.append_assoc]
          exact List.prefix_append _ _
        · simp
      have hlink : ∀ target, t.get? (b ++ (ys ++ [x]).map .text) ≠ some (.link target) := by
        intro target hl
        rw [hnone] at hl
        cases hl
      have hfind : t.find .entry p = .error .notFound := by
        rw [find_of_clear hbase hp (hclear.shorter hys) hshort hlink, if_neg hparent]
      obtain ⟨t₁, hrun, hmade⟩ := ih (hp.parent hq) (hclear.shorter hys)
        fun y hy => hshort y (List.mem_append_left _ hy)
      obtain ⟨-, t', hattempt, hmade'⟩ := attempt_of_clear (hbase.extended hmade.extended) hp
        (hclear.extended hmade.extended) hshort hmade.made
      rw [makeDirectory_of_error hfind, if_pos rfl, hrun]
      exact ⟨t', hattempt, hmade.trans hmade' hys⟩

end FileTree

end SchemaForge
