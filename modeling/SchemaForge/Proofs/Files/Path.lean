import Mathlib.Data.List.Basic
import SchemaForge.Files.Path
import SchemaForge.Proofs.Text.Segments

/-!
# Names in paths

Where a path leads depends on whether it starts at the root and on the names in it, that is on the
segments but for steps to the same directory. The path of the directory that a path is in has the
same names without the last one, and a path joined to another one has the names of both.
-/

namespace SchemaForge.HostPath

/-- The names in the path: its segments that are no steps to the same directory. -/
def names (p : HostPath) : List String := (Text.segments p.text).filter (· ≠ ".")

theorem isSegment_of_mem_names {p : HostPath} {n : String} (h : n ∈ p.names) :
    Text.IsSegment n ∧ n ≠ "." := by
  obtain ⟨hmem, hdot⟩ := List.mem_filter.mp h
  exact ⟨Text.isSegment_of_mem_segments hmem, by simpa using hdot⟩

/-! ### Steps -/

/-- Is the step one to another directory than the same? -/
def moves (s : String) : Bool := decide (s ≠ "" ∧ s ≠ ".")

theorem moves_iff {s : String} : moves s ↔ s ≠ "" ∧ s ≠ "." := decide_eq_true_iff

theorem moves_eq_false_iff {s : String} : moves s = false ↔ s = "" ∨ s = "." := by
  by_cases h : s = ""
  · simp [moves, h]
  · simp [moves, h]

theorem mem_steps {p : HostPath} {s : String} (h : s ∈ p.steps) : s = "" ∨ Text.IsSegment s := by
  have old : s ∈ Text.segments p.text → Text.IsSegment s := Text.isSegment_of_mem_segments
  unfold steps at h
  dsimp only at h
  split at h
  · rcases List.mem_append.mp h with hs | hs
    · exact .inr (old hs)
    · exact .inl (List.mem_singleton.mp hs)
  · exact .inr (old h)

theorem filter_segments (p : HostPath) : (Text.segments p.text).filter moves = p.names := by
  apply List.filter_congr
  intro s hs
  have hne : s ≠ "" := (Text.isSegment_of_mem_segments hs).1
  simp only [moves, hne, ne_eq, not_false_eq_true, true_and]

theorem filter_steps (p : HostPath) : p.steps.filter moves = p.names := by
  unfold steps
  dsimp only
  split
  · rw [List.filter_append, filter_segments]
    exact List.append_nil _
  · exact p.filter_segments

/-- A path ends in its last name but for steps that do not move. -/
theorem exists_steps {p : HostPath} {ns : List String} {x : String} (h : p.names = ns ++ [x]) :
    ∃ front trail, p.steps = front ++ x :: trail ∧ front.filter moves = ns ∧
      trail.filter moves = [] ∧ moves x := by
  rw [← filter_steps] at h
  obtain ⟨front, rest, hsteps, hfront, hrest⟩ := List.filter_eq_append_iff.mp h
  obtain ⟨between, trail, rfl, hbetween, hx, htrail⟩ := List.filter_eq_cons_iff.mp hrest
  refine ⟨front ++ between, trail, ?_, ?_, htrail, hx⟩
  · rw [hsteps, List.append_assoc]
  · rw [List.filter_append, hfront, List.filter_eq_nil_iff.mpr hbetween, List.append_nil]

/-! ### Components -/

theorem components_eq (p : HostPath) :
    p.components = p.names ∨ p.rooted = false ∧ p.components = "." :: p.names := by
  unfold components names
  split
  · next rest hrooted hsegments =>
    rw [hsegments]
    exact .inr ⟨hrooted, by simp⟩
  · exact .inl rfl

theorem text_ne_empty {p : HostPath} (h : p.components ≠ []) : p.text ≠ "" := by
  intro hempty
  apply h
  rw [components, rooted, hempty]
  rfl

theorem names_eq_filter_components (p : HostPath) :
    p.components.filter (· ≠ ".") = p.names := by
  have hnames : p.names.filter (· ≠ ".") = p.names :=
    List.filter_eq_self.mpr fun n hn => decide_eq_true (isSegment_of_mem_names hn).2
  rcases p.components_eq with h | ⟨-, h⟩
  · rw [h, hnames]
  · rw [h, List.filter_cons_of_neg (by simp), hnames]

/-! ### Pieces of a path -/

/-- The names among pieces. -/
def named (pieces : List (List Char)) : List String :=
  (pieces.filter fun piece => !idle piece).map String.ofList

@[simp]
theorem named_nil : named [] = [] := rfl

theorem named_cons (piece : List Char) (rest : List (List Char)) :
    named (piece :: rest) = named [piece] ++ named rest := by
  rw [named, List.filter_cons, named, named]
  by_cases h : idle piece
  · simp [h]
  · simp [h]

@[simp]
theorem named_append (front back : List (List Char)) :
    named (front ++ back) = named front ++ named back := by
  rw [named, List.filter_append, List.map_append]
  rfl

theorem named_of_idle {piece : List Char} (h : idle piece) : named [piece] = [] := by
  simp [named, h]

theorem named_of_not_idle {piece : List Char} (h : ¬idle piece) :
    named [piece] = [String.ofList piece] := by
  simp [named, h]

theorem named_of_forall_idle {pieces : List (List Char)} (h : ∀ piece ∈ pieces, idle piece) :
    named pieces = [] := by
  rw [named, List.filter_eq_nil_iff.mpr, List.map_nil]
  intro piece hpiece
  simpa using h piece hpiece

section Pieces

variable {p q : HostPath} {first : List Char} {rest : List (List Char)}

theorem names_eq_named (p : HostPath) : p.names = named (Text.pieces '/' p.text.toList) := by
  have hdot : ∀ piece : List Char, String.ofList piece ≠ "." ↔ piece ≠ ['.'] := by
    intro piece
    rw [ne_eq, ← String.toList_inj, String.toList_ofList]
    rfl
  rw [names, Text.segments, List.filter_map, List.filter_filter, named]
  congr 1
  apply List.filter_congr
  intro piece _
  rw [Function.comp_apply, decide_eq_decide.mpr (hdot piece), Bool.and_comm, idle, Bool.not_or,
    decide_not, beq_eq_decide]

/-- A path without names has no pieces that are names. -/
theorem idle_of_names_eq_nil (h : p.names = []) :
    ∀ piece ∈ Text.pieces '/' p.text.toList, idle piece := by
  rw [names_eq_named, named, List.map_eq_nil_iff, List.filter_eq_nil_iff] at h
  intro piece hpiece
  simpa using h piece hpiece

/-- It is written in slashes and dots. -/
theorem eq_of_mem_text (h : p.names = []) {c : Char} (hc : c ∈ p.text.toList) :
    c = '/' ∨ c = '.' := by
  by_cases hslash : c = '/'
  · exact .inl hslash
  · obtain ⟨piece, hpiece, hmem⟩ := Text.exists_mem_pieces_iff.mpr ⟨hc, hslash⟩
    have hidle := idle_of_names_eq_nil h piece hpiece
    rcases piece with _ | ⟨d, ds⟩
    · cases hmem
    · have hdot : d :: ds = ['.'] := by simpa [idle] using hidle
      rw [hdot] at hmem
      exact .inr (List.mem_singleton.mp hmem)

variable (h : Text.pieces '/' p.text.toList = first :: rest)

include h

/-- A path starts at the root if nothing stands before its first slash. -/
theorem rooted_eq : p.rooted = (first.isEmpty && !rest.isEmpty) := by
  have hfirst : '/' ∉ first := Text.not_mem_of_mem_pieces (h ▸ List.mem_cons_self)
  rw [rooted, Text.eq_append_flatMap h]
  rcases first with _ | ⟨c, cs⟩
  · rcases rest with _ | ⟨piece, rest⟩
    · rfl
    · rfl
  · have hc : c ≠ '/' := fun heq => hfirst (heq ▸ List.mem_cons_self)
    simp [hc]

/-- The components are the names, with a step to the same directory before them if the first piece
is one. -/
theorem components_eq_of_pieces :
    p.components = (if first = ['.'] then ["."] else []) ++ p.names := by
  have hsegments : Text.segments p.text =
      ((first :: rest).filter fun piece => !piece.isEmpty).map String.ofList := by
    rw [Text.segments, h]
  by_cases hdot : first = ['.']
  · have hrooted : p.rooted = false := by
      rw [rooted_eq h, hdot]
      rfl
    rw [hdot, List.filter_cons_of_pos (by simp), List.map_cons] at hsegments
    rw [if_pos hdot, components, names, hrooted, hsegments]
    rfl
  · rw [if_neg hdot, List.nil_append]
    unfold components
    split
    · next hrooted hfirst =>
      -- the first segment is the first piece, or the path starts at the root
      exfalso
      rw [rooted_eq h] at hrooted
      rw [hfirst] at hsegments
      rcases first with _ | ⟨c, cs⟩
      · rcases rest with _ | ⟨piece, rest⟩
        · cases hsegments
        · cases hrooted
      · rw [List.filter_cons_of_pos (by simp), List.map_cons, List.cons.injEq] at hsegments
        have hname := congrArg String.toList hsegments.1
        exact hdot (String.toList_ofList.symm.trans hname.symm)
    · rfl

end Pieces

/-! ### Paths that end in a name -/

/-- Is the last piece of a path a name, with no slash behind it? -/
def EndsInName (p : HostPath) : Prop :=
  ∃ front y, Text.pieces '/' p.text.toList = front ++ [y] ∧ ¬idle y

theorem not_idle_of_isSegment {y : String} (hy : Text.IsSegment y ∧ y ≠ ".") : ¬idle y.toList := by
  have hne := hy.1.toList_ne_nil
  have hdot : y.toList ≠ ['.'] := fun heq => hy.2 (String.toList_inj.mp heq)
  simp [idle, hne, hdot]

theorem endsInName_of_text_eq {p : HostPath} {y : String} (hy : Text.IsSegment y ∧ y ≠ ".")
    (h : p.text = y ∨ ∃ before, p.text = before ++ "/" ++ y) : p.EndsInName := by
  have hlast := Text.pieces_of_not_mem hy.1.2
  rcases h with h | ⟨before, h⟩
  · exact ⟨[], y.toList, by rw [h, hlast]; rfl, not_idle_of_isSegment hy⟩
  · refine ⟨Text.pieces '/' before.toList, y.toList, ?_, not_idle_of_isSegment hy⟩
    have htext : p.text.toList = before.toList ++ '/' :: y.toList := by simp [h]
    rw [htext, Text.pieces_append, hlast]

/-- The name is the last step. -/
theorem EndsInName.getLast?_steps {p : HostPath} (h : p.EndsInName) :
    p.steps.getLast? = p.names.getLast? := by
  obtain ⟨front, y, hpieces, hy⟩ := h
  have hslash : '/' ∉ y := Text.not_mem_of_mem_pieces (hpieces ▸ List.mem_append_right _ (by simp))
  have hne : y ≠ [] := by
    rintro rfl
    exact hy rfl
  obtain ⟨before, htext⟩ : ∃ before, p.text.toList = before ++ y := by
    rcases front with _ | ⟨first, rest⟩
    · exact ⟨[], (Text.eq_append_flatMap hpieces).trans (List.append_nil y)⟩
    · refine ⟨first ++ rest.flatMap ('/' :: ·) ++ ['/'], ?_⟩
      rw [List.cons_append] at hpieces
      rw [Text.eq_append_flatMap hpieces, List.flatMap_append]
      simp
  have hend : p.text.toList.getLast? ≠ some '/' := by
    intro hlast
    rw [htext, List.getLast?_append_of_ne_nil _ hne] at hlast
    exact hslash (List.mem_of_getLast? hlast)
  have hsegments : p.steps = Text.segments p.text := if_neg (by simp [hend])
  rw [hsegments, names_eq_named, hpieces, named_append, named_of_not_idle hy, List.getLast?_concat,
    Text.segments, hpieces, List.filter_append, List.filter_cons_of_pos (by simpa using hne),
    List.map_append]
  exact List.getLast?_concat

/-! ### The directory that a path is in -/

theorem upToName_cases (pieces : List (List Char)) :
    (∀ piece ∈ pieces, idle piece) ∧ upToName pieces = [] ∨
      ∃ front x tail, pieces = front ++ x :: tail ∧ ¬idle x ∧ (∀ piece ∈ tail, idle piece) ∧
        upToName pieces = front ++ [x] := by
  induction pieces with
  | nil => exact .inl ⟨nofun, rfl⟩
  | cons piece rest ih =>
    rw [upToName]
    rcases ih with ⟨hidle, hup⟩ | ⟨front, x, tail, rfl, hx, htail, hup⟩
    · rw [hup]
      by_cases hpiece : idle piece
      · exact .inl ⟨List.forall_mem_cons.mpr ⟨hpiece, hidle⟩, if_pos hpiece⟩
      · exact .inr ⟨[], piece, rest, rfl, hpiece, hidle, if_neg hpiece⟩
    · refine .inr ⟨piece :: front, x, tail, rfl, hx, htail, ?_⟩
      rw [hup]
      rcases front with _ | ⟨y, ys⟩
      · rfl
      · rfl

/-- Nothing is cut off behind a name. -/
theorem upToName_concat {front : List (List Char)} {x : List Char} (hx : ¬idle x) :
    upToName (front ++ [x]) = front ++ [x] := by
  rcases upToName_cases (front ++ [x]) with ⟨hidle, -⟩ | ⟨front', y, tail, heq, -, htail, hup⟩
  · exact absurd (hidle x (by simp)) hx
  · rw [hup]
    rcases List.eq_nil_or_concat' tail with rfl | ⟨more, z, rfl⟩
    · exact heq.symm
    · -- the last piece would be one that is cut off
      rw [← List.cons_append, ← List.append_assoc] at heq
      obtain ⟨-, hz⟩ := List.append_inj' heq rfl
      obtain rfl := List.singleton_inj.mp hz
      exact absurd (htail x (by simp)) hx

/-- Pieces behind the last name do not matter. -/
theorem upToName_append_of_idle {front tail : List (List Char)} (h : ∀ piece ∈ tail, idle piece) :
    upToName (front ++ tail) = upToName front := by
  induction front with
  | nil =>
    rcases upToName_cases tail with ⟨-, hup⟩ | ⟨before, x, after, rfl, hx, -, -⟩
    · exact hup
    · exact absurd (h x (by simp)) hx
  | cons piece rest ih => rw [List.cons_append, upToName, ih, upToName]

section OfPieces

variable {first : List Char} {rest : List (List Char)} (hfirst : '/' ∉ first)
  (hrest : ∀ piece ∈ rest, '/' ∉ piece)

include hfirst hrest

theorem pieces_ofPieces :
    Text.pieces '/' (ofPieces first rest).text.toList =
      first :: if first.isEmpty && rest.isEmpty then [[]] else rest := by
  unfold ofPieces
  dsimp only
  rw [String.toList_ofList]
  apply Text.pieces_append_flatMap hfirst
  split
  · simp
  · exact hrest

theorem names_ofPieces : (ofPieces first rest).names = named (first :: rest) := by
  rw [names_eq_named, pieces_ofPieces hfirst hrest, named_cons, named_cons first rest]
  congr 1
  split
  · next hnil =>
    rw [Bool.and_eq_true, List.isEmpty_iff, List.isEmpty_iff] at hnil
    rw [hnil.2]
    rfl
  · rfl

end OfPieces

/-- The pieces of a path and of the directory that it is in: a name goes, with what is idle before
and behind it. -/
inductive Cut (p q : HostPath) : Prop
  /-- There is one component only, and it is the first piece. -/
  | first {first : List Char} {rest : List (List Char)}
      (pieces : Text.pieces '/' p.text.toList = first :: rest) (ne_nil : first ≠ [])
      (idle : ∀ piece ∈ rest, HostPath.idle piece) (outer : q = ⟨""⟩)
  | later {first x : List Char} {rest between tail : List (List Char)}
      (pieces : Text.pieces '/' p.text.toList = first :: (rest ++ (between ++ x :: tail)))
      (name : ¬HostPath.idle x) (idle : ∀ piece ∈ between ++ tail, HostPath.idle piece)
      (last : ∀ y, rest.getLast? = some y → ¬HostPath.idle y) (outer : q = ofPieces first rest)
      (pieces_outer : Text.pieces '/' q.text.toList =
        first :: if first.isEmpty && rest.isEmpty then [[]] else rest)
      (names_outer : q.names = named (first :: rest))

section Parent

variable {p q : HostPath}

theorem cut_of_parent (h : p.parent? = some q) : Cut p q := by
  unfold parent? at h
  rcases hpieces : Text.pieces '/' p.text.toList with _ | ⟨first, rest⟩
  · rw [hpieces] at h
    cases h
  rw [hpieces] at h
  dsimp only at h
  -- a name behind the first slash goes, or else what stands before this slash
  rcases upToName_cases rest with ⟨hidle, hup⟩ | ⟨front, x, tail, rfl, hx, htail, hup⟩
  · rw [hup, if_neg (by simp)] at h
    split at h
    · cases h
    · next hfirst =>
      exact .first hpieces (by simpa using hfirst) hidle (Option.some.inj h).symm
  · rw [hup, if_pos (by simp), List.dropLast_concat] at h
    have hslash : ∀ piece ∈ first :: (front ++ x :: tail), '/' ∉ piece :=
      fun _ hpiece => Text.not_mem_of_mem_pieces (hpieces ▸ hpiece)
    obtain ⟨hfirst, hfront, -⟩ :=
      And.imp_right List.forall_mem_append.mp (List.forall_mem_cons.mp hslash)
    obtain rfl := Option.some.inj h
    rcases upToName_cases front with ⟨hidle, hup⟩ | ⟨front, y, between, rfl, hy, hbetween, hup⟩
    · rw [hup]
      exact @Cut.later _ _ first x [] front tail hpieces hx
        (List.forall_mem_append.mpr ⟨hidle, htail⟩) nofun rfl (pieces_ofPieces hfirst nofun)
        (names_ofPieces hfirst nofun)
    · have houter : ∀ piece ∈ front ++ [y], '/' ∉ piece := by
        intro piece hpiece
        apply hfront
        rw [List.append_cons]
        exact List.mem_append_left _ hpiece
      rw [hup]
      refine .later (hpieces.trans ?_) hx (List.forall_mem_append.mpr ⟨hbetween, htail⟩) ?_ rfl
        (pieces_ofPieces hfirst houter) (names_ofPieces hfirst houter)
      · simp
      · intro z hz
        rw [List.getLast?_concat] at hz
        exact Option.some.inj hz ▸ hy

theorem exists_parent (h : p.components ≠ []) : ∃ q, p.parent? = some q := by
  obtain ⟨first, rest, hpieces⟩ :=
    List.exists_cons_of_ne_nil (Text.pieces_ne_nil '/' p.text.toList)
  rw [components_eq_of_pieces hpieces, names_eq_named, hpieces, named_cons] at h
  unfold parent?
  rw [hpieces]
  dsimp only
  split
  · exact ⟨_, rfl⟩
  · next hup =>
    split
    · next hfirst =>
      exfalso
      obtain rfl : first = [] := by simpa using hfirst
      rcases upToName_cases rest with ⟨hidle, -⟩ | ⟨front, x, tail, -, -, -, hup'⟩
      · rw [named_of_forall_idle hidle] at h
        exact h rfl
      · rw [hup'] at hup
        simp at hup
    · exact ⟨_, rfl⟩

variable (h : p.parent? = some q)

include h

theorem rooted_parent : q.rooted = p.rooted := by
  cases cut_of_parent h with
  | first hpieces hfirst _ hq =>
    rw [hq, rooted_eq hpieces]
    simp [rooted, hfirst]
  | @later first x rest between tail hpieces _ _ _ _ hq =>
    rw [rooted_eq hpieces, rooted_eq hq]
    rcases first with _ | ⟨c, cs⟩
    · rcases rest with _ | ⟨y, ys⟩
      · simp
      · simp
    · rfl

/-- The component that goes is the last one. -/
theorem components_eq_concat : ∃ x, p.components = q.components ++ [x] := by
  cases cut_of_parent h with
  | @first first rest hpieces hfirst hidle hq =>
    have hnone : q.components = [] := by
      rw [hq]
      rfl
    rw [hnone, components_eq_of_pieces hpieces, names_eq_named, hpieces, named_cons,
      named_of_forall_idle hidle, List.append_nil]
    by_cases hdot : first = ['.']
    · exact ⟨".", by rw [hdot]; rfl⟩
    · refine ⟨String.ofList first, ?_⟩
      rw [if_neg hdot, named_of_not_idle (by simp [idle, hfirst, hdot])]
  | @later first x rest between tail hpieces hx hidle _ _ hq hnames =>
    obtain ⟨hbetween, htail⟩ := List.forall_mem_append.mp hidle
    refine ⟨String.ofList x, ?_⟩
    rw [components_eq_of_pieces hpieces, components_eq_of_pieces hq, hnames, names_eq_named,
      hpieces, List.append_assoc]
    congr 1
    rw [named_cons, named_cons first rest, named_append, named_append,
      named_of_forall_idle hbetween, named_cons x, named_of_not_idle hx,
      named_of_forall_idle htail, List.append_assoc, List.append_nil, List.nil_append]

theorem components_ne_nil : p.components ≠ [] := by
  obtain ⟨x, hx⟩ := components_eq_concat h
  rw [hx]
  simp

theorem components_parent : q.components = p.components.dropLast := by
  obtain ⟨x, hx⟩ := components_eq_concat h
  rw [hx, List.dropLast_concat]

theorem names_parent : q.names = p.names.dropLast := by
  have keep : p.names.dropLast.filter (· ≠ ".") = p.names.dropLast := by
    apply List.filter_eq_self.mpr
    exact fun n hn => decide_eq_true (isSegment_of_mem_names (List.dropLast_subset _ hn)).2
  rw [← names_eq_filter_components, components_parent h]
  rcases p.components_eq with hc | ⟨-, hc⟩
  · rw [hc, keep]
  · rw [hc]
    rcases hnames : p.names with _ | ⟨n, rest⟩
    · rfl
    · rw [List.dropLast_cons_cons, List.filter_cons_of_neg (by simp), ← hnames, keep]

/-- A path in a directory that has a path itself ends in a name. -/
theorem exists_names_eq (hne : q.components ≠ []) : ∃ x, p.names = q.names ++ [x] := by
  rw [names_parent h]
  rw [components_parent h] at hne
  have hnames : p.names ≠ [] := by
    intro hnil
    rcases p.components_eq with hc | ⟨-, hc⟩
    · rw [hc, hnil] at hne
      exact hne rfl
    · rw [hc, hnil] at hne
      exact hne rfl
  exact ⟨_, (List.dropLast_concat_getLast hnames).symm⟩

/-- The directories that a path is in are the one that it is in and those that this one is in. -/
theorem ancestors_of_parent : p.ancestors = p :: q.ancestors := by
  obtain ⟨x, hx⟩ := components_eq_concat h
  rw [ancestors, hx, List.length_append, List.length_singleton, outward, h]
  rfl

/-- The path of the directory is the beginning of the path. -/
theorem prefix_text_parent : q.text.toList <+: p.text.toList := by
  cases cut_of_parent h with
  | first _ _ _ hq =>
    rw [hq]
    exact List.nil_prefix
  | @later first x rest between tail hpieces _ _ _ hq =>
    rw [hq, ofPieces, String.toList_ofList, Text.eq_append_flatMap hpieces]
    apply (List.prefix_append_right_inj _).mpr
    split
    · -- the slash of the root is that before the first piece
      obtain ⟨piece, more, hmore⟩ : ∃ piece more, rest ++ (between ++ x :: tail) = piece :: more :=
        List.exists_cons_of_ne_nil (by simp)
      rw [hmore]
      exact ⟨piece ++ more.flatMap ('/' :: ·), rfl⟩
    · rw [List.flatMap_append]
      exact List.prefix_append _ _

/-- A directory that has a name has a path that ends in it. -/
theorem endsInName_parent (hnames : q.names ≠ []) : q.EndsInName := by
  cases cut_of_parent h with
  | first _ _ _ hq =>
    rw [hq] at hnames
    exact absurd rfl hnames
  | @later first x rest between tail hpieces _ _ hlast _ hq hq' =>
    rcases List.eq_nil_or_concat' rest with rfl | ⟨front, y, rfl⟩
    · have hfirst : ¬idle first := by
        intro hidle
        rw [hq', named_of_idle hidle] at hnames
        exact hnames rfl
      refine ⟨[], first, ?_, hfirst⟩
      rw [hq, if_neg]
      · rfl
      · intro hnil
        apply hfirst
        rw [idle, (Bool.and_eq_true_iff.mp hnil).1]
        rfl
    · refine ⟨first :: front, y, ?_, hlast y (by simp)⟩
      rw [hq, if_neg (by simp)]
      rfl

end Parent

/-- The directory that a name is in, if its path ends in a name as well. -/
theorem parent?_append {p q : HostPath} {x : String} (hq : q.EndsInName)
    (hx : Text.IsSegment x ∧ x ≠ ".") (hp : p.text = q.text ++ "/" ++ x) : p.parent? = some q := by
  obtain ⟨front, y, hpieces, hy⟩ := hq
  have hname := not_idle_of_isSegment hx
  obtain ⟨first, rest, hcons⟩ : ∃ first rest, front ++ [y] = first :: rest :=
    List.exists_cons_of_ne_nil (by simp)
  -- what is left of the pieces still ends in a name, and so nothing more is cut off
  have hkeep : upToName rest = rest ∧ ¬(first.isEmpty && rest.isEmpty) := by
    rcases front with _ | ⟨z, zs⟩
    · obtain ⟨rfl, rfl⟩ := List.cons.inj hcons
      refine ⟨rfl, fun hnil => hy ?_⟩
      rw [idle, (Bool.and_eq_true_iff.mp hnil).1]
      rfl
    · obtain ⟨rfl, rfl⟩ := List.cons.inj hcons
      exact ⟨upToName_concat hy, by simp⟩
  have hpieces' : Text.pieces '/' p.text.toList = first :: (rest ++ [x.toList]) := by
    have htext : p.text.toList = q.text.toList ++ '/' :: x.toList := by simp [hp]
    rw [htext, Text.pieces_append, hpieces, hcons, Text.pieces_of_not_mem hx.1.2, List.cons_append]
  unfold parent?
  rw [hpieces']
  dsimp only
  rw [upToName_concat hname, if_pos (by simp), List.dropLast_concat, hkeep.1, ofPieces,
    if_neg hkeep.2, ← Text.eq_append_flatMap (hpieces.trans hcons), String.ofList_toList]

/-- What stands behind the last name does not matter for the directory that a path is in. -/
theorem parent?_eq_of_idle {p q : HostPath} {first : List Char} {rest tail tail' : List (List Char)}
    (hp : Text.pieces '/' p.text.toList = first :: (rest ++ tail))
    (hq : Text.pieces '/' q.text.toList = first :: (rest ++ tail'))
    (htail : ∀ piece ∈ tail, idle piece) (htail' : ∀ piece ∈ tail', idle piece) :
    p.parent? = q.parent? := by
  unfold parent?
  rw [hp, hq]
  dsimp only
  rw [upToName_append_of_idle htail, upToName_append_of_idle htail']

theorem ancestors_of_parent_eq_none {p : HostPath} (h : p.parent? = none) : p.ancestors = [] := by
  rw [ancestors]
  by_cases hnil : p.components = []
  · rw [hnil]
    rfl
  · obtain ⟨q, hq⟩ := exists_parent hnil
    rw [h] at hq
    cases hq

/-- The directories that a path is in have the first of its names. -/
theorem of_mem_ancestors {p q : HostPath} (h : q ∈ p.ancestors) :
    q.rooted = p.rooted ∧ q.names <+: p.names := by
  induction hlength : p.components.length generalizing p with
  | zero =>
    rw [ancestors, hlength] at h
    cases h
  | succ n ih =>
    obtain ⟨r, hr⟩ : ∃ r, p.parent? = some r := by
      apply exists_parent
      intro hnil
      rw [hnil] at hlength
      cases hlength
    rw [ancestors_of_parent hr] at h
    rcases List.mem_cons.mp h with rfl | h
    · exact ⟨rfl, List.prefix_rfl⟩
    · have hcomponents : r.components.length = n := by
        rw [components_parent hr, List.length_dropLast, hlength]
        rfl
      obtain ⟨hrooted, hnames⟩ := ih h hcomponents
      rw [names_parent hr] at hnames
      exact ⟨hrooted.trans (rooted_parent hr), hnames.trans (List.dropLast_prefix _)⟩

/-! ### A path taken from another one -/

section Join

variable {base : HostPath} {relative : String}

theorem text_prefix_join (h : relative.toList.head? ≠ some '/') :
    base.text.toList <+: (base.join relative).text.toList := by
  unfold join
  rw [if_neg h]
  split
  · rw [String.toList_append]
    exact List.prefix_append _ _
  · rw [String.toList_append, String.toList_append, List.append_assoc]
    exact List.prefix_append _ _

theorem text_join_ne_empty (h : relative.toList.head? ≠ some '/') (hne : base.text ≠ "") :
    (base.join relative).text ≠ "" := by
  intro hempty
  have hfront : base.text.toList <+: (base.join relative).text.toList := text_prefix_join h
  rw [hempty] at hfront
  exact hne (String.toList_eq_nil_iff.mp (List.prefix_nil.mp hfront))

theorem suffix_text_join (base : HostPath) (relative : String) :
    relative.toList <:+ (base.join relative).text.toList := by
  unfold join
  split
  · exact List.suffix_rfl
  split
  · rw [String.toList_append]
    exact List.suffix_append _ _
  · rw [String.toList_append]
    exact List.suffix_append _ _

theorem mem_text_join {c : Char} (hc : c ∈ (base.join relative).text.toList) :
    c ∈ base.text.toList ∨ c = '/' ∨ c ∈ relative.toList := by
  unfold join at hc
  split at hc
  · exact .inr (.inr hc)
  split at hc
  · rw [String.toList_append] at hc
    exact (List.mem_append.mp hc).imp_right .inr
  · rw [String.toList_append, String.toList_append, List.append_assoc] at hc
    exact (List.mem_append.mp hc).imp_right List.mem_cons.mp

theorem size_join_le (base : HostPath) (relative : String) :
    (base.join relative).size ≤ base.size + 1 + (Text.utf8 relative).length := by
  have hslash : (Text.utf8 "/").length = 1 := by decide
  unfold join size
  split
  · exact Nat.le_add_left _ _
  split
  · rw [Text.utf8_append, List.length_append]
    omega
  · rw [Text.utf8_append, Text.utf8_append, List.length_append, List.length_append]
    omega

theorem getLast?_text_join (h : relative.toList.head? ≠ some '/') (hne : relative ≠ "") :
    (base.join relative).text.toList.getLast? = relative.toList.getLast? := by
  obtain ⟨front, c, hc⟩ :=
    (List.eq_nil_or_concat' relative.toList).resolve_left (mt String.toList_eq_nil_iff.mp hne)
  unfold join
  rw [if_neg h]
  split
  · rw [String.toList_append, hc, ← List.append_assoc, List.getLast?_concat, List.getLast?_concat]
  · rw [String.toList_append, hc, ← List.append_assoc, List.getLast?_concat, List.getLast?_concat]

theorem segments_join (h : relative.toList.head? ≠ some '/') :
    Text.segments (base.join relative).text =
      Text.segments base.text ++ Text.segments relative := by
  unfold join
  rw [if_neg h]
  split
  · next hend =>
    by_cases hempty : base.text = ""
    · rw [hempty, String.empty_append]
      rfl
    · have hlast : base.text.toList.getLast? = some '/' := by simpa [hempty] using hend
      obtain ⟨front, hfront⟩ := List.getLast?_eq_some_iff.mp hlast
      have htext : base.text = String.ofList front ++ "/" := by
        rw [← String.toList_inj, hfront]
        simp
      rw [htext, Text.segments_append_slash, Text.segments_append_slash_nil]
  · exact Text.segments_append_slash _ _

theorem names_join (h : relative.toList.head? ≠ some '/') :
    (base.join relative).names = base.names ++ (Text.segments relative).filter (· ≠ ".") := by
  rw [names, segments_join h, List.filter_append]
  rfl

theorem rooted_join (h : relative.toList.head? ≠ some '/') :
    (base.join relative).rooted = base.rooted := by
  unfold rooted
  by_cases hempty : base.text = ""
  · have htext : (base.join relative).text = relative := by
      simp [join, h, hempty]
    rw [htext, hempty]
    simpa using h
  · obtain ⟨c, cs, hc⟩ :=
      List.exists_cons_of_ne_nil fun hnil => hempty (String.toList_eq_nil_iff.mp hnil)
    have hfront : base.text.toList <+: (base.join relative).text.toList := text_prefix_join h
    obtain ⟨behind, hbehind⟩ := hfront
    rw [← hbehind, hc]
    rfl

/-- The directory that a path is in stays the same when nothing but steps to the same directory is
joined to the path. -/
theorem parent?_join_of_idle (h : relative.toList.head? ≠ some '/') (hne : base.text ≠ "")
    (hidle : ∀ piece ∈ Text.pieces '/' relative.toList, idle piece) :
    (base.join relative).parent? = base.parent? := by
  have hempty : base.text.isEmpty = false := by simpa using hne
  unfold join
  rw [if_neg h, hempty, Bool.false_or]
  split
  · next hend =>
    -- the pieces of the base are those before its last slash, and an empty one
    obtain ⟨front, hfront⟩ := List.getLast?_eq_some_iff.mp (of_decide_eq_true hend)
    obtain ⟨first, rest, hpieces⟩ :=
      List.exists_cons_of_ne_nil (Text.pieces_ne_nil '/' front)
    have hbase : Text.pieces '/' base.text.toList = first :: (rest ++ [[]]) := by
      rw [hfront, Text.pieces_append, hpieces]
      rfl
    have hjoin : Text.pieces '/' (base.text ++ relative).toList =
        first :: (rest ++ Text.pieces '/' relative.toList) := by
      rw [String.toList_append, hfront, List.append_assoc, List.singleton_append,
        Text.pieces_append, hpieces, List.cons_append]
    exact parent?_eq_of_idle hjoin hbase hidle (List.forall_mem_singleton.mpr rfl)
  · obtain ⟨first, rest, hpieces⟩ :=
      List.exists_cons_of_ne_nil (Text.pieces_ne_nil '/' base.text.toList)
    have hbase : Text.pieces '/' base.text.toList = first :: (rest ++ []) := by
      rw [hpieces, List.append_nil]
    have hjoin : Text.pieces '/' (base.text ++ "/" ++ relative).toList =
        first :: (rest ++ Text.pieces '/' relative.toList) := by
      have htext : (base.text ++ "/" ++ relative).toList =
          base.text.toList ++ '/' :: relative.toList := by simp
      rw [htext, Text.pieces_append, hpieces, List.cons_append]
    exact parent?_eq_of_idle hjoin hbase hidle nofun

/-- One more name behind a path that has been joined. -/
theorem text_join_concat {x : String} (hhead : relative.toList.head? ≠ some '/')
    (hne : relative ≠ "") :
    (base.join (relative ++ "/" ++ x)).text = (base.join relative).text ++ "/" ++ x := by
  have hhead' : (relative ++ "/" ++ x).toList.head? ≠ some '/' := by
    obtain ⟨c, cs, hc⟩ :=
      List.exists_cons_of_ne_nil fun hnil => hne (String.toList_eq_nil_iff.mp hnil)
    rw [hc] at hhead
    rw [String.toList_append, String.toList_append, hc]
    exact hhead
  unfold join
  rw [if_neg hhead, if_neg hhead']
  split
  · simp only [String.append_assoc]
  · simp only [String.append_assoc]

/-- A path joined to a name ends in it. -/
theorem endsInName_join {y : String} (hy : Text.IsSegment y ∧ y ≠ ".") :
    (base.join y).EndsInName := by
  have hhead : y.toList.head? ≠ some '/' := fun h => hy.1.2 (List.mem_of_head? h)
  apply endsInName_of_text_eq hy
  unfold join
  rw [if_neg hhead]
  split
  · next hend =>
    by_cases hempty : base.text = ""
    · exact .inl (by rw [hempty, String.empty_append])
    · have hlast : base.text.toList.getLast? = some '/' := by simpa [hempty] using hend
      obtain ⟨front, hfront⟩ := List.getLast?_eq_some_iff.mp hlast
      refine .inr ⟨String.ofList front, ?_⟩
      rw [← String.toList_inj]
      simp [hfront]
  · exact .inr ⟨base.text, rfl⟩

end Join

end SchemaForge.HostPath
