import Mathlib.Data.List.Basic
import SchemaForge.Text.Pieces

/-!
# Segments of texts with slashes

Everything about segments follows from two equations: a slash cuts a text into the segments before
it and those behind it, and a text without slashes is its own only segment.
-/

namespace SchemaForge.Text

/-- Texts that are segments of a path: they are not empty and have no slash in them. -/
def IsSegment (s : String) : Prop := s ≠ "" ∧ '/' ∉ s.toList

instance (s : String) : Decidable (IsSegment s) := inferInstanceAs (Decidable (_ ∧ _))

theorem IsSegment.toList_ne_nil {s : String} (h : IsSegment s) : s.toList ≠ [] :=
  fun hnil => h.1 (String.toList_eq_nil_iff.mp hnil)

/-! ### Bare texts -/

/-- Texts that neither are empty nor start or end with a slash. -/
structure Bare (s : String) : Prop where
  ne_empty : s ≠ ""
  head : s.toList.head? ≠ some '/'
  last : s.toList.getLast? ≠ some '/'

theorem IsSegment.bare {s : String} (h : IsSegment s) : Bare s where
  ne_empty := h.1
  head hslash := h.2 (List.mem_of_head? hslash)
  last hslash := h.2 (List.mem_of_getLast? hslash)

theorem Bare.toList_ne_nil {s : String} (h : Bare s) : s.toList ≠ [] :=
  fun hnil => h.ne_empty (String.toList_eq_nil_iff.mp hnil)

theorem Bare.append_slash {s t : String} (hs : Bare s) (ht : Bare t) : Bare (s ++ "/" ++ t) where
  ne_empty hempty := ht.ne_empty (String.append_eq_empty_iff.mp hempty).2
  head := by
    rw [String.append_assoc, String.toList_append, List.head?_append_of_ne_nil _ hs.toList_ne_nil]
    exact hs.head
  last := by
    rw [String.toList_append, List.getLast?_append_of_ne_nil _ ht.toList_ne_nil]
    exact ht.last

theorem bare_intercalate {parts : List String} (hne : parts ≠ [])
    (h : ∀ part ∈ parts, Bare part) : Bare ("/".intercalate parts) := by
  induction parts with
  | nil => exact absurd rfl hne
  | cons part rest ih =>
    obtain ⟨hpart, hrest⟩ := List.forall_mem_cons.mp h
    cases rest with
    | nil => rwa [String.intercalate_singleton]
    | cons next rest =>
      rw [String.intercalate_cons_cons]
      exact hpart.append_slash (ih (List.cons_ne_nil _ _) hrest)

/-! ### Pieces -/

theorem pieces_of_not_mem {separator : Char} {cs : List Char} (h : separator ∉ cs) :
    pieces separator cs = [cs] := by
  induction cs with
  | nil => rfl
  | cons c rest ih =>
    obtain ⟨hc, hrest⟩ := List.ne_and_not_mem_of_not_mem_cons h
    rw [pieces, if_neg (Ne.symm hc), ih hrest, List.modifyHead_cons]

theorem not_mem_of_mem_pieces {separator : Char} {cs p : List Char}
    (h : p ∈ pieces separator cs) : separator ∉ p := by
  induction cs generalizing p with
  | nil =>
    rw [List.mem_singleton.mp h]
    exact List.not_mem_nil
  | cons c rest ih =>
    rw [pieces] at h
    split at h
    · rcases List.mem_cons.mp h with rfl | hp
      · exact List.not_mem_nil
      · exact ih hp
    · next hc =>
      obtain ⟨q, qs, hq⟩ := List.exists_cons_of_ne_nil (pieces_ne_nil separator rest)
      rw [hq, List.modifyHead_cons] at h
      rcases List.mem_cons.mp h with rfl | hp
      · intro hmem
        rcases List.mem_cons.mp hmem with rfl | hmem
        · exact hc rfl
        · exact ih (hq ▸ List.mem_cons_self) hmem
      · exact ih (hq ▸ List.mem_cons_of_mem _ hp)

/-- Pieces with separators between them. -/
theorem pieces_append_flatMap {separator : Char} {first : List Char} {rest : List (List Char)}
    (hfirst : separator ∉ first) (hrest : ∀ piece ∈ rest, separator ∉ piece) :
    pieces separator (first ++ rest.flatMap (separator :: ·)) = first :: rest := by
  induction rest generalizing first with
  | nil => rw [List.flatMap_nil, List.append_nil, pieces_of_not_mem hfirst]
  | cons piece rest ih =>
    obtain ⟨hpiece, hrest⟩ := List.forall_mem_cons.mp hrest
    rw [List.flatMap_cons, List.cons_append, pieces_append, pieces_of_not_mem hfirst,
      ih hpiece hrest]
    rfl

/-- The characters are the pieces with separators between them. -/
theorem eq_append_flatMap {separator : Char} {cs first : List Char} {rest : List (List Char)}
    (h : pieces separator cs = first :: rest) : cs = first ++ rest.flatMap (separator :: ·) := by
  induction cs generalizing first rest with
  | nil =>
    cases h
    rfl
  | cons c cs ih =>
    obtain ⟨piece, more, hcs⟩ := List.exists_cons_of_ne_nil (pieces_ne_nil separator cs)
    rw [pieces, hcs] at h
    split at h
    · next hc =>
      cases h
      rw [List.flatMap_cons, List.nil_append, List.cons_append, ← ih hcs, hc]
    · cases h
      rw [List.cons_append, ← ih hcs]

/-- The pieces have all the characters but the separators. -/
theorem exists_mem_pieces_iff {separator c : Char} {cs : List Char} :
    (∃ piece ∈ pieces separator cs, c ∈ piece) ↔ c ∈ cs ∧ c ≠ separator := by
  obtain ⟨first, rest, hpieces⟩ := List.exists_cons_of_ne_nil (pieces_ne_nil separator cs)
  constructor
  · rintro ⟨piece, hpiece, hc⟩
    refine ⟨?_, fun hsep => not_mem_of_mem_pieces hpiece (hsep ▸ hc)⟩
    rw [eq_append_flatMap hpieces]
    rw [hpieces] at hpiece
    rcases List.mem_cons.mp hpiece with rfl | hpiece
    · exact List.mem_append_left _ hc
    · exact List.mem_append_right _
        (List.mem_flatMap.mpr ⟨piece, hpiece, List.mem_cons_of_mem _ hc⟩)
  · rintro ⟨hc, hne⟩
    rw [eq_append_flatMap hpieces] at hc
    rw [hpieces]
    rcases List.mem_append.mp hc with hc | hc
    · exact ⟨first, List.mem_cons_self, hc⟩
    · obtain ⟨piece, hpiece, hc⟩ := List.mem_flatMap.mp hc
      exact ⟨piece, List.mem_cons_of_mem _ hpiece, List.mem_of_ne_of_mem hne hc⟩

/-- Pieces that are joined by a separator. -/
theorem toList_intercalate {glue : String} {separator : Char} (hglue : glue.toList = [separator])
    (first : List Char) (rest : List (List Char)) :
    (glue.intercalate ((first :: rest).map String.ofList)).toList =
      first ++ rest.flatMap (separator :: ·) := by
  induction rest generalizing first with
  | nil => simp
  | cons piece rest ih =>
    have hrest := ih piece
    rw [List.map_cons] at hrest
    rw [List.map_cons, List.map_cons, String.intercalate_cons_cons, String.toList_append, hrest,
      String.toList_append, hglue, String.toList_ofList, List.flatMap_cons, List.append_assoc]
    rfl

/-- There is only one way to cut a text at its first separator. -/
theorem eq_of_append_cons_eq {separator : Char} {front front' behind behind' : List Char}
    (hfront : separator ∉ front) (hfront' : separator ∉ front')
    (h : front ++ separator :: behind = front' ++ separator :: behind') :
    front = front' ∧ behind = behind' := by
  have hpieces := congrArg (pieces separator) h
  rw [pieces_append, pieces_append, pieces_of_not_mem hfront, pieces_of_not_mem hfront'] at hpieces
  obtain rfl := List.head_eq_of_cons_eq hpieces
  exact ⟨rfl, List.tail_eq_of_cons_eq (List.append_cancel_left h)⟩

/-! ### Segments -/

theorem isSegment_of_mem_segments {s n : String} (h : n ∈ segments s) : IsSegment n := by
  obtain ⟨p, hp, rfl⟩ := List.mem_map.mp h
  obtain ⟨hp, hne⟩ := List.mem_filter.mp hp
  refine ⟨?_, ?_⟩
  · intro hempty
    have : p = [] := by simpa using congrArg String.toList hempty
    simp [this] at hne
  · rw [String.toList_ofList]
    exact not_mem_of_mem_pieces hp

@[simp]
theorem segments_empty : segments "" = [] := rfl

theorem segments_append_slash (a b : String) :
    segments (a ++ "/" ++ b) = segments a ++ segments b := by
  have h : (a ++ "/" ++ b).toList = a.toList ++ '/' :: b.toList := by simp
  simp only [segments, h, pieces_append, List.filter_append, List.map_append]

/-- A slash at the front adds no segment. -/
theorem segments_slash_append (b : String) : segments ("/" ++ b) = segments b := by
  simpa using segments_append_slash "" b

/-- A slash at the end adds no segment. -/
theorem segments_append_slash_nil (a : String) : segments (a ++ "/") = segments a := by
  simpa using segments_append_slash a ""

theorem segments_append_replicate (cs : List Char) (n : Nat) :
    segments (String.ofList (cs ++ List.replicate n '/')) = segments (String.ofList cs) := by
  induction n with
  | zero => rw [List.replicate_zero, List.append_nil]
  | succ n ih =>
    have h : String.ofList (cs ++ List.replicate (n + 1) '/') =
        String.ofList (cs ++ List.replicate n '/') ++ "/" := by
      rw [List.replicate_succ', ← List.append_assoc, String.ofList_append]
    rw [h, segments_append_slash_nil, ih]

theorem segments_of_isSegment {s : String} (h : IsSegment s) : segments s = [s] := by
  have hne := h.toList_ne_nil
  rw [segments, pieces_of_not_mem h.2, List.filter_cons_of_pos (by simpa using hne)]
  simp

/-- Texts with slashes between them have the segments of one after the other. -/
theorem segments_intercalate_eq_flatMap (texts : List String) :
    segments ("/".intercalate texts) = texts.flatMap segments := by
  induction texts with
  | nil => rfl
  | cons s rest ih =>
    cases rest with
    | nil => rw [String.intercalate_singleton, List.flatMap_singleton]
    | cons t rest =>
      rw [String.intercalate_cons_cons, segments_append_slash, ih, ← List.flatMap_cons]

theorem segments_intercalate {names : List String} (h : ∀ n ∈ names, IsSegment n) :
    segments ("/".intercalate names) = names := by
  rw [segments_intercalate_eq_flatMap,
    List.flatMap_congr fun n hn => segments_of_isSegment (h n hn), List.flatMap_singleton']

/-- A text of segments does not start with a slash. -/
theorem head?_intercalate_ne {names : List String} (h : ∀ n ∈ names, IsSegment n) :
    ("/".intercalate names).toList.head? ≠ some '/' := by
  by_cases hne : names = []
  · simp [hne]
  · exact (bare_intercalate hne fun n hn => (h n hn).bare).head

/-- A text of segments does not end with a slash. -/
theorem getLast?_intercalate_ne {names : List String} (h : ∀ n ∈ names, IsSegment n) :
    ("/".intercalate names).toList.getLast? ≠ some '/' := by
  by_cases hne : names = []
  · simp [hne]
  · exact (bare_intercalate hne fun n hn => (h n hn).bare).last

/-- The characters of a text of segments are slashes and those of the segments. -/
theorem mem_intercalate {names : List String} {c : Char}
    (hc : c ∈ ("/".intercalate names).toList) :
    c = '/' ∨ ∃ n ∈ names, c ∈ n.toList := by
  induction names with
  | nil => simp at hc
  | cons n rest ih =>
    rcases rest with _ | ⟨m, rest⟩
    · rw [String.intercalate_singleton] at hc
      exact .inr ⟨n, List.mem_singleton_self n, hc⟩
    · rw [String.intercalate_cons_cons, String.toList_append, String.toList_append] at hc
      rcases List.mem_append.mp hc with hc | hc
      · rcases List.mem_append.mp hc with hc | hc
        · exact .inr ⟨n, List.mem_cons_self, hc⟩
        · exact .inl (List.mem_singleton.mp hc)
      · rcases ih hc with hslash | ⟨m', hm', hc⟩
        · exact .inl hslash
        · exact .inr ⟨m', List.mem_cons_of_mem _ hm', hc⟩

/-- Slashes at the front add no segments. -/
theorem segments_dropWhile (cs : List Char) :
    segments (String.ofList (cs.dropWhile (· == '/'))) = segments (String.ofList cs) := by
  induction cs with
  | nil => rfl
  | cons c rest ih =>
    by_cases hc : c = '/'
    · subst hc
      have h : String.ofList ('/' :: rest) = "/" ++ String.ofList rest := String.ofList_cons
      rw [List.dropWhile_cons_of_pos (by simp), ih, h, segments_slash_append]
    · rw [List.dropWhile_cons_of_neg (by simpa using hc)]

end SchemaForge.Text
