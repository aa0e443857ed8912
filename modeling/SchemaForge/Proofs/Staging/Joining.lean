import SchemaForge.Proofs.Text.Spacing
import SchemaForge.Staging.Layout

/-!
# Joined paths

A path is joined from what is left of its parts, and what is left of a joined path is the path
itself. So a path can be joined in several steps with the same result. It has the segments of its
parts, and slashes at neither end.
-/

namespace SchemaForge.Layout

variable {parts : List String}

/-! ### What is left of parts -/

/-- The parts without the slashes at their ends, as far as anything is left of them. -/
def bareParts (parts : List String) : List String :=
  (parts.map fun part => String.ofList (Text.stripped (· == '/') part.toList)).filter
    fun part => !part.isEmpty

theorem joinPath_eq_intercalate (parts : List String) :
    joinPath parts = "/".intercalate (bareParts parts) := rfl

theorem bareParts_append (parts more : List String) :
    bareParts (parts ++ more) = bareParts parts ++ bareParts more := by
  rw [bareParts, List.map_append, List.filter_append]
  rfl

theorem bare_of_mem_bareParts {s : String} (h : s ∈ bareParts parts) : Text.Bare s := by
  obtain ⟨hs, hne⟩ := List.mem_filter.mp h
  obtain ⟨part, -, rfl⟩ := List.mem_map.mp hs
  refine ⟨by simpa using hne, ?_, ?_⟩
  · rw [String.toList_ofList]
    exact fun hslash => absurd (Text.head?_stripped hslash) (by decide)
  · rw [String.toList_ofList]
    exact fun hslash => absurd (Text.getLast?_stripped hslash) (by decide)

/-- Of bare parts all is left. -/
theorem bareParts_eq_self (h : ∀ part ∈ parts, Text.Bare part) : bareParts parts = parts := by
  have hbare : ∀ part ∈ parts,
      String.ofList (Text.stripped (· == '/') part.toList) = part := by
    intro part hpart
    rw [Text.stripped_eq_self, String.ofList_toList]
    · intro c hc
      exact beq_eq_false_iff_ne.mpr fun hslash => (h part hpart).head (hslash ▸ hc)
    · intro c hc
      exact beq_eq_false_iff_ne.mpr fun hslash => (h part hpart).last (hslash ▸ hc)
  rw [bareParts, List.map_congr_left hbare, List.map_id', List.filter_eq_self]
  intro part hpart
  simpa using (h part hpart).ne_empty

/-- Nothing is left exactly of slashes. -/
theorem bareParts_eq_nil_iff :
    bareParts parts = [] ↔ ∀ part ∈ parts, ∀ c ∈ part.toList, c = '/' := by
  rw [bareParts, List.filter_eq_nil_iff, List.forall_mem_map]
  simp [Text.stripped_eq_nil_iff]

/-- Only slashes that separate nothing are taken away. -/
theorem flatMap_segments_bareParts (parts : List String) :
    (bareParts parts).flatMap Text.segments = parts.flatMap Text.segments := by
  induction parts with
  | nil => rfl
  | cons part rest ih =>
    have hpart : Text.segments (String.ofList (Text.stripped (· == '/') part.toList)) =
        Text.segments part := by
      rw [Text.segments_stripped, String.ofList_toList]
    rw [List.flatMap_cons, ← ih, ← hpart, bareParts, List.map_cons, List.filter_cons]
    split
    · rfl
    · next hempty =>
      rw [String.isEmpty_iff.mp (Bool.not_not_eq.mp hempty)]
      rfl

/-! ### Joined paths -/

theorem joinPath_eq (h : ∀ part ∈ parts, Text.Bare part) :
    joinPath parts = "/".intercalate parts := by
  rw [joinPath_eq_intercalate, bareParts_eq_self h]

/-- A path of which something is left is bare. -/
theorem bare_joinPath (h : bareParts parts ≠ []) : Text.Bare (joinPath parts) :=
  Text.bare_intercalate h fun _ => bare_of_mem_bareParts

theorem joinPath_eq_empty_iff : joinPath parts = "" ↔ bareParts parts = [] := by
  refine ⟨fun hempty => ?_, fun hnil => by rw [joinPath_eq_intercalate, hnil]; rfl⟩
  by_contra hne
  exact (bare_joinPath hne).ne_empty hempty

theorem ends_joinPath (parts : List String) :
    (joinPath parts).toList.head? ≠ some '/' ∧ (joinPath parts).toList.getLast? ≠ some '/' := by
  by_cases h : bareParts parts = []
  · rw [joinPath_eq_empty_iff.mpr h]
    decide
  · exact ⟨(bare_joinPath h).head, (bare_joinPath h).last⟩

/-- All is left of a joined path, unless it is empty. -/
theorem bareParts_joinPath (parts : List String) :
    bareParts [joinPath parts] = if bareParts parts = [] then [] else [joinPath parts] := by
  split
  · next hnil =>
    rw [joinPath_eq_empty_iff.mpr hnil]
    rfl
  · next hne =>
    exact bareParts_eq_self (List.forall_mem_singleton.mpr (bare_joinPath hne))

theorem joinPath_append (parts more : List String) :
    joinPath (parts ++ more) = joinPath [joinPath parts, joinPath more] := by
  rw [joinPath_eq_intercalate [_, _], ← List.singleton_append, bareParts_append,
    bareParts_joinPath, bareParts_joinPath, joinPath_eq_intercalate, bareParts_append]
  -- an empty path on either side must not leave a slash behind
  by_cases hparts : bareParts parts = []
  · rw [if_pos hparts, hparts, List.nil_append, List.nil_append]
    split
    · next hmore => rw [hmore]
    · rw [String.intercalate_singleton, joinPath_eq_intercalate]
  · rw [if_neg hparts]
    split
    · next hmore =>
      rw [hmore, List.append_nil, List.append_nil, String.intercalate_singleton,
        joinPath_eq_intercalate]
    · next hmore =>
      rw [String.intercalate_append_of_ne_nil hparts hmore, List.singleton_append,
        String.intercalate_cons_cons, String.intercalate_singleton]
      rfl

/-- Joining a joined path changes nothing. -/
theorem joinPath_joinPath (parts : List String) : joinPath [joinPath parts] = joinPath parts := by
  rw [joinPath_eq_intercalate, bareParts_joinPath]
  split
  · next hnil => exact (joinPath_eq_empty_iff.mpr hnil).symm
  · exact String.intercalate_singleton

/-- A path can be joined on to. -/
theorem joinPath_joinPath_cons (parts more : List String) :
    joinPath (joinPath parts :: more) = joinPath (parts ++ more) :=
  calc joinPath (joinPath parts :: more)
    _ = joinPath [joinPath [joinPath parts], joinPath more] := joinPath_append [_] more
    _ = joinPath [joinPath parts, joinPath more] := by rw [joinPath_joinPath]
    _ = joinPath (parts ++ more) := (joinPath_append parts more).symm

theorem segments_joinPath (parts : List String) :
    Text.segments (joinPath parts) = parts.flatMap Text.segments := by
  rw [joinPath_eq_intercalate, Text.segments_intercalate_eq_flatMap, flatMap_segments_bareParts]

/-- Joining two lists of parts at once or one after the other leads to the same path. No slash is at
either end of a path, nothing is left exactly of slashes, and the segments of a path are those of
its parts in order. -/
theorem joined_paths_compose_and_keep_segments (parts more : List String) :
    joinPath (parts ++ more) = joinPath [joinPath parts, joinPath more] ∧
      (joinPath parts).toList.head? ≠ some '/' ∧ (joinPath parts).toList.getLast? ≠ some '/' ∧
      (joinPath parts = "" ↔ ∀ part ∈ parts, ∀ c ∈ part.toList, c = '/') ∧
      Text.segments (joinPath parts) = parts.flatMap Text.segments := by
  obtain ⟨hhead, hlast⟩ := ends_joinPath parts
  exact ⟨joinPath_append parts more, hhead, hlast,
    joinPath_eq_empty_iff.trans bareParts_eq_nil_iff, segments_joinPath parts⟩

/-- Slashes inside of a part stay as they are. -/
example : joinPath ["", "/a//b/", "//", "c.js"] = "a//b/c.js" := by decide

end SchemaForge.Layout
