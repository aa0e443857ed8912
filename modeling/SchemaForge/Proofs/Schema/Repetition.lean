import SchemaForge.Schema.Payload

/-!
# Repeated names

A list of names is passed once, with the names that have been seen and those that have been reported.
What is in the two is a matter of how often a name occurs in the part that has been passed: `Tracks`
says so, and each name that comes next keeps it. So a name is reported at its second occurrence and
nowhere else.
-/

namespace SchemaForge

/-- The second occurrence of a name in a list is at this place. -/
structure SecondAt (names : List String) (name : String) (i : Nat) : Prop where
  here : names[i]? = some name
  once : (names.take i).count name = 1

/-- The second occurrence of a name comes before that of another one. -/
def RepeatedBefore (names : List String) (name name' : String) : Prop :=
  ∃ i j, SecondAt names name i ∧ SecondAt names name' j ∧ i < j

/-! ### Second occurrences -/

section

variable {names front rest : List String} {name name' : String} {i j : Nat}

/-- Behind its second occurrence a name has occurred twice. -/
theorem SecondAt.count_take_eq (h : SecondAt names name i) :
    (names.take (i + 1)).count name = 2 := by
  rw [List.take_add_one, h.here, List.count_append, h.once]
  simp

theorem SecondAt.not_lt (h : SecondAt names name i) (h' : SecondAt names name j) : ¬i < j := by
  intro hij
  have hle : (names.take (i + 1)).count name ≤ (names.take j).count name :=
    (List.take_sublist_take_left hij).count_le name
  rw [h.count_take_eq, h'.once] at hle
  exact absurd hle (by decide)

theorem SecondAt.unique (h : SecondAt names name i) (h' : SecondAt names name j) : i = j :=
  Nat.le_antisymm (Nat.not_lt.mp (h'.not_lt h)) (Nat.not_lt.mp (h.not_lt h'))

theorem not_repeatedBefore_self : ¬RepeatedBefore names name name := by
  rintro ⟨i, j, hi, hj, hij⟩
  exact hi.not_lt hj hij

theorem secondAt_length_iff :
    SecondAt (front ++ name' :: rest) name front.length ↔ name' = name ∧ front.count name = 1 := by
  have hhere : (front ++ name' :: rest)[front.length]? = some name' := by simp
  constructor
  · rintro ⟨h, honce⟩
    rw [List.take_left] at honce
    exact ⟨Option.some.inj (hhere.symm.trans h), honce⟩
  · rintro ⟨rfl, honce⟩
    exact ⟨hhere, by rwa [List.take_left]⟩

theorem exists_secondAt_iff : (∃ i, SecondAt names name i) ↔ 2 ≤ names.count name := by
  constructor
  · rintro ⟨i, h⟩
    rw [← h.count_take_eq]
    exact (List.take_sublist (i + 1) names).count_le name
  · intro h
    obtain ⟨front, back, rfl, hfront⟩ :=
      List.eq_append_cons_of_mem (List.count_pos_iff.mp (Nat.lt_of_lt_of_le Nat.zero_lt_two h))
    have hback : 0 < back.count name := by
      rw [List.count_append, List.count_eq_zero.mpr hfront, List.count_cons_self] at h
      omega
    obtain ⟨between, rest, rfl, hbetween⟩ := List.eq_append_cons_of_mem (List.count_pos_iff.mp hback)
    refine ⟨(front ++ name :: between).length, ?_⟩
    rw [← List.cons_append, ← List.append_assoc, secondAt_length_iff]
    refine ⟨rfl, ?_⟩
    rw [List.count_append, List.count_cons_self, List.count_eq_zero.mpr hfront,
      List.count_eq_zero.mpr hbetween]

end

/-! ### One pass -/

section

variable {front : List String} {name other : String}

theorem one_le_count_concat_iff :
    1 ≤ (front ++ [name]).count other ↔ other = name ∨ 1 ≤ front.count other := by
  rw [List.one_le_count_iff, List.one_le_count_iff, List.mem_append, List.mem_singleton, or_comm]

theorem two_le_count_concat_iff :
    2 ≤ (front ++ [name]).count other ↔
      (other = name ∧ 1 ≤ front.count name) ∨ 2 ≤ front.count other := by
  rw [List.count_append]
  by_cases h : other = name
  · subst h
    rw [List.count_cons_self, List.count_nil, and_iff_right rfl]
    omega
  · rw [List.count_cons_of_ne (Ne.symm h), List.count_nil]
    simp [h]

end

/-- What has been seen and what has been reported in the part of a list that has been passed. -/
structure Tracks (front seen reported : List String) : Prop where
  seen : ∀ name, name ∈ seen ↔ 1 ≤ front.count name
  reported : ∀ name, name ∈ reported ↔ 2 ≤ front.count name

theorem tracks_nil : Tracks [] [] [] where
  seen name := by simp
  reported name := by simp

namespace Tracks

variable {front seen reported : List String}

/-- A name that comes is reported if it has come once. -/
theorem pass (h : Tracks front seen reported) (name : String) (rest : List String) :
    ∃ seen' reported', Tracks (front ++ [name]) seen' reported' ∧
      repeatedFrom seen reported (name :: rest) =
        (if front.count name = 1 then [name] else []) ++ repeatedFrom seen' reported' rest := by
  rw [repeatedFrom]
  -- the name has come at least twice, or once, or never
  by_cases hseen : name ∈ seen
  · have honce := (h.seen name).mp hseen
    have hkept : ∀ other, other ∈ seen ↔ 1 ≤ (front ++ [name]).count other := by
      intro other
      rw [one_le_count_concat_iff, h.seen, or_iff_right_of_imp]
      rintro rfl
      exact honce
    rw [if_pos hseen]
    by_cases htold : name ∈ reported
    · have htwice := (h.reported name).mp htold
      refine ⟨seen, reported, ⟨hkept, fun other => ?_⟩, ?_⟩
      · rw [two_le_count_concat_iff, h.reported, or_iff_right_of_imp]
        rintro ⟨rfl, -⟩
        exact htwice
      · rw [if_pos htold, if_neg (by omega), List.nil_append]
    · have hnot := mt (h.reported name).mpr htold
      refine ⟨seen, name :: reported, ⟨hkept, fun other => ?_⟩, ?_⟩
      · rw [two_le_count_concat_iff, List.mem_cons, h.reported, and_iff_left honce]
      · rw [if_neg htold, if_pos (by omega), List.singleton_append]
  · have hnone := mt (h.seen name).mpr hseen
    refine ⟨name :: seen, reported, ⟨fun other => ?_, fun other => ?_⟩, ?_⟩
    · rw [one_le_count_concat_iff, List.mem_cons, h.seen]
    · rw [two_le_count_concat_iff, h.reported, or_iff_right fun hother => hnone hother.2]
    · rw [if_neg hseen, if_neg (by omega), List.nil_append]

/-- From here on the names are reported whose second occurrence is still to come. -/
theorem mem_repeatedFrom_iff (h : Tracks front seen reported) {rest : List String} {name : String} :
    name ∈ repeatedFrom seen reported rest ↔
      ∃ i, front.length ≤ i ∧ SecondAt (front ++ rest) name i := by
  induction rest generalizing front seen reported with
  | nil =>
    refine iff_of_false List.not_mem_nil ?_
    rintro ⟨i, hi, ⟨hhere, -⟩⟩
    rw [List.append_nil] at hhere
    exact absurd (List.getElem?_eq_some_iff.mp hhere).1 (Nat.not_lt.mpr hi)
  | cons next rest ih =>
    obtain ⟨seen', reported', h', heq⟩ := h.pass next rest
    have hlater := ih h'
    rw [List.append_assoc, List.singleton_append, List.length_append, List.length_singleton]
      at hlater
    -- the second occurrence is the next name itself, or comes later
    rw [heq, List.mem_append, hlater]
    constructor
    · rintro (hnow | ⟨i, hi, hsecond⟩)
      · split at hnow
        · next honce =>
          obtain rfl := List.mem_singleton.mp hnow
          exact ⟨front.length, Nat.le_refl _, secondAt_length_iff.mpr ⟨rfl, honce⟩⟩
        · cases hnow
      · exact ⟨i, Nat.le_of_succ_le hi, hsecond⟩
    · rintro ⟨i, hi, hsecond⟩
      rcases Nat.eq_or_lt_of_le hi with rfl | hi
      · obtain ⟨rfl, honce⟩ := secondAt_length_iff.mp hsecond
        rw [if_pos honce]
        exact .inl (List.mem_singleton_self _)
      · exact .inr ⟨i, hi, hsecond⟩

theorem pairwise_repeatedFrom (h : Tracks front seen reported) (rest : List String) :
    (repeatedFrom seen reported rest).Pairwise (RepeatedBefore (front ++ rest)) := by
  induction rest generalizing front seen reported with
  | nil => exact .nil
  | cons next rest ih =>
    obtain ⟨seen', reported', h', heq⟩ := h.pass next rest
    have hlater := ih h'
    have hmem : ∀ {name}, name ∈ repeatedFrom seen' reported' rest →
        ∃ i, front.length < i ∧ SecondAt (front ++ next :: rest) name i := by
      intro name hname
      obtain ⟨i, hi, hsecond⟩ := h'.mem_repeatedFrom_iff.mp hname
      rw [List.length_append, List.length_singleton] at hi
      rw [List.append_assoc, List.singleton_append] at hsecond
      exact ⟨i, hi, hsecond⟩
    rw [List.append_assoc, List.singleton_append] at hlater
    rw [heq]
    split
    · next honce =>
      refine List.pairwise_cons.mpr ⟨fun name hname => ?_, hlater⟩
      obtain ⟨i, hi, hsecond⟩ := hmem hname
      exact ⟨front.length, i, secondAt_length_iff.mpr ⟨rfl, honce⟩, hsecond, hi⟩
    · exact hlater

end Tracks

/-! ### Names of new attributes -/

section

variable {attributes : List NewAttribute} {name : String}

theorem mem_repeatedNames_iff :
    name ∈ repeatedNames attributes ↔ 2 ≤ (attributes.map NewAttribute.name).count name := by
  rw [repeatedNames, tracks_nil.mem_repeatedFrom_iff, ← exists_secondAt_iff]
  simp

theorem pairwise_repeatedNames :
    (repeatedNames attributes).Pairwise (RepeatedBefore (attributes.map NewAttribute.name)) :=
  tracks_nil.pairwise_repeatedFrom _

/-- No names are repeated exactly if all are different. -/
theorem repeatedNames_eq_nil_iff :
    repeatedNames attributes = [] ↔ (attributes.map NewAttribute.name).Nodup := by
  rw [List.eq_nil_iff_forall_not_mem, List.nodup_iff_count]
  exact forall_congr' fun name => (not_congr mem_repeatedNames_iff).trans (by omega)

end

/-- The names that attributes repeat are each reported once, in the order of their second
occurrences, and no others are. So nothing is reported exactly if all names are different. -/
theorem repeated_names_are_reported_once_in_order (attributes : List NewAttribute) :
    (repeatedNames attributes).Nodup ∧
      (∀ name, name ∈ repeatedNames attributes ↔
        2 ≤ (attributes.map NewAttribute.name).count name) ∧
      (repeatedNames attributes).Pairwise (RepeatedBefore (attributes.map NewAttribute.name)) ∧
      (repeatedNames attributes = [] ↔ (attributes.map NewAttribute.name).Nodup) := by
  refine ⟨?_, fun name => mem_repeatedNames_iff, pairwise_repeatedNames, repeatedNames_eq_nil_iff⟩
  apply pairwise_repeatedNames.imp
  rintro name name' hbefore rfl
  exact not_repeatedBefore_self hbefore

/-- A name that comes first can be reported last. -/
example : repeatedNames
    (["age", "email", "email", "age", "email"].map fun name => ⟨name, .text, false, none⟩) =
      ["email", "age"] := by
  decide

end SchemaForge
