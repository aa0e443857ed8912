import SchemaForge.Proofs.Except
import SchemaForge.Proofs.Text.Characters
import SchemaForge.Schema.Naming

/-!
# What the rules for names say

A rule is a chain of refusals, and a value passes it exactly if none of them applies. Routes and
descriptions are taken apart completely; of the names that end up in files it is said how long they
are and which characters they have.
-/

namespace SchemaForge.Naming

/-! ### Parts of rules -/

theorem refuse_ne_ok {field : NamedField} {fault : NamingFault} : refuse field fault ≠ .ok () := nofun

/-- A value is refused under a condition, or what comes after it decides. -/
theorem refuse_or_eq_ok_iff {bad : Prop} [Decidable bad] {field : NamedField} {fault : NamingFault}
    {rest : Unit → Checked} :
    (if bad then refuse field fault >>= rest else rest ()) = .ok () ↔ ¬bad ∧ rest () = .ok () := by
  by_cases h : bad
  · rw [if_pos h]
    exact iff_of_false nofun fun hok => hok.1 h
  · rw [if_neg h]
    exact (and_iff_right h).symm

theorem refuse_or_pure_eq_ok_iff {bad : Prop} [Decidable bad] {field : NamedField}
    {fault : NamingFault} : (if bad then refuse field fault else pure ()) = .ok () ↔ ¬bad := by
  by_cases h : bad
  · rw [if_pos h]
    exact iff_of_false refuse_ne_ok (not_not_intro h)
  · rw [if_neg h]
    exact iff_of_true rfl h

theorem checkLength_eq_ok_iff {field : NamedField} {most : Nat} {s : String} :
    checkLength field most s = .ok () ↔ s.length ≤ most := by
  unfold checkLength
  split
  · next h => exact iff_of_false refuse_ne_ok (Nat.not_le.mpr h)
  · next h => exact iff_of_true rfl (Nat.not_lt.mp h)

theorem checkCharacters_eq_ok_iff {field : NamedField} {allowed : Char → Bool} {s : String} :
    checkCharacters field allowed s = .ok () ↔ ∀ c ∈ s.toList, allowed c = true := by
  unfold checkCharacters
  split
  · next c h =>
    refine iff_of_false refuse_ne_ok fun hall => ?_
    have hc := List.find?_some h
    rw [hall c (List.mem_of_find?_eq_some h)] at hc
    cases hc
  · next h =>
    refine iff_of_true rfl fun c hc => ?_
    simpa using List.find?_eq_none.mp h c hc

/-! ### Names in files -/

/-- An identifier starts with a letter, an underscore or a dollar sign, and goes on with such
characters and digits, of which there are at most thirty together. -/
theorem checkIdentifier_eq_ok_iff {field : NamedField} {name : String} :
    checkIdentifier field name = .ok () ↔
      (∃ first, name.toList.head? = some first ∧ startsIdentifier first) ∧
        name.length ≤ identifierLimit ∧ ∀ c ∈ name.toList, inIdentifier c := by
  unfold checkIdentifier
  split
  · next hnil =>
    rw [hnil]
    exact iff_of_false refuse_ne_ok fun h => by simp at h
  · next first rest hname =>
    rw [check_bind_eq_ok_iff, checkLength_eq_ok_iff]
    dsimp only
    rw [refuse_or_eq_ok_iff, checkCharacters_eq_ok_iff, hname, List.head?_cons, Bool.not_eq_true',
      Bool.not_eq_false]
    simp only [Option.some.injEq, exists_eq_left']
    exact and_left_comm

/-- Identifiers have no other characters than they may have. -/
theorem inIdentifier_of_checkIdentifier {field : NamedField} {name : String} {c : Char}
    (h : checkIdentifier field name = .ok ()) (hc : c ∈ name.toList) : inIdentifier c :=
  (checkIdentifier_eq_ok_iff.mp h).2.2 c hc

/-- Characters that may not stand in an identifier do not. -/
theorem not_mem_of_checkIdentifier {field : NamedField} {name : String} {c : Char}
    (h : checkIdentifier field name = .ok ()) (hc : inIdentifier c = false) : c ∉ name.toList := by
  intro hmem
  rw [inIdentifier_of_checkIdentifier h hmem] at hc
  cases hc

theorem length_le_of_checkIdentifier {field : NamedField} {name : String}
    (h : checkIdentifier field name = .ok ()) : name.length ≤ identifierLimit :=
  (checkIdentifier_eq_ok_iff.mp h).2.1

theorem isControl_of_inIdentifier {c : Char} (h : inIdentifier c = true) :
    Text.isControl c = false := by
  simp only [inIdentifier, Bool.or_eq_true, beq_iff_eq] at h
  rcases h with (hletter | rfl) | rfl
  · have hprintable := Text.printable_of_isAlphanum hletter
    simp only [Text.isControl, Bool.or_eq_false_iff, Bool.and_eq_false_iff, decide_eq_false_iff_not]
    omega
  · decide
  · decide

/-- A project name is not blank and at most thirty characters long, it does not start with a period,
and it has neither slashes nor control characters. -/
theorem checkProjectName_eq_ok_iff {name : String} :
    checkProjectName name = .ok () ↔
      Text.trimmed name.toList ≠ [] ∧ name.length ≤ projectNameLimit ∧
        name.toList.head? ≠ some '.' ∧
        ∀ c ∈ name.toList, c ≠ '/' ∧ c ≠ '\\' ∧ Text.isControl c = false := by
  unfold checkProjectName
  dsimp only
  rw [refuse_or_eq_ok_iff, check_bind_eq_ok_iff, refuse_or_eq_ok_iff, checkLength_eq_ok_iff,
    checkCharacters_eq_ok_iff, List.isEmpty_iff]
  simp only [Bool.not_eq_true', Bool.or_eq_false_iff, beq_eq_false_iff_ne, and_assoc, ne_eq]

theorem length_le_of_checkProjectName {name : String}
    (h : checkProjectName name = .ok ()) : name.length ≤ projectNameLimit :=
  (checkProjectName_eq_ok_iff.mp h).2.1

/-! ### Routes and descriptions -/

/-- Routes are paths from the root, of at most 255 characters, none of them blank. -/
theorem checkRoute_eq_ok_iff {s : String} :
    checkRoute s = .ok () ↔
      s.toList.head? = some '/' ∧ s.length ≤ routeLimit ∧
        ∀ c ∈ s.toList, Text.isBlank c = false ∧ Text.isControl c = false := by
  have hnonempty : s.toList.head? = some '/' → ¬s.isEmpty = true := by
    rintro hhead hempty
    rw [String.isEmpty_iff.mp hempty] at hhead
    cases hhead
  unfold checkRoute
  dsimp only
  rw [refuse_or_eq_ok_iff, check_bind_eq_ok_iff, refuse_or_eq_ok_iff, checkLength_eq_ok_iff,
    checkCharacters_eq_ok_iff, ne_eq, not_not]
  simp only [Bool.not_eq_true', Bool.or_eq_false_iff]
  constructor
  · rintro ⟨-, hlength, hhead, hchars⟩
    exact ⟨hhead, hlength, hchars⟩
  · rintro ⟨hhead, hlength, hchars⟩
    exact ⟨hnonempty hhead, hlength, hhead, hchars⟩

theorem checkDescription?_eq_ok_iff {s? : Option String} :
    checkDescription? s? = .ok () ↔ ∀ s, s? = some s → s.length ≤ descriptionLimit := by
  cases s? with
  | none => exact iff_of_true rfl nofun
  | some s =>
    simp only [checkDescription?, checkDescription, checkLength_eq_ok_iff, Option.some.injEq,
      forall_eq']

end SchemaForge.Naming
