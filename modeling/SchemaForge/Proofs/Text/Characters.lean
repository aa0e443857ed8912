/-!
# ASCII characters

The classes of ASCII characters as ranges of code points, and ways to look at finitely many
characters one by one.
-/

namespace SchemaForge.Text

variable {c : Char}

/-- The characters of a text that is written out can be looked at one by one. -/
theorem forall_mem_of_all {p : Char → Prop} [DecidablePred p] {cs : List Char}
    (h : cs.all fun c => p c) : ∀ c ∈ cs, p c :=
  fun c hc => of_decide_eq_true (List.all_eq_true.mp h c hc)

/-- What holds of the first 128 characters, one by one. -/
theorem of_ascii {p : Char → Prop} (h : ∀ n < 128, p (Char.ofNat n)) (hc : c.toNat < 128) :
    p c := by
  have hchar := h c.toNat hc
  rwa [Char.ofNat_toNat] at hchar

theorem isUpper_iff : c.isUpper = true ↔ 65 ≤ c.toNat ∧ c.toNat ≤ 90 := by
  show decide (c.val ≥ 65 ∧ c.val ≤ 90) = true ↔ _
  rw [decide_eq_true_iff, ge_iff_le, UInt32.le_iff_toNat_le, UInt32.le_iff_toNat_le]
  rfl

theorem isLower_iff : c.isLower = true ↔ 97 ≤ c.toNat ∧ c.toNat ≤ 122 := by
  show (decide (c.val ≥ 97) && decide (c.val ≤ 122)) = true ↔ _
  rw [Bool.and_eq_true, decide_eq_true_iff, decide_eq_true_iff, ge_iff_le,
    UInt32.le_iff_toNat_le, UInt32.le_iff_toNat_le]
  rfl

theorem isDigit_iff : c.isDigit = true ↔ 48 ≤ c.toNat ∧ c.toNat ≤ 57 :=
  Char.isDigit_iff_toNat

theorem isAlpha_iff : c.isAlpha = true ↔ c.isUpper = true ∨ c.isLower = true := by
  rw [← Bool.or_eq_true]
  rfl

theorem isAlphanum_iff : c.isAlphanum = true ↔ c.isAlpha = true ∨ c.isDigit = true := by
  rw [← Bool.or_eq_true]
  rfl

theorem printable_of_isAlphanum (h : c.isAlphanum = true) : 0x20 ≤ c.toNat ∧ c.toNat < 0x7F := by
  rw [isAlphanum_iff, isAlpha_iff, isUpper_iff, isLower_iff, isDigit_iff] at h
  omega

theorem ascii_of_isAlphanum (h : c.isAlphanum = true) : c.toNat < 128 :=
  Nat.lt_trans (printable_of_isAlphanum h).2 (by decide)

theorem isLower_toLower_of_isAlpha (h : c.isAlpha = true) : c.toLower.isLower = true :=
  of_ascii (p := fun c => c.isAlpha = true → c.toLower.isLower = true) (by decide +kernel)
    (ascii_of_isAlphanum (isAlphanum_iff.mpr (.inl h))) h

theorem isDigit_toLower_of_isDigit (h : c.isDigit = true) : c.toLower.isDigit = true :=
  of_ascii (p := fun c => c.isDigit = true → c.toLower.isDigit = true) (by decide +kernel)
    (ascii_of_isAlphanum (isAlphanum_iff.mpr (.inr h))) h

end SchemaForge.Text
