import SchemaForge.Proofs.Text.Segments

/-!
# Lines

Line breaks cut a text into lines, and a text is its lines with line breaks between them.
-/

namespace SchemaForge.Text

/-- The lines of a text; behind the last line break there is one more, which may be empty. -/
def lines (s : String) : List String := (pieces '\n' s.toList).map String.ofList

theorem lines_of_not_mem {s : String} (h : '\n' ∉ s.toList) : lines s = [s] := by
  rw [lines, pieces_of_not_mem h, List.map_singleton, String.ofList_toList]

theorem lines_append_break (a b : String) : lines (a ++ "\n" ++ b) = lines a ++ lines b := by
  have h : (a ++ "\n" ++ b).toList = a.toList ++ '\n' :: b.toList := by simp
  rw [lines, h, pieces_append, List.map_append]
  rfl

/-- A text is its lines with line breaks between them. -/
theorem intercalate_lines (s : String) : "\n".intercalate (lines s) = s := by
  obtain ⟨first, rest, hpieces⟩ := List.exists_cons_of_ne_nil (pieces_ne_nil '\n' s.toList)
  have hbreak : "\n".toList = ['\n'] := rfl
  rw [← String.toList_inj, lines, hpieces, toList_intercalate hbreak, ← eq_append_flatMap hpieces]

/-- Texts that follow each other on lines of their own. -/
theorem lines_intercalate {texts : List String} (h : texts ≠ []) :
    lines ("\n".intercalate texts) = texts.flatMap lines := by
  induction texts with
  | nil => exact absurd rfl h
  | cons a texts ih =>
    cases texts with
    | nil => rw [String.intercalate_singleton, List.flatMap_singleton]
    | cons b texts =>
      rw [String.intercalate_cons_cons, lines_append_break, ih (List.cons_ne_nil _ _)]
      exact List.flatMap_cons.symm

end SchemaForge.Text
