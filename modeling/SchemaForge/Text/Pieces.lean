/-!
# Pieces of a text

A separator cuts a text into pieces; two separators in a row have an empty piece between them.
`segments` are the pieces between slashes that are not empty.
-/

namespace SchemaForge.Text

/-- The pieces of the characters between separators. -/
def pieces (separator : Char) : List Char → List (List Char)
  | [] => [[]]
  | c :: rest =>
    if c = separator then [] :: pieces separator rest
    else (pieces separator rest).modifyHead (c :: ·)

theorem pieces_ne_nil (separator : Char) (cs : List Char) : pieces separator cs ≠ [] := by
  induction cs with
  | nil => simp [pieces]
  | cons c rest ih =>
    simp only [pieces]
    split
    · simp
    · simpa using ih

theorem pieces_append (separator : Char) (cs ds : List Char) :
    pieces separator (cs ++ separator :: ds) = pieces separator cs ++ pieces separator ds := by
  induction cs with
  | nil => simp [pieces]
  | cons c rest ih =>
    simp only [List.cons_append, pieces]
    split
    · simp [ih]
    · rw [ih]
      obtain ⟨p, ps, h⟩ := List.exists_cons_of_ne_nil (pieces_ne_nil separator rest)
      simp [h]

/-- The parts of a path between slashes, without the empty ones. -/
def segments (s : String) : List String :=
  ((pieces '/' s.toList).filter fun p => !p.isEmpty).map String.ofList

/-- The characters without those at either end of which `drop` says so. -/
def stripped (drop : Char → Bool) (cs : List Char) : List Char :=
  ((cs.dropWhile drop).reverse.dropWhile drop).reverse

end SchemaForge.Text
