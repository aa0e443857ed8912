import SchemaForge.Text.ClusterTable

/-!
# Clusters

What a reader takes for one character can be several code points: a letter with the marks on it, a
flag, a family of pictographs. `clusters` splits a text into extended grapheme clusters. The state
carried from one character to the next is the class of the last one, whether it ends a pictograph
with its marks, and whether it is the first half of a flag.
-/

namespace SchemaForge.Text

/-- The class of a character; precomposed Hangul syllables come in groups of 28, the first of which
has no final consonant. -/
def clusterClass (c : Char) : ClusterClass :=
  let n := c.toNat
  if 0x20 ≤ n && n < 0x7F then .other
  else if 0xAC00 ≤ n && n ≤ 0xD7A3 then
    if (n - 0xAC00) % 28 == 0 then .leadingVowel else .syllable
  else
    match clusterRanges.find? fun range => range.1 ≤ n && n ≤ range.2.1 with
    | some range => range.2.2
    | none => .other

/-- What of the text so far bears on whether the next character stays in its cluster. -/
structure ClusterState where
  last : ClusterClass
  /-- The cluster so far is a pictograph and marks that extend it. -/
  pictograph : Bool
  /-- The last character is the first of a pair of regional indicators. -/
  halfFlag : Bool

/-- The state after a first character of this class. -/
def ClusterState.start (k : ClusterClass) : ClusterState :=
  { last := k, pictograph := k == .pictograph, halfFlag := k == .regional }

/-- Does a character of class `k` stay in the cluster of the one before it? -/
def ClusterState.joins (st : ClusterState) (k : ClusterClass) : Bool :=
  match st.last, k with
  | .cr, .lf => true
  | .cr, _ | .lf, _ | .control, _ => false
  | _, .cr | _, .lf | _, .control => false
  | .leading, .leading | .leading, .vowel | .leading, .leadingVowel | .leading, .syllable => true
  | .leadingVowel, .vowel | .leadingVowel, .trailing | .vowel, .vowel | .vowel, .trailing => true
  | .syllable, .trailing | .trailing, .trailing => true
  | _, .extend | _, .joiner | _, .spacing => true
  | .prepended, _ => true
  | .joiner, .pictograph => st.pictograph
  | .regional, .regional => st.halfFlag
  | _, _ => false

/-- The state after a further character of class `k`. -/
def ClusterState.next (st : ClusterState) (k : ClusterClass) : ClusterState :=
  { last := k
    pictograph := k == .pictograph || (st.pictograph && (k == .extend || k == .joiner)
      && st.last != .joiner)
    halfFlag := k == .regional && !(st.last == .regional && st.halfFlag) }

/-- The clusters of a text whose current cluster so far is `current`, given from its end. -/
def clustersFrom (st : ClusterState) (current : List Char) : List Char → List (List Char)
  | [] => [current.reverse]
  | c :: rest =>
    let k := clusterClass c
    if st.joins k then clustersFrom (st.next k) (c :: current) rest
    else current.reverse :: clustersFrom (.start k) [c] rest

/-- The extended grapheme clusters of a text, in order. -/
def clusters : List Char → List (List Char)
  | [] => []
  | c :: rest => clustersFrom (.start (clusterClass c)) [c] rest

theorem flatten_clustersFrom (st : ClusterState) (current cs : List Char) :
    (clustersFrom st current cs).flatten = current.reverse ++ cs := by
  induction cs generalizing st current with
  | nil => simp [clustersFrom]
  | cons c rest ih =>
    simp only [clustersFrom]
    split
    · simp [ih]
    · simp [ih]

/-- Splitting loses nothing. -/
theorem flatten_clusters (cs : List Char) : (clusters cs).flatten = cs := by
  cases cs with
  | nil => rfl
  | cons c rest => simp [clusters, flatten_clustersFrom]

end SchemaForge.Text
