import SchemaForge.Text.Case
import SchemaForge.Text.Cluster

/-!
# Words of a name

A name such as `listHTTPUsers 2` is read as words: separators end a word, and so do the places where
small letters meet capitals, letters meet digits, or an acronym meets the word after it. `kebab`
writes the words in lower case with hyphens between them.
-/

namespace SchemaForge.Text

/-- Does case matter to the cluster, and is it in upper case? -/
def isUpperCluster (g : List Char) : Bool := uppered g != lowered g && g == uppered g

/-- Does case matter to the cluster, and is it in lower case? -/
def isLowerCluster (g : List Char) : Bool := uppered g != lowered g && g == lowered g

/-- Is the cluster made of ASCII digits? -/
def isDigitCluster (g : List Char) : Bool := g.all Char.isDigit

/-- Is the cluster an underscore, a hyphen or a space? -/
def isSeparator (g : List Char) : Bool := g == ['_'] || g == ['-'] || g == [' ']

/-- Does a word end after the cluster `g`, before the clusters `rest`? -/
def endsWord (g : List Char) (rest : List (List Char)) : Bool :=
  match rest with
  | [] => false
  | next :: later =>
    (isLowerCluster g && isUpperCluster next)
      || ((isLowerCluster g || isUpperCluster g) && isDigitCluster next)
      || (isDigitCluster g && (isLowerCluster next || isUpperCluster next))
      || (isUpperCluster g && isUpperCluster next
        && match later with
          | [] => false
          | third :: _ => isLowerCluster third)

/-- The words of the clusters to come, after the part `current` of a word. -/
def wordsFrom (current : List Char) : List (List Char) → List (List Char)
  | [] => [current]
  | g :: rest =>
    if isSeparator g then current :: wordsFrom [] rest
    else if endsWord g rest then (current ++ g) :: wordsFrom [] rest
    else wordsFrom (current ++ g) rest

/-- The words of a name, in order; two separators in a row leave an empty word between them. -/
def words (s : String) : List String := (wordsFrom [] (clusters s.toList)).map String.ofList

/-- The words of a name in lower case, joined by hyphens. -/
def kebab (s : String) : String := "-".intercalate ((words s).map lower)

end SchemaForge.Text
