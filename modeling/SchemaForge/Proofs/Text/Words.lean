import SchemaForge.Proofs.Text.Characters
import SchemaForge.Proofs.Text.Spacing
import SchemaForge.Text.Words

/-!
# Words of ASCII names

In a name of ASCII letters, digits and separators every character is a cluster of its own, and the
words that `kebab` finds have a simple shape: nothing but a misplaced separator makes an empty word,
and a word is made of letters only or of digits only. The latter is why nothing splits a word again
once it is in lower case, so `kebab` does not change what it has made.
-/

namespace SchemaForge.Text

/-- Is the character an underscore, a hyphen or a space? -/
def separates (c : Char) : Bool := c == '_' || c == '-' || c == ' '

/-- May the character stand in a name that is made of words? -/
def inWords (c : Char) : Bool := c.isAlphanum || separates c

/-! ### Characters of names -/

section Ascii

variable {c : Char} {cs : List Char}

theorem printable_of_inWords (h : inWords c = true) : 0x20 ≤ c.toNat ∧ c.toNat < 0x7F := by
  simp only [inWords, separates, Bool.or_eq_true, beq_iff_eq] at h
  rcases h with h | (rfl | rfl) | rfl
  · exact printable_of_isAlphanum h
  · decide
  · decide
  · decide

theorem ascii_of_inWords (h : inWords c = true) : c.toNat < 128 :=
  Nat.lt_trans (printable_of_inWords h).2 (by decide)

theorem isAlphanum_of_inWords (h : inWords c = true) (hc : separates c = false) :
    c.isAlphanum = true := by
  rwa [inWords, hc, Bool.or_false] at h

theorem not_separates_of_isAlphanum (h : c.isAlphanum = true) : separates c = false := by
  rw [← Bool.not_eq_true]
  intro hsep
  simp only [separates, Bool.or_eq_true, beq_iff_eq] at hsep
  rcases hsep with (rfl | rfl) | rfl <;> exact absurd h (by decide)

/-- Lower case, where no capital sigma has to be looked at. -/
theorem lowered_of_ascii (h : ∀ c ∈ cs, c.toNat < 128) : lowered cs = cs.map Char.toLower := by
  suffices hafter : ∀ before, lowerAfter before cs = cs.map Char.toLower from hafter []
  induction cs with
  | nil => exact fun _ => rfl
  | cons c rest ih =>
    obtain ⟨hc, hrest⟩ := List.forall_mem_cons.mp h
    have hsigma : c ≠ 'Σ' := by
      rintro rfl
      exact absurd hc (by decide)
    intro before
    rw [lowerAfter, if_neg hsigma, lowerChar, if_pos hc, ih hrest]
    rfl

/-! ### Clusters -/

theorem clusterClass_of_printable (h : 0x20 ≤ c.toNat ∧ c.toNat < 0x7F) :
    clusterClass c = .other := by
  rw [clusterClass]
  exact if_pos (by simpa using h)

/-- Printable ASCII characters are clusters of their own. -/
theorem clusters_of_printable (h : ∀ c ∈ cs, 0x20 ≤ c.toNat ∧ c.toNat < 0x7F) :
    clusters cs = cs.map fun c => [c] := by
  have hfrom (c : Char) (rest : List Char)
      (hrest : ∀ c ∈ rest, 0x20 ≤ c.toNat ∧ c.toNat < 0x7F) :
      clustersFrom (.start .other) [c] rest = (c :: rest).map fun c => [c] := by
    induction rest generalizing c with
    | nil => rfl
    | cons d rest ih =>
      obtain ⟨hd, hrest⟩ := List.forall_mem_cons.mp hrest
      have hjoins : (ClusterState.start .other).joins .other = false := rfl
      rw [clustersFrom, clusterClass_of_printable hd, hjoins, ih d hrest]
      rfl
  cases cs with
  | nil => rfl
  | cons c rest =>
    obtain ⟨hc, hrest⟩ := List.forall_mem_cons.mp h
    rw [clusters, clusterClass_of_printable hc, hfrom c rest hrest]

theorem isSeparator_singleton : isSeparator [c] = separates c := by
  simp [isSeparator, separates]

theorem isUpperCluster_singleton (hc : c.toNat < 128) : isUpperCluster [c] = c.isUpper :=
  of_ascii (p := fun c => isUpperCluster [c] = c.isUpper) (by decide +kernel) hc

theorem isLowerCluster_singleton (hc : c.toNat < 128) : isLowerCluster [c] = c.isLower :=
  of_ascii (p := fun c => isLowerCluster [c] = c.isLower) (by decide +kernel) hc

theorem isDigitCluster_singleton : isDigitCluster [c] = c.isDigit := by
  simp [isDigitCluster]

end Ascii

/-! ### Ends of words -/

section Ends

variable {c d : Char} {cs : List Char}

/-- A word ends where the kind of character changes, and before the last capital of an acronym. -/
theorem endsWord_singleton_iff (hc : c.toNat < 128) (hd : d.toNat < 128)
    {later : List (List Char)} :
    endsWord [c] ([d] :: later) = true ↔ c.isLower = true ∧ d.isUpper = true ∨
      c.isAlpha = true ∧ d.isDigit = true ∨ c.isDigit = true ∧ d.isAlpha = true ∨
      c.isUpper = true ∧ d.isUpper = true ∧ ∃ g gs, later = g :: gs ∧ isLowerCluster g = true := by
  simp only [endsWord, isUpperCluster_singleton hc, isLowerCluster_singleton hc,
    isUpperCluster_singleton hd, isLowerCluster_singleton hd, isDigitCluster_singleton,
    Bool.or_eq_true, Bool.and_eq_true, isAlpha_iff]
  grind

/-- Only another word character can end a word. -/
theorem isAlphanum_of_endsWord {rest : List Char} (hc : c.toNat < 128)
    (hrest : ∀ d ∈ rest, d.toNat < 128) (h : endsWord [c] (rest.map fun c => [c]) = true) :
    ∃ d ds, rest = d :: ds ∧ d.isAlphanum = true := by
  cases rest with
  | nil => cases h
  | cons d ds =>
    refine ⟨d, ds, rfl, ?_⟩
    have hd := hrest d List.mem_cons_self
    rw [List.map_cons, endsWord_singleton_iff hc hd] at h
    rw [isAlphanum_iff, isAlpha_iff]
    rw [isAlpha_iff (c := d)] at h
    tauto

/-- Letters are followed by letters, and digits by digits, unless a word ends. -/
theorem same_kind_of_not_endsWord (hc : c.toNat < 128) (hd : d.isAlphanum = true)
    {later : List (List Char)} (h : endsWord [c] ([d] :: later) = false) :
    (c.isAlpha = true → d.isAlpha = true) ∧ (c.isDigit = true → d.isDigit = true) := by
  have hascii : d.toNat < 128 := ascii_of_inWords (by rw [inWords, hd, Bool.true_or])
  have hends : ¬endsWord [c] ([d] :: later) = true := by
    rw [h]
    exact Bool.false_ne_true
  rw [endsWord_singleton_iff hc hascii] at hends
  rw [isAlphanum_iff] at hd
  tauto

/-- Only small letters and digits, and not both. -/
def Small (w : List Char) : Prop :=
  (∀ c ∈ w, c.isLower = true) ∨ (∀ c ∈ w, c.isDigit = true)

/-- Only letters or only digits. -/
def Uniform (w : List Char) : Prop :=
  (∀ c ∈ w, c.isAlpha = true) ∨ (∀ c ∈ w, c.isDigit = true)

theorem uniform_nil : Uniform [] := .inl (by simp)

theorem uniform_singleton (h : c.isAlphanum = true) : Uniform [c] :=
  (isAlphanum_iff.mp h).imp (fun hc => by simpa using hc) fun hc => by simpa using hc

theorem Uniform.append_singleton {w : List Char} (hw : Uniform w) (hne : w ≠ [])
    (h : ∀ c, w.getLast? = some c →
      (c.isAlpha = true → d.isAlpha = true) ∧ (c.isDigit = true → d.isDigit = true)) :
    Uniform (w ++ [d]) := by
  obtain ⟨hletter, hdigit⟩ := h _ (List.getLast?_eq_some_getLast hne)
  have hlast := List.getLast_mem hne
  refine hw.imp (fun hw => ?_) fun hw => ?_
  · exact List.forall_mem_append.mpr ⟨hw, List.forall_mem_singleton.mpr (hletter (hw _ hlast))⟩
  · exact List.forall_mem_append.mpr ⟨hw, List.forall_mem_singleton.mpr (hdigit (hw _ hlast))⟩

end Ends

/-! ### The words of a name -/

/-- Nothing but separators gets lost. -/
theorem mem_wordsFrom_iff {c : Char} {current : List Char} {gs : List (List Char)} :
    (∃ w ∈ wordsFrom current gs, c ∈ w) ↔
      c ∈ current ∨ ∃ g ∈ gs, isSeparator g = false ∧ c ∈ g := by
  induction gs generalizing current with
  | nil => simp [wordsFrom]
  | cons g rest ih =>
    rw [wordsFrom]
    split
    · next hg => simp [ih, hg]
    · next hg =>
      split
      · simp [ih, hg, or_assoc]
      · simp [ih, hg, or_assoc]

/-- What is in a word comes from a cluster that does not separate words. -/
theorem mem_of_mem_wordsFrom {c : Char} {w : List Char} {gs : List (List Char)}
    (hw : w ∈ wordsFrom [] gs) (hc : c ∈ w) : ∃ g ∈ gs, isSeparator g = false ∧ c ∈ g :=
  (mem_wordsFrom_iff.mp ⟨w, hw, hc⟩).resolve_left List.not_mem_nil

section Words

variable {current : List Char} {cs : List Char}

/-- No word is empty exactly if separators stand only between other characters. -/
theorem nil_not_mem_wordsFrom_iff (h : ∀ c ∈ cs, c.toNat < 128) :
    [] ∉ wordsFrom current (cs.map fun c => [c]) ↔
      (current = [] → Spaced separates cs) ∧ Continues separates cs := by
  induction cs generalizing current with
  | nil =>
    rw [List.map_nil, wordsFrom, List.mem_singleton, and_iff_left continues_nil, eq_comm]
    exact (imp_iff_not not_spaced_nil).symm
  | cons c rest ih =>
    obtain ⟨hc, hrest⟩ := List.forall_mem_cons.mp h
    rw [List.map_cons, wordsFrom, isSeparator_singleton]
    split
    · next hsep =>
      have hspaced : ¬Spaced separates (c :: rest) := by
        rw [spaced_cons_iff, hsep]
        exact fun hfalse => Bool.noConfusion hfalse.1
      rw [List.mem_cons, not_or, ih hrest, continues_cons_of_isSep hsep, imp_iff_not hspaced,
        eq_comm]
      exact and_congr_right fun _ => ⟨fun hfirst => hfirst.1 rfl, fun hfirst =>
        ⟨fun _ => hfirst, hfirst.toContinues⟩⟩
    · next hsep =>
      rw [Bool.not_eq_true] at hsep
      -- a word has begun, so only what follows matters
      have hbegun : (current = [] → Spaced separates (c :: rest)) ∧
          Continues separates (c :: rest) ↔ Continues separates rest := by
        rw [spaced_cons_iff, continues_cons_of_not_isSep hsep]
        exact and_iff_right_of_imp fun hcontinues _ => ⟨hsep, hcontinues⟩
      rw [hbegun]
      split
      · next hends =>
        obtain ⟨d, ds, rfl, hd⟩ := isAlphanum_of_endsWord hc hrest hends
        rw [List.mem_cons, not_or, ih hrest, spaced_cons_iff]
        exact ⟨fun hall => hall.2.2, fun hcontinues =>
          ⟨by simp, fun _ => ⟨not_separates_of_isAlphanum hd, hcontinues⟩, hcontinues⟩⟩
      · rw [ih hrest]
        exact and_iff_right_of_imp fun _ hnil =>
          absurd hnil (List.append_ne_nil_of_right_ne_nil _ (List.cons_ne_nil _ _))

/-- A word is made of letters only or of digits only, as long as the part of a word before the name
fits what comes next. -/
theorem uniform_of_mem_wordsFrom (h : ∀ c ∈ cs, inWords c = true) (hcurrent : Uniform current)
    (hnext : ∀ c, cs.head? = some c → separates c = false → Uniform (current ++ [c])) :
    ∀ w ∈ wordsFrom current (cs.map fun c => [c]), Uniform w := by
  induction cs generalizing current with
  | nil =>
    intro w hw
    rwa [List.mem_singleton.mp hw]
  | cons c rest ih =>
    obtain ⟨hc, hrest⟩ := List.forall_mem_cons.mp h
    -- a new word may begin with any letter and with any digit
    have hnew : ∀ w ∈ wordsFrom [] (rest.map fun c => [c]), Uniform w := by
      refine ih hrest uniform_nil fun d hd hsep => uniform_singleton ?_
      exact isAlphanum_of_inWords (hrest d (List.mem_of_head? hd)) hsep
    rw [List.map_cons, wordsFrom, isSeparator_singleton]
    split
    · exact List.forall_mem_cons.mpr ⟨hcurrent, hnew⟩
    · next hsep =>
      rw [Bool.not_eq_true] at hsep
      have hlonger := hnext c rfl hsep
      split
      · exact List.forall_mem_cons.mpr ⟨hlonger, hnew⟩
      · next hends =>
        rw [Bool.not_eq_true] at hends
        refine ih hrest hlonger fun d hd hsep => ?_
        obtain ⟨ds, rfl⟩ := List.head?_eq_some_iff.mp hd
        have halnum := isAlphanum_of_inWords (hrest d List.mem_cons_self) hsep
        refine hlonger.append_singleton (by simp) fun e he => ?_
        obtain rfl : c = e := by simpa using he
        exact same_kind_of_not_endsWord (ascii_of_inWords hc) halnum hends

/-- Nothing ends within a small word. -/
theorem Small.not_endsWord {c : Char} {w rest : List Char} (h : Small (c :: w))
    (hrest : ∀ d, rest.head? = some d → d = '-') :
    endsWord [c] ((w ++ rest).map fun c => [c]) = false := by
  rcases hbehind : w ++ rest with _ | ⟨d, ds⟩
  · rfl
  have hkind : c.isLower = true ∧ (d.isLower = true ∨ d.toNat = 45) ∨
      c.isDigit = true ∧ (d.isDigit = true ∨ d.toNat = 45) := by
    have hd : d ∈ w ∨ d.toNat = 45 := by
      cases w with
      | nil =>
        rw [hrest d (List.head?_eq_some_iff.mpr ⟨ds, hbehind⟩)]
        exact .inr rfl
      | cons e w =>
        obtain ⟨rfl, -⟩ := List.cons.inj hbehind
        exact .inl List.mem_cons_self
    refine h.imp (fun h => ?_) fun h => ?_
    · exact ⟨h c List.mem_cons_self, hd.imp_left fun hd => h d (List.mem_cons_of_mem c hd)⟩
    · exact ⟨h c List.mem_cons_self, hd.imp_left fun hd => h d (List.mem_cons_of_mem c hd)⟩
  simp only [isLower_iff, isDigit_iff] at hkind
  rw [← Bool.not_eq_true, List.map_cons, endsWord_singleton_iff (by omega) (by omega)]
  simp only [isAlpha_iff, isUpper_iff, isLower_iff, isDigit_iff]
  rintro (hends | hends | hends | ⟨hc, hd, -⟩) <;> omega

theorem wordsFrom_small {w rest : List Char} (hw : Small w)
    (hrest : ∀ d, rest.head? = some d → d = '-') :
    wordsFrom current ((w ++ rest).map fun c => [c]) =
      wordsFrom (current ++ w) (rest.map fun c => [c]) := by
  induction w generalizing current with
  | nil => rw [List.nil_append, List.append_nil]
  | cons c w ih =>
    have hsep : ¬separates c = true := by
      rw [Bool.not_eq_true]
      apply not_separates_of_isAlphanum
      rw [isAlphanum_iff, isAlpha_iff]
      exact (hw.imp (· c List.mem_cons_self) (· c List.mem_cons_self)).imp_left .inr
    have hshorter : Small w := hw.imp (fun h d hd => h d (List.mem_cons_of_mem c hd))
      fun h d hd => h d (List.mem_cons_of_mem c hd)
    rw [List.cons_append, List.map_cons, wordsFrom, isSeparator_singleton, if_neg hsep,
      if_neg (by rw [hw.not_endsWord hrest]; exact Bool.false_ne_true), ih hshorter,
      List.append_assoc, List.singleton_append]

/-- Small words with hyphens between them are the words that are found. -/
theorem wordsFrom_flatMap {first : List Char} {rest : List (List Char)} (hfirst : Small first)
    (hrest : ∀ w ∈ rest, Small w) :
    wordsFrom [] ((first ++ rest.flatMap ('-' :: ·)).map fun c => [c]) = first :: rest := by
  induction rest generalizing first with
  | nil =>
    rw [List.flatMap_nil, wordsFrom_small hfirst (by simp)]
    rfl
  | cons w rest ih =>
    obtain ⟨hw, hrest⟩ := List.forall_mem_cons.mp hrest
    have hhyphen : isSeparator ['-'] = true := rfl
    rw [List.flatMap_cons, List.cons_append,
      wordsFrom_small hfirst (by simp), List.map_cons, wordsFrom,
      if_pos hhyphen, ih hw hrest, List.nil_append]

/-- No word of a whole name is empty exactly if separators stand only between other characters. -/
theorem nil_not_mem_wordsFrom_nil_iff (h : ∀ c ∈ cs, c.toNat < 128) :
    [] ∉ wordsFrom [] (cs.map fun c => [c]) ↔ Spaced separates cs :=
  (nil_not_mem_wordsFrom_iff h).trans
    ⟨fun hall => hall.1 rfl, fun hspaced => ⟨fun _ => hspaced, hspaced.toContinues⟩⟩

end Words

/-! ### Names in lower case with hyphens -/

theorem wordsFrom_ne_nil (current : List Char) (gs : List (List Char)) :
    wordsFrom current gs ≠ [] := by
  induction gs generalizing current with
  | nil => exact List.cons_ne_nil _ _
  | cons g rest ih =>
    rw [wordsFrom]
    split
    · exact List.cons_ne_nil _ _
    · split
      · exact List.cons_ne_nil _ _
      · exact ih _

section Kebab

variable {s : String}

theorem toList_kebab {first : List Char} {rest : List (List Char)}
    (h : wordsFrom [] (clusters s.toList) = first :: rest) :
    (kebab s).toList = lowered first ++ (rest.map lowered).flatMap ('-' :: ·) := by
  have hhyphen : "-".toList = ['-'] := rfl
  have hlower : (words s).map lower = (lowered first :: rest.map lowered).map String.ofList := by
    rw [words, h, ← List.map_cons, List.map_map, List.map_map]
    apply List.map_congr_left
    intro w _
    rw [Function.comp_apply, lower, String.toList_ofList]
    rfl
  rw [kebab, hlower, toList_intercalate hhyphen]

/-- The words of a name are found between the hyphens. -/
theorem pieces_kebab (h : ∀ c ∈ s.toList, inWords c = true) :
    pieces '-' (kebab s).toList =
      (wordsFrom [] (s.toList.map fun c => [c])).map (List.map Char.toLower) := by
  -- no letter is a hyphen when it is lowered, so the only hyphens are those between two words
  have hword : ∀ w ∈ wordsFrom [] (s.toList.map fun c => [c]),
      lowered w = w.map Char.toLower ∧ '-' ∉ w.map Char.toLower := by
    intro w hw
    have hchars : ∀ c ∈ w, c.toNat < 128 ∧ c.isAlphanum = true := by
      intro c hc
      obtain ⟨g, hg, hsep, hcg⟩ := mem_of_mem_wordsFrom hw hc
      obtain ⟨d, hd, rfl⟩ := List.mem_map.mp hg
      obtain rfl := List.mem_singleton.mp hcg
      rw [isSeparator_singleton] at hsep
      exact ⟨ascii_of_inWords (h c hd), isAlphanum_of_inWords (h c hd) hsep⟩
    refine ⟨lowered_of_ascii fun c hc => (hchars c hc).1, fun hhyphen => ?_⟩
    obtain ⟨c, hc, hlower⟩ := List.mem_map.mp hhyphen
    obtain ⟨hascii, halnum⟩ := hchars c hc
    exact of_ascii (p := fun c => c.isAlphanum = true → c.toLower ≠ '-') (by decide +kernel) hascii
      halnum hlower
  obtain ⟨first, rest, hwords⟩ :=
    List.exists_cons_of_ne_nil (wordsFrom_ne_nil [] (s.toList.map fun c => [c]))
  have hclusters := clusters_of_printable fun c hc => printable_of_inWords (h c hc)
  rw [hwords] at hword ⊢
  obtain ⟨⟨hfirst, hnone⟩, hrest⟩ := List.forall_mem_cons.mp hword
  have hmap : rest.map lowered = rest.map (List.map Char.toLower) :=
    List.map_congr_left fun w hw => (hrest w hw).1
  rw [toList_kebab (by rw [hclusters, hwords]), hfirst, hmap, pieces_append_flatMap hnone]
  · rfl
  · intro piece hpiece
    obtain ⟨w, hw, rfl⟩ := List.mem_map.mp hpiece
    exact (hrest w hw).2

/-- A character that is no separator can be found in lower case. -/
theorem mem_kebab (h : ∀ c ∈ s.toList, c.toNat < 128) {c : Char} (hc : c ∈ s.toList)
    (hsep : separates c = false) : c.toLower ∈ (kebab s).toList := by
  have hflatten := flatten_clusters s.toList
  obtain ⟨g, hg, hcg⟩ := List.mem_flatten.mp (hflatten ▸ hc)
  have hgsep : isSeparator g = false := by
    rw [← Bool.not_eq_true]
    intro htrue
    simp only [isSeparator, Bool.or_eq_true, beq_iff_eq] at htrue
    rcases htrue with (rfl | rfl) | rfl <;> rw [List.mem_singleton.mp hcg] at hsep <;> cases hsep
  obtain ⟨w, hw, hcw⟩ := mem_wordsFrom_iff.mpr (.inr ⟨g, hg, hgsep, hcg⟩)
  have hlowered : lowered w = w.map Char.toLower := by
    refine lowered_of_ascii fun d hd => ?_
    obtain ⟨g', hg', -, hd⟩ := mem_of_mem_wordsFrom hw hd
    exact h d (hflatten ▸ List.mem_flatten.mpr ⟨g', hg', hd⟩)
  have hmem : c.toLower ∈ lowered w := by
    rw [hlowered]
    exact List.mem_map.mpr ⟨c, hcw, rfl⟩
  obtain ⟨first, rest, hwords⟩ :=
    List.exists_cons_of_ne_nil (wordsFrom_ne_nil [] (clusters s.toList))
  rw [toList_kebab hwords, List.mem_append, List.mem_flatMap]
  rw [hwords] at hw
  rcases List.mem_cons.mp hw with rfl | hw
  · exact .inl hmem
  · exact .inr ⟨_, List.mem_map.mpr ⟨w, hw, rfl⟩, List.mem_cons_of_mem _ hmem⟩

end Kebab

/-! ### Names that stay as they are -/

section Small

variable {c : Char} {w : List Char} {s : String}

theorem Small.of_mem (hw : Small w) (hc : c ∈ w) :
    inWords c = true ∧ isBlank c = false ∧ c.toLower = c := by
  have hkind : c.isLower = true ∨ c.isDigit = true := hw.imp (· c hc) (· c hc)
  have hascii : c.toNat < 128 := by
    rw [isLower_iff, isDigit_iff] at hkind
    omega
  exact of_ascii (p := fun c => c.isLower = true ∨ c.isDigit = true →
    inWords c = true ∧ isBlank c = false ∧ c.toLower = c) (by decide +kernel) hascii hkind

theorem Small.lowered_eq (hw : Small w) : lowered w = w := by
  rw [lowered_of_ascii fun c hc => ascii_of_inWords (hw.of_mem hc).1]
  exact (List.map_congr_left fun c hc => (hw.of_mem hc).2.2).trans (List.map_id w)

theorem Uniform.small_map_toLower (hw : Uniform w) : Small (w.map Char.toLower) := by
  refine hw.imp (fun h => ?_) fun h => ?_
  · exact List.forall_mem_map.mpr fun c hc => isLower_toLower_of_isAlpha (h c hc)
  · exact List.forall_mem_map.mpr fun c hc => isDigit_toLower_of_isDigit (h c hc)

theorem of_mem_of_small (h : ∀ w ∈ pieces '-' s.toList, Small w) (hc : c ∈ s.toList) :
    inWords c = true ∧ isBlank c = false := by
  by_cases hhyphen : c = '-'
  · rw [hhyphen]
    decide
  · obtain ⟨piece, hpiece, hc⟩ := exists_mem_pieces_iff.mpr ⟨hc, hhyphen⟩
    exact ⟨((h piece hpiece).of_mem hc).1, ((h piece hpiece).of_mem hc).2.1⟩

theorem trim_eq_self (h : ∀ w ∈ pieces '-' s.toList, Small w) : trim s = s := by
  rw [trim, trimmed, stripped_eq_self, String.ofList_toList]
  · exact fun c hc => (of_mem_of_small h (List.mem_of_head? hc)).2
  · exact fun c hc => (of_mem_of_small h (List.mem_of_getLast? hc)).2

/-- Small words with hyphens between them stay as they are. -/
theorem kebab_eq_self (h : ∀ w ∈ pieces '-' s.toList, Small w) : kebab s = s := by
  have hprintable := fun c hc => printable_of_inWords (of_mem_of_small (c := c) h hc).1
  obtain ⟨first, rest, hpieces⟩ := List.exists_cons_of_ne_nil (pieces_ne_nil '-' s.toList)
  rw [hpieces] at h
  obtain ⟨hfirst, hrest⟩ := List.forall_mem_cons.mp h
  have hs := eq_append_flatMap hpieces
  have hwords : wordsFrom [] (clusters s.toList) = first :: rest := by
    rw [clusters_of_printable hprintable, hs, wordsFrom_flatMap hfirst hrest]
  have hmap : rest.map lowered = rest :=
    (List.map_congr_left fun w hw => (hrest w hw).lowered_eq).trans (List.map_id rest)
  rw [← String.toList_inj, toList_kebab hwords, hfirst.lowered_eq, hmap, ← hs]

/-- What `kebab` makes of a name are small words. -/
theorem small_of_mem_pieces_kebab (h : ∀ c ∈ s.toList, inWords c = true) :
    ∀ w ∈ pieces '-' (kebab s).toList, Small w := by
  rw [pieces_kebab h]
  refine List.forall_mem_map.mpr fun w hw => Uniform.small_map_toLower ?_
  refine uniform_of_mem_wordsFrom h uniform_nil (fun c hc hsep => uniform_singleton ?_) w hw
  exact isAlphanum_of_inWords (h c (List.mem_of_head? hc)) hsep

end Small

end SchemaForge.Text
