import SchemaForge.Proofs.Schema.Naming
import SchemaForge.Proofs.Text.Words
import SchemaForge.Schema.Payload

/-!
# Identifiers of actions

The rule for action identifiers forbids characters and places of hyphens; what it leaves are words
of small letters and digits with hyphens between them. An identifier that is made from a name passes
exactly if the name is made of words in the same sense, and if it is not too long.
-/

namespace SchemaForge

namespace Naming

/-! ### The rule -/

theorem hasDoubleHyphen_eq_false_iff {cs : List Char} :
    hasDoubleHyphen cs = false ↔
      cs.IsChain fun c d => (c == '-') = true → (d == '-') = false := by
  fun_induction hasDoubleHyphen cs with
  | case1 rest =>
    refine iff_of_false nofun fun h => ?_
    exact absurd ((List.isChain_cons_cons.mp h).1 rfl) (by decide)
  | case2 c rest hpair ih =>
    rw [ih]
    cases rest with
    | nil => exact iff_of_true .nil (.singleton c)
    | cons d rest =>
      rw [List.isChain_cons_cons]
      refine (and_iff_right fun hc => beq_eq_false_iff_ne.mpr fun hd => ?_).symm
      exact hpair rest (beq_iff_eq.mp hc) (hd ▸ rfl)
  | case3 => exact iff_of_true rfl .nil

/-- Hyphens separate words: there is none at either end, and no two stand in a row. -/
theorem hyphens_between_iff {cs : List Char} :
    cs ≠ [] ∧ ¬((cs.head? = some '-' || cs.getLast? = some '-' || hasDoubleHyphen cs) = true) ↔
      Text.Spaced (· == '-') cs := by
  simp only [Bool.or_eq_true, decide_eq_true_eq, not_or, Bool.not_eq_true,
    hasDoubleHyphen_eq_false_iff]
  constructor
  · rintro ⟨hne, ⟨hhead, hlast⟩, hchain⟩
    obtain ⟨c, rest, rfl⟩ := List.exists_cons_of_ne_nil hne
    refine ⟨⟨fun d hd => ?_, hchain⟩, c, rfl, ?_⟩
    · rw [hd] at hlast
      simpa using hlast
    · simpa using hhead
  · rintro ⟨⟨hlast, hchain⟩, c, hc, hhead⟩
    refine ⟨?_, ⟨?_, ?_⟩, hchain⟩
    · rintro rfl
      cases hc
    · rw [hc]
      simpa using hhead
    · intro hhyphen
      simpa using hlast _ hhyphen

theorem inActionIdentifier_iff {c : Char} :
    inActionIdentifier c = true ↔ c = '-' ∨ c.isLower = true ∨ c.isDigit = true := by
  rw [inActionIdentifier, Bool.or_eq_true, Bool.or_eq_true, beq_iff_eq, or_comm]

/-- What the rule leaves are at most fifty characters, whose pieces between hyphens are words of
small letters and digits. -/
theorem checkActionIdentifier_eq_ok_iff {s : String} :
    checkActionIdentifier s = .ok () ↔ s.length ≤ actionIdentifierLimit ∧
      ∀ w ∈ Text.pieces '-' s.toList, w ≠ [] ∧ ∀ c ∈ w, c.isLower = true ∨ c.isDigit = true := by
  have hempty : s.isEmpty = true ↔ s.toList = [] :=
    String.isEmpty_iff.trans String.toList_eq_nil_iff.symm
  have hchars : (∀ c ∈ s.toList, inActionIdentifier c = true) ↔
      ∀ w ∈ Text.pieces '-' s.toList, ∀ c ∈ w, c.isLower = true ∨ c.isDigit = true := by
    simp only [inActionIdentifier_iff]
    constructor
    · intro h w hw c hc
      obtain ⟨hc, hne⟩ := Text.exists_mem_pieces_iff.mp ⟨w, hw, hc⟩
      exact (h c hc).resolve_left hne
    · intro h c hc
      refine or_iff_not_imp_left.mpr fun hne => ?_
      obtain ⟨w, hw, hc⟩ := Text.exists_mem_pieces_iff.mpr ⟨hc, hne⟩
      exact h w hw c hc
  have hplaces : (∀ w ∈ Text.pieces '-' s.toList, w ≠ []) ↔ Text.Spaced (· == '-') s.toList := by
    rw [← Text.nil_not_mem_pieces_iff]
    exact ⟨fun h hnil => h _ hnil rfl, fun h w hw hnil => h (hnil ▸ hw)⟩
  unfold checkActionIdentifier
  dsimp only
  rw [refuse_or_eq_ok_iff, check_bind_eq_ok_iff, check_bind_eq_ok_iff, checkLength_eq_ok_iff,
    checkCharacters_eq_ok_iff, hempty, hchars, refuse_or_pure_eq_ok_iff, forall₂_and, hplaces,
    ← hyphens_between_iff]
  exact ⟨fun ⟨hne, hlength, hwords, hform⟩ => ⟨hlength, ⟨hne, hform⟩, hwords⟩,
    fun ⟨hlength, ⟨hne, hform⟩, hwords⟩ => ⟨hne, hlength, hwords, hform⟩⟩

/-! ### Words with hyphens between them -/

/-- A word of an identifier: one of the letters from a to z or a digit, or several of them. -/
structure IsWord (w : String) : Prop where
  ne_empty : w ≠ ""
  character : ∀ c ∈ w.toList, ('a' ≤ c ∧ c ≤ 'z') ∨ ('0' ≤ c ∧ c ≤ '9')

instance (w : String) : Decidable (IsWord w) :=
  decidable_of_iff
    (w ≠ "" ∧ w.toList.all fun c => decide (('a' ≤ c ∧ c ≤ 'z') ∨ ('0' ≤ c ∧ c ≤ '9')))
    ⟨fun h => ⟨h.1, Text.forall_mem_of_all h.2⟩, fun h => ⟨h.1, by simpa using h.2⟩⟩

theorem isWord_iff {w : String} :
    IsWord w ↔ w.toList ≠ [] ∧ ∀ c ∈ w.toList, c.isLower = true ∨ c.isDigit = true := by
  have hletter {c : Char} : ('a' ≤ c ∧ c ≤ 'z') ↔ c.isLower = true := by
    rw [Text.isLower_iff]
    exact and_congr UInt32.le_iff_toNat_le UInt32.le_iff_toNat_le
  have hdigit {c : Char} : ('0' ≤ c ∧ c ≤ '9') ↔ c.isDigit = true := by
    rw [Text.isDigit_iff]
    exact and_congr UInt32.le_iff_toNat_le UInt32.le_iff_toNat_le
  simp only [← hletter, ← hdigit, ne_eq, String.toList_eq_nil_iff]
  exact ⟨fun ⟨hne, hchars⟩ => ⟨hne, hchars⟩, fun ⟨hne, hchars⟩ => ⟨hne, hchars⟩⟩

theorem IsWord.hyphen_not_mem {w : String} (h : IsWord w) : '-' ∉ w.toList := by
  intro hmem
  rcases h.character _ hmem with hletter | hdigit
  · exact absurd hletter.1 (by decide)
  · exact absurd hdigit.1 (by decide)

/-- These words, at least one, joined by hyphens are the text. -/
structure JoinedWords (words : List String) (s : String) : Prop where
  ne_nil : words ≠ []
  word : ∀ w ∈ words, IsWord w
  joined : "-".intercalate words = s

/-- Words that are joined are the pieces between the hyphens. -/
theorem joinedWords_iff {words : List String} {s : String} :
    JoinedWords words s ↔
      (Text.pieces '-' s.toList).map String.ofList = words ∧ ∀ w ∈ words, IsWord w := by
  have hhyphen : "-".toList = ['-'] := rfl
  constructor
  · rintro ⟨hne, hwords, rfl⟩
    refine ⟨?_, hwords⟩
    obtain ⟨first, rest, rfl⟩ := List.exists_cons_of_ne_nil hne
    have hchars : ("-".intercalate (first :: rest)).toList =
        first.toList ++ (rest.map String.toList).flatMap ('-' :: ·) := by
      rw [← Text.toList_intercalate hhyphen, ← List.map_cons, List.map_map]
      simp
    obtain ⟨hfirst, hrest⟩ := List.forall_mem_cons.mp hwords
    rw [hchars, Text.pieces_append_flatMap hfirst.hyphen_not_mem
      (List.forall_mem_map.mpr fun w hw => (hrest w hw).hyphen_not_mem), ← List.map_cons,
      List.map_map]
    simp
  · rintro ⟨rfl, hwords⟩
    obtain ⟨first, rest, hpieces⟩ :=
      List.exists_cons_of_ne_nil (Text.pieces_ne_nil '-' s.toList)
    refine ⟨by simp [hpieces], hwords, ?_⟩
    rw [← String.toList_inj, hpieces, Text.toList_intercalate hhyphen,
      ← Text.eq_append_flatMap hpieces]

/-- An identifier passes exactly if it is at most fifty characters long and words joined by hyphens
make it up. There is one such list of words only, which is what splitting at hyphens leads to. -/
theorem action_identifiers_are_joined_words (s : String) :
    (checkActionIdentifier s = .ok () ↔ s.length ≤ 50 ∧ ∃ words, JoinedWords words s) ∧
      (∀ words words', JoinedWords words s → JoinedWords words' s → words = words') ∧
      ∀ words, JoinedWords words s → (s.split '-').toList.map String.Slice.copy = words := by
  refine ⟨?_, fun words words' h h' => ?_, ?_⟩
  · rw [checkActionIdentifier_eq_ok_iff]
    refine and_congr_right fun _ => ?_
    simp only [joinedWords_iff, exists_eq_left', List.forall_mem_map, isWord_iff,
      String.toList_ofList]
  · exact (joinedWords_iff.mp h).1.symm.trans (joinedWords_iff.mp h').1
  · rintro words ⟨hne, hwords, rfl⟩
    have hsplit := String.toList_split_intercalate (c := '-') (l := words)
      fun w hw => (hwords w hw).hyphen_not_mem
    rw [if_neg hne] at hsplit
    exact hsplit

/-- Three words, one of them a number. -/
theorem words_of_identifier_are_recovered :
    ∃ words, words = ["get", "user", "2"] ∧ JoinedWords words "get-user-2" ∧
      checkActionIdentifier "get-user-2" = .ok () ∧
      ("get-user-2".split '-').toList.map String.Slice.copy = words ∧
      ∀ words', JoinedWords words' "get-user-2" → words' = words := by
  have hjoined : JoinedWords ["get", "user", "2"] "get-user-2" :=
    ⟨by decide, by decide, by decide⟩
  obtain ⟨hpasses, hunique, hsplit⟩ := action_identifiers_are_joined_words "get-user-2"
  exact ⟨_, rfl, hjoined, hpasses.mpr ⟨by decide, _, hjoined⟩, hsplit _ hjoined,
    fun words' h => hunique words' _ h hjoined⟩

/-! ### Identifiers from names -/

/-- The identifier from a name passes exactly if the name is made of words and is not too long. -/
theorem checkActionIdentifier_kebab_iff {s : String} (hascii : ∀ c ∈ s.toList, c.toNat < 128) :
    checkActionIdentifier (Text.kebab s) = .ok () ↔
      (∀ c ∈ s.toList, Text.inWords c = true) ∧ Text.Spaced Text.separates s.toList ∧
        (Text.kebab s).length ≤ actionIdentifierLimit := by
  rw [checkActionIdentifier_eq_ok_iff, ← and_assoc, and_comm]
  refine and_congr_left fun _ => ?_
  by_cases hchars : ∀ c ∈ s.toList, Text.inWords c = true
  · have hsmall := Text.small_of_mem_pieces_kebab hchars
    rw [and_iff_right hchars, ← Text.nil_not_mem_wordsFrom_nil_iff hascii, Text.pieces_kebab hchars]
    constructor
    · intro h hnil
      exact (h [] (List.mem_map.mpr ⟨[], hnil, rfl⟩)).1 rfl
    · refine fun h => List.forall_mem_map.mpr fun w hw => ⟨fun hnil => ?_, fun c hc => ?_⟩
      · exact h (List.map_eq_nil_iff.mp hnil ▸ hw)
      · have hpiece : w.map Char.toLower ∈ Text.pieces '-' (Text.kebab s).toList := by
          rw [Text.pieces_kebab hchars]
          exact List.mem_map.mpr ⟨w, hw, rfl⟩
        exact (hsmall _ hpiece).imp (· c hc) (· c hc)
  · obtain ⟨c, hc, hbad⟩ : ∃ c ∈ s.toList, Text.inWords c = false := by simpa using hchars
    refine iff_of_false (fun h => ?_) fun h => hchars h.1
    have hsep : Text.separates c = false := (Bool.or_eq_false_iff.mp hbad).2
    -- the character stays what it is in lower case, and is in one of the pieces
    have hlower : c.toLower ≠ '-' ∧ ¬(c.toLower.isLower = true ∨ c.toLower.isDigit = true) :=
      Text.of_ascii (p := fun c => Text.inWords c = false →
        c.toLower ≠ '-' ∧ ¬(c.toLower.isLower = true ∨ c.toLower.isDigit = true))
        (by decide +kernel) (hascii c hc) hbad
    obtain ⟨w, hw, hcw⟩ :=
      Text.exists_mem_pieces_iff.mpr ⟨Text.mem_kebab hascii hc hsep, hlower.1⟩
    exact hlower.2 ((h w hw).2 _ hcw)

end Naming

/-- Names that are made of words: of ASCII letters and digits, with separators one at a time and
nowhere but between them. -/
structure MadeOfWords (name : List Char) : Prop where
  nonempty : name ≠ []
  characters : ∀ c ∈ name, c.isAlpha = true ∨ c.isDigit = true ∨ c = ' ' ∨ c = '-' ∨ c = '_'
  head : name.head? ≠ some '-' ∧ name.head? ≠ some '_'
  last : name.getLast? ≠ some '-' ∧ name.getLast? ≠ some '_'
  single : ∀ front c d behind, name = front ++ c :: d :: behind →
    ¬((c = ' ' ∨ c = '-' ∨ c = '_') ∧ (d = ' ' ∨ d = '-' ∨ d = '_'))

/-- Of a trimmed name it does not have to be said that there are no spaces at its ends. -/
theorem madeOfWords_iff {name : List Char} (hhead : name.head? ≠ some ' ')
    (hlast : name.getLast? ≠ some ' ') :
    MadeOfWords name ↔
      (∀ c ∈ name, Text.inWords c = true) ∧ Text.Spaced Text.separates name := by
  have hseparates {c : Char} : Text.separates c = true ↔ c = ' ' ∨ c = '-' ∨ c = '_' := by
    simp only [Text.separates, Bool.or_eq_true, beq_iff_eq]
    tauto
  have hend {c? : Option Char} (hspace : c? ≠ some ' ') :
      (c? ≠ some '-' ∧ c? ≠ some '_') ↔ ∀ c, c? = some c → Text.separates c = false := by
    simp only [← Bool.not_eq_true, hseparates]
    grind
  have hchars {c : Char} : Text.inWords c = true ↔
      c.isAlpha = true ∨ c.isDigit = true ∨ c = ' ' ∨ c = '-' ∨ c = '_' := by
    rw [Text.inWords, Bool.or_eq_true, Text.isAlphanum_iff, hseparates, or_assoc]
  have hchain : (name.IsChain fun c d => Text.separates c = true → Text.separates d = false) ↔
      ∀ front c d behind, name = front ++ c :: d :: behind →
        ¬((c = ' ' ∨ c = '-' ∨ c = '_') ∧ (d = ' ' ∨ d = '-' ∨ d = '_')) := by
    simp only [← Bool.not_eq_true, List.isChain_iff_forall_rel_of_append_cons_cons, hseparates,
      not_and]
    exact ⟨fun h front c d behind => @h c d front behind,
      fun h c d front behind => h front c d behind⟩
  constructor
  · rintro ⟨hne, hname, hfirst, hfinal, hsingle⟩
    obtain ⟨c, rest, rfl⟩ := List.exists_cons_of_ne_nil hne
    exact ⟨fun c hc => hchars.mpr (hname c hc),
      ⟨(hend hlast).mp hfinal, hchain.mpr hsingle⟩, c, rfl, (hend hhead).mp hfirst c rfl⟩
  · rintro ⟨hname, ⟨hfinal, hsingle⟩, c, hc, hfirst⟩
    refine ⟨?_, fun c hc => hchars.mp (hname c hc), (hend hhead).mpr fun d hd => ?_,
      (hend hlast).mpr hfinal, hchain.mp hsingle⟩
    · rintro rfl
      cases hc
    · rwa [← Option.some.inj (hc.symm.trans hd)]

namespace NewAction

/-- Let an action have no identifier but a name, whatever ASCII string it is. The identifier that is
made from the name passes exactly if the trimmed name is made of words and the identifier is not too
long; and an identifier that passes is made from itself. -/
theorem derived_identifier_passes_iff {a : NewAction} (hnone : a.identifier = none)
    (hascii : ∀ c ∈ a.friendlyName.toList, c.toNat < 128) :
    (Naming.checkActionIdentifier a.resolvedIdentifier = .ok () ↔
      MadeOfWords (Text.trim a.friendlyName).toList ∧ a.resolvedIdentifier.length ≤ 50) ∧
    (Naming.checkActionIdentifier a.resolvedIdentifier = .ok () →
      ∀ b : NewAction, b.identifier = none → b.friendlyName = a.resolvedIdentifier →
        b.resolvedIdentifier = a.resolvedIdentifier) := by
  have hresolved : a.resolvedIdentifier = Text.kebab (Text.trim a.friendlyName) := by
    rw [resolvedIdentifier, hnone]
  have hname : (Text.trim a.friendlyName).toList =
      Text.stripped Text.isBlank a.friendlyName.toList := by
    rw [Text.trim, Text.trimmed, String.toList_ofList]
  have hpasses := Naming.checkActionIdentifier_kebab_iff (s := Text.trim a.friendlyName)
    fun c hc => hascii c (Text.mem_of_mem_stripped (hname ▸ hc))
  have hhead : (Text.trim a.friendlyName).toList.head? ≠ some ' ' :=
    fun h => absurd (Text.head?_stripped (hname ▸ h)) (by decide)
  have hlast : (Text.trim a.friendlyName).toList.getLast? ≠ some ' ' :=
    fun h => absurd (Text.getLast?_stripped (hname ▸ h)) (by decide)
  rw [← hresolved] at hpasses
  refine ⟨?_, fun hok b hb hbname => ?_⟩
  · rw [hpasses, madeOfWords_iff hhead hlast, and_assoc]
    rfl
  · have hsmall := Text.small_of_mem_pieces_kebab (hpasses.mp hok).1
    rw [resolvedIdentifier, hb, hbname]
    show Text.kebab (Text.trim a.resolvedIdentifier) = _
    rw [hresolved, Text.trim_eq_self hsmall, Text.kebab_eq_self hsmall]

/-- A name with an acronym, a number and all kinds of separators. -/
theorem words_of_mixed_name_make_identifier :
    ∃ a b : NewAction, a.friendlyName = " List HTTPUsers_2 " ∧ a.identifier = none ∧
      b.friendlyName = "list-http-users-2" ∧ b.identifier = none ∧
      a.resolvedIdentifier = "list-http-users-2" ∧
      MadeOfWords (Text.trim a.friendlyName).toList ∧
      Naming.checkActionIdentifier a.resolvedIdentifier = .ok () ∧
      b.resolvedIdentifier = a.resolvedIdentifier := by
  let a : NewAction := ⟨" List HTTPUsers_2 ", none, .get, "/users", none, []⟩
  let b : NewAction := { a with friendlyName := "list-http-users-2" }
  have hidentifier : a.resolvedIdentifier = "list-http-users-2" := by decide +kernel
  have hok : Naming.checkActionIdentifier a.resolvedIdentifier = .ok () := by
    rw [hidentifier]
    decide
  obtain ⟨hpasses, hagain⟩ := derived_identifier_passes_iff (a := a) rfl
    (Text.forall_mem_of_all (by decide))
  exact ⟨a, b, rfl, rfl, rfl, rfl, hidentifier, (hpasses.mp hok).1, hok,
    hagain hok b rfl hidentifier.symm⟩

end NewAction

end SchemaForge
