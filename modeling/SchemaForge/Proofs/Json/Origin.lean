import SchemaForge.Proofs.Json.Floats

/-!
# Where the numbers of a value come from

The numbers of a generic value that is read are those that stand in the text, and each of them is one
that reading makes. So they can be written and read again.
-/

namespace SchemaForge

open Json

/-- A condition on numbers, for what is read as a number. -/
def Json.Reads (P : Number → Prop) (r : Reading Number) : Prop := ∀ n, r.value = .ok n → P n

/-- Do all numbers that a token stands for meet a condition? -/
def Json.Token.Numbers (P : Number → Prop) : Token → Prop
  | number r => Reads P r
  | _ => True

namespace Doc

mutual

/-- Do all numbers in a tree meet a condition? -/
def Numbers (P : Number → Prop) : Doc → Prop
  | number r => Reads P r
  | array items _ => ItemNumbers P items
  | object members _ => MemberNumbers P members
  | null | bool _ | string _ | fault _ => True

/-- Do all numbers in the items meet a condition? -/
def ItemNumbers (P : Number → Prop) : List Doc → Prop
  | [] => True
  | d :: rest => Numbers P d ∧ ItemNumbers P rest

/-- Do all numbers in the members meet a condition? -/
def MemberNumbers (P : Number → Prop) : List (Reading String × Doc) → Prop
  | [] => True
  | (_, d) :: rest => Numbers P d ∧ MemberNumbers P rest

end

variable {P : Number → Prop}

theorem noNumbers : ∀ u ∈ ([] : List Token), u.Numbers P :=
  fun _ hu => absurd hu List.not_mem_nil

mutual

/-- The numbers of a tree are those of the tokens that it is made of. -/
theorem numbers_ofTokens (t : Token) (ts : List Token) (h : ∀ u ∈ t :: ts, u.Numbers P) :
    (ofTokens t ts).1.Numbers P ∧ ∀ u ∈ (ofTokens t ts).2.1, u.Numbers P := by
  obtain ⟨ht, hts⟩ := List.forall_mem_cons.mp h
  unfold ofTokens
  split
  · split
    · exact ⟨trivial, noNumbers⟩
    · exact ⟨trivial, (List.forall_mem_cons.mp hts).2⟩
    · next u rest _ =>
      have hitems := numbers_itemsOfTokens u rest hts
      rcases hdoc : itemsOfTokens u rest with ⟨items, stop, after⟩
      rw [hdoc] at hitems
      exact hitems
  · split
    · exact ⟨trivial, noNumbers⟩
    · exact ⟨trivial, (List.forall_mem_cons.mp hts).2⟩
    · next u rest _ =>
      have hmembers := numbers_membersOfTokens u rest hts
      rcases hdoc : membersOfTokens u rest with ⟨members, stop, after⟩
      rw [hdoc] at hmembers
      exact hmembers
  · exact ⟨trivial, hts⟩
  · exact ⟨trivial, hts⟩
  · exact ⟨ht, hts⟩
  · exact ⟨trivial, hts⟩
  all_goals exact ⟨trivial, noNumbers⟩
termination_by 2 * ts.length
decreasing_by
  all_goals
    subst_vars
    simp only [List.length_cons]
    omega

theorem numbers_itemsOfTokens (t : Token) (ts : List Token) (h : ∀ u ∈ t :: ts, u.Numbers P) :
    ItemNumbers P (itemsOfTokens t ts).1 ∧ ∀ u ∈ (itemsOfTokens t ts).2.2.1, u.Numbers P := by
  have hfirst := numbers_ofTokens t ts h
  unfold itemsOfTokens
  rcases hdoc : ofTokens t ts with ⟨item, more, hmore⟩
  rw [hdoc] at hfirst
  obtain ⟨hitem, hrest⟩ := hfirst
  dsimp only at hitem hrest ⊢
  split
  · exact ⟨⟨hitem, trivial⟩, noNumbers⟩
  · exact ⟨⟨hitem, trivial⟩, (List.forall_mem_cons.mp hrest).2⟩
  · exact ⟨⟨hitem, trivial⟩, noNumbers⟩
  · exact ⟨⟨hitem, trivial⟩, noNumbers⟩
  · next u rest _ _ =>
    have hitems := numbers_itemsOfTokens u rest (List.forall_mem_cons.mp hrest).2
    rcases hdocs : itemsOfTokens u rest with ⟨items, stop, after⟩
    rw [hdocs] at hitems
    exact ⟨⟨hitem, hitems.1⟩, hitems.2⟩
  · exact ⟨⟨hitem, trivial⟩, noNumbers⟩
termination_by 2 * ts.length + 1
decreasing_by
  · omega
  · simp at hmore
    omega

theorem numbers_membersOfTokens (t : Token) (ts : List Token) (h : ∀ u ∈ t :: ts, u.Numbers P) :
    MemberNumbers P (membersOfTokens t ts).1 ∧ ∀ u ∈ (membersOfTokens t ts).2.2.1, u.Numbers P := by
  have hts := (List.forall_mem_cons.mp h).2
  unfold membersOfTokens
  split
  · split
    · exact ⟨⟨trivial, trivial⟩, noNumbers⟩
    · exact ⟨⟨trivial, trivial⟩, noNumbers⟩
    · next u rest =>
      have hfirst := numbers_ofTokens u rest (List.forall_mem_cons.mp hts).2
      rcases hdoc : ofTokens u rest with ⟨value, more, hmore⟩
      rw [hdoc] at hfirst
      obtain ⟨hvalue, hrest⟩ := hfirst
      dsimp only at hvalue hrest ⊢
      split
      · exact ⟨⟨hvalue, trivial⟩, noNumbers⟩
      · exact ⟨⟨hvalue, trivial⟩, (List.forall_mem_cons.mp hrest).2⟩
      · exact ⟨⟨hvalue, trivial⟩, noNumbers⟩
      · exact ⟨⟨hvalue, trivial⟩, noNumbers⟩
      · next u rest _ _ =>
        have hmembers := numbers_membersOfTokens u rest (List.forall_mem_cons.mp hrest).2
        rcases hdocs : membersOfTokens u rest with ⟨members, stop, after⟩
        rw [hdocs] at hmembers
        exact ⟨⟨hvalue, hmembers.1⟩, hmembers.2⟩
      · exact ⟨⟨hvalue, trivial⟩, noNumbers⟩
    · exact ⟨⟨trivial, trivial⟩, noNumbers⟩
  · exact ⟨trivial, noNumbers⟩
termination_by 2 * ts.length + 1
decreasing_by
  · subst_vars
    simp only [List.length_cons]
    omega
  · subst_vars
    simp only [List.length_cons] at hmore ⊢
    omega

end

end Doc

/-! ### Tokens -/

namespace Json

variable {P : Number → Prop}

theorem numbers_mark {b : UInt8} {t : Token} (h : mark? b = some t) : t.Numbers P := by
  unfold mark? at h
  repeat' split at h
  all_goals cases h
  all_goals trivial

theorem numbers_word {b : UInt8} {t : Token} {expected : Bytes} (h : word? b = some (t, expected)) :
    t.Numbers P := by
  unfold word? at h
  repeat' split at h
  all_goals cases h
  all_goals trivial

/-- What is read as a number is the value of its text. -/
theorem reads_readNumber (hP : ∀ (t : NumberText) n, t.value = .ok n → P n) (negative : Bool)
    (bytes : Bytes) : Reads P (readNumber negative bytes).1 := by
  intro n hn
  unfold readNumber at hn
  split at hn
  · next fault _ => cases fault <;> cases hn
  · next t _ _ => exact hP t n hn

theorem numbers_token (hP : ∀ (t : NumberText) n, t.value = .ok n → P n) (b : UInt8)
    (rest : Bytes) : (token b rest).1.Numbers P := by
  unfold token
  split
  · next t ht => exact numbers_mark ht
  · split
    · next t expected ht =>
      split
      · exact numbers_word ht
      · trivial
    · split
      · trivial
      · split
        · exact reads_readNumber hP true rest
        · split
          · exact reads_readNumber hP false (b :: rest)
          · trivial

/-- The numbers in the tokens of a text are values of number texts. -/
theorem numbers_tokens (hP : ∀ (t : NumberText) n, t.value = .ok n → P n) (bytes : Bytes) :
    ∀ u ∈ tokens bytes, u.Numbers P := by
  fun_induction tokens bytes with
  | case1 => exact Doc.noNumbers
  | case2 b rest hspace ih => exact ih
  | case3 b rest hspace t after htoken ih =>
    have hfirst := numbers_token hP b rest
    rw [htoken] at hfirst
    exact List.forall_mem_cons.mpr ⟨hfirst, ih⟩
  | case4 b rest hspace t htoken =>
    have hfirst := numbers_token hP b rest
    rw [htoken] at hfirst
    exact List.forall_mem_cons.mpr ⟨hfirst, Doc.noNumbers⟩

end Json

/-! ### Generic values -/

namespace Doc

variable {P : Number → Prop}

theorem numbers_ofBytes (hP : ∀ (t : NumberText) n, t.value = .ok n → P n) (bytes : Bytes) :
    (ofBytes bytes).1.Numbers P := by
  have htokens := numbers_tokens hP bytes
  unfold ofBytes
  split
  · trivial
  · next t ts hts =>
    rw [hts] at htokens
    exact (numbers_ofTokens t ts htokens).1

mutual

/-- A generic value has the numbers of the tree it is read from. -/
theorem all_of_content : ∀ (d : Doc) {src : Source} {j : Json}, d.Numbers P →
    content src d = .ok j → j.All P
  | .null, src, j, _, h => by
    obtain rfl := Except.ok.inj h
    trivial
  | .bool b, src, j, _, h => by
    obtain rfl := Except.ok.inj h
    trivial
  | .number r, src, j, hd, h => by
    obtain ⟨n, hn, rfl⟩ := map_eq_ok_iff.mp h
    exact hd n hn
  | .string r, src, j, _, h => by
    obtain ⟨s, -, rfl⟩ := map_eq_ok_iff.mp h
    trivial
  | .array items stop, src, j, hd, h => by
    obtain ⟨inner, -, h⟩ := bind_eq_ok_iff.mp h
    obtain ⟨js, hjs, h⟩ := bind_eq_ok_iff.mp h
    obtain rfl := Except.ok.inj (check_bind_eq_ok_iff.mp h).2
    exact allItems_of_contentItems items hd hjs
  | .object members stop, src, j, hd, h => by
    obtain ⟨inner, -, h⟩ := bind_eq_ok_iff.mp h
    obtain ⟨ms, hms, h⟩ := bind_eq_ok_iff.mp h
    obtain rfl := Except.ok.inj (check_bind_eq_ok_iff.mp h).2
    exact allMembers_of_contentMembers members hd hms
  | .fault f, src, j, _, h => by cases h

theorem allItems_of_contentItems : ∀ (docs : List Doc) {src : Source} {js : List Json},
    ItemNumbers P docs → contentItems src docs = .ok js → AllItems P js
  | [], src, js, _, h => by
    obtain rfl := Except.ok.inj h
    trivial
  | d :: docs, src, js, hd, h => by
    obtain ⟨j, hj, more, hmore, rfl⟩ := contentItems_cons_eq_ok_iff.mp h
    exact ⟨all_of_content d hd.1 hj, allItems_of_contentItems docs hd.2 hmore⟩

theorem allMembers_of_contentMembers : ∀ (docs : List (Reading String × Doc)) {src : Source}
    {ms : List (String × Json)}, MemberNumbers P docs → contentMembers src docs = .ok ms →
      AllMembers P ms
  | [], src, ms, _, h => by
    obtain rfl := Except.ok.inj h
    trivial
  | (key, d) :: docs, src, ms, hd, h => by
    obtain ⟨k, -, h⟩ := bind_eq_ok_iff.mp h
    obtain ⟨j, hj, h⟩ := bind_eq_ok_iff.mp h
    obtain ⟨more, hmore, h⟩ := bind_eq_ok_iff.mp h
    obtain rfl := Except.ok.inj h
    exact ⟨all_of_content d hd.1 hj, allMembers_of_contentMembers docs hd.2 hmore⟩

end

mutual

/-- The tree of a value at hand has the numbers of the value. -/
theorem numbers_ofJson : ∀ (j : Json), j.All P → (ofJson j).Numbers P
  | .null, _ | .bool _, _ | .text _, _ => trivial
  | .number _, h => fun _ hn => Except.ok.inj hn ▸ h
  | .array items, h => numbers_ofItems items h
  | .object members, h => numbers_ofMembers members h

theorem numbers_ofItems : ∀ (items : List Json), AllItems P items → ItemNumbers P (ofItems items)
  | [], _ => trivial
  | j :: items, h => ⟨numbers_ofJson j h.1, numbers_ofItems items h.2⟩

theorem numbers_ofMembers : ∀ (members : List (String × Json)), AllMembers P members →
    MemberNumbers P (ofMembers members)
  | [], _ => trivial
  | (_, v) :: members, h => ⟨numbers_ofJson v h.1, numbers_ofMembers members h.2⟩

end

end Doc

/-! ### Canonical form -/

namespace Json

variable {P : Number → Prop}

theorem allMembers_putMember {key : String} {value : Json} {members : List (String × Json)}
    (hvalue : value.All P) (hmembers : AllMembers P members) :
    AllMembers P (putMember key value members) := by
  fun_induction putMember key value members with
  | case1 => exact ⟨hvalue, trivial⟩
  | case2 k v rest => exact ⟨hvalue, hmembers⟩
  | case3 k v rest => exact ⟨hvalue, hmembers.2⟩
  | case4 k v rest _ _ ih => exact ⟨hmembers.1, ih hmembers.2⟩

mutual

/-- The canonical form has no other numbers. -/
theorem all_canonical : ∀ (j : Json), j.All P → j.canonical.All P
  | .null, _ | .bool _, _ | .text _, _ => trivial
  | .number _, h => h
  | .array items, h => allItems_canonicalItems items h
  | .object members, h => allMembers_canonicalMembers members trivial h

theorem allItems_canonicalItems : ∀ (items : List Json), AllItems P items →
    AllItems P (canonicalItems items)
  | [], _ => trivial
  | j :: items, h => ⟨all_canonical j h.1, allItems_canonicalItems items h.2⟩

theorem allMembers_canonicalMembers : ∀ (members : List (String × Json))
    {sorted : List (String × Json)}, AllMembers P sorted → AllMembers P members →
      AllMembers P (canonicalMembers sorted members)
  | [], _, hsorted, _ => hsorted
  | (_, v) :: members, _, hsorted, h =>
    allMembers_canonicalMembers members
      (allMembers_putMember (all_canonical v h.1) hsorted) h.2

end

theorem all_of_decode {d : Doc} {src : Source} {j : Json} (hd : d.Numbers P)
    (h : Codec.json.decode src d = .ok j) : j.All P := by
  obtain ⟨content, hcontent, rfl⟩ := map_eq_ok_iff.mp h
  exact all_canonical content (Doc.all_of_content d hd hcontent)

/-- The numbers of a generic value that is read from a text are values of number texts. -/
theorem all_of_ofBytes (hP : ∀ (t : NumberText) n, t.value = .ok n → P n) {bytes : Bytes}
    {j : Json} (h : Codec.json.ofBytes bytes = .ok j) : j.All P := by
  have hnumbers := Doc.numbers_ofBytes hP bytes
  rw [Codec.ofBytes] at h
  rcases hdoc : Doc.ofBytes bytes with ⟨doc, trailing⟩
  rw [hdoc] at h hnumbers
  obtain ⟨j', hj, h⟩ := bind_eq_ok_iff.mp h
  cases trailing with
  | true => cases h
  | false =>
    obtain rfl := Except.ok.inj h
    exact all_of_decode hnumbers hj

end Json

end SchemaForge
