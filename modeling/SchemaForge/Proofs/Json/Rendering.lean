import SchemaForge.Json.Document
import SchemaForge.Proofs.Json.Numbers

/-!
# The text of a value has its tree

The text that a value is written as is read as the tree of the value. Only a number can be read as
another one, where its text is that of a binary64 number that reading rounds differently.
-/

namespace SchemaForge

open Json

namespace Json

mutual

/-- Do all numbers in a value meet a condition? -/
def All (P : Number → Prop) : Json → Prop
  | .number n => P n
  | .array items => AllItems P items
  | .object members => AllMembers P members
  | .null | .bool _ | .text _ => True

/-- Do all numbers in the items meet a condition? -/
def AllItems (P : Number → Prop) : List Json → Prop
  | [] => True
  | j :: rest => All P j ∧ AllItems P rest

/-- Do all numbers in the members meet a condition? -/
def AllMembers (P : Number → Prop) : List (String × Json) → Prop
  | [] => True
  | (_, v) :: rest => All P v ∧ AllMembers P rest

end

mutual

theorem All.imp {P Q : Number → Prop} (h : ∀ n, P n → Q n) : ∀ (j : Json), j.All P → j.All Q
  | .null, _ => trivial
  | .bool _, _ => trivial
  | .text _, _ => trivial
  | .number n, hn => h n hn
  | .array items, hall => AllItems.imp h items hall
  | .object members, hall => AllMembers.imp h members hall

theorem AllItems.imp {P Q : Number → Prop} (h : ∀ n, P n → Q n) :
    ∀ (items : List Json), AllItems P items → AllItems Q items
  | [], _ => trivial
  | j :: items, hall => ⟨All.imp h j hall.1, AllItems.imp h items hall.2⟩

theorem AllMembers.imp {P Q : Number → Prop} (h : ∀ n, P n → Q n) :
    ∀ (members : List (String × Json)), AllMembers P members → AllMembers Q members
  | [], _ => trivial
  | (_, v) :: members, hall => ⟨All.imp h v hall.1, AllMembers.imp h members hall.2⟩

end

mutual

theorem all_of_forall {P : Number → Prop} (h : ∀ n, P n) : ∀ (j : Json), j.All P
  | .null => trivial
  | .bool _ => trivial
  | .text _ => trivial
  | .number n => h n
  | .array items => allItems_of_forall h items
  | .object members => allMembers_of_forall h members

theorem allItems_of_forall {P : Number → Prop} (h : ∀ n, P n) :
    ∀ (items : List Json), AllItems P items
  | [] => trivial
  | j :: items => ⟨all_of_forall h j, allItems_of_forall h items⟩

theorem allMembers_of_forall {P : Number → Prop} (h : ∀ n, P n) :
    ∀ (members : List (String × Json)), AllMembers P members
  | [] => trivial
  | (_, v) :: members => ⟨all_of_forall h v, allMembers_of_forall h members⟩

end

mutual

/-- The tokens of a value, whose numbers are read by `r`. -/
def tokensBy (r : Number → Reading Number) : Json → List Token
  | .null => [.null]
  | .bool b => [.bool b]
  | .number n => [.number (r n)]
  | .text s => [.string (.of s)]
  | .array [] => [.openBracket, .closeBracket]
  | .array (j :: rest) => .openBracket :: (tokensBy r j ++ itemTokensBy r rest)
  | .object [] => [.openBrace, .closeBrace]
  | .object ((k, v) :: rest) =>
    .openBrace :: .string (.of k) :: .colon :: (tokensBy r v ++ memberTokensBy r rest)

/-- The tokens of the items after the first. -/
def itemTokensBy (r : Number → Reading Number) : List Json → List Token
  | [] => [.closeBracket]
  | j :: rest => .comma :: (tokensBy r j ++ itemTokensBy r rest)

/-- The tokens of the members after the first. -/
def memberTokensBy (r : Number → Reading Number) : List (String × Json) → List Token
  | [] => [.closeBrace]
  | (k, v) :: rest =>
    .comma :: .string (.of k) :: .colon :: (tokensBy r v ++ memberTokensBy r rest)

end

end Json

namespace Doc

mutual

/-- The tree of a value, whose numbers are read by `r`. -/
def ofJsonBy (r : Number → Reading Number) : Json → Doc
  | .null => .null
  | .bool b => .bool b
  | .number n => .number (r n)
  | .text s => .string (.of s)
  | .array items => .array (ofItemsBy r items) .closed
  | .object members => .object (ofMembersBy r members) .closed

/-- The trees of items. -/
def ofItemsBy (r : Number → Reading Number) : List Json → List Doc
  | [] => []
  | j :: rest => ofJsonBy r j :: ofItemsBy r rest

/-- The trees of members. -/
def ofMembersBy (r : Number → Reading Number) : List (String × Json) → List (Reading String × Doc)
  | [] => []
  | (k, v) :: rest => (.of k, ofJsonBy r v) :: ofMembersBy r rest

end

end Doc

namespace Json

/-! ### Tokens -/

theorem tokens_of_token {b : UInt8} {rest after : Bytes} {t : Token} (hb : isSpace b = false)
    (h : token b rest = (t, some after)) : tokens (b :: rest) = t :: tokens after := by
  rw [tokens, if_neg (by rw [hb]; exact Bool.false_ne_true)]
  split
  · next t' after' h' =>
    obtain ⟨rfl, hafter⟩ := Prod.mk.inj (h'.symm.trans h)
    rw [Option.some.inj hafter]
  · next t' h' =>
    cases h'.symm.trans h

theorem tokens_mark {b : UInt8} {t : Token} (hb : isSpace b = false) (h : mark? b = some t)
    (rest : Bytes) : tokens (b :: rest) = t :: tokens rest := by
  apply tokens_of_token hb
  rw [token, h]

theorem token_quote (rest : Bytes) :
    token 0x22 rest = (.string (readString rest).1, (readString rest).2) := rfl

theorem token_minus (rest : Bytes) :
    token 0x2D rest = (.number (readNumber true rest).1, (readNumber true rest).2) := rfl

/-- A digit starts a number. -/
theorem token_digit {b : UInt8} (h : isDigit b) (rest : Bytes) : isSpace b = false ∧
    token b rest = (.number (readNumber false (b :: rest)).1, (readNumber false (b :: rest)).2) := by
  -- each mark, word and blank is told apart by not being a digit
  have hne : ∀ c, isDigit c = false → b ≠ c := by
    rintro c hc rfl
    rw [h] at hc
    cases hc
  constructor
  · simp [isSpace, hne 0x20 rfl, hne 0x0A rfl, hne 0x0D rfl, hne 0x09 rfl]
  · have hmark : mark? b = none := by
      rw [mark?, if_neg (hne _ rfl), if_neg (hne _ rfl), if_neg (hne _ rfl), if_neg (hne _ rfl),
        if_neg (hne _ rfl), if_neg (hne _ rfl)]
    have hword : word? b = none := by
      rw [word?, if_neg (hne _ rfl), if_neg (hne _ rfl), if_neg (hne _ rfl)]
    rw [token, hmark, hword]
    dsimp only
    rw [if_neg (hne _ rfl), if_neg (hne _ rfl), if_pos h]

theorem tokens_string (s : String) (rest : Bytes) :
    tokens (bytesOf (stringChars s) ++ rest) = .string (.of s) :: tokens rest := by
  have hbytes : bytesOf (stringChars s) ++ rest =
      0x22 :: (bytesOf (s.toList.flatMap escaped) ++ 0x22 :: rest) := by
    rw [stringChars, bytesOf_append, List.append_assoc]
    rfl
  rw [hbytes]
  apply tokens_of_token rfl
  rw [token_quote, readString_stringChars]

theorem tokens_number {n : Number} (h : Written n) {rest : Bytes} (hrest : EndsNumber rest) :
    tokens (bytesOf (renderNumber n).toList ++ rest) = .number (reread n) :: tokens rest := by
  obtain ⟨negative, w, hw, hn⟩ := h
  rw [reread_eq hw hn, hn]
  have hread : readNumber negative (bytesOf w.chars ++ rest) =
      (⟨(w.text negative).value, .ok ()⟩, some rest) := by
    rw [readNumber, numberText_chars hw negative hrest]
  -- a number is known by its first byte, which is a digit or the sign
  cases negative with
  | false =>
    obtain ⟨b, more, hbytes, hdigit⟩ := hw.exists_bytes
    have hstart : bytesOf (signChars false ++ w.chars) ++ rest = b :: (more ++ rest) := by
      show bytesOf w.chars ++ rest = _
      rw [hbytes]
      rfl
    obtain ⟨hspace, htoken⟩ := token_digit hdigit (more ++ rest)
    rw [hstart]
    apply tokens_of_token hspace
    rw [htoken, ← List.cons_append, ← hbytes, hread]
  | true =>
    show tokens (0x2D :: (bytesOf w.chars ++ rest)) = _
    apply tokens_of_token rfl
    rw [token_minus, hread]

theorem endsNumber_cons {b : UInt8} (h : isDigit b = false ∧ b ≠ 0x2E ∧ b ≠ 0x65 ∧ b ≠ 0x45)
    (rest : Bytes) : EndsNumber (b :: rest) := by
  intro c hc
  rw [← Option.some.inj hc]
  exact h

theorem endsNumber_itemChars (items : List Json) (rest : Bytes) :
    EndsNumber (bytesOf (itemChars items) ++ rest) := by
  cases items with
  | nil => exact endsNumber_cons (by decide) rest
  | cons j items => exact endsNumber_cons (by decide) _

theorem endsNumber_memberChars (members : List (String × Json)) (rest : Bytes) :
    EndsNumber (bytesOf (memberChars members) ++ rest) := by
  cases members with
  | nil => exact endsNumber_cons (by decide) rest
  | cons m members => exact endsNumber_cons (by decide) _

/-- The bytes of a member behind the character before it, and of what follows. -/
theorem bytesOf_member (before : Char) (k : String) (cs ds : List Char) (rest : Bytes) :
    bytesOf (before :: stringChars k ++ ':' :: cs ++ ds) ++ rest =
      bytesOf [before] ++ (bytesOf (stringChars k) ++
        0x3A :: (bytesOf cs ++ (bytesOf ds ++ rest))) := by
  simp only [bytesOf_append, bytesOf_cons, List.append_assoc, List.cons_append]
  rfl

mutual

/-- The text of a value consists of its tokens, whatever stands behind it. -/
theorem tokens_chars : ∀ (j : Json), j.All Written → ∀ {rest : Bytes}, EndsNumber rest →
    tokens (bytesOf (chars j) ++ rest) = tokensBy reread j ++ tokens rest
  | .null, _, rest, _ => tokens_of_token rfl rfl
  | .bool true, _, rest, _ => tokens_of_token rfl rfl
  | .bool false, _, rest, _ => tokens_of_token rfl rfl
  | .number n, h, rest, hrest => tokens_number h hrest
  | .text s, _, rest, _ => tokens_string s rest
  | .array [], _, rest, _ => by
    show tokens (0x5B :: 0x5D :: rest) = _
    rw [tokens_mark rfl rfl, tokens_mark rfl rfl]
    rfl
  | .array (j :: items), h, rest, _ => by
    have hbytes : bytesOf (chars (.array (j :: items))) ++ rest =
        0x5B :: (bytesOf (chars j) ++ (bytesOf (itemChars items) ++ rest)) := by
      rw [← List.append_assoc, ← bytesOf_append]
      rfl
    rw [hbytes, tokens_mark rfl rfl, tokens_chars j h.1 (endsNumber_itemChars items rest),
      tokens_itemChars items h.2, tokensBy]
    simp
  | .object [], _, rest, _ => by
    show tokens (0x7B :: 0x7D :: rest) = _
    rw [tokens_mark rfl rfl, tokens_mark rfl rfl]
    rfl
  | .object ((k, v) :: members), h, rest, _ => by
    have hbytes : bytesOf (chars (.object ((k, v) :: members))) ++ rest =
        0x7B :: (bytesOf (stringChars k) ++
          0x3A :: (bytesOf (chars v) ++ (bytesOf (memberChars members) ++ rest))) :=
      bytesOf_member '\x7b' k (chars v) (memberChars members) rest
    rw [hbytes, tokens_mark rfl rfl, tokens_string, tokens_mark rfl rfl,
      tokens_chars v h.1 (endsNumber_memberChars members rest), tokens_memberChars members h.2,
      tokensBy]
    simp

theorem tokens_itemChars : ∀ (items : List Json), AllItems Written items → ∀ {rest : Bytes},
    tokens (bytesOf (itemChars items) ++ rest) = itemTokensBy reread items ++ tokens rest
  | [], _, rest => tokens_mark rfl rfl rest
  | j :: items, h, rest => by
    have hbytes : bytesOf (itemChars (j :: items)) ++ rest =
        0x2C :: (bytesOf (chars j) ++ (bytesOf (itemChars items) ++ rest)) := by
      rw [← List.append_assoc, ← bytesOf_append]
      rfl
    rw [hbytes, tokens_mark rfl rfl, tokens_chars j h.1 (endsNumber_itemChars items rest),
      tokens_itemChars items h.2, itemTokensBy]
    simp

theorem tokens_memberChars : ∀ (members : List (String × Json)), AllMembers Written members →
    ∀ {rest : Bytes},
      tokens (bytesOf (memberChars members) ++ rest) = memberTokensBy reread members ++ tokens rest
  | [], _, rest => tokens_mark rfl rfl rest
  | (k, v) :: members, h, rest => by
    have hbytes : bytesOf (memberChars ((k, v) :: members)) ++ rest =
        0x2C :: (bytesOf (stringChars k) ++
          0x3A :: (bytesOf (chars v) ++ (bytesOf (memberChars members) ++ rest))) :=
      bytesOf_member ',' k (chars v) (memberChars members) rest
    rw [hbytes, tokens_mark rfl rfl, tokens_string, tokens_mark rfl rfl,
      tokens_chars v h.1 (endsNumber_memberChars members rest), tokens_memberChars members h.2,
      memberTokensBy]
    simp

end

/-- A value starts with a token that closes nothing. -/
theorem exists_tokensBy (r : Number → Reading Number) (j : Json) :
    ∃ t ts, tokensBy r j = t :: ts ∧ t ≠ .closeBracket ∧ t ≠ .closeBrace := by
  cases j with
  | null => exact ⟨_, _, rfl, nofun, nofun⟩
  | bool => exact ⟨_, _, rfl, nofun, nofun⟩
  | number => exact ⟨_, _, rfl, nofun, nofun⟩
  | text => exact ⟨_, _, rfl, nofun, nofun⟩
  | array items => cases items <;> exact ⟨_, _, rfl, nofun, nofun⟩
  | object members => cases members <;> exact ⟨_, _, rfl, nofun, nofun⟩

end Json

namespace Doc

variable (r : Number → Reading Number)

/-! ### Trees -/

theorem ofTokens_openBracket {t : Token} {ts rest : List Token} {items : List Doc} {stop : Stop}
    {h : rest.length ≤ ts.length} (ht : t ≠ .closeBracket)
    (hitems : itemsOfTokens t ts = (items, stop, ⟨rest, h⟩)) :
    ofTokens .openBracket (t :: ts) = (.array items stop, ⟨rest, Nat.le_succ_of_le h⟩) := by
  rw [ofTokens, hitems]
  exact ht

theorem ofTokens_openBrace {t : Token} {ts rest : List Token}
    {members : List (Reading String × Doc)} {stop : Stop} {h : rest.length ≤ ts.length}
    (ht : t ≠ .closeBrace) (hmembers : membersOfTokens t ts = (members, stop, ⟨rest, h⟩)) :
    ofTokens .openBrace (t :: ts) = (.object members stop, ⟨rest, Nat.le_succ_of_le h⟩) := by
  rw [ofTokens, hmembers]
  exact ht

theorem itemsOfTokens_closeBracket {t : Token} {ts rest : List Token} {item : Doc}
    {h : (Token.closeBracket :: rest).length ≤ ts.length}
    (hitem : ofTokens t ts = (item, ⟨.closeBracket :: rest, h⟩)) :
    itemsOfTokens t ts = ([item], .closed, ⟨rest, Nat.le_of_succ_le h⟩) := by
  rw [itemsOfTokens, hitem]

theorem itemsOfTokens_comma {t u : Token} {ts us rest : List Token} {item : Doc}
    {items : List Doc} {stop : Stop} {h : (Token.comma :: u :: us).length ≤ ts.length}
    {h' : rest.length ≤ us.length} (hu : u ≠ .closeBracket)
    (hitem : ofTokens t ts = (item, ⟨.comma :: u :: us, h⟩))
    (hitems : itemsOfTokens u us = (items, stop, ⟨rest, h'⟩)) :
    ∃ h, itemsOfTokens t ts = (item :: items, stop, ⟨rest, h⟩) := by
  refine ⟨Nat.le_trans h' (by simp at h; omega), ?_⟩
  rw [itemsOfTokens, hitem]
  cases u
  case closeBracket => exact absurd rfl hu
  all_goals
    dsimp only
    rw [hitems]

theorem membersOfTokens_closeBrace {key : Reading String} {t : Token} {ts rest : List Token}
    {value : Doc} {h : (Token.closeBrace :: rest).length ≤ ts.length}
    (hvalue : ofTokens t ts = (value, ⟨.closeBrace :: rest, h⟩)) :
    ∃ h, membersOfTokens (.string key) (.colon :: t :: ts) = ([(key, value)], .closed, ⟨rest, h⟩) := by
  refine ⟨by simp at h ⊢; omega, ?_⟩
  rw [membersOfTokens, hvalue]

theorem membersOfTokens_comma {key : Reading String} {t u : Token} {ts us rest : List Token}
    {value : Doc} {members : List (Reading String × Doc)} {stop : Stop}
    {h : (Token.comma :: u :: us).length ≤ ts.length} {h' : rest.length ≤ us.length}
    (hu : u ≠ .closeBrace) (hvalue : ofTokens t ts = (value, ⟨.comma :: u :: us, h⟩))
    (hmembers : membersOfTokens u us = (members, stop, ⟨rest, h'⟩)) :
    ∃ h, membersOfTokens (.string key) (.colon :: t :: ts) =
      ((key, value) :: members, stop, ⟨rest, h⟩) := by
  refine ⟨Nat.le_trans h' (by simp at h ⊢; omega), ?_⟩
  rw [membersOfTokens, hvalue]
  cases u
  case closeBrace => exact absurd rfl hu
  all_goals
    dsimp only
    rw [hmembers]

mutual

/-- The tokens of a value have its tree, whatever stands behind them. -/
theorem ofTokens_tokensBy : ∀ (j : Json) {t : Token} {ts : List Token} (rest : List Token),
    tokensBy r j = t :: ts →
      ∃ h, ofTokens t (ts ++ rest) = (ofJsonBy r j, ⟨rest, h⟩)
  | .null, t, ts, rest, heq => by
    obtain ⟨rfl, rfl⟩ := List.cons.inj heq
    exact ⟨Nat.le_refl _, by rw [ofTokens]; rfl⟩
  | .bool b, t, ts, rest, heq => by
    obtain ⟨rfl, rfl⟩ := List.cons.inj heq
    exact ⟨Nat.le_refl _, by rw [ofTokens]; rfl⟩
  | .number n, t, ts, rest, heq => by
    obtain ⟨rfl, rfl⟩ := List.cons.inj heq
    exact ⟨Nat.le_refl _, by rw [ofTokens]; rfl⟩
  | .text s, t, ts, rest, heq => by
    obtain ⟨rfl, rfl⟩ := List.cons.inj heq
    exact ⟨Nat.le_refl _, by rw [ofTokens]; rfl⟩
  | .array [], t, ts, rest, heq => by
    obtain ⟨rfl, rfl⟩ := List.cons.inj heq
    refine ⟨Nat.le_succ _, ?_⟩
    show ofTokens .openBracket (.closeBracket :: rest) = _
    rw [ofTokens]
    rfl
  | .array (j :: items), t, ts, rest, heq => by
    obtain ⟨rfl, rfl⟩ := List.cons.inj heq
    obtain ⟨u, us, hj, hbracket, -⟩ := exists_tokensBy r j
    obtain ⟨h, hitems⟩ := itemsOfTokens_tokensBy j items rest hj
    rw [hj, List.append_assoc, List.cons_append]
    exact ⟨_, ofTokens_openBracket hbracket hitems⟩
  | .object [], t, ts, rest, heq => by
    obtain ⟨rfl, rfl⟩ := List.cons.inj heq
    refine ⟨Nat.le_succ _, ?_⟩
    show ofTokens .openBrace (.closeBrace :: rest) = _
    rw [ofTokens]
    rfl
  | .object ((k, v) :: members), t, ts, rest, heq => by
    obtain ⟨rfl, rfl⟩ := List.cons.inj heq
    obtain ⟨h, hmembers⟩ := membersOfTokens_tokensBy k v members rest
    rw [List.cons_append, List.cons_append, List.append_assoc]
    exact ⟨_, ofTokens_openBrace nofun hmembers⟩
termination_by j => sizeOf j

theorem itemsOfTokens_tokensBy : ∀ (j : Json) (items : List Json) {t : Token}
    {ts : List Token} (rest : List Token), tokensBy r j = t :: ts →
      ∃ h, itemsOfTokens t (ts ++ (itemTokensBy r items ++ rest)) =
        (ofItemsBy r (j :: items), .closed, ⟨rest, h⟩)
  | j, [], t, ts, rest, heq => by
    obtain ⟨h, hitem⟩ := ofTokens_tokensBy j (.closeBracket :: rest) heq
    exact ⟨_, itemsOfTokens_closeBracket hitem⟩
  | j, j' :: items, t, ts, rest, heq => by
    obtain ⟨u, us, hj, hbracket, -⟩ := exists_tokensBy r j'
    obtain ⟨h', hitems⟩ := itemsOfTokens_tokensBy j' items rest hj
    obtain ⟨h, hitem⟩ := ofTokens_tokensBy j (.comma :: u :: (us ++ (itemTokensBy r items ++ rest))) heq
    have hlist : itemTokensBy r (j' :: items) ++ rest =
        .comma :: u :: (us ++ (itemTokensBy r items ++ rest)) := by
      rw [itemTokensBy, hj]
      simp
    rw [hlist]
    exact itemsOfTokens_comma hbracket hitem hitems
termination_by j items => sizeOf j + sizeOf items

theorem membersOfTokens_tokensBy : ∀ (k : String) (v : Json) (members : List (String × Json))
    (rest : List Token),
      ∃ h, membersOfTokens (.string (.of k))
          (.colon :: (tokensBy r v ++ (memberTokensBy r members ++ rest))) =
        (ofMembersBy r ((k, v) :: members), .closed, ⟨rest, h⟩)
  | k, v, [], rest => by
    obtain ⟨t, ts, hv, -, -⟩ := exists_tokensBy r v
    obtain ⟨h, hvalue⟩ := ofTokens_tokensBy v (.closeBrace :: rest) hv
    rw [hv]
    exact membersOfTokens_closeBrace hvalue
  | k, v, (k', v') :: members, rest => by
    obtain ⟨t, ts, hv, -, -⟩ := exists_tokensBy r v
    obtain ⟨h', hmembers⟩ := membersOfTokens_tokensBy k' v' members rest
    obtain ⟨h, hvalue⟩ := ofTokens_tokensBy v (.comma :: .string (.of k') :: .colon ::
      (tokensBy r v' ++ (memberTokensBy r members ++ rest))) hv
    have hlist : memberTokensBy r ((k', v') :: members) ++ rest =
        .comma :: .string (.of k') :: .colon ::
          (tokensBy r v' ++ (memberTokensBy r members ++ rest)) := by
      rw [memberTokensBy]
      simp
    rw [hv, hlist]
    refine membersOfTokens_comma ?_ hvalue hmembers
    exact nofun
termination_by _ v members => sizeOf v + sizeOf members

end

/-- The text of a value has the tree of the value, and nothing behind it. -/
theorem ofBytes_render {j : Json} (h : j.All Written) :
    ofBytes (Text.utf8 j.render) = (ofJsonBy reread j, false) := by
  have htokens : tokens (Text.utf8 j.render) = tokensBy reread j := by
    have hend : EndsNumber [] := nofun
    have hchars := tokens_chars j h hend
    rw [List.append_nil, tokens.eq_1, List.append_nil] at hchars
    rw [render, Text.utf8_ofList]
    exact hchars
  obtain ⟨t, ts, hj, -, -⟩ := exists_tokensBy reread j
  obtain ⟨hle, hdoc⟩ := ofTokens_tokensBy reread j [] hj
  rw [ofBytes, htokens, hj, ← List.append_nil ts]
  dsimp only
  rw [hdoc]
  rfl

end Doc

end SchemaForge
