import SchemaForge.Json.Printer
import SchemaForge.Json.Token
import SchemaForge.Proofs.Except

/-!
# Strings are read as they are written

Every character has an escape that is read back as the character, so a string in quotation marks is
read back whatever stands behind it.
-/

namespace SchemaForge.Json

/-- The bytes of some characters. -/
abbrev bytesOf (cs : List Char) : Bytes := cs.flatMap String.utf8EncodeChar

theorem bytesOf_append (cs ds : List Char) : bytesOf (cs ++ ds) = bytesOf cs ++ bytesOf ds :=
  List.flatMap_append

theorem bytesOf_cons (c : Char) (cs : List Char) :
    bytesOf (c :: cs) = String.utf8EncodeChar c ++ bytesOf cs :=
  List.flatMap_cons

/-- A character of ASCII is one byte. -/
theorem utf8EncodeChar_of_lt {c : Char} (h : c.toNat < 0x80) :
    String.utf8EncodeChar c = [UInt8.ofNat c.toNat] :=
  if_pos (Nat.le_of_lt_succ h)

/-- The bytes of other characters are none of ASCII. -/
theorem le_of_mem_utf8EncodeChar {c : Char} (h : 0x80 ≤ c.toNat) {b : UInt8}
    (hb : b ∈ String.utf8EncodeChar c) : 0x80 ≤ b.toNat := by
  have hv : ¬c.val.toNat ≤ 0x7f := Nat.not_le_of_lt h
  have hlong : ∀ n, 0x80 ≤ n → n < 0x100 → 0x80 ≤ (UInt8.ofNat n).toNat := by
    intro n hn hlt
    rw [UInt8.toNat_ofNat']
    omega
  unfold String.utf8EncodeChar at hb
  dsimp only at hb
  rw [if_neg hv] at hb
  -- each byte is built from a few bits of the code point and a mark above them
  split at hb
  · simp only [List.mem_cons, List.not_mem_nil, or_false] at hb
    rcases hb with rfl | rfl
    all_goals exact hlong _ (by omega) (by omega)
  · split at hb
    · simp only [List.mem_cons, List.not_mem_nil, or_false] at hb
      rcases hb with rfl | rfl | rfl
      all_goals exact hlong _ (by omega) (by omega)
    · simp only [List.mem_cons, List.not_mem_nil, or_false] at hb
      rcases hb with rfl | rfl | rfl | rfl
      all_goals exact hlong _ (by omega) (by omega)

/-! ### Characters -/

/-- Can the byte stand in a string as it is? -/
def Plain (b : UInt8) : Prop := b ≠ 0x22 ∧ b ≠ 0x5C ∧ ¬b < 0x20

theorem stringPieces_plain {bytes : Bytes} (h : ∀ b ∈ bytes, Plain b) (rest : Bytes) :
    stringPieces (bytes ++ rest) =
      (bytes.map .byte ++ (stringPieces rest).1, (stringPieces rest).2) := by
  induction bytes with
  | nil => rfl
  | cons b bytes ih =>
    obtain ⟨⟨hquote, hslash, hcontrol⟩, hrest⟩ := List.forall_mem_cons.mp h
    rw [List.cons_append, stringPieces.eq_def]
    dsimp only
    rw [if_neg hquote, if_neg hslash, if_neg hcontrol, ih hrest]
    rfl

theorem plain_of_mem_utf8EncodeChar {c : Char} (hquote : c ≠ '"') (hslash : c ≠ '\\')
    (hcontrol : ¬c.toNat < 0x20) {b : UInt8} (hb : b ∈ String.utf8EncodeChar c) : Plain b := by
  have hne : ∀ d : Char, c ≠ d → c.toNat ≠ d.toNat :=
    fun d hcd heq => hcd (Char.ext (UInt32.toNat_inj.mp heq))
  have hplain : ∀ b : UInt8, 0x20 ≤ b.toNat → b.toNat ≠ 0x22 → b.toNat ≠ 0x5C → Plain b := by
    refine fun b hle hq hs => ⟨?_, ?_, ?_⟩
    · rintro rfl
      exact hq rfl
    · rintro rfl
      exact hs rfl
    · rw [UInt8.lt_iff_toNat_lt]
      exact Nat.not_lt_of_le hle
  by_cases hascii : c.toNat < 0x80
  · rw [utf8EncodeChar_of_lt hascii, List.mem_singleton] at hb
    have hvalue : b.toNat = c.toNat := by
      rw [hb, UInt8.toNat_ofNat']
      omega
    apply hplain b
    · omega
    · exact hvalue ▸ hne '"' hquote
    · exact hvalue ▸ hne '\\' hslash
  · have hle := le_of_mem_utf8EncodeChar (Nat.le_of_not_lt hascii) hb
    exact hplain b (by omega) (by omega) (by omega)

theorem stringPieces_shortEscape {e b : UInt8} (h : shortEscape? e = some b) (rest : Bytes) :
    stringPieces (0x5C :: e :: rest) = (.byte b :: (stringPieces rest).1, (stringPieces rest).2) := by
  have hunit : e ≠ 0x75 := by
    rintro rfl
    cases h
  rw [stringPieces.eq_def]
  dsimp only
  rw [if_neg (by decide), if_pos rfl, if_neg hunit, h]

theorem stringPieces_unitEscape {h₁ h₂ h₃ h₄ : UInt8} {n : Nat} (h : hex4? h₁ h₂ h₃ h₄ = some n)
    (rest : Bytes) :
    stringPieces (0x5C :: 0x75 :: h₁ :: h₂ :: h₃ :: h₄ :: rest) =
      (.unit n :: (stringPieces rest).1, (stringPieces rest).2) := by
  rw [stringPieces.eq_def]
  dsimp only
  rw [if_neg (by decide), if_pos rfl, if_pos rfl, h]

/-- The escape of a control character is that of its number. -/
theorem hex4?_hexDigit {n : Nat} (h : n < 0x20) :
    hex4? 0x30 0x30 (UInt8.ofNat (hexDigit (n / 16)).toNat) (UInt8.ofNat (hexDigit (n % 16)).toNat)
      = some n := by
  revert n
  decide

theorem hexDigit_lt {n : Nat} (h : n < 16) : (hexDigit n).toNat < 0x80 := by
  revert n
  decide

/-- Are these the pieces that a character is read as? -/
structure Pieces (c : Char) (ps : List Piece) : Prop where
  read : ∀ rest, stringPieces (bytesOf (escaped c) ++ rest) =
    (ps ++ (stringPieces rest).1, (stringPieces rest).2)
  bytes : ∀ stop more, pieceBytes stop (ps ++ more) =
    (String.utf8EncodeChar c ++ ·) <$> pieceBytes stop more

/-- A byte stands for itself. -/
theorem pieceBytes_map_byte (stop : StringEnd) (bytes : Bytes) (more : List Piece) :
    pieceBytes stop (bytes.map .byte ++ more) = (bytes ++ ·) <$> pieceBytes stop more := by
  induction bytes with
  | nil => exact (id_map (pieceBytes stop more)).symm
  | cons b bytes ih =>
    rw [List.map_cons, List.cons_append, pieceBytes, ih, ← comp_map]
    rfl

/-- A short escape is read as the byte of the character. -/
theorem pieces_of_short {c : Char} {e b : UInt8} (h : shortEscape? e = some b)
    (hescaped : bytesOf (escaped c) = [0x5C, e]) (hc : String.utf8EncodeChar c = [b]) :
    Pieces c [.byte b] where
  read rest := by
    rw [hescaped]
    exact stringPieces_shortEscape h rest
  bytes stop more := by
    rw [hc]
    exact pieceBytes_map_byte stop [b] more

/-- An escape with the number of a control character is read as that number. -/
theorem pieces_of_control {c : Char} (h : c.toNat < 0x20) (hescaped : escaped c =
      ['\\', 'u', '0', '0', hexDigit (c.toNat / 16), hexDigit (c.toNat % 16)]) :
    Pieces c [.unit c.toNat] where
  read rest := by
    have hbytes : bytesOf (escaped c) = [0x5C, 0x75, 0x30, 0x30,
        UInt8.ofNat (hexDigit (c.toNat / 16)).toNat,
        UInt8.ofNat (hexDigit (c.toNat % 16)).toNat] := by
      rw [hescaped]
      simp only [bytesOf_cons, utf8EncodeChar_of_lt (hexDigit_lt (Nat.mod_lt c.toNat (by decide))),
        utf8EncodeChar_of_lt (hexDigit_lt (show c.toNat / 16 < 16 by omega))]
      rfl
    rw [hbytes]
    exact stringPieces_unitEscape (hex4?_hexDigit h) rest
  bytes stop more := by
    rw [List.singleton_append, pieceBytes.eq_def]
    dsimp only
    rw [if_neg (by omega), if_neg (by omega), codeBytes, Char.ofNat_toNat]

/-- A character that is not escaped is read as its bytes. -/
theorem pieces_of_plain {c : Char} (hquote : c ≠ '"') (hslash : c ≠ '\\')
    (hcontrol : ¬c.toNat < 0x20) (hescaped : escaped c = [c]) :
    Pieces c ((String.utf8EncodeChar c).map .byte) where
  read rest := by
    rw [hescaped, bytesOf, List.flatMap_singleton]
    exact stringPieces_plain (fun b hb => plain_of_mem_utf8EncodeChar hquote hslash hcontrol hb) rest
  bytes stop more := pieceBytes_map_byte stop _ more

/-- Every character is read back from its escape. -/
theorem exists_pieces (c : Char) : ∃ ps, Pieces c ps := by
  -- the characters with a short escape first, as some of them are control characters too
  by_cases hquote : c = '"'
  · exact hquote ▸ ⟨_, pieces_of_short (e := 0x22) rfl rfl rfl⟩
  by_cases hslash : c = '\\'
  · exact hslash ▸ ⟨_, pieces_of_short (e := 0x5C) rfl rfl rfl⟩
  by_cases hb : c = '\x08'
  · exact hb ▸ ⟨_, pieces_of_short (e := 0x62) rfl rfl rfl⟩
  by_cases hf : c = '\x0c'
  · exact hf ▸ ⟨_, pieces_of_short (e := 0x66) rfl rfl rfl⟩
  by_cases hn : c = '\n'
  · exact hn ▸ ⟨_, pieces_of_short (e := 0x6E) rfl rfl rfl⟩
  by_cases hr : c = '\r'
  · exact hr ▸ ⟨_, pieces_of_short (e := 0x72) rfl rfl rfl⟩
  by_cases ht : c = '\t'
  · exact ht ▸ ⟨_, pieces_of_short (e := 0x74) rfl rfl rfl⟩
  by_cases hcontrol : c.toNat < 0x20
  · refine ⟨_, pieces_of_control hcontrol ?_⟩
    simp only [escaped, hquote, hslash, hb, hf, hn, hr, ht, hcontrol, if_true, if_false]
  · refine ⟨_, pieces_of_plain hquote hslash hcontrol ?_⟩
    simp only [escaped, hquote, hslash, hb, hf, hn, hr, ht, hcontrol, if_false]

/-- Characters are read back one by one, up to the closing quotation mark. -/
theorem exists_stringPieces (cs : List Char) (rest : Bytes) :
    ∃ ps, stringPieces (bytesOf (cs.flatMap escaped) ++ 0x22 :: rest) = (ps, .closed, rest) ∧
      pieceBytes .closed ps = .ok (bytesOf cs) := by
  induction cs with
  | nil => exact ⟨[], by rw [stringPieces.eq_def]; rfl, rfl⟩
  | cons c cs ih =>
    obtain ⟨ps, hread, hbytes⟩ := ih
    obtain ⟨here, hhere⟩ := exists_pieces c
    refine ⟨here ++ ps, ?_, ?_⟩
    · rw [List.flatMap_cons, bytesOf_append, List.append_assoc, hhere.read, hread]
    · rw [hhere.bytes, hbytes, bytesOf_cons]
      rfl

/-- A string is read back from its text. -/
theorem readString_stringChars (s : String) (rest : Bytes) :
    readString (bytesOf (s.toList.flatMap escaped) ++ 0x22 :: rest) = (.of s, some rest) := by
  obtain ⟨ps, hread, hbytes⟩ := exists_stringPieces s.toList rest
  have htext : pieceText .closed ps = .ok s := by
    have hs : Text.ofUtf8? (bytesOf s.toList) = some s := Text.ofUtf8?_utf8 s
    simp only [pieceText, hbytes, ok_bind, hs, pure_eq_ok]
  rw [readString, hread]
  dsimp only
  rw [htext]
  rfl

end SchemaForge.Json
