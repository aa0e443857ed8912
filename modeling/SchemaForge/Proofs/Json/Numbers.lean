import SchemaForge.Proofs.Json.Strings
import SchemaForge.Proofs.Text.Characters

/-!
# Numbers are read as they are written

The text of a number is taken apart into its digits whatever stands behind it, as long as that cannot
be taken for more of the number. Whole numbers are read back as they were; other numbers have a text
that says what is read back.
-/

namespace SchemaForge.Json

/-! ### Digits -/

/-- Are all characters decimal digits? -/
def Digits (cs : List Char) : Prop := ∀ c ∈ cs, c.isDigit

/-- The values of digits. -/
abbrev valuesOf (cs : List Char) : List Nat := cs.map fun c => c.toNat - '0'.toNat

/-- Does a text go on with something else than a digit? -/
def NoDigit (rest : Bytes) : Prop := ∀ b ∈ rest.head?, isDigit b = false

theorem digits_toDigits (n : Nat) : Digits (Nat.toDigits 10 n) :=
  fun _ hc => Nat.isDigit_of_mem_toDigits (by decide) (by decide) hc

theorem digits_replicate (n : Nat) : Digits (List.replicate n '0') := by
  intro c hc
  rw [List.eq_of_mem_replicate hc]
  rfl

theorem Digits.append {cs ds : List Char} (hcs : Digits cs) (hds : Digits ds) : Digits (cs ++ ds) :=
  List.forall_mem_append.mpr ⟨hcs, hds⟩

/-- Only zero is written with a zero in front. -/
theorem head?_toDigits {n : Nat} (h : (Nat.toDigits 10 n).head? = some '0') : n = 0 := by
  induction n using Nat.strongRecOn with
  | ind n ih =>
    by_cases hn : n < 10
    · rw [Nat.toDigits_of_lt_base hn, List.head?_cons, Option.some.injEq] at h
      exact Nat.digitChar_eq_zero.mp h
    · obtain ⟨d, ds, hds⟩ := List.exists_cons_of_ne_nil (Nat.toDigits_ne_nil (n := n / 10) (b := 10))
      rw [Nat.toDigits_of_base_le (by decide) (Nat.le_of_not_lt hn), hds] at h
      have hzero : n / 10 = 0 := ih (n / 10) (by omega) (hds ▸ h)
      omega

section Digits

variable {c : Char} {cs : List Char} {rest : Bytes}

theorem utf8EncodeChar_of_isDigit (h : c.isDigit) :
    String.utf8EncodeChar c = [UInt8.ofNat c.toNat] ∧ (UInt8.ofNat c.toNat).toNat = c.toNat ∧
      isDigit (UInt8.ofNat c.toNat) ∧
      digitValue (UInt8.ofNat c.toNat) = c.toNat - '0'.toNat := by
  have hrange := Text.isDigit_iff.mp h
  have hbyte : (UInt8.ofNat c.toNat).toNat = c.toNat := by
    rw [UInt8.toNat_ofNat']
    omega
  refine ⟨utf8EncodeChar_of_lt (by omega), hbyte, ?_, ?_⟩
  · simp only [isDigit, Bool.and_eq_true, decide_eq_true_eq, UInt8.le_iff_toNat_le, hbyte]
    exact hrange
  · rw [digitValue, hbyte]
    rfl

theorem takeWhile_isDigit (h : NoDigit rest) : rest.takeWhile isDigit = [] := by
  cases rest with
  | nil => rfl
  | cons b rest => exact List.takeWhile_cons_of_neg (by rw [h b rfl]; exact nofun)

theorem dropWhile_isDigit (h : NoDigit rest) : rest.dropWhile isDigit = rest := by
  cases rest with
  | nil => rfl
  | cons b rest => exact List.dropWhile_cons_of_neg (by rw [h b rfl]; exact nofun)

theorem bytesOf_digits (h : Digits cs) :
    (∀ b ∈ bytesOf cs, isDigit b) ∧ (bytesOf cs).map digitValue = valuesOf cs := by
  induction cs with
  | nil => exact ⟨nofun, rfl⟩
  | cons c cs ih =>
    obtain ⟨hc, hcs⟩ := List.forall_mem_cons.mp h
    obtain ⟨hbytes, -, hdigit, hvalue⟩ := utf8EncodeChar_of_isDigit hc
    obtain ⟨hall, hvalues⟩ := ih hcs
    rw [bytesOf_cons, hbytes, List.singleton_append]
    refine ⟨List.forall_mem_cons.mpr ⟨hdigit, hall⟩, ?_⟩
    rw [List.map_cons, hvalue, hvalues]
    rfl

/-- All digits are taken, and nothing behind them. -/
theorem digits_bytesOf (h : Digits cs) (hrest : NoDigit rest) :
    digits (bytesOf cs ++ rest) = (valuesOf cs, rest) := by
  obtain ⟨hall, hvalues⟩ := bytesOf_digits h
  rw [digits, List.takeWhile_append_of_pos hall, List.dropWhile_append_of_pos hall,
    takeWhile_isDigit hrest, dropWhile_isDigit hrest, List.append_nil, hvalues]

theorem digitsValue_valuesOf (cs : List Char) :
    digitsValue (valuesOf cs) = Nat.ofDigitChars 10 cs 0 := by
  rw [digitsValue, List.foldl_map]
  rfl

theorem le_ofDigitChars (cs : List Char) (n : Nat) : n ≤ Nat.ofDigitChars 10 cs n := by
  rw [Nat.ofDigitChars_eq_ofDigitChars_zero]
  exact Nat.le_add_right_of_le (Nat.le_mul_of_pos_left n (Nat.pow_pos (by decide)))

theorem absorb_valuesOf {cs : List Char} {n : Nat} (h : Nat.ofDigitChars 10 cs n < UInt64.size) :
    absorb n (valuesOf cs) = (Nat.ofDigitChars 10 cs n, cs.length) := by
  induction cs generalizing n with
  | nil => rfl
  | cons c cs ih =>
    have hnext : n * 10 + (c.toNat - '0'.toNat) = 10 * n + (c.toNat - '0'.toNat) := by omega
    have hfits : 10 * n + (c.toNat - '0'.toNat) < UInt64.size :=
      Nat.lt_of_le_of_lt (le_ofDigitChars cs _) h
    rw [valuesOf, List.map_cons, absorb, hnext, if_pos hfits, ih h]
    rfl

end Digits

/-! ### Numbers -/

/-- A number as characters: digits, digits behind a point, and a sign with the digits of an
exponent. -/
structure NumberChars where
  whole : List Char
  fraction : Option (List Char)
  exponent : Option (Bool × List Char)

namespace NumberChars

/-- The point and the digits behind it. -/
def fractionPart : Option (List Char) → List Char
  | none => []
  | some ds => '.' :: ds

/-- The exponent with its sign. -/
def exponentPart : Option (Bool × List Char) → List Char
  | none => []
  | some (negative, ds) => 'e' :: (if negative then '-' else '+') :: ds

/-- The characters without the sign. -/
def chars (w : NumberChars) : List Char :=
  w.whole ++ (fractionPart w.fraction ++ exponentPart w.exponent)

/-- Are these the characters of a number? -/
structure WellFormed (w : NumberChars) : Prop where
  digits : Digits w.whole
  some : w.whole ≠ []
  zero : w.whole.head? = Option.some '0' → w.whole = ['0']
  fraction : ∀ ds ∈ w.fraction, Digits ds ∧ ds ≠ []
  exponent : ∀ e ∈ w.exponent, Digits e.2 ∧ e.2 ≠ []

/-- What the characters say. -/
def text (w : NumberChars) (negative : Bool) : NumberText where
  negative := negative
  whole := valuesOf w.whole
  fraction := (w.fraction.map valuesOf).getD []
  exponent := (w.exponent.map fun e =>
    if e.1 then -(digitsValue (valuesOf e.2) : Int) else digitsValue (valuesOf e.2)).getD 0
  plain := w.fraction.isNone && w.exponent.isNone

end NumberChars

/-- Does a text go on with something that is no part of a number? -/
def EndsNumber (rest : Bytes) : Prop :=
  ∀ b ∈ rest.head?, isDigit b = false ∧ b ≠ 0x2E ∧ b ≠ 0x65 ∧ b ≠ 0x45

section Numbers

variable {cs : List Char} {rest : Bytes}

theorem EndsNumber.noDigit (h : EndsNumber rest) : NoDigit rest := fun b hb => (h b hb).1

theorem wholeDigits_bytesOf (hdigits : Digits cs) (hsome : cs ≠ [])
    (hzero : cs.head? = some '0' → cs = ['0']) (hrest : NoDigit rest) :
    wholeDigits (bytesOf cs ++ rest) = .ok (valuesOf cs, rest) := by
  obtain ⟨c, cs, rfl⟩ := List.exists_cons_of_ne_nil hsome
  obtain ⟨hbytes, hbyte, hdigit, -⟩ :=
    utf8EncodeChar_of_isDigit (List.forall_mem_cons.mp hdigits).1
  by_cases hc : c = '0'
  · obtain rfl : cs = [] := by
      rw [hc] at hzero
      exact (List.cons.inj (hzero rfl)).2
    subst hc
    show wholeDigits (0x30 :: rest) = _
    rw [wholeDigits, if_pos rfl, if_neg]
    · rfl
    · cases rest with
      | nil => exact Bool.false_ne_true
      | cons b rest =>
        rw [List.head?_cons, Option.any_some, hrest b rfl]
        exact Bool.false_ne_true
  · have hne : UInt8.ofNat c.toNat ≠ 0x30 := by
      intro heq
      have hcode : c.toNat = '0'.toNat := hbyte.symm.trans (congrArg UInt8.toNat heq)
      exact hc (Char.ext (UInt32.toNat_inj.mp hcode))
    have hall := digits_bytesOf hdigits hrest
    rw [bytesOf_cons, hbytes, List.append_assoc, List.singleton_append] at hall ⊢
    rw [wholeDigits, if_neg hne, if_pos hdigit, hall]

theorem fractionDigits_none (h : EndsNumber rest ∨ rest.head? = some 0x65) :
    fractionDigits rest = .ok (none, rest) := by
  cases rest with
  | nil => rfl
  | cons b rest =>
    have hpoint : b ≠ 0x2E := by
      rcases h with h | h
      · exact (h b rfl).2.1
      · rw [Option.some.inj h]
        decide
    exact if_neg hpoint

theorem fractionDigits_bytesOf (hdigits : Digits cs) (hsome : cs ≠ []) (hrest : NoDigit rest) :
    fractionDigits (bytesOf ('.' :: cs) ++ rest) = .ok (some (valuesOf cs), rest) := by
  show fractionDigits (0x2E :: (bytesOf cs ++ rest)) = _
  have hvalues : (valuesOf cs).isEmpty = false := by simpa using hsome
  rw [fractionDigits, if_pos rfl, digits_bytesOf hdigits hrest]
  dsimp only
  rw [hvalues]
  rfl

theorem exponentDigits_none (h : EndsNumber rest) : exponentDigits rest = .ok (none, rest) := by
  cases rest with
  | nil => rfl
  | cons b rest =>
    obtain ⟨-, -, he, hE⟩ := h b rfl
    exact if_neg (not_or.mpr ⟨he, hE⟩)

theorem exponentDigits_bytesOf (negative : Bool) (hdigits : Digits cs) (hsome : cs ≠ [])
    (hrest : NoDigit rest) :
    exponentDigits (bytesOf ('e' :: (if negative then '-' else '+') :: cs) ++ rest) =
      .ok (some (if negative then -(digitsValue (valuesOf cs) : Int)
        else digitsValue (valuesOf cs)), rest) := by
  have hvalues : (valuesOf cs).isEmpty = false := by simpa using hsome
  have hsign : ∃ b, String.utf8EncodeChar (if negative then '-' else '+') = [b] ∧
      ∀ more, exponentSign (b :: more) = (negative, more) := by
    cases negative with
    | false => exact ⟨0x2B, rfl, fun more => rfl⟩
    | true => exact ⟨0x2D, rfl, fun more => rfl⟩
  obtain ⟨b, hb, hsign⟩ := hsign
  rw [bytesOf_cons, bytesOf_cons, hb]
  show exponentDigits (0x65 :: b :: (bytesOf cs ++ rest)) = _
  rw [exponentDigits, if_pos (.inl rfl), hsign]
  dsimp only
  rw [digits_bytesOf hdigits hrest]
  dsimp only
  rw [hvalues]
  rfl

/-- What stands behind the fraction is no part of it. -/
theorem ends_exponentPart (exponent : Option (Bool × List Char)) (hrest : EndsNumber rest) :
    EndsNumber (bytesOf (NumberChars.exponentPart exponent) ++ rest) ∨
      (bytesOf (NumberChars.exponentPart exponent) ++ rest).head? = some 0x65 := by
  cases exponent with
  | none => exact .inl hrest
  | some e => exact .inr rfl

theorem noDigit_of_ends (h : EndsNumber rest ∨ rest.head? = some 0x65) : NoDigit rest := by
  rcases h with hends | he
  · exact hends.noDigit
  · intro b hb
    rw [he] at hb
    rw [← Option.some.inj hb]
    rfl

/-- The exponent is read as what its characters say. -/
theorem exponentDigits_exponentPart {exponent : Option (Bool × List Char)}
    (h : ∀ e ∈ exponent, Digits e.2 ∧ e.2 ≠ []) (hrest : EndsNumber rest) :
    exponentDigits (bytesOf (NumberChars.exponentPart exponent) ++ rest) =
      .ok (exponent.map fun e =>
        if e.1 then -(digitsValue (valuesOf e.2) : Int) else digitsValue (valuesOf e.2), rest) := by
  cases exponent with
  | none => exact exponentDigits_none hrest
  | some e =>
    obtain ⟨hdigits, hsome⟩ := h e rfl
    exact exponentDigits_bytesOf e.1 hdigits hsome hrest.noDigit

/-- The fraction is read as its digits. -/
theorem fractionDigits_fractionPart {fraction : Option (List Char)}
    (h : ∀ ds ∈ fraction, Digits ds ∧ ds ≠ [])
    (hrest : EndsNumber rest ∨ rest.head? = some 0x65) :
    fractionDigits (bytesOf (NumberChars.fractionPart fraction) ++ rest) =
      .ok (fraction.map valuesOf, rest) := by
  cases fraction with
  | none => exact fractionDigits_none hrest
  | some ds =>
    obtain ⟨hdigits, hsome⟩ := h ds rfl
    exact fractionDigits_bytesOf hdigits hsome (noDigit_of_ends hrest)

theorem noDigit_fractionPart (fraction : Option (List Char)) (hrest : NoDigit rest) :
    NoDigit (bytesOf (NumberChars.fractionPart fraction) ++ rest) := by
  cases fraction with
  | none => exact hrest
  | some ds =>
    intro b hb
    rw [← Option.some.inj hb]
    rfl

/-- The characters of a number are read as what they say, up to their end. -/
theorem numberText_chars {w : NumberChars} (h : w.WellFormed) (negative : Bool)
    (hrest : EndsNumber rest) :
    numberText negative (bytesOf w.chars ++ rest) = .ok (w.text negative, rest) := by
  obtain ⟨whole, fraction, exponent⟩ := w
  have hbehind := ends_exponentPart exponent hrest
  have hpoint := noDigit_fractionPart fraction (noDigit_of_ends hbehind)
  rw [NumberChars.chars, bytesOf_append, bytesOf_append, List.append_assoc, List.append_assoc,
    numberText, wholeDigits_bytesOf h.digits h.some h.zero hpoint]
  simp only [ok_bind, pure_eq_ok, fractionDigits_fractionPart h.fraction hbehind,
    exponentDigits_exponentPart h.exponent hrest, NumberChars.text, Option.isNone_map]

/-! ### Numbers as they are written -/

/-- The characters of a sign. -/
def signChars (negative : Bool) : List Char := if negative then ['-'] else []

/-- Is the number written as the grammar has it? -/
def Written (n : Number) : Prop :=
  ∃ negative w, NumberChars.WellFormed w ∧ (renderNumber n).toList = signChars negative ++ w.chars

/-- The reading of a number that starts with its sign or a digit. -/
def readSigned : Bytes → Reading Number
  | [] => NumberFault.cut.reading
  | b :: rest => if b = 0x2D then (readNumber true rest).1 else (readNumber false (b :: rest)).1

/-- What a reader makes of the text of a number. -/
def reread (n : Number) : Reading Number := readSigned (Text.utf8 (renderNumber n))

/-- The first byte of a number without its sign. -/
theorem NumberChars.WellFormed.exists_bytes {w : NumberChars} (h : w.WellFormed) :
    ∃ b more, bytesOf w.chars = b :: more ∧ isDigit b := by
  obtain ⟨c, cs, hcs⟩ := List.exists_cons_of_ne_nil h.some
  have hc := h.digits c (hcs ▸ List.mem_cons_self)
  obtain ⟨hbytes, -, hdigit, -⟩ := utf8EncodeChar_of_isDigit hc
  refine ⟨UInt8.ofNat c.toNat, bytesOf cs ++ bytesOf (fractionPart w.fraction ++ exponentPart w.exponent),
    ?_, hdigit⟩
  rw [chars, hcs, bytesOf_append, bytesOf_cons, hbytes]
  rfl

theorem reread_eq {n : Number} {negative : Bool} {w : NumberChars} (h : w.WellFormed)
    (hn : (renderNumber n).toList = signChars negative ++ w.chars) :
    reread n = ⟨(w.text negative).value, .ok ()⟩ := by
  have hread : readNumber negative (bytesOf w.chars) = (⟨(w.text negative).value, .ok ()⟩, some []) := by
    have hend : EndsNumber [] := nofun
    have htext := numberText_chars h negative hend
    rw [List.append_nil] at htext
    rw [readNumber, htext]
  obtain ⟨b, more, hbytes, hdigit⟩ := h.exists_bytes
  show readSigned (bytesOf (renderNumber n).toList) = _
  rw [hn, bytesOf_append]
  cases negative with
  | false =>
    have hminus : b ≠ 0x2D := by
      rintro rfl
      cases hdigit
    rw [hbytes] at hread ⊢
    show readSigned (b :: more) = _
    rw [readSigned, if_neg hminus, hread]
  | true =>
    show readSigned (0x2D :: bytesOf w.chars) = _
    rw [readSigned, if_pos rfl, hread]

/-- The characters of a whole number. -/
theorem wellFormed_toDigits (n : Nat) :
    NumberChars.WellFormed ⟨Nat.toDigits 10 n, none, none⟩ where
  digits := digits_toDigits n
  some := Nat.toDigits_ne_nil
  zero h := by
    rw [head?_toDigits h]
    rfl
  fraction := nofun
  exponent := nofun

theorem chars_whole (i : WholeNumber) :
    (renderNumber (.whole i)).toList =
      signChars (decide (i.val < 0)) ++ NumberChars.chars ⟨Nat.toDigits 10 i.val.natAbs, none, none⟩ := by
  obtain ⟨i, hi⟩ := i
  have hchars : ∀ ds, NumberChars.chars ⟨ds, none, none⟩ = ds := fun ds => List.append_nil ds
  rw [hchars]
  cases i with
  | ofNat n => exact Nat.toList_repr
  | negSucc n =>
    show ("-" ++ (n + 1).repr).toList = signChars (decide (Int.negSucc n < 0)) ++ _
    rw [String.toList_append, Nat.toList_repr, decide_eq_true (Int.negSucc_lt_zero n)]
    rfl

theorem written_whole (i : WholeNumber) : Written (.whole i) :=
  ⟨_, _, wellFormed_toDigits _, chars_whole i⟩

/-- Digits whose value fits are a whole number. -/
theorem value_of_plain {t : NumberText} {i : WholeNumber} (hplain : t.plain = true)
    (habsorb : absorb 0 t.whole = (i.val.natAbs, t.whole.length))
    (hsign : t.negative = decide (i.val < 0)) : t.value = .ok (.whole i) := by
  obtain ⟨i, hi⟩ := i
  have hvalue : (absorb 0 t.whole).1 = i.natAbs := congrArg Prod.fst habsorb
  have hcount : (absorb 0 t.whole).2 = t.whole.length := congrArg Prod.snd habsorb
  have hwhole : ∀ {k : Int} (hk : -0x8000000000000000 ≤ k ∧ k < 0x10000000000000000), k = i →
      (Except.ok (.whole ⟨k, hk⟩) : Except JsonError Number) = .ok (.whole ⟨i, hi⟩) := by
    rintro k hk rfl
    rfl
  unfold NumberText.value
  dsimp only at hsign ⊢
  rw [if_pos (by rw [hplain, hcount, Nat.sub_self]; rfl)]
  split
  · next h =>
    rw [hsign, decide_eq_false_iff_not] at h
    exact hwhole _ (by omega)
  · next h =>
    rw [hsign, decide_eq_false_iff_not] at h
    rw [dif_pos (by omega)]
    exact hwhole _ (by omega)

/-- Whole numbers are read back from their texts. -/
theorem reread_whole (i : WholeNumber) : reread (.whole i) = .of (.whole i) := by
  have hvalue := Nat.ofDigitChars_ten_toDigits (n := i.val.natAbs)
  have hfits : Nat.ofDigitChars 10 (Nat.toDigits 10 i.val.natAbs) 0 < UInt64.size := by
    have hi := i.property
    rw [hvalue]
    show _ < 0x10000000000000000
    omega
  have habsorb := absorb_valuesOf hfits
  rw [hvalue] at habsorb
  rw [reread_eq (wellFormed_toDigits _) (chars_whole i), value_of_plain rfl _ rfl]
  · rfl
  · rw [NumberChars.text, List.length_map]
    exact habsorb

end Numbers

end SchemaForge.Json
