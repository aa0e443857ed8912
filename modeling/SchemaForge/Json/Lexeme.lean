import SchemaForge.Json.Error
import SchemaForge.Text.Utf8

/-!
# Strings and numbers of a JSON text

A string or a number is met by a reader who wants its value, or by one who only passes over it. The
two do not complain about the same things: an unpaired surrogate, bytes that are no UTF-8 and a
number beyond all bounds concern only the one who wants the value. A `Reading` holds both answers.
-/

namespace SchemaForge.Json

/-- What a lexeme answers to a reader of its value and to one who passes over it. -/
structure Reading (α : Type) where
  value : Except JsonError α
  passed : Except JsonError Unit

/-- The reading of a lexeme without fault. -/
def Reading.of (a : α) : Reading α := ⟨.ok a, .ok ()⟩

/-- The reading of a lexeme that breaks the grammar. -/
def Reading.broken (value passed : JsonError) : Reading α := ⟨.error value, .error passed⟩

/-- Is the byte an ASCII digit? -/
def isDigit (b : UInt8) : Bool := 0x30 ≤ b && b ≤ 0x39

/-- The value of an ASCII digit. -/
def digitValue (b : UInt8) : Nat := b.toNat - 0x30

/-! ### Strings -/

/-- A piece of a string between its quotation marks: a byte, or the number of a `\u` escape. -/
inductive Piece
  | byte (b : UInt8)
  | unit (n : Nat)

/-- How a string ends. -/
inductive StringEnd
  | closed
  | cut
  | control
  | badEscape
  | badHex

/-- The value of a hexadecimal digit. -/
def hexValue? (b : UInt8) : Option Nat :=
  if isDigit b then some (digitValue b)
  else if 0x61 ≤ b && b ≤ 0x66 then some (b.toNat - 0x61 + 10)
  else if 0x41 ≤ b && b ≤ 0x46 then some (b.toNat - 0x41 + 10)
  else none

/-- The value of four hexadecimal digits. -/
def hex4? (a b c d : UInt8) : Option Nat := do
  return (((← hexValue? a) * 16 + (← hexValue? b)) * 16 + (← hexValue? c)) * 16 + (← hexValue? d)

/-- The byte that a backslash and this byte stand for. -/
def shortEscape? (b : UInt8) : Option UInt8 :=
  if b = 0x22 ∨ b = 0x5C ∨ b = 0x2F then some b
  else if b = 0x62 then some 0x08
  else if b = 0x66 then some 0x0C
  else if b = 0x6E then some 0x0A
  else if b = 0x72 then some 0x0D
  else if b = 0x74 then some 0x09
  else none

/-- The pieces of a string whose opening quotation mark is read, its end, and what follows. -/
def stringPieces : Bytes → List Piece × StringEnd × Bytes
  | [] => ([], .cut, [])
  | b :: rest =>
    if b = 0x22 then ([], .closed, rest)
    else if b = 0x5C then
      match rest with
      | [] => ([], .cut, [])
      | e :: rest =>
        if e = 0x75 then
          match rest with
          | h₁ :: h₂ :: h₃ :: h₄ :: rest =>
            match hex4? h₁ h₂ h₃ h₄ with
            | some n =>
              let (pieces, stop, after) := stringPieces rest
              (.unit n :: pieces, stop, after)
            | none => ([], .badHex, [])
          | _ => ([], .cut, [])
        else
          match shortEscape? e with
          | some b =>
            let (pieces, stop, after) := stringPieces rest
            (.byte b :: pieces, stop, after)
          | none => ([], .badEscape, [])
    else if b < 0x20 then ([], .control, [])
    else
      let (pieces, stop, after) := stringPieces rest
      (.byte b :: pieces, stop, after)

theorem length_stringPieces_le (bytes : Bytes) :
    (stringPieces bytes).2.2.length ≤ bytes.length := by
  fun_induction stringPieces bytes <;> simp_all <;> omega

/-- The complaint about the end of a string, if there is one. -/
def StringEnd.error? : StringEnd → Option JsonError
  | closed => none
  | cut => some .endInString
  | control => some .controlCharacter
  | badEscape | badHex => some .invalidEscape

/-- The complaint where a string ends behind the first half of a surrogate pair. -/
def StringEnd.afterHalf : StringEnd → JsonError
  | cut => .endInString
  | badHex => .invalidEscape
  | closed | control | badEscape => .cutPair

/-- The UTF-8 bytes of a code point. -/
def codeBytes (n : Nat) : Bytes := String.utf8EncodeChar (Char.ofNat n)

/-- The bytes that the pieces of a string stand for. -/
def pieceBytes (stop : StringEnd) : List Piece → Except JsonError Bytes
  | [] => match stop.error? with
    | none => .ok []
    | some e => .error e
  | .byte b :: rest => (b :: ·) <$> pieceBytes stop rest
  | .unit n :: rest =>
    if 0xDC00 ≤ n ∧ n ≤ 0xDFFF then .error .loneSurrogate
    else if 0xD800 ≤ n ∧ n ≤ 0xDBFF then
      match rest with
      | [] => .error stop.afterHalf
      | .byte _ :: _ => .error .cutPair
      | .unit m :: rest =>
        if 0xDC00 ≤ m ∧ m ≤ 0xDFFF then
          (codeBytes (0x10000 + (n - 0xD800) * 0x400 + (m - 0xDC00)) ++ ·) <$> pieceBytes stop rest
        else .error .loneSurrogate
    else (codeBytes n ++ ·) <$> pieceBytes stop rest

/-- The text that the pieces of a string stand for. -/
def pieceText (stop : StringEnd) (pieces : List Piece) : Except JsonError String := do
  match Text.ofUtf8? (← pieceBytes stop pieces) with
  | some s => return s
  | none => throw .invalidUtf8

/-- A string whose opening quotation mark is read, and what follows unless the string is broken. -/
def readString (bytes : Bytes) : Reading String × Option Bytes :=
  let (pieces, stop, rest) := stringPieces bytes
  let value := pieceText stop pieces
  match stop.error? with
  | none => (⟨value, .ok ()⟩, some rest)
  | some e => (⟨value, .error e⟩, none)

theorem length_readString_le {bytes rest : Bytes} (h : (readString bytes).2 = some rest) :
    rest.length ≤ bytes.length := by
  have := length_stringPieces_le bytes
  simp only [readString] at h
  split at h <;> simp_all

/-! ### Numbers -/

/-- A number as written: the digits of its parts, and its exponent. -/
structure NumberText where
  negative : Bool
  whole : List Nat
  fraction : List Nat
  exponent : Int
  /-- Has the number neither a fraction nor an exponent? -/
  plain : Bool

/-- The digits taken into a 64-bit significand, and how many of them fit. -/
def absorb (significand : Nat) : List Nat → Nat × Nat
  | [] => (significand, 0)
  | d :: rest =>
    if significand * 10 + d < UInt64.size then
      let (all, count) := absorb (significand * 10 + d) rest
      (all, count + 1)
    else (significand, 0)

/-- A number times a power of ten. Each step multiplies or divides by one rounded power of ten, so the
last digits of a long literal may be off; `none` stands for a result beyond all bounds. -/
def scale? (x : Binary64) (power : Int) : Option Binary64 :=
  if -308 ≤ power ∧ power ≤ 308 then do
    let p ← Binary64.powerOfTen? power.natAbs
    if 0 ≤ power then x.mul? p else x.div? p
  else if x.isZero then some x
  else if 0 < power then none
  else do
    let p ← Binary64.powerOfTen? 308
    scale? (← x.div? p) (power + 308)
termination_by (-power).toNat

/-- A significand times a power of ten as binary64. -/
def scaled (negative : Bool) (significand : Nat) (power : Int) : Except JsonError Number :=
  match Binary64.ofRatio? false significand 1 with
  | none => .error .numberOutOfRange
  | some x =>
    match scale? x power with
    | none => .error .numberOutOfRange
    | some y => .ok (.float { y with negative })

/-- The value of a number. Whole numbers within 64 bits stay whole; all else is binary64, `-0` too. -/
def NumberText.value (t : NumberText) : Except JsonError Number :=
  let (w, taken) := absorb 0 t.whole
  let ignored := t.whole.length - taken
  if t.plain && ignored == 0 then
    if h : t.negative = false ∧ w < 0x10000000000000000 then .ok (.whole ⟨w, by omega⟩)
    else if h : 0 < w ∧ w ≤ 0x8000000000000000 then .ok (.whole ⟨-w, by omega⟩)
    else scaled t.negative w 0
  else
    let (significand, places) := absorb w t.fraction
    scaled t.negative significand (ignored - places + t.exponent)

/-- How the text of a number can fail: it ends too early, or something else stands in it. -/
inductive NumberFault
  | cut
  | bad

/-- The reading of a broken number. -/
def NumberFault.reading : NumberFault → Reading Number
  | cut => .broken .endInValue .invalidNumber
  | bad => .broken .invalidNumber .invalidNumber

/-- The fault of a text that should go on with a digit. -/
def missingDigit : Bytes → NumberFault
  | [] => .cut
  | _ :: _ => .bad

/-- The digits at the start of a text, and what follows. -/
def digits (bytes : Bytes) : List Nat × Bytes :=
  ((bytes.takeWhile isDigit).map digitValue, bytes.dropWhile isDigit)

theorem length_digits_le (bytes : Bytes) : (digits bytes).2.length ≤ bytes.length :=
  (List.dropWhile_suffix isDigit).length_le

/-- The digits before the point: a zero alone, or digits that do not start with zero. -/
def wholeDigits (bytes : Bytes) : Except NumberFault (List Nat × Bytes) :=
  match bytes with
  | [] => .error .cut
  | b :: rest =>
    if b = 0x30 then
      if rest.head?.any isDigit then .error .bad else .ok ([0], rest)
    else if isDigit b then .ok (digits bytes)
    else .error .bad

/-- The digits after a point, if there is one. -/
def fractionDigits (bytes : Bytes) : Except NumberFault (Option (List Nat) × Bytes) :=
  match bytes with
  | [] => .ok (none, bytes)
  | b :: rest =>
    if b = 0x2E then
      let (ds, after) := digits rest
      if ds.isEmpty then .error (missingDigit after) else .ok (some ds, after)
    else .ok (none, bytes)

/-- The value of a list of digits. -/
def digitsValue (ds : List Nat) : Nat := ds.foldl (fun n d => 10 * n + d) 0

/-- The sign of an exponent, negative or not, and what follows. -/
def exponentSign : Bytes → Bool × Bytes
  | [] => (false, [])
  | b :: rest =>
    if b = 0x2D then (true, rest) else if b = 0x2B then (false, rest) else (false, b :: rest)

theorem length_exponentSign_le (bytes : Bytes) : (exponentSign bytes).2.length ≤ bytes.length := by
  cases bytes with
  | nil => simp [exponentSign]
  | cons b rest =>
    simp only [exponentSign]
    split
    · simp
    · split <;> simp

/-- The exponent, if there is one. -/
def exponentDigits (bytes : Bytes) : Except NumberFault (Option Int × Bytes) :=
  match bytes with
  | [] => .ok (none, bytes)
  | b :: rest =>
    if b = 0x65 ∨ b = 0x45 then
      let (negative, unsigned) := exponentSign rest
      let (ds, after) := digits unsigned
      if ds.isEmpty then .error (missingDigit after)
      else .ok (some (if negative then -digitsValue ds else digitsValue ds), after)
    else .ok (none, bytes)

/-- The text of a number, whose sign is read, and what follows. -/
def numberText (negative : Bool) (bytes : Bytes) : Except NumberFault (NumberText × Bytes) := do
  let (whole, rest) ← wholeDigits bytes
  let (fraction, rest) ← fractionDigits rest
  let (exponent, rest) ← exponentDigits rest
  return ({ negative, whole, fraction := fraction.getD [], exponent := exponent.getD 0,
            plain := fraction.isNone && exponent.isNone }, rest)

/-- A number whose sign is read, and what follows unless the number is broken. -/
def readNumber (negative : Bool) (bytes : Bytes) : Reading Number × Option Bytes :=
  match numberText negative bytes with
  | .error fault => (fault.reading, none)
  | .ok (t, rest) => (⟨t.value, .ok ()⟩, some rest)

theorem length_wholeDigits_lt {bytes rest : Bytes} {ds : List Nat}
    (h : wholeDigits bytes = .ok (ds, rest)) : rest.length < bytes.length := by
  unfold wholeDigits at h
  split at h
  · simp at h
  · next b more =>
    split at h
    · split at h
      · simp at h
      · simp only [Except.ok.injEq, Prod.mk.injEq] at h
        simp [← h.2]
    · split at h
      · next hd =>
        simp only [digits, Except.ok.injEq, Prod.mk.injEq, List.dropWhile_cons, hd] at h
        rw [← h.2]
        exact Nat.lt_succ_of_le (List.dropWhile_suffix isDigit).length_le
      · simp at h

theorem length_fractionDigits_le {bytes rest : Bytes} {ds : Option (List Nat)}
    (h : fractionDigits bytes = .ok (ds, rest)) : rest.length ≤ bytes.length := by
  unfold fractionDigits at h
  split at h
  · simp_all
  · next b more =>
    split at h
    · simp only at h
      split at h
      · simp at h
      · simp only [Except.ok.injEq, Prod.mk.injEq] at h
        have := length_digits_le more
        simp [← h.2]
        omega
    · simp_all

theorem length_exponentDigits_le {bytes rest : Bytes} {n : Option Int}
    (h : exponentDigits bytes = .ok (n, rest)) : rest.length ≤ bytes.length := by
  unfold exponentDigits at h
  split at h
  · simp_all
  · next b more =>
    split at h
    · simp only at h
      split at h
      · simp at h
      · simp only [Except.ok.injEq, Prod.mk.injEq] at h
        have h₁ := length_digits_le (exponentSign more).2
        have h₂ := length_exponentSign_le more
        rw [← h.2]
        simp
        omega
    · simp_all

/-- A number takes up at least one digit. -/
theorem length_readNumber_lt {negative : Bool} {bytes rest : Bytes}
    (h : (readNumber negative bytes).2 = some rest) : rest.length < bytes.length := by
  unfold readNumber at h
  split at h
  · simp at h
  · next t r ht =>
    simp only [Option.some.injEq] at h
    subst h
    simp only [numberText, bind, Except.bind] at ht
    split at ht
    · simp at ht
    · next w hw =>
      split at ht
      · simp at ht
      · next f hf =>
        split at ht
        · simp at ht
        · next e he =>
          simp only [pure, Except.pure, Except.ok.injEq, Prod.mk.injEq] at ht
          have h₁ := length_wholeDigits_lt hw
          have h₂ := length_fractionDigits_le hf
          have h₃ := length_exponentDigits_le he
          rw [← ht.2]
          omega

end SchemaForge.Json
