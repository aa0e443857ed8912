import SchemaForge.Json.Lexeme

/-!
# Tokens of a JSON text

The first stage of reading: bytes become tokens, whatever grammar they stand in. Blanks are dropped.
A token that breaks the grammar is the last one, because no reader gets past it.
-/

namespace SchemaForge.Json

/-- Why no value starts at some place of a text. -/
inductive Fault
  | missing
  | foreign
  | badWord
  | cutWord
  | noColon
  | cutBeforeColon

/-- The complaint about a place where a value should start. -/
def Fault.error : Fault → JsonError
  | missing | cutWord => .endInValue
  | foreign => .expectedValue
  | badWord => .expectedWord
  | noColon => .expectedColon
  | cutBeforeColon => .endInObject

/-- A token: a mark, a word, a number, a string, or what is none of them. -/
inductive Token
  | openBracket
  | closeBracket
  | openBrace
  | closeBrace
  | comma
  | colon
  | null
  | bool (b : Bool)
  | number (r : Reading Number)
  | string (r : Reading String)
  | fault (f : Fault)

/-- Is the byte a blank of JSON? -/
def isSpace (b : UInt8) : Bool := b == 0x20 || b == 0x0A || b == 0x0D || b == 0x09

/-- What follows the rest of a word. -/
def afterWord : Bytes → Bytes → Except Fault Bytes
  | [], rest => .ok rest
  | _ :: _, [] => .error .cutWord
  | e :: expected, b :: rest => if b = e then afterWord expected rest else .error .badWord

theorem length_afterWord_le {expected bytes rest : Bytes}
    (h : afterWord expected bytes = .ok rest) : rest.length ≤ bytes.length := by
  fun_induction afterWord expected bytes with
  | case1 r => simp_all
  | case2 => simp at h
  | case3 _ _ _ ih => exact Nat.le_succ_of_le (ih h)
  | case4 => simp at h

/-- The token of a mark. -/
def mark? (b : UInt8) : Option Token :=
  if b = 0x5B then some .openBracket
  else if b = 0x5D then some .closeBracket
  else if b = 0x7B then some .openBrace
  else if b = 0x7D then some .closeBrace
  else if b = 0x2C then some .comma
  else if b = 0x3A then some .colon
  else none

/-- The word that starts with a byte: its token and the rest of it. -/
def word? (b : UInt8) : Option (Token × Bytes) :=
  if b = 0x6E then some (.null, [0x75, 0x6C, 0x6C])
  else if b = 0x74 then some (.bool true, [0x72, 0x75, 0x65])
  else if b = 0x66 then some (.bool false, [0x61, 0x6C, 0x73, 0x65])
  else none

/-- The token that starts with byte `b`, which is no blank, and what follows it. -/
def token (b : UInt8) (rest : Bytes) : Token × Option Bytes :=
  match mark? b with
  | some t => (t, some rest)
  | none =>
    match word? b with
    | some (t, expected) =>
      match afterWord expected rest with
      | .ok rest => (t, some rest)
      | .error f => (.fault f, none)
    | none =>
      if b = 0x22 then
        let (r, rest) := readString rest
        (.string r, rest)
      else if b = 0x2D then
        let (r, rest) := readNumber true rest
        (.number r, rest)
      else if isDigit b then
        let (r, rest) := readNumber false (b :: rest)
        (.number r, rest)
      else (.fault .foreign, none)

theorem length_token_le {b : UInt8} {bytes rest : Bytes} (h : (token b bytes).2 = some rest) :
    rest.length ≤ bytes.length := by
  unfold token at h
  split at h
  · simp_all
  · split at h
    · split at h
      · next hw => simp only [Option.some.injEq] at h; exact h ▸ length_afterWord_le hw
      · simp at h
    · split at h
      · exact length_readString_le h
      · split at h
        · exact Nat.le_of_lt (length_readNumber_lt h)
        · split at h
          · exact Nat.le_of_lt_succ (length_readNumber_lt h)
          · simp at h

/-- The tokens of a text, up to the first that breaks the grammar. -/
def tokens : Bytes → List Token
  | [] => []
  | b :: rest =>
    if isSpace b then tokens rest
    else
      match _h : token b rest with
      | (t, some after) => t :: tokens after
      | (t, none) => [t]
termination_by bytes => bytes.length
decreasing_by
  · simp
  · simp only [List.length_cons]
    exact Nat.lt_succ_of_le (length_token_le (by rw [_h]))

end SchemaForge.Json
