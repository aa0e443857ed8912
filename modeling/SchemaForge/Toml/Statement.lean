import SchemaForge.Toml.Number

/-!
# Statements of a TOML text

A text is a run of statements, one to a line: pairs of a key and a value, and headers that open a
table. Keys have parts between dots. Arrays may go over lines, tables as values may not.
-/

namespace SchemaForge.Toml

/-- A statement. -/
inductive Statement
  | pair (path : List String) (value : Value)
  | header (path : List String)
  | element (path : List String)

/-- So many arrays and tables may stand inside one another, and so many parts a key may have. -/
def depthLimit : Nat := 79

/-! ### Blanks, comments and line breaks -/

/-- The characters after blanks, comments and line breaks. A comment must end with its line. -/
def afterBlank? (inComment : Bool) : List Char → Option (List Char)
  | [] => if inComment then none else some []
  | '\n' :: rest => afterBlank? false rest
  | '\r' :: '\n' :: rest => afterBlank? false rest
  | c :: rest =>
    if inComment then if inLine c then afterBlank? true rest else none
    else if isBlank c then afterBlank? false rest
    else if c = '#' then afterBlank? true rest
    else some (c :: rest)

/-- The characters after the end of a line, which may have a comment in it. -/
def afterLine? (cs : List Char) : Option (List Char) :=
  let cs := cs.dropWhile isBlank
  let cs := if cs.head? = some '#' then cs.dropWhile inLine else cs
  match cs with
  | [] => some []
  | '\n' :: rest => some rest
  | '\r' :: '\n' :: rest => some rest
  | _ => none

/-! ### Keys -/

/-- May the character stand in a key without quotes? -/
def inBareKey (c : Char) : Bool := c.isAlphanum || c == '-' || c == '_'

/-- A part of a key. -/
def keyPart? (cs : List Char) : Option (String × List Char) :=
  match cs with
  | '"' :: rest => (basicRest rest).map fun (s, rest) => (String.ofList s, rest)
  | '\'' :: rest => (literalRest rest).map fun (s, rest) => (String.ofList s, rest)
  | cs =>
    let bare := cs.takeWhile inBareKey
    if bare.isEmpty then none else some (String.ofList bare, cs.drop bare.length)

/-- A key of at most so many parts. -/
def key? : Nat → List Char → Option (List String × List Char)
  | 0, _ => none
  | parts + 1, cs => do
    let (part, rest) ← keyPart? (cs.dropWhile isBlank)
    match rest.dropWhile isBlank with
    | '.' :: rest =>
      let (path, rest) ← key? parts rest
      return (part :: path, rest)
    | rest => return ([part], rest)

/-! ### Values -/

/-- The rest of an array, of at most so many items. -/
def arrayRest (value? : List Char → Option (Value × List Char)) :
    Nat → List Char → Option (List Value × List Char)
  | 0, _ => none
  | count + 1, cs => do
    let cs ← afterBlank? false cs
    if cs.head? = some ']' then return ([], cs.drop 1)
    let (v, rest) ← value? cs
    match ← afterBlank? false rest with
    | ',' :: rest =>
      let (vs, rest) ← arrayRest value? count rest
      return (v :: vs, rest)
    | ']' :: rest => return ([v], rest)
    | _ => none

/-- The rest of a table as a value, of at most so many pairs. -/
def tableRest (value? : List Char → Option (Value × List Char)) :
    Nat → List Char → Option (List (List String × Value) × List Char)
  | 0, _ => none
  | count + 1, cs => do
    let (path, rest) ← key? depthLimit cs
    let (v, rest) ← value? ((← after? '=' rest).dropWhile isBlank)
    match rest.dropWhile isBlank with
    | ',' :: rest =>
      let (pairs, rest) ← tableRest value? count rest
      return ((path, v) :: pairs, rest)
    | '\x7d' :: rest => return ([(path, v)], rest)
    | _ => none

/-- The table of pairs in order. -/
def ofPairs (pairs : List (List String × Value)) : Option Entries :=
  pairs.foldlM (fun entries pair => Entries.insert pair.2 pair.1 entries) []

/-- A value that nests at most so deep. -/
def value? : Nat → List Char → Option (Value × List Char)
  | depth, cs =>
    match cs with
    | '[' :: rest =>
      match depth with
      | 0 => none
      | depth + 1 => do
        let (items, rest) ← arrayRest (value? depth) (rest.length + 1) rest
        return (.array items, rest)
    | '\x7b' :: rest =>
      match depth with
      | 0 => none
      | depth + 1 =>
        match rest.dropWhile isBlank with
        | '\x7d' :: rest => some (.table .inline [], rest)
        | rest => do
          let (pairs, rest) ← tableRest (value? depth) (rest.length + 1) rest
          return (.table .inline (← ofPairs pairs), rest)
    | 't' :: 'r' :: 'u' :: 'e' :: rest => some (.bool true, rest)
    | 'f' :: 'a' :: 'l' :: 's' :: 'e' :: rest => some (.bool false, rest)
    | '"' :: _ | '\'' :: _ => do
      let (s, rest) ← string? cs
      return (.text s, rest)
    | cs => (dateTime? cs).orElse fun _ => number? cs

/-! ### Statements -/

/-- The header of a table or, with two brackets, of an element. -/
def header? (cs : List Char) : Option (Statement × List Char) := do
  match cs with
  | '[' :: rest =>
    let (path, rest) ← key? depthLimit rest
    match rest with
    | ']' :: ']' :: rest => return (.element path, ← afterLine? rest)
    | _ => none
  | cs =>
    let (path, rest) ← key? depthLimit cs
    return (.header path, ← afterLine? (← after? ']' rest))

/-- A pair of a key and a value. -/
def pair? (cs : List Char) : Option (Statement × List Char) := do
  let (path, rest) ← key? depthLimit cs
  let (v, rest) ← value? depthLimit ((← after? '=' rest).dropWhile isBlank)
  return (.pair path v, ← afterLine? rest)

/-- At most so many lines, as statements. -/
def statements? : Nat → List Char → Option (List Statement)
  | 0, _ => none
  | lines + 1, cs =>
    match cs.dropWhile isBlank with
    | [] => some []
    | '[' :: rest => do
      let (s, rest) ← header? rest
      return s :: (← statements? lines rest)
    | c :: rest =>
      if c = '\n' ∨ c = '\r' ∨ c = '#' then do
        statements? lines (← afterLine? (c :: rest))
      else do
        let (s, rest) ← pair? (c :: rest)
        return s :: (← statements? lines rest)

end SchemaForge.Toml
