import Sreality.Foundation.Json

/-! The text of a JSON value as Python's `json` module writes and reads it: `dumps` with sorted
keys, no blanks and no ASCII escapes, `loads` with the grammar and the refusals of its scanner.
What a float looks like is the platform's; the codec takes it as a parameter. -/

set_option autoImplicit false

namespace Sreality.Foundation.JsonText

abbrev quote : Nat := 34
abbrev comma : Nat := 44
abbrev minus : Nat := 45
abbrev point : Nat := 46
abbrev slash : Nat := 47
abbrev zero : Nat := 48
abbrev colon : Nat := 58
abbrev openBracket : Nat := 91
abbrev backslash : Nat := 92
abbrev closeBracket : Nat := 93
abbrev openBrace : Nat := 123
abbrev closeBrace : Nat := 125

def codes (text : String) : CodePoints := text.toList.map Char.toNat

def isDigit (code : Nat) : Bool := decide (48 ≤ code ∧ code ≤ 57)

def isBlank (code : Nat) : Bool := decide (code = 32 ∨ code = 9 ∨ code = 10 ∨ code = 13)

def skip (text : CodePoints) : CodePoints := text.dropWhile isBlank

/-! ### Numbers -/

/-- `0` or digits that do not start with one, and what follows them. -/
def scanWhole : CodePoints → Option (CodePoints × CodePoints)
  | [] => none
  | code :: rest =>
      if code = zero then some ([zero], rest)
      else if isDigit code then some (code :: rest.takeWhile isDigit, rest.dropWhile isDigit)
      else none

def scanFraction : CodePoints → CodePoints × CodePoints
  | [] => ([], [])
  | code :: rest =>
      if code = point ∧ rest.takeWhile isDigit ≠ [] then
        (point :: rest.takeWhile isDigit, rest.dropWhile isDigit)
      else ([], code :: rest)

def scanSign : CodePoints → CodePoints × CodePoints
  | [] => ([], [])
  | code :: rest => if code = 43 ∨ code = minus then ([code], rest) else ([], code :: rest)

/-- `[eE][-+]?[0-9]+`, or nothing. -/
def scanExponent : CodePoints → CodePoints × CodePoints
  | [] => ([], [])
  | code :: rest =>
      let (sign, after) := scanSign rest
      if (code = 101 ∨ code = 69) ∧ after.takeWhile isDigit ≠ [] then
        (code :: (sign ++ after.takeWhile isDigit), after.dropWhile isDigit)
      else ([], code :: rest)

def scanMinus : CodePoints → CodePoints × CodePoints
  | [] => ([], [])
  | code :: rest => if code = minus then ([minus], rest) else ([], code :: rest)

/-- The number a text starts with: its sign and digits, what makes it a float, and the rest. -/
def scanNumber (text : CodePoints) : Option ((CodePoints × CodePoints) × CodePoints) := do
  let (sign, unsigned) := scanMinus text
  let (whole, afterWhole) ← scanWhole unsigned
  let (fraction, afterFraction) := scanFraction afterWhole
  let (exponent, rest) := scanExponent afterFraction
  some ((sign ++ whole, fraction ++ exponent), rest)

/-- The number that ASCII digits write. -/
def readDigits (digits : CodePoints) : Nat := Nat.ofDigits 10 (digits.map (· - 48)).reverse

/-- `int(text)` of an optional minus and digits. -/
def readInt : CodePoints → Option Int
  | [] => none
  | code :: rest =>
      if code = minus then
        if rest.length ≤ maxStrDigits then some (-(readDigits rest : Int)) else none
      else
        if rest.length + 1 ≤ maxStrDigits then some (readDigits (code :: rest) : Int) else none

def writeInt (value : Int) : CodePoints :=
  (if value < 0 then [minus] else []) ++ decimal value.natAbs

def constants : List CodePoints := [codes "NaN", codes "Infinity", codes "-Infinity"]

/-- The text of a float: a constant, or a number with a fraction or an exponent. -/
inductive FloatToken : CodePoints → Prop where
  | constant {text : CodePoints} : text ∈ constants → FloatToken text
  | number {text signed rest : CodePoints} : scanNumber text = some ((signed, rest), []) →
      rest ≠ [] → signed ++ rest = text → (∀ code ∈ text, code < 128) → FloatToken text

/-- The floats of a platform: `float(text)`, and the text `json` writes, which reads back. -/
structure Floats where
  Value : Type
  read : CodePoints → Value
  write : Value → CodePoints
  token : ∀ value, FloatToken (write value)
  read_write : ∀ value, read (write value) = value

/-! ### Strings -/

/-- The characters with a letter of their own behind the backslash. -/
def escapes : List (Nat × Nat) :=
  [(34, 34), (92, 92), (8, 98), (12, 102), (10, 110), (13, 114), (9, 116)]

def hexDigit (value : Nat) : Nat := if value < 10 then 48 + value else 87 + value

def hexValue (code : Nat) : Option Nat :=
  if 48 ≤ code ∧ code ≤ 57 then some (code - 48)
  else if 97 ≤ code ∧ code ≤ 102 then some (code - 87)
  else if 65 ≤ code ∧ code ≤ 70 then some (code - 55)
  else none

def writeCode (code : Nat) : CodePoints :=
  match escapes.lookup code with
  | some letter => [backslash, letter]
  | none =>
      if code < 32 then
        [backslash, 117, hexDigit 0, hexDigit 0, hexDigit (code / 16), hexDigit (code % 16)]
      else [code]

def writeString (text : CodePoints) : CodePoints := quote :: (text.flatMap writeCode ++ [quote])

def scanHex : CodePoints → Option (Nat × CodePoints)
  | first :: second :: third :: fourth :: rest => do
      let a ← hexValue first
      let b ← hexValue second
      let c ← hexValue third
      let d ← hexValue fourth
      some (((a * 16 + b) * 16 + c) * 16 + d, rest)
  | _ => none

/-- Behind `\u`: four hexadecimal digits, and the second half of a surrogate pair with them. -/
def scanUnicode (text : CodePoints) : Option (Nat × CodePoints) := do
  let (value, rest) ← scanHex text
  if 0xd800 ≤ value ∧ value ≤ 0xdbff ∧ rest.take 2 = [backslash, 117] then do
    let (second, after) ← scanHex (rest.drop 2)
    if 0xdc00 ≤ second ∧ second ≤ 0xdfff then
      some (0x10000 + (value - 0xd800) * 0x400 + (second - 0xdc00), after)
    else some (value, rest)
  else some (value, rest)

def scanEscape : CodePoints → Option (Nat × CodePoints)
  | [] => none
  | letter :: rest =>
      if letter = 117 then scanUnicode rest
      else if letter = slash then some (slash, rest)
      else (escapes.find? (·.2 = letter)).map fun escape => (escape.1, rest)

/-- A string behind its opening quote; the fuel bounds its characters. -/
def scanString : Nat → CodePoints → Option (CodePoints × CodePoints)
  | 0, _ => none
  | _ + 1, [] => none
  | fuel + 1, code :: rest =>
      if code = quote then some ([], rest)
      else if code = backslash then do
        let (value, after) ← scanEscape rest
        let (text, after) ← scanString fuel after
        some (value :: text, after)
      else if code < 32 then none
      else do
        let (text, after) ← scanString fuel rest
        some (code :: text, after)

/-! ### Values -/

section Scan

variable {Item : Type}

/-- Items apart by commas up to the closing bracket, each read by `item`. -/
def scanItems (item : CodePoints → Option (Item × CodePoints)) (close : Nat) :
    Nat → CodePoints → Option (List Item × CodePoints)
  | 0, _ => none
  | fuel + 1, text => do
      let (first, after) ← item text
      match skip after with
      | [] => none
      | code :: rest =>
          if code = close then some ([first], rest)
          else if code = comma then do
            let (items, after) ← scanItems item close fuel (skip rest)
            some (first :: items, after)
          else none

/-- What stands between brackets, behind the opening one. -/
def scanBracketed (item : CodePoints → Option (Item × CodePoints)) (close fuel : Nat)
    (text : CodePoints) : Option (List Item × CodePoints) :=
  match skip text with
  | [] => none
  | code :: rest =>
      if code = close then some ([], rest) else scanItems item close fuel (code :: rest)

/-- `"key": value`. -/
def scanMember (fuel : Nat) (value : CodePoints → Option (Item × CodePoints)) :
    CodePoints → Option ((CodePoints × Item) × CodePoints)
  | [] => none
  | code :: rest =>
      if code = quote then do
        let (key, after) ← scanString fuel rest
        match skip after with
        | [] => none
        | code :: rest =>
            if code = colon then do
              let (item, after) ← value (skip rest)
              some ((key, item), after)
            else none
      else none

end Scan

variable (floats : Floats)

def literals : List (CodePoints × Json floats.Value) :=
  [(codes "null", .null), (codes "true", .bool true), (codes "false", .bool false)] ++
    constants.map fun constant => (constant, .float (floats.read constant))

/-- A number, a word of the grammar or a constant. -/
def scanScalar (text : CodePoints) : Option (Json floats.Value × CodePoints) :=
  match scanNumber text with
  | some ((signed, rest), after) =>
      if rest = [] then (readInt signed).map fun value => (.int value, after)
      else some (.float (floats.read (signed ++ rest)), after)
  | none =>
      ((literals floats).find? (·.1.isPrefixOf text)).map fun literal =>
        (literal.2, text.drop literal.1.length)

/-- The pairs of an object as a dictionary: a key that comes again keeps its place and takes the
later value. -/
def dictOf {Value : Type} (pairs : List (CodePoints × Value)) : List (CodePoints × Value) :=
  pairs.foldl (fun dict pair => Dict.update dict pair.1 fun _ => pair.2) []

/-- A value and what follows it; the fuel bounds its depth and its length. -/
def scanValue : Nat → CodePoints → Option (Json floats.Value × CodePoints)
  | 0, _ => none
  | _ + 1, [] => none
  | fuel + 1, code :: rest =>
      if code = quote then
        (scanString fuel rest).map fun read => (.str read.1, read.2)
      else if code = openBrace then
        (scanBracketed (scanMember fuel (scanValue fuel)) closeBrace fuel rest).map fun read =>
          (.obj (dictOf read.1), read.2)
      else if code = openBracket then
        (scanBracketed (scanValue fuel) closeBracket fuel rest).map fun read =>
          (.arr read.1, read.2)
      else scanScalar floats (code :: rest)

/-- `json.loads`: one value, blanks around it, no byte order mark. -/
def loads (text : CodePoints) : Option (Json floats.Value) :=
  if text.head? = some 0xfeff then none
  else do
    let (node, rest) ← scanValue floats (text.length + 1) (skip text)
    if skip rest = [] then some node else none

mutual

/-- `json.dumps(node, sort_keys=True, separators=(",", ":"), ensure_ascii=False)`. -/
def dumps : Json floats.Value → CodePoints
  | .null => codes "null"
  | .bool value => if value then codes "true" else codes "false"
  | .int value => writeInt value
  | .float value => floats.write value
  | .str text => writeString text
  | .arr items => openBracket :: ([comma].intercalate (dumpsEach items) ++ [closeBracket])
  | .obj members =>
      openBrace :: ([comma].intercalate ((sortedBy Prod.fst (dumpsMembers members)).map
        fun member => writeString member.1 ++ colon :: member.2) ++ [closeBrace])

def dumpsEach : List (Json floats.Value) → List CodePoints
  | [] => []
  | item :: rest => dumps item :: dumpsEach rest

def dumpsMembers : List (CodePoints × Json floats.Value) → List (CodePoints × CodePoints)
  | [] => []
  | (key, value) :: rest => (key, dumps value) :: dumpsMembers rest

end

/-! ### Bytes -/

/-- `body.decode("utf-8")`. -/
def decodeUtf8 (body : ByteArray) : Option CodePoints :=
  body.utf8Decode?.map fun chars => chars.toList.map Char.toNat

/-- A code point that is no surrogate. -/
def toChar (code : Nat) : Option Char :=
  if valid : code.isValidChar then some (Char.ofNatAux code valid) else none

/-- `text.encode("utf-8")`, which refuses a surrogate. -/
def encodeUtf8 (text : CodePoints) : Option ByteArray :=
  (text.mapM toChar).map fun chars => (String.ofList chars).toByteArray

end Sreality.Foundation.JsonText
