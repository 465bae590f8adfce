import Sreality.Foundation.JsonText

/-! `location_data/payload_norm.py`: the JSON half of the payload normaliser. A volatile profile
names parts of a body by pointers, each of which is deleted from the document before it is written
in its canonical form; an answer of `none` is an exception, which the caller turns into the
fallback on the raw bytes. -/

set_option autoImplicit false

namespace Sreality.LocationData.PayloadNorm

open Foundation Foundation.JsonText

/-! ### Tokens -/

/-- `_WILDCARD`: every element of an array. -/
def wildcard : CodePoints := codes "-"

/-- `_KEY_GLOB`. -/
def keyGlob : Nat := 42

/-- `token.replace(first + second, by)`. -/
def replacePair (first second by_ : Nat) : CodePoints → CodePoints
  | [] => []
  | [code] => [code]
  | one :: other :: rest =>
      if one = first ∧ other = second then by_ :: replacePair first second by_ rest
      else one :: replacePair first second by_ (other :: rest)

/-- `_pointer_tokens`: nothing for a pointer that is not rooted. -/
def pointerTokens (pointer : CodePoints) : List CodePoints :=
  if pointer.head? = some slash then
    (pointer.tail.splitOn slash).map fun token =>
      replacePair 126 48 126 (replacePair 126 49 slash token)
  else []

/-- The zeros of the scripts that have decimal digits. -/
def decimalZeros : List Nat :=
  [0x30, 0x660, 0x6f0, 0x7c0, 0x966, 0x9e6, 0xa66, 0xae6, 0xb66, 0xbe6, 0xc66, 0xce6, 0xd66, 0xde6,
    0xe50, 0xed0, 0xf20, 0x1040, 0x1090, 0x17e0, 0x1810, 0x1946, 0x19d0, 0x1a80, 0x1a90, 0x1b50,
    0x1bb0, 0x1c40, 0x1c50, 0xa620, 0xa8d0, 0xa900, 0xa9d0, 0xa9f0, 0xaa50, 0xabf0, 0xff10,
    0x104a0, 0x10d30, 0x11066, 0x110f0, 0x11136, 0x111d0, 0x112f0, 0x11450, 0x114d0, 0x11650,
    0x116c0, 0x11730, 0x118e0, 0x11950, 0x11c50, 0x11d50, 0x11da0, 0x11f50, 0x16a60, 0x16ac0,
    0x16b50, 0x1d7ce, 0x1d7d8, 0x1d7e2, 0x1d7ec, 0x1d7f6, 0x1e140, 0x1e2f0, 0x1e4f0, 0x1e950,
    0x1fbf0]

/-- The digits of no decimal script, superscripts and circled ones, by ranges. -/
def loneDigits : List (Nat × Nat) :=
  [(0xb2, 0xb3), (0xb9, 0xb9), (0x1369, 0x1371), (0x19da, 0x19da), (0x2070, 0x2070),
    (0x2074, 0x2079), (0x2080, 0x2089), (0x2460, 0x2468), (0x2474, 0x247c), (0x2488, 0x2490),
    (0x24ea, 0x24ea), (0x24f5, 0x24fd), (0x24ff, 0x24ff), (0x2776, 0x277e), (0x2780, 0x2788),
    (0x278a, 0x2792), (0x10a40, 0x10a43), (0x10e60, 0x10e68), (0x11052, 0x1105a),
    (0x1f100, 0x1f10a)]

def decimalValue (code : Nat) : Option Nat :=
  (decimalZeros.find? fun first => decide (first ≤ code ∧ code < first + 10)).map (code - ·)

/-- `token.isdigit()`. -/
def isdigit (token : CodePoints) : Bool :=
  !token.isEmpty && token.all fun code =>
    (decimalValue code).isSome || loneDigits.any fun range => decide (range.1 ≤ code ∧ code ≤ range.2)

/-- `int(token)` of a token that `isdigit` accepts: it reads decimal digits only, and not too many
of them. -/
def int (token : CodePoints) : Option Nat :=
  if token.length ≤ maxStrDigits then
    (token.mapM decimalValue).map fun digits => Nat.ofDigits 10 digits.reverse
  else none

/-- `_index`. -/
def index (length : Nat) (token : CodePoints) : Option (Option Nat) :=
  if isdigit token then
    (int token).map fun value => if value < length then some value else none
  else some none

/-! ### Deletion -/

section Delete

variable {Float : Type}

/-- A key that starts with what stands before a token's first glob and ends with what stands
behind it. -/
def globs (token key : CodePoints) : Bool :=
  let front := token.takeWhile (· ≠ keyGlob)
  let back := (token.dropWhile (· ≠ keyGlob)).tail
  decide (front.length + back.length ≤ key.length) && front.isPrefixOf key && back.isSuffixOf key

/-- `_glob_keys`. -/
def globKeys (members : List (CodePoints × Json Float)) (token : CodePoints) : List CodePoints :=
  (members.map Prod.fst).filter (globs token)

/-- The values of some keys changed in their places. -/
def changeMembers (chosen : CodePoints → Bool) (change : Json Float → Option (Json Float))
    (members : List (CodePoints × Json Float)) : Option (List (CodePoints × Json Float)) :=
  members.mapM fun member =>
    if chosen member.1 then (change member.2).map (Prod.mk member.1) else some member

/-- The element at an index changed in its place. -/
def changeAt (change : Json Float → Option (Json Float)) :
    Nat → List (Json Float) → Option (List (Json Float))
  | _, [] => some []
  | 0, item :: rest => (change item).map (· :: rest)
  | index + 1, item :: rest => (changeAt change index rest).map (item :: ·)

/-- What is done to `_child`, done in the node; a child that is not there is `None`, which no
deletion changes. -/
def changeChild (change : Json Float → Option (Json Float)) (token : CodePoints) :
    Json Float → Option (Json Float)
  | .obj members => (changeMembers (· = token) change members).map .obj
  | .arr items => do
      match ← index items.length token with
      | none => some (.arr items)
      | some position => (changeAt change position items).map .arr
  | node => some node

/-- `_drop`. -/
def drop (token : CodePoints) : Json Float → Option (Json Float)
  | .obj members => some (.obj (members.filter (·.1 ≠ token)))
  | .arr items => do
      match ← index items.length token with
      | none => some (.arr items)
      | some position => some (.arr (items.eraseIdx position))
  | node => some node

/-- `_delete_pointer`, to the node it leaves. -/
def deletePointer : List CodePoints → Json Float → Option (Json Float)
  | [], node => some node
  | head :: rest, node =>
      match node with
      | .arr items =>
          if head = wildcard then
            if rest = [] then some (.arr [])
            else (items.mapM (deletePointer rest)).map .arr
          else if rest = [] then drop head (.arr items)
          else changeChild (deletePointer rest) head (.arr items)
      | .obj members =>
          if keyGlob ∈ head then
            let keys := globKeys members head
            if rest = [] then some (.obj (members.filter (·.1 ∉ keys)))
            else (changeMembers (· ∈ keys) (deletePointer rest) members).map .obj
          else if rest = [] then drop head (.obj members)
          else changeChild (deletePointer rest) head (.obj members)
      | node =>
          if rest = [] then drop head node else changeChild (deletePointer rest) head node

end Delete

/-! ### The canonical bytes -/

variable (floats : Floats)

/-- `_normalise_json`. -/
def normaliseJson (body : ByteArray) (pointers : List CodePoints) : Option ByteArray := do
  let text ← decodeUtf8 body
  let doc ← loads floats text
  let doc ← pointers.foldlM (fun doc pointer => deletePointer (pointerTokens pointer) doc) doc
  encodeUtf8 (dumps floats doc)

end Sreality.LocationData.PayloadNorm
