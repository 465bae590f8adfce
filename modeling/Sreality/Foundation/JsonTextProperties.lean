import Mathlib.Data.List.TakeWhile
import Sreality.Foundation.JsonText

/-! The round trip of the JSON text: what `dumps` writes `loads` reads as the same value with its
keys in order, what `loads` reads is well formed, and what can be encoded is read off the value. -/

set_option autoImplicit false

namespace Sreality.Foundation.JsonText

/-! ### What is written is read back -/

theorem toNat_of_toChar {code : Nat} {char : Char} (valid : toChar code = some char) :
    char.toNat = code := by
  obtain ⟨here, named⟩ := Option.dite_none_right_eq_some.mp valid
  cases named
  rfl

/-- What encodes decodes to itself. -/
theorem decodeUtf8_of_encodeUtf8 {text : CodePoints} {body : ByteArray}
    (encoded : encodeUtf8 text = some body) : decodeUtf8 body = some text := by
  obtain ⟨chars, valid, rfl⟩ := Option.map_eq_some_iff.mp encoded
  have decoded : (String.ofList chars).toByteArray.utf8Decode? = some chars.toArray :=
    List.utf8Decode?_utf8Encode
  rw [decodeUtf8, decoded]
  have codes_ : chars.map Char.toNat = text := by
    clear encoded decoded
    induction text generalizing chars with
    | nil =>
        cases valid
        rfl
    | cons code rest ih =>
        rw [List.mapM_cons] at valid
        obtain ⟨char, first, later⟩ := Option.bind_eq_some_iff.mp valid
        obtain ⟨others, tail, held⟩ := Option.bind_eq_some_iff.mp later
        cases held
        rw [List.map_cons, toNat_of_toChar first, ih others tail]
  exact congrArg some codes_

/-- The bytes of a string are the encoding of its code points. -/
theorem encodeUtf8_codes (text : String) : encodeUtf8 (codes text) = some text.toByteArray := by
  have valid : ∀ chars : List Char, (chars.map Char.toNat).mapM toChar = some chars := by
    intro chars
    induction chars with
    | nil => rfl
    | cons char rest ih =>
        have here : toChar char.toNat = some char := dif_pos char.valid
        rw [List.map_cons, List.mapM_cons, here, ih]
        rfl
  rw [encodeUtf8, codes, valid, Option.map_some, String.ofList_toList]

theorem decodeUtf8_codes (text : String) : decodeUtf8 text.toByteArray = some (codes text) :=
  decodeUtf8_of_encodeUtf8 (encodeUtf8_codes text)

/-- A text without surrogates encodes. -/
theorem encodeUtf8_isSome {text : CodePoints} :
    (encodeUtf8 text).isSome ↔ ∀ code ∈ text, code.isValidChar := by
  have valid : (text.mapM toChar).isSome ↔ ∀ code ∈ text, code.isValidChar := by
    induction text with
    | nil => simp
    | cons code rest ih =>
        rw [List.mapM_cons, List.forall_mem_cons, ← ih]
        by_cases here : code.isValidChar
        · obtain ⟨char, some_⟩ : ∃ char, toChar code = some char := ⟨_, dif_pos here⟩
          rw [some_]
          cases rest.mapM toChar <;> simp [here]
        · have none_ : toChar code = none := dif_neg here
          simp [none_, here]
  rw [encodeUtf8, Option.isSome_map, valid]

/-- What may follow a value: nothing, or the comma or bracket that closes it. -/
def Ends (more : CodePoints) : Prop :=
  ∀ code ∈ more.head?, code = comma ∨ code = closeBracket ∨ code = closeBrace

theorem ends_nil : Ends [] := by
  intro code head
  cases head

theorem ends_cons {code : Nat} {rest : CodePoints}
    (closes : code = comma ∨ code = closeBracket ∨ code = closeBrace) : Ends (code :: rest) := by
  intro other head
  cases head
  exact closes

theorem Ends.head_ne {code : Nat} {rest : CodePoints} (ends : Ends (code :: rest)) :
    isDigit code = false ∧ isBlank code = false ∧ code ≠ point ∧ code ≠ 101 ∧ code ≠ 69 ∧
      code ≠ 43 ∧ code ≠ minus ∧ code ≠ zero := by
  rcases ends code rfl with rfl | rfl | rfl <;> decide

section Numbers

variable {more : CodePoints}

theorem takeWhile_digits_append (ends : Ends more) (text : CodePoints) :
    (text ++ more).takeWhile isDigit = text.takeWhile isDigit ∧
      (text ++ more).dropWhile isDigit = text.dropWhile isDigit ++ more := by
  induction text with
  | nil =>
      cases more with
      | nil => exact ⟨rfl, rfl⟩
      | cons code rest => simp [ends.head_ne.1]
  | cons code rest ih =>
      rw [List.cons_append, List.takeWhile_cons, List.dropWhile_cons, List.takeWhile_cons,
        List.dropWhile_cons, ih.1, ih.2]
      split <;> exact ⟨rfl, rfl⟩

theorem scanWhole_append (ends : Ends more) (text : CodePoints) :
    scanWhole (text ++ more) = (scanWhole text).map fun read => (read.1, read.2 ++ more) := by
  cases text with
  | nil =>
      cases more with
      | nil => rfl
      | cons code rest => simp [scanWhole, ends.head_ne]
  | cons code rest =>
      obtain ⟨taken, left⟩ := takeWhile_digits_append ends rest
      simp only [List.cons_append, scanWhole, taken, left]
      split_ifs <;> rfl

theorem scanFraction_append (ends : Ends more) (text : CodePoints) :
    scanFraction (text ++ more) = ((scanFraction text).1, (scanFraction text).2 ++ more) := by
  cases text with
  | nil =>
      cases more with
      | nil => rfl
      | cons code rest => simp [scanFraction, ends.head_ne]
  | cons code rest =>
      obtain ⟨taken, left⟩ := takeWhile_digits_append ends rest
      simp only [List.cons_append, scanFraction, taken, left]
      split_ifs <;> rfl

theorem scanMinus_append (ends : Ends more) (text : CodePoints) :
    scanMinus (text ++ more) = ((scanMinus text).1, (scanMinus text).2 ++ more) := by
  cases text with
  | nil =>
      cases more with
      | nil => rfl
      | cons code rest => simp [scanMinus, ends.head_ne]
  | cons code rest =>
      simp only [List.cons_append, scanMinus]
      split_ifs <;> rfl

theorem scanSign_append (ends : Ends more) (text : CodePoints) :
    scanSign (text ++ more) = ((scanSign text).1, (scanSign text).2 ++ more) := by
  cases text with
  | nil =>
      cases more with
      | nil => rfl
      | cons code rest => simp [scanSign, ends.head_ne]
  | cons code rest =>
      simp only [List.cons_append, scanSign]
      split_ifs <;> rfl

theorem scanExponent_append (ends : Ends more) (text : CodePoints) :
    scanExponent (text ++ more) = ((scanExponent text).1, (scanExponent text).2 ++ more) := by
  cases text with
  | nil =>
      cases more with
      | nil => rfl
      | cons code rest => simp [scanExponent, ends.head_ne]
  | cons code rest =>
      obtain ⟨taken, left⟩ := takeWhile_digits_append ends (scanSign rest).2
      simp only [List.cons_append, scanExponent, scanSign_append ends, taken, left]
      split_ifs <;> rfl

/-- A number ends where its text ended, whatever bracket or comma comes next. -/
theorem scanNumber_append (ends : Ends more) (text : CodePoints) :
    scanNumber (text ++ more) = (scanNumber text).map fun read => (read.1, read.2 ++ more) := by
  simp only [scanNumber, scanMinus_append ends, scanWhole_append ends]
  cases scanWhole (scanMinus text).2 with
  | none => rfl
  | some read =>
      simp only [Option.map_some, Option.bind_eq_bind, Option.bind_some, scanFraction_append ends,
        scanExponent_append ends]

/-! ### Integers -/

theorem readDigits_decimal (n : Nat) : readDigits (decimal n) = n := by
  unfold readDigits decimal
  split_ifs with none_
  · subst none_
    rfl
  · simp only [List.map_reverse, List.reverse_reverse, List.map_map]
    have same : (Nat.digits 10 n).map ((· - 48) ∘ (· + 48)) = Nat.digits 10 n := by
      conv_rhs => rw [← List.map_id (Nat.digits 10 n)]
      apply List.map_congr_left
      intro digit _
      exact Nat.add_sub_cancel digit 48
    rw [same, Nat.ofDigits_digits]

/-- A written number starts with its sign or a digit and has only digits behind. -/
theorem decimal_digits (n : Nat) : ∀ code ∈ decimal n, isDigit code = true := by
  unfold decimal
  split_ifs with none_
  · intro code listed
    cases List.mem_singleton.mp listed
    rfl
  · intro code listed
    obtain ⟨digit, held, rfl⟩ := List.mem_map.mp listed
    have small : digit < 10 := Nat.digits_lt_base (by decide) (List.mem_reverse.mp held)
    simp only [isDigit, decide_eq_true_eq]
    omega

/-- Only the number zero starts with a zero. -/
theorem decimal_cons (n : Nat) :
    ∃ code rest, decimal n = code :: rest ∧ (code = zero → rest = []) := by
  unfold decimal
  split_ifs with none_
  · exact ⟨zero, [], rfl, fun _ => rfl⟩
  · have some_ : Nat.digits 10 n ≠ [] := Nat.digits_ne_nil_iff_ne_zero.mpr none_
    have leading := Nat.getLast_digit_ne_zero 10 none_
    rw [← List.dropLast_append_getLast some_, List.reverse_append, List.reverse_singleton,
      List.singleton_append, List.map_cons]
    refine ⟨_, _, rfl, fun isZero => absurd ?_ leading⟩
    exact Nat.add_eq_right.mp isZero

theorem scanWhole_decimal (n : Nat) : scanWhole (decimal n) = some (decimal n, []) := by
  obtain ⟨code, rest, written, alone⟩ := decimal_cons n
  have digits := decimal_digits n
  rw [written] at digits ⊢
  obtain ⟨first, later⟩ := List.forall_mem_cons.mp digits
  simp only [scanWhole]
  split_ifs with isZero
  · rw [isZero, alone isZero]
  · rw [List.takeWhile_eq_self_iff.mpr later, List.dropWhile_eq_nil_iff.mpr later]

/-- No number starts with a minus of its own. -/
theorem scanMinus_decimal (n : Nat) : scanMinus (decimal n) = ([], decimal n) := by
  obtain ⟨code, rest, written, -⟩ := decimal_cons n
  have first := decimal_digits n code (written ▸ List.mem_cons_self)
  rw [written, scanMinus, if_neg]
  rintro rfl
  cases first

theorem scanNumber_writeInt (value : Int) :
    scanNumber (writeInt value) = some ((writeInt value, []), []) := by
  have split : scanMinus (writeInt value) =
      (if value < 0 then [minus] else [], decimal value.natAbs) := by
    unfold writeInt
    split_ifs
    · rfl
    · exact scanMinus_decimal _
  simp only [scanNumber, split, scanWhole_decimal, Option.bind_eq_bind, Option.bind_some]
  rfl

theorem readInt_writeInt {value : Int} (short : (decimal value.natAbs).length ≤ maxStrDigits) :
    readInt (writeInt value) = some value := by
  unfold writeInt
  split_ifs with negative
  · rw [List.singleton_append, readInt, if_pos rfl, if_pos short, readDigits_decimal]
    exact congrArg some (by omega)
  · obtain ⟨code, rest, written, -⟩ := decimal_cons value.natAbs
    have first := decimal_digits value.natAbs code (written ▸ List.mem_cons_self)
    have unsigned : code ≠ minus := by
      rintro rfl
      cases first
    have reads := readDigits_decimal value.natAbs
    rw [written] at short reads
    rw [List.nil_append, written, readInt, if_neg unsigned, if_pos (List.length_cons ▸ short), reads]
    exact congrArg some (by omega)

end Numbers

section Strings

variable {more : CodePoints}

theorem scanEscape_letter {code letter : Nat} (own : escapes.lookup code = some letter) :
    scanEscape (letter :: more) = some (code, more) := by
  have listed := mem_of_lookup own
  simp only [escapes, List.mem_cons, Prod.mk.injEq, List.not_mem_nil, or_false] at listed
  rcases listed with ⟨rfl, rfl⟩ | ⟨rfl, rfl⟩ | ⟨rfl, rfl⟩ | ⟨rfl, rfl⟩ | ⟨rfl, rfl⟩ | ⟨rfl, rfl⟩ |
    ⟨rfl, rfl⟩ <;> rfl

theorem hexValue_hexDigit {value : Nat} (small : value < 16) :
    hexValue (hexDigit value) = some value := by
  interval_cases value <;> rfl

/-- The four digits of a control character. -/
theorem scanEscape_control {code : Nat} (control : code < 32) :
    scanEscape (117 :: hexDigit 0 :: hexDigit 0 :: hexDigit (code / 16) :: hexDigit (code % 16) ::
      more) = some (code, more) := by
  have low : code % 16 < 16 := Nat.mod_lt _ (by decide)
  have high : code / 16 < 16 := by omega
  have value : ((0 * 16 + 0) * 16 + code / 16) * 16 + code % 16 = code := by omega
  have single : ¬ (0xd800 ≤ code ∧ code ≤ 0xdbff ∧ more.take 2 = [backslash, 117]) := by omega
  simp only [scanEscape, if_true, scanUnicode, scanHex, hexValue_hexDigit low,
    hexValue_hexDigit high, hexValue_hexDigit (show 0 < 16 by decide), Option.bind_eq_bind,
    Option.bind_some, value, if_neg single]

/-- A backslash takes its escape with it. -/
theorem scanString_backslash {fuel code : Nat} {text rest : CodePoints}
    (escape : scanEscape text = some (code, rest)) :
    scanString (fuel + 1) (backslash :: text) =
      (scanString fuel rest).map fun read => (code :: read.1, read.2) := by
  simp only [scanString, escape, Option.bind_eq_bind, Option.bind_some]
  cases scanString fuel rest <;> rfl

/-- What is written for a character reads as that character. -/
theorem scanString_writeCode (code fuel : Nat) :
    scanString (fuel + 1) (writeCode code ++ more) =
      (scanString fuel more).map fun read => (code :: read.1, read.2) := by
  unfold writeCode
  cases own : escapes.lookup code with
  | some letter => exact scanString_backslash (scanEscape_letter own)
  | none =>
      dsimp only
      split_ifs with control
      · exact scanString_backslash (scanEscape_control control)
      · have others : code ∉ escapes.map Prod.fst := lookup_eq_none_iff_key.mp own
        have plain : code ≠ quote ∧ code ≠ backslash := by
          constructor <;> rintro rfl <;> exact others (by decide)
        rw [List.singleton_append, scanString, if_neg plain.1, if_neg plain.2, if_neg control]
        cases scanString fuel more <;> rfl

theorem writeCode_ne_nil (code : Nat) : writeCode code ≠ [] := by
  unfold writeCode
  split
  · exact List.cons_ne_nil _ _
  · split_ifs <;> exact List.cons_ne_nil _ _

theorem scanString_flatMap (text : CodePoints) {fuel : Nat}
    (enough : (text.flatMap writeCode).length < fuel) :
    scanString fuel (text.flatMap writeCode ++ quote :: more) = some (text, more) := by
  induction text generalizing fuel with
  | nil =>
      cases fuel with
      | zero => cases enough
      | succ fuel => rfl
  | cons code rest ih =>
      have some_ := List.length_pos_of_ne_nil (writeCode_ne_nil code)
      rw [List.flatMap_cons, List.length_append] at enough
      cases fuel with
      | zero => cases enough
      | succ fuel =>
          rw [List.flatMap_cons, List.append_assoc, scanString_writeCode, ih (by omega)]
          rfl

/-- A written string, behind its opening quote. -/
theorem scanString_writeString (text : CodePoints) {fuel : Nat}
    (enough : (writeString text).tail.length ≤ fuel) :
    scanString fuel ((writeString text).tail ++ more) = some (text, more) := by
  rw [writeString, List.tail_cons, List.length_append, List.length_singleton] at enough
  rw [writeString, List.tail_cons, List.append_assoc, List.singleton_append]
  exact scanString_flatMap text (by omega)

end Strings

/-- A text that starts with an ASCII character of its own: no blank, no bracket that closes. -/
inductive Opens : CodePoints → Prop where
  | cons {code : Nat} {rest : CodePoints} : code < 128 → isBlank code = false →
      code ≠ closeBracket → code ≠ closeBrace → Opens (code :: rest)

theorem skip_cons {code : Nat} {rest : CodePoints} (own : isBlank code = false) :
    skip (code :: rest) = code :: rest := by
  rw [skip, List.dropWhile_cons, own]
  rfl

theorem Opens.skip {text : CodePoints} (opens : Opens text) (more : CodePoints) :
    skip (text ++ more) = text ++ more := by
  cases opens with
  | cons _ own _ _ => exact skip_cons own

section Items

variable {Source Item : Type} {item : CodePoints → Option (Item × CodePoints)}
  {write : Source → CodePoints} {read : Source → Item} {close fuel : Nat} {more : CodePoints}

theorem scanItems_write (closes : close = closeBracket ∨ close = closeBrace)
    (first : Source) (sources : List Source) (enough : sources.length < fuel)
    (opens : ∀ source ∈ first :: sources, Opens (write source))
    (reads : ∀ source ∈ first :: sources, ∀ more, Ends more →
      item (write source ++ more) = some (read source, more)) :
    scanItems item close fuel
        ([comma].intercalate ((first :: sources).map write) ++ close :: more) =
      some ((first :: sources).map read, more) := by
  have blank : isBlank close = false := by rcases closes with rfl | rfl <;> rfl
  have apart : comma ≠ close := by rcases closes with rfl | rfl <;> decide
  induction sources generalizing first fuel with
  | nil =>
      cases fuel with
      | zero => cases enough
      | succ fuel =>
          have ends : Ends (close :: more) := ends_cons (Or.inr closes)
          rw [List.map_singleton, List.intercalate_singleton, scanItems,
            reads first List.mem_cons_self _ ends]
          simp only [Option.bind_eq_bind, Option.bind_some, skip_cons blank, if_true]
          rfl
  | cons second rest ih =>
      cases fuel with
      | zero => cases enough
      | succ fuel =>
          have later := ih second (Nat.lt_of_succ_lt_succ enough)
            (fun source listed => opens source (List.mem_cons_of_mem _ listed))
            (fun source listed => reads source (List.mem_cons_of_mem _ listed))
          have next : Opens (write second) := opens second (by simp)
          have text : [comma].intercalate ((first :: second :: rest).map write) ++ close :: more =
              write first ++
                comma :: ([comma].intercalate ((second :: rest).map write) ++ close :: more) := by
            simp [List.map_cons, List.intercalate_cons_cons]
          have skips : skip ([comma].intercalate ((second :: rest).map write) ++ close :: more) =
              [comma].intercalate ((second :: rest).map write) ++ close :: more := by
            cases rest with
            | nil =>
                rw [List.map_singleton, List.intercalate_singleton]
                exact next.skip _
            | cons third rest =>
                rw [List.map_cons, List.map_cons, List.intercalate_cons_cons, List.append_assoc,
                  List.append_assoc]
                exact next.skip _
          rw [text, scanItems, reads first List.mem_cons_self _ (ends_cons (Or.inl rfl))]
          simp only [Option.bind_eq_bind, Option.bind_some,
            skip_cons (show isBlank comma = false from rfl), if_neg apart, if_true, skips, later]
          rfl

theorem opens_intercalate {first : Source} {sources : List Source} (opens : Opens (write first)) :
    Opens ([comma].intercalate ((first :: sources).map write)) := by
  cases written : write first with
  | nil =>
      rw [written] at opens
      cases opens
  | cons code rest =>
      rw [written] at opens
      rw [List.map_cons, written, List.intercalate_cons_cons_left]
      cases opens with
      | cons ascii own bracket brace => exact .cons ascii own bracket brace

/-- Items written between brackets are the items read. -/
theorem scanBracketed_write (closes : close = closeBracket ∨ close = closeBrace)
    (sources : List Source) (enough : sources.length ≤ fuel)
    (opens : ∀ source ∈ sources, Opens (write source))
    (reads : ∀ source ∈ sources, ∀ more, Ends more →
      item (write source ++ more) = some (read source, more)) :
    scanBracketed item close fuel ([comma].intercalate (sources.map write) ++ close :: more) =
      some (sources.map read, more) := by
  have blank : isBlank close = false := by rcases closes with rfl | rfl <;> rfl
  cases sources with
  | nil =>
      rw [List.map_nil, List.intercalate_nil, List.nil_append, scanBracketed, skip_cons blank]
      exact if_pos rfl
  | cons first rest =>
      have items : scanItems item close fuel
          ([comma].intercalate ((first :: rest).map write) ++ close :: more) =
            some ((first :: rest).map read, more) :=
        scanItems_write closes first rest (Nat.lt_of_succ_le enough) opens reads
      have start : Opens ([comma].intercalate ((first :: rest).map write)) :=
        opens_intercalate (opens first List.mem_cons_self)
      rw [scanBracketed, start.skip]
      cases text : [comma].intercalate ((first :: rest).map write) with
      | nil =>
          rw [text] at start
          cases start
      | cons code behind =>
          rw [text] at start items
          cases start with
          | cons _ _ bracket brace =>
              have apart : code ≠ close := by
                rcases closes with rfl | rfl
                · exact bracket
                · exact brace
              simp only [List.cons_append, if_neg apart]
              exact items

/-- A member is its key, a colon and its value. -/
theorem scanMember_write {value : CodePoints → Option (Item × CodePoints)} {key text : CodePoints}
    {result : Item} (enough : (writeString key).tail.length ≤ fuel) (opens : Opens text)
    (reads : value (text ++ more) = some (result, more)) :
    scanMember fuel value ((writeString key ++ colon :: text) ++ more) =
      some ((key, result), more) := by
  have reading : scanString fuel ((writeString key).tail ++ colon :: (text ++ more)) =
      some (key, colon :: (text ++ more)) := scanString_writeString key enough
  have written : (writeString key ++ colon :: text) ++ more =
      quote :: ((writeString key).tail ++ colon :: (text ++ more)) := by
    simp [writeString]
  rw [written, scanMember, if_pos rfl, reading]
  simp only [Option.bind_eq_bind, Option.bind_some, skip_cons (show isBlank colon = false from rfl),
    if_true, opens.skip, reads]

end Items

/-! ### Dictionaries -/

section Dictionaries

variable {Value : Type}

theorem keyed_dictOf (pairs : List (CodePoints × Value)) : Keyed Prod.fst (dictOf pairs) := by
  have kept : ∀ dict : List (CodePoints × Value), Keyed Prod.fst dict →
      Keyed Prod.fst (pairs.foldl (fun dict pair => Dict.update dict pair.1 fun _ => pair.2) dict) := by
    induction pairs with
    | nil => exact fun _ keyed => keyed
    | cons pair rest ih => exact fun dict keyed => ih _ (Dict.keyed_update keyed pair.1 _)
  exact kept [] Keyed.nil

/-- Pairs of different keys are the dictionary's rows. -/
theorem dictOf_eq_self {pairs : List (CodePoints × Value)} (keyed : Keyed Prod.fst pairs) :
    dictOf pairs = pairs := by
  have grows : ∀ dict : List (CodePoints × Value), Keyed Prod.fst (dict ++ pairs) →
      pairs.foldl (fun dict pair => Dict.update dict pair.1 fun _ => pair.2) dict =
        dict ++ pairs := by
    clear keyed
    induction pairs with
    | nil => exact fun dict _ => (List.append_nil dict).symm
    | cons pair rest ih =>
        intro dict keyed
        have fresh : pair.1 ∉ dict.map Prod.fst := by
          intro held
          rw [Keyed, List.map_append, List.map_cons] at keyed
          exact (List.nodup_append.mp keyed).2.2 pair.1 held pair.1 List.mem_cons_self rfl
        have appended : Dict.update dict pair.1 (fun _ => pair.2) = dict ++ [pair] := if_neg fresh
        rw [List.foldl_cons, appended, ih]
        · rw [List.append_assoc, List.singleton_append]
        · rw [List.append_assoc, List.singleton_append]
          exact keyed
  exact grows [] keyed

/-- What every pair gives, every row of the dictionary has. -/
theorem dictOf_forall {Good : Value → Prop} {pairs : List (CodePoints × Value)}
    (good : ∀ pair ∈ pairs, Good pair.2) : ∀ row ∈ dictOf pairs, Good row.2 := by
  have kept : ∀ dict : List (CodePoints × Value), (∀ row ∈ dict, Good row.2) →
      ∀ row ∈ pairs.foldl (fun dict pair => Dict.update dict pair.1 fun _ => pair.2) dict,
        Good row.2 := by
    induction pairs with
    | nil => exact fun _ held => held
    | cons pair rest ih =>
        obtain ⟨here, later⟩ := List.forall_mem_cons.mp good
        intro dict held
        refine ih later _ fun row listed => ?_
        dsimp only [Dict.update] at listed
        split_ifs at listed with old
        · obtain ⟨before, inside, rfl⟩ := List.mem_map.mp listed
          split_ifs
          · exact here
          · exact held before inside
        · rcases List.mem_append.mp listed with inside | last
          · exact held row inside
          · rw [List.mem_singleton.mp last]
            exact here
  exact kept [] (by simp)

end Dictionaries

/-! ### Values -/

section Values

variable {floats : Floats} {more : CodePoints}

theorem dumpsEach_eq_map (items : List (Json floats.Value)) :
    dumpsEach floats items = items.map (dumps floats) := by
  induction items with
  | nil => rfl
  | cons item rest ih => rw [dumpsEach, ih, List.map_cons]

def dumpMember (floats : Floats) (member : CodePoints × Json floats.Value) :
    CodePoints × CodePoints := (member.1, dumps floats member.2)

@[simp] theorem dumpMember_fst (member : CodePoints × Json floats.Value) :
    (dumpMember floats member).1 = member.1 := rfl

theorem dumpsMembers_eq_map (members : List (CodePoints × Json floats.Value)) :
    dumpsMembers floats members = members.map (dumpMember floats) := by
  induction members with
  | nil => rfl
  | cons member rest ih =>
      rw [dumpsMembers, ih]
      rfl

theorem dumps_arr (items : List (Json floats.Value)) :
    dumps floats (.arr items) =
      openBracket :: ([comma].intercalate (items.map (dumps floats)) ++ [closeBracket]) := by
  rw [dumps, dumpsEach_eq_map]

/-- The text of a member. -/
def memberText (floats : Floats) (member : CodePoints × Json floats.Value) : CodePoints :=
  writeString member.1 ++ colon :: dumps floats member.2

theorem dumps_obj (members : List (CodePoints × Json floats.Value)) :
    dumps floats (.obj members) =
      openBrace :: ([comma].intercalate
        ((sortedBy Prod.fst members).map (memberText floats)) ++ [closeBrace]) := by
  rw [dumps, dumpsMembers_eq_map, sortedBy_map_of Prod.fst dumpMember_fst, List.map_map]
  rfl

/-- A word of the grammar is read off whatever follows it. -/
theorem scanScalar_literal {literal : CodePoints × Json floats.Value}
    (listed : literal ∈ literals floats) :
    scanScalar floats (literal.1 ++ more) = some (literal.2, more) := by
  simp only [literals, constants, List.map_cons, List.map_nil, List.cons_append, List.nil_append,
    List.mem_cons, List.not_mem_nil, or_false] at listed
  rcases listed with rfl | rfl | rfl | rfl | rfl | rfl <;> rfl

theorem scanScalar_float (value : floats.Value) (ends : Ends more) :
    scanScalar floats (floats.write value ++ more) = some (.float value, more) := by
  have reads := floats.read_write value
  cases floats.token value with
  | constant listed =>
      have literal : (floats.write value, Json.float value) ∈ literals floats := by
        refine List.mem_append_right _ (List.mem_map.mpr ⟨_, listed, ?_⟩)
        rw [reads]
      exact scanScalar_literal literal
  | @number signed rest scanned some_ whole _ =>
      simp only [scanScalar, scanNumber_append ends, scanned, Option.map_some, if_neg some_, whole,
        reads, List.nil_append]

theorem scanScalar_int {value : Int} (short : (decimal value.natAbs).length ≤ maxStrDigits)
    (ends : Ends more) : scanScalar floats (writeInt value ++ more) = some (.int value, more) := by
  simp only [scanScalar, scanNumber_append ends, scanNumber_writeInt, Option.map_some, if_true,
    readInt_writeInt short, List.nil_append]

/-- A text that starts as a scalar's does. -/
inductive OpensScalar : CodePoints → Prop where
  | cons {code : Nat} {rest : CodePoints} : code ∈ minus :: codes "0123456789ntfNI" →
      OpensScalar (code :: rest)

theorem OpensScalar.opens {text : CodePoints} (scalar : OpensScalar text) : Opens text := by
  have plain : ∀ code ∈ minus :: codes "0123456789ntfNI",
      code < 128 ∧ isBlank code = false ∧ code ≠ closeBracket ∧ code ≠ closeBrace := by decide
  cases scalar with
  | cons listed =>
      obtain ⟨ascii, own, bracket, brace⟩ := plain _ listed
      exact .cons ascii own bracket brace

theorem mem_starts_of_isDigit {code : Nat} (digit : isDigit code = true) :
    code ∈ minus :: codes "0123456789ntfNI" := by
  obtain ⟨low, high⟩ := of_decide_eq_true digit
  interval_cases code <;> decide

theorem opensScalar_of_scanNumber {text : CodePoints}
    {read : (CodePoints × CodePoints) × CodePoints} (scanned : scanNumber text = some read) :
    OpensScalar text := by
  cases text with
  | nil => cases scanned
  | cons code rest =>
      refine .cons ?_
      by_cases signed : code = minus
      · rw [signed]
        exact List.mem_cons_self
      · simp only [scanNumber, scanMinus, if_neg signed, scanWhole] at scanned
        split_ifs at scanned with isZero digit
        · rw [isZero]
          decide
        · exact mem_starts_of_isDigit digit
        · cases scanned

theorem opensScalar_float (value : floats.Value) : OpensScalar (floats.write value) := by
  cases floats.token value with
  | constant listed =>
      simp only [constants, List.mem_cons, List.not_mem_nil, or_false] at listed
      rcases listed with written | written | written <;> rw [written] <;> exact .cons (by decide)
  | number scanned _ _ _ => exact opensScalar_of_scanNumber scanned

theorem opensScalar_int (value : Int) : OpensScalar (writeInt value) :=
  opensScalar_of_scanNumber (scanNumber_writeInt value)

theorem opens_dumps (node : Json floats.Value) : Opens (dumps floats node) := by
  cases node with
  | null => exact OpensScalar.opens (.cons (by decide))
  | bool value => cases value <;> exact OpensScalar.opens (.cons (by decide))
  | int value => exact (opensScalar_int value).opens
  | float value => exact (opensScalar_float value).opens
  | str text => exact .cons (by decide) rfl (by decide) (by decide)
  | arr items =>
      rw [dumps_arr]
      exact .cons (by decide) rfl (by decide) (by decide)
  | obj members =>
      rw [dumps_obj]
      exact .cons (by decide) rfl (by decide) (by decide)

theorem scanValue_scalar {text : CodePoints} (scalar : OpensScalar text) (fuel : Nat) :
    scanValue floats (fuel + 1) (text ++ more) = scanScalar floats (text ++ more) := by
  have plain : ∀ code ∈ minus :: codes "0123456789ntfNI",
      code ≠ quote ∧ code ≠ openBrace ∧ code ≠ openBracket := by decide
  cases scalar with
  | cons listed =>
      obtain ⟨string, brace, bracket⟩ := plain _ listed
      rw [List.cons_append, scanValue, if_neg string, if_neg brace, if_neg bracket]

/-- The text of an item of a list is shorter than the list's. -/
theorem length_intercalate {Source : Type} (write : Source → CodePoints) (sources : List Source) :
    (∀ source ∈ sources,
      (write source).length ≤ ([comma].intercalate (sources.map write)).length) ∧
    sources.length ≤ ([comma].intercalate (sources.map write)).length + 1 := by
  induction sources with
  | nil => simp
  | cons first rest ih =>
      cases rest with
      | nil => simp
      | cons second rest =>
          rw [List.map_cons, List.map_cons, List.intercalate_cons_cons, List.length_append,
            List.length_append, List.length_singleton]
          rw [List.map_cons] at ih
          constructor
          · intro source listed
            rcases List.mem_cons.mp listed with rfl | deeper
            · omega
            · have := ih.1 source deeper
              omega
          · have := ih.2
            simp only [List.length_cons] at this ⊢
            omega

theorem Opens.length_pos {text : CodePoints} (opens : Opens text) : 0 < text.length := by
  cases opens
  exact Nat.succ_pos _

theorem exists_fuel {node : Json floats.Value} {fuel : Nat}
    (enough : (dumps floats node).length ≤ fuel) : ∃ less, fuel = less + 1 :=
  Nat.exists_eq_succ_of_ne_zero ((opens_dumps node).length_pos.trans_le enough).ne'

theorem opens_memberText (member : CodePoints × Json floats.Value) :
    Opens (memberText floats member) :=
  .cons (by decide) rfl (by decide) (by decide)

/-- A value written is the value read, its keys in order. -/
theorem scanValue_dumps (node : Json floats.Value) (formed : node.WellFormed) {fuel : Nat}
    (enough : (dumps floats node).length ≤ fuel) (ends : Ends more) :
    scanValue floats fuel (dumps floats node ++ more) = some (node.sorted, more) := by
  induction node using Json.induct generalizing fuel more with
  | null =>
      obtain ⟨fuel, rfl⟩ := exists_fuel enough
      have listed : (codes "null", Json.null) ∈ literals floats := by simp [literals]
      exact (scanValue_scalar (.cons (by decide)) fuel).trans (scanScalar_literal listed)
  | bool value =>
      obtain ⟨fuel, rfl⟩ := exists_fuel enough
      cases value with
      | true =>
          have listed : (codes "true", Json.bool true) ∈ literals floats := by simp [literals]
          exact (scanValue_scalar (.cons (by decide)) fuel).trans (scanScalar_literal listed)
      | false =>
          have listed : (codes "false", Json.bool false) ∈ literals floats := by simp [literals]
          exact (scanValue_scalar (.cons (by decide)) fuel).trans (scanScalar_literal listed)
  | int value =>
      obtain ⟨fuel, rfl⟩ := exists_fuel enough
      cases formed with
      | int short =>
          exact (scanValue_scalar (opensScalar_int value) fuel).trans (scanScalar_int short ends)
  | float value =>
      obtain ⟨fuel, rfl⟩ := exists_fuel enough
      exact (scanValue_scalar (opensScalar_float value) fuel).trans (scanScalar_float value ends)
  | str text =>
      obtain ⟨fuel, rfl⟩ := exists_fuel enough
      have read : scanString fuel ((writeString text).tail ++ more) = some (text, more) := by
        refine scanString_writeString text ?_
        exact Nat.le_of_succ_le_succ enough
      have written : dumps floats (.str text) ++ more =
          quote :: ((writeString text).tail ++ more) := rfl
      rw [written, scanValue, if_pos rfl, read]
      rfl
  | arr items ih =>
      obtain ⟨fuel, rfl⟩ := exists_fuel enough
      cases formed with
      | arr formed =>
          obtain ⟨shorter, few⟩ := length_intercalate (dumps floats) items
          rw [dumps_arr, List.length_cons, List.length_append, List.length_singleton] at enough
          have read : scanBracketed (scanValue floats fuel) closeBracket fuel
              ([comma].intercalate (items.map (dumps floats)) ++ closeBracket :: more) =
                some (items.map Json.sorted, more) := by
            refine scanBracketed_write (Or.inl rfl) items (by omega)
              (fun item _ => opens_dumps item) fun item listed more ends => ?_
            exact ih item listed (formed item listed) ((shorter item listed).trans (by omega)) ends
          rw [dumps_arr, List.cons_append, List.append_assoc, List.singleton_append, scanValue,
            if_neg (by decide), if_neg (by decide), if_pos rfl, read, Json.sorted_arr]
          rfl
  | obj members ih =>
      obtain ⟨fuel, rfl⟩ := exists_fuel enough
      cases formed with
      | obj keyed formed =>
          obtain ⟨shorter, few⟩ := length_intercalate (memberText floats)
            (sortedBy Prod.fst members)
          rw [dumps_obj, List.length_cons, List.length_append, List.length_singleton] at enough
          have read : scanBracketed (scanMember fuel (scanValue floats fuel)) closeBrace fuel
              ([comma].intercalate ((sortedBy Prod.fst members).map (memberText floats)) ++
                closeBrace :: more) =
                some ((sortedBy Prod.fst members).map Json.sortMember, more) := by
            refine scanBracketed_write (Or.inr rfl) (sortedBy Prod.fst members) (by omega)
              (fun member _ => opens_memberText member) fun member listed more ends => ?_
            have held := mem_sortedBy.mp listed
            have short := shorter member listed
            rw [memberText, List.length_append, List.length_cons] at short
            refine scanMember_write ?_ (opens_dumps member.2)
              (ih member held (formed member held) (by omega) ends)
            rw [List.length_tail]
            omega
          rw [dumps_obj, List.cons_append, List.append_assoc, List.singleton_append, scanValue,
            if_neg (by decide), if_pos rfl, read, Json.sorted_obj]
          simp only [Option.map_some, dictOf_eq_self (Json.keyed_sortMember keyed)]

theorem loads_dumps {node : Json floats.Value} (formed : node.WellFormed) :
    loads floats (dumps floats node) = some node.sorted := by
  have opens := opens_dumps node
  have ascii : (dumps floats node).head? ≠ some 0xfeff := by
    cases written : dumps floats node with
    | nil => exact fun marked => by cases marked
    | cons code rest =>
        rw [written] at opens
        cases opens with
        | cons ascii _ _ _ =>
            intro marked
            cases marked
            revert ascii
            decide
  have read := scanValue_dumps node formed (Nat.le_succ _) ends_nil
  have skips := opens.skip []
  rw [List.append_nil] at read skips
  rw [loads, if_neg ascii, skips]
  simp only [read, Option.bind_eq_bind, Option.bind_some]
  exact if_pos rfl

/-! ### What is read is well formed -/

theorem scanWhole_digits {text whole rest : CodePoints}
    (scanned : scanWhole text = some (whole, rest)) :
    whole ≠ [] ∧ ∀ code ∈ whole, isDigit code = true := by
  cases text with
  | nil => cases scanned
  | cons code text =>
      simp only [scanWhole] at scanned
      split_ifs at scanned with isZero digit
      · cases scanned
        exact ⟨List.cons_ne_nil _ _, by decide⟩
      · cases scanned
        refine ⟨List.cons_ne_nil _ _, List.forall_mem_cons.mpr ⟨digit, ?_⟩⟩
        exact fun code listed => List.mem_takeWhile_imp listed

theorem length_decimal_readDigits {digits : CodePoints} (some_ : digits ≠ [])
    (ascii : ∀ code ∈ digits, isDigit code = true) :
    (decimal (readDigits digits)).length ≤ digits.length := by
  unfold decimal
  split_ifs with isZero
  · exact List.length_pos_of_ne_nil some_
  · rw [List.length_map, List.length_reverse, Nat.digits_length_le_iff (by decide)]
    have below : ∀ digit ∈ (digits.map (· - 48)).reverse, digit < 10 := by
      intro digit listed
      obtain ⟨code, held, rfl⟩ := List.mem_map.mp (List.mem_reverse.mp listed)
      have := of_decide_eq_true (ascii code held)
      omega
    have bounded := Nat.ofDigits_lt_base_pow_length (by decide) below
    rw [List.length_reverse, List.length_map] at bounded
    exact bounded

theorem scanMinus_cases (text : CodePoints) :
    (scanMinus text).1 = [minus] ∨ (scanMinus text).1 = [] := by
  cases text with
  | nil => exact Or.inr rfl
  | cons code rest =>
      dsimp only [scanMinus]
      split_ifs
      · exact Or.inl rfl
      · exact Or.inr rfl

/-- `int()` of a sign and digits has as many digits at most, and not too many. -/
theorem short_of_readInt {sign digits : CodePoints} {value : Int}
    (signs : sign = [minus] ∨ sign = []) (some_ : digits ≠ [])
    (ascii : ∀ code ∈ digits, isDigit code = true)
    (read : readInt (sign ++ digits) = some value) :
    (decimal value.natAbs).length ≤ maxStrDigits := by
  have length := length_decimal_readDigits some_ ascii
  rcases signs with rfl | rfl
  · rw [List.singleton_append, readInt, if_pos rfl] at read
    split_ifs at read with short
    cases read
    rw [Int.natAbs_neg, Int.natAbs_natCast]
    exact length.trans short
  · cases digits with
    | nil => exact absurd rfl some_
    | cons code rest =>
        have unsigned : code ≠ minus := by
          rintro rfl
          cases ascii minus List.mem_cons_self
        rw [List.nil_append, readInt, if_neg unsigned] at read
        split_ifs at read with short
        cases read
        rw [Int.natAbs_natCast]
        exact length.trans short

theorem wellFormed_of_scanScalar {text rest : CodePoints} {node : Json floats.Value}
    (read : scanScalar floats text = some (node, rest)) : node.WellFormed := by
  unfold scanScalar at read
  cases number : scanNumber text with
  | none =>
      rw [number] at read
      obtain ⟨literal, found, held⟩ := Option.map_eq_some_iff.mp read
      have listed := List.mem_of_find?_eq_some found
      simp only [literals, constants, List.map_cons, List.map_nil, List.cons_append,
        List.nil_append, List.mem_cons, List.not_mem_nil, or_false] at listed
      cases held
      rcases listed with rfl | rfl | rfl | rfl | rfl | rfl
      · exact .null
      · exact .bool
      · exact .bool
      · exact .float
      · exact .float
      · exact .float
  | some scanned =>
      obtain ⟨⟨signed, float⟩, after⟩ := scanned
      simp only [number] at read
      split_ifs at read with whole
      · obtain ⟨value, isInt, held⟩ := Option.map_eq_some_iff.mp read
        cases held
        cases scanned : scanWhole (scanMinus text).2 with
        | none => simp [scanNumber, scanned] at number
        | some digits =>
            obtain ⟨some_, ascii⟩ := scanWhole_digits scanned
            simp only [scanNumber, scanned, Option.bind_eq_bind, Option.bind_some,
              Option.some.injEq, Prod.mk.injEq] at number
            rw [← number.1.1] at isInt
            exact .int (short_of_readInt (scanMinus_cases text) some_ ascii isInt)
      · cases read
        exact .float

section Items

variable {Item : Type} {item : CodePoints → Option (Item × CodePoints)} {close fuel : Nat}
  {text rest : CodePoints} (Good : Item → Prop)

theorem scanItems_forall (good : ∀ text each rest, item text = some (each, rest) → Good each)
    {items : List Item} (read : scanItems item close fuel text = some (items, rest)) :
    ∀ each ∈ items, Good each := by
  induction fuel generalizing text items with
  | zero => cases read
  | succ fuel ih =>
      obtain ⟨⟨first, after⟩, scanned, more⟩ := Option.bind_eq_some_iff.mp read
      have here := good text first after scanned
      dsimp only at more
      cases skipped : skip after with
      | nil => simp [skipped] at more
      | cons code behind =>
          simp only [skipped] at more
          split_ifs at more
          · cases more
            exact List.forall_mem_singleton.mpr here
          · obtain ⟨⟨others, _⟩, later, rest⟩ := Option.bind_eq_some_iff.mp more
            cases rest
            exact List.forall_mem_cons.mpr ⟨here, ih later⟩

theorem scanBracketed_forall (good : ∀ text each rest, item text = some (each, rest) → Good each)
    {items : List Item} (read : scanBracketed item close fuel text = some (items, rest)) :
    ∀ each ∈ items, Good each := by
  unfold scanBracketed at read
  cases skipped : skip text with
  | nil => simp [skipped] at read
  | cons code behind =>
      simp only [skipped] at read
      split_ifs at read
      · cases read
        simp
      · exact scanItems_forall Good good read

theorem scanMember_value (good : ∀ text each rest, item text = some (each, rest) → Good each)
    {member : CodePoints × Item} (read : scanMember fuel item text = some (member, rest)) :
    Good member.2 := by
  cases text with
  | nil => cases read
  | cons code text =>
      simp only [scanMember] at read
      split_ifs at read
      obtain ⟨⟨key, after⟩, _, read⟩ := Option.bind_eq_some_iff.mp read
      dsimp only at read
      cases skipped : skip after with
      | nil => simp [skipped] at read
      | cons code behind =>
          simp only [skipped] at read
          split_ifs at read
          obtain ⟨⟨value, _⟩, scanned, held⟩ := Option.bind_eq_some_iff.mp read
          cases held
          exact good _ value _ scanned

end Items

theorem wellFormed_of_scanValue {fuel : Nat} {text rest : CodePoints} {node : Json floats.Value}
    (read : scanValue floats fuel text = some (node, rest)) : node.WellFormed := by
  induction fuel generalizing text rest node with
  | zero => cases read
  | succ fuel ih =>
      cases text with
      | nil => cases read
      | cons code text =>
          rw [scanValue] at read
          split_ifs at read
          · obtain ⟨_, _, held⟩ := Option.map_eq_some_iff.mp read
            cases held
            exact .str
          · obtain ⟨⟨pairs, _⟩, scanned, held⟩ := Option.map_eq_some_iff.mp read
            cases held
            refine .obj (keyed_dictOf pairs) (dictOf_forall ?_)
            exact scanBracketed_forall (fun pair => pair.2.WellFormed)
              (fun _ _ _ member => scanMember_value _ (fun _ _ _ value => ih value) member) scanned
          · obtain ⟨⟨items, _⟩, scanned, held⟩ := Option.map_eq_some_iff.mp read
            cases held
            exact .arr (scanBracketed_forall _ (fun _ _ _ value => ih value) scanned)
          · exact wellFormed_of_scanScalar read

/-- What is read has a value for each key and short integers. -/
theorem wellFormed_of_loads {text : CodePoints} {node : Json floats.Value}
    (read : loads floats text = some node) : node.WellFormed := by
  unfold loads at read
  split_ifs at read
  obtain ⟨⟨value, rest⟩, scanned, held⟩ := Option.bind_eq_some_iff.mp read
  dsimp only at held
  split_ifs at held
  cases held
  exact wellFormed_of_scanValue scanned

/-- The text of a value does not see the order of its keys. -/
theorem dumps_sorted (node : Json floats.Value) : dumps floats node.sorted = dumps floats node := by
  induction node using Json.induct with
  | null => rfl
  | bool _ => rfl
  | int _ => rfl
  | float _ => rfl
  | str _ => rfl
  | arr items ih =>
      rw [Json.sorted_arr, dumps_arr, dumps_arr, List.map_map]
      have same : items.map (dumps floats ∘ Json.sorted) = items.map (dumps floats) :=
        List.map_congr_left ih
      rw [same]
  | obj members ih =>
      rw [Json.sorted_obj, dumps_obj, dumps_obj, sortedBy_map Json.sortMember_fst, sortedBy_sortedBy,
        List.map_map]
      have same : (sortedBy Prod.fst members).map (memberText floats ∘ Json.sortMember) =
          (sortedBy Prod.fst members).map (memberText floats) := by
        refine List.map_congr_left fun member listed => ?_
        rw [Function.comp_apply, memberText, memberText, Json.sortMember]
        rw [ih member (mem_sortedBy.mp listed)]
      rw [same]

/-! ### What can be encoded -/

/-- Unicode text, without a lone surrogate. -/
def Unicode (text : CodePoints) : Prop := ∀ code ∈ text, code.isValidChar

theorem unicode_nil : Unicode [] := by
  intro code listed
  cases listed

theorem unicode_append {left right : CodePoints} :
    Unicode (left ++ right) ↔ Unicode left ∧ Unicode right :=
  List.forall_mem_append

theorem unicode_cons {code : Nat} {rest : CodePoints} :
    Unicode (code :: rest) ↔ code.isValidChar ∧ Unicode rest :=
  List.forall_mem_cons

theorem isValidChar_of_lt {code : Nat} (ascii : code < 128) : code.isValidChar :=
  Or.inl (by omega)

theorem unicode_of_lt {text : CodePoints} (ascii : ∀ code ∈ text, code < 128) : Unicode text :=
  fun code listed => isValidChar_of_lt (ascii code listed)

theorem lt_of_isDigit {code : Nat} (digit : isDigit code = true) : code < 128 := by
  have := of_decide_eq_true digit
  omega

theorem unicode_writeInt (value : Int) : Unicode (writeInt value) := by
  have digits : Unicode (decimal value.natAbs) :=
    unicode_of_lt fun code listed => lt_of_isDigit (decimal_digits _ code listed)
  unfold writeInt
  split_ifs
  · exact unicode_append.mpr ⟨unicode_of_lt (by decide), digits⟩
  · exact digits

theorem unicode_float (value : floats.Value) : Unicode (floats.write value) := by
  cases floats.token value with
  | constant listed =>
      have ascii : ∀ constant ∈ constants, ∀ code ∈ constant, code < 128 := by decide
      exact unicode_of_lt (ascii _ listed)
  | number _ _ _ ascii => exact unicode_of_lt ascii

theorem unicode_writeCode {code : Nat} : Unicode (writeCode code) ↔ code.isValidChar := by
  unfold writeCode
  cases own : escapes.lookup code with
  | some letter =>
      have ascii : ∀ escape ∈ escapes, escape.1 < 128 ∧ escape.2 < 128 := by decide
      obtain ⟨low, letters⟩ := ascii _ (mem_of_lookup own)
      refine iff_of_true (unicode_of_lt ?_) (isValidChar_of_lt low)
      exact List.forall_mem_cons.mpr ⟨by decide, List.forall_mem_singleton.mpr letters⟩
  | none =>
      dsimp only
      split_ifs with control
      · have digit : ∀ value, value < 16 → hexDigit value < 128 := by decide
        have low := digit (code % 16) (Nat.mod_lt _ (by decide))
        have high := digit (code / 16) (by omega)
        refine iff_of_true (unicode_of_lt ?_) (isValidChar_of_lt (by omega))
        simp only [List.forall_mem_cons]
        exact ⟨by decide, by decide, by decide, by decide, high, low, by simp⟩
      · exact List.forall_mem_singleton

theorem unicode_writeString {text : CodePoints} : Unicode (writeString text) ↔ Unicode text := by
  have body : Unicode (text.flatMap writeCode) ↔ Unicode text := by
    induction text with
    | nil => exact Iff.rfl
    | cons code rest ih =>
        rw [List.flatMap_cons, unicode_append, unicode_cons, unicode_writeCode, ih]
  have quoted : Unicode [quote] := unicode_of_lt (by decide)
  rw [writeString, unicode_cons, unicode_append, body]
  exact ⟨fun all => all.2.1, fun all => ⟨isValidChar_of_lt (by decide), all, quoted⟩⟩

/-- Every string of a value is Unicode text. -/
inductive Encodes : Json floats.Value → Prop where
  | null : Encodes .null
  | bool {value : Bool} : Encodes (.bool value)
  | int {value : Int} : Encodes (.int value)
  | float {value : floats.Value} : Encodes (.float value)
  | str {text : CodePoints} : Unicode text → Encodes (.str text)
  | arr {items : List (Json floats.Value)} : (∀ item ∈ items, Encodes item) →
      Encodes (.arr items)
  | obj {members : List (CodePoints × Json floats.Value)} :
      (∀ member ∈ members, Unicode member.1) → (∀ member ∈ members, Encodes member.2) →
      Encodes (.obj members)

theorem unicode_intercalate {texts : List CodePoints} :
    Unicode ([comma].intercalate texts) ↔ ∀ text ∈ texts, Unicode text := by
  induction texts with
  | nil => exact iff_of_true unicode_nil (by simp)
  | cons first rest ih =>
      cases rest with
      | nil =>
          rw [List.intercalate_singleton]
          exact List.forall_mem_singleton.symm
      | cons second rest =>
          have apart : Unicode [comma] := unicode_of_lt (by decide)
          rw [List.intercalate_cons_cons, unicode_append, unicode_append, ih]
          refine Iff.trans ?_ List.forall_mem_cons.symm
          exact ⟨fun all => ⟨all.1.1, all.2⟩, fun all => ⟨⟨all.1, apart⟩, all.2⟩⟩

theorem unicode_bracketed {opening close : Nat} {body : CodePoints} (openAscii : opening < 128)
    (closeAscii : close < 128) : Unicode (opening :: (body ++ [close])) ↔ Unicode body := by
  rw [unicode_cons, unicode_append, unicode_cons]
  exact ⟨fun all => all.2.1, fun all =>
    ⟨isValidChar_of_lt openAscii, all, isValidChar_of_lt closeAscii, unicode_nil⟩⟩

theorem unicode_dumps (node : Json floats.Value) :
    Unicode (dumps floats node) ↔ Encodes node := by
  induction node using Json.induct with
  | null =>
      have ascii : ∀ code ∈ codes "null", code < 128 := by decide
      exact iff_of_true (unicode_of_lt ascii) .null
  | bool value =>
      have ascii : ∀ value : Bool, ∀ code ∈ if value then codes "true" else codes "false",
          code < 128 := by decide
      exact iff_of_true (unicode_of_lt (ascii value)) .bool
  | int value => exact iff_of_true (unicode_writeInt value) .int
  | float value => exact iff_of_true (unicode_float value) .float
  | str text =>
      refine unicode_writeString.trans ⟨.str, fun held => ?_⟩
      cases held with
      | str held => exact held
  | arr items ih =>
      rw [dumps_arr, unicode_bracketed (by decide) (by decide), unicode_intercalate,
        List.forall_mem_map]
      constructor
      · intro all
        exact .arr fun item listed => (ih item listed).mp (all item listed)
      · intro held item listed
        cases held with
        | arr held => exact (ih item listed).mpr (held item listed)
  | obj members ih =>
      have text : ∀ member ∈ members, Unicode (memberText floats member) ↔
          Unicode member.1 ∧ Encodes member.2 := by
        intro member listed
        rw [memberText, unicode_append, unicode_cons, unicode_writeString, ih member listed]
        exact ⟨fun all => ⟨all.1, all.2.2⟩, fun all => ⟨all.1, by decide, all.2⟩⟩
      rw [dumps_obj, unicode_bracketed (by decide) (by decide), unicode_intercalate,
        List.forall_mem_map]
      constructor
      · intro all
        have each := fun member listed =>
          (text member listed).mp (all member (mem_sortedBy.mpr listed))
        exact .obj (fun member listed => (each member listed).1)
          fun member listed => (each member listed).2
      · intro held member listed
        cases held with
        | obj keys values =>
            have inside := mem_sortedBy.mp listed
            exact (text member inside).mpr ⟨keys member inside, values member inside⟩

/-- The canonical bytes of a value are read back as the value with its keys in order. -/
theorem loads_of_encodeUtf8 {node : Json floats.Value} {body : ByteArray}
    (formed : node.WellFormed) (encoded : encodeUtf8 (dumps floats node) = some body) :
    (decodeUtf8 body).bind (loads floats) = some node.sorted := by
  rw [decodeUtf8_of_encodeUtf8 encoded]
  exact loads_dumps formed

end Values

end Sreality.Foundation.JsonText
