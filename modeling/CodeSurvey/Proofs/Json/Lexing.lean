/-
# The tokens of a written value

A text spells tokens if the lexer reads them off it, whatever comes behind (`Spells`).  Behind may
come only what cannot go on a number or a word, for those end where something else begins.  Texts
that spell are put together like the tokens they spell, so each layout of a value is one induction,
and both spell the same tokens (`spells_pretty`, `spells_compact`).

Not every value has a text of its own: a literal that is no text is written as null, and numbers
that are no whole number of 64 bits are kept as their text.  `Kept` leaves these out.
-/
import Mathlib.Data.List.TakeWhile
import CodeSurvey.Json.Reader
import CodeSurvey.Json.Writer

namespace CodeSurvey.Json

/-! ## Values and their tokens -/

/-- A value that its text gives back: its numbers are whole and not negative, and fit 64 bits. -/
inductive Kept : Json → Prop
  | null : Kept .null
  | bool (b : Bool) : Kept (.bool b)
  | nat {n : Nat} : n < Count.limit → Kept (.nat n)
  | string (text : String) : Kept (.string text)
  | array {items : List Json} : (∀ item ∈ items, Kept item) → Kept (.array items)
  | object {members : List (String × Json)} : (∀ m ∈ members, Kept m.2) → Kept (.object members)

mutual

def tokensOf : Json → List Token
  | .array [] => [.openBracket, .closeBracket]
  | .array (item :: rest) => .openBracket :: tokensOf item ++ itemTokens rest
  | .object [] => [.openBrace, .closeBrace]
  | .object ((key, value) :: rest) =>
    .openBrace :: .scalar (.string key) :: .colon :: tokensOf value ++ memberTokens rest
  | value => [.scalar value]

def itemTokens : List Json → List Token
  | [] => [.closeBracket]
  | item :: rest => .comma :: tokensOf item ++ itemTokens rest

def memberTokens : List (String × Json) → List Token
  | [] => [.closeBrace]
  | (key, value) :: rest =>
    .comma :: .scalar (.string key) :: .colon :: tokensOf value ++ memberTokens rest

end

/-! ## Steps of the lexer -/

theorem lexFrom_cons {state state' : LexState} {c : Char} {tokens : List Token}
    (h : lexStep state c = some (state', tokens)) (rest : List Char) :
    lexFrom state (c :: rest) = (lexFrom state' rest).map (tokens ++ ·) := by
  rw [lexFrom, h]

/-- A character that completes no token. -/
theorem lexFrom_silent {state state' : LexState} {c : Char}
    (h : lexStep state c = some (state', [])) (rest : List Char) :
    lexFrom state (c :: rest) = lexFrom state' rest := by
  rw [lexFrom_cons h]
  exact Option.map_id_apply

/-- A number or a word may stand before this text: it does not go on with the text. -/
def Delimited (text : List Char) : Prop :=
  ∀ c ∈ text.head?, isNumberChar c = false ∧ c.isAlpha = false

/-- A text that the lexer reads as these tokens, whatever comes behind. -/
def Spells (text : List Char) (tokens : List Token) : Prop :=
  ∀ rest, Delimited rest →
    lexFrom .idle (text ++ rest) = (lexFrom .idle rest).map (tokens ++ ·)

theorem Spells.nil : Spells [] [] :=
  fun _ _ => Option.map_id_apply.symm

theorem Spells.append {front back : List Char} {tokens others : List Token}
    (h : Spells front tokens) (h' : Spells back others)
    (hback : ∀ rest, Delimited rest → Delimited (back ++ rest)) :
    Spells (front ++ back) (tokens ++ others) := by
  intro rest hrest
  rw [List.append_assoc, h _ (hback rest hrest), h' rest hrest, Option.map_map]
  congr 1
  funext behind
  exact (List.append_assoc tokens others behind).symm

theorem Spells.mark {c : Char} {token : Token} {text : List Char} {tokens : List Token}
    (hgap : isGap c = false) (hmark : mark? c = some token) (h : Spells text tokens) :
    Spells (c :: text) (token :: tokens) := by
  have hstep : lexStep .idle c = some (.idle, [token]) := by
    rw [lexStep, lexIdle, hgap, hmark]
    rfl
  intro rest hrest
  rw [List.cons_append, lexFrom_cons hstep, h rest hrest, Option.map_map]
  rfl

theorem Spells.gap {gap text : List Char} {tokens : List Token}
    (hgap : ∀ c ∈ gap, isGap c = true) (h : Spells text tokens) : Spells (gap ++ text) tokens := by
  intro rest hrest
  rw [List.append_assoc]
  induction gap with
  | nil => exact h rest hrest
  | cons c gap ih =>
      have hstep : lexStep .idle c = some (.idle, []) := by
        rw [lexStep, lexIdle, hgap c List.mem_cons_self]
        rfl
      rw [List.cons_append, lexFrom_silent hstep]
      exact ih (fun d hd => hgap d (List.mem_cons_of_mem _ hd))

theorem Spells.blank {text : List Char} {tokens : List Token} (h : Spells text tokens) :
    Spells (' ' :: text) tokens := by
  have hgap : ∀ c ∈ [' '], isGap c = true := List.forall_mem_singleton.2 rfl
  exact h.gap hgap

theorem Spells.newline {text : List Char} {tokens : List Token} (level : Nat)
    (h : Spells text tokens) : Spells (newline level ++ text) tokens := by
  refine h.gap (fun c hc => ?_)
  rcases List.mem_cons.1 hc with rfl | hc
  · rfl
  · rw [(List.mem_replicate.1 hc).2]
    rfl

/-- A number or a word that is read to its end becomes a token as soon as anything else comes. -/
theorem lexFrom_finished {state : LexState} {value : Json} {rest : List Char}
    (hend : lexEnd state = some [.scalar value])
    (hstep : ∀ c ∈ rest.head?, lexStep state c = lexAfter (some value) c) :
    lexFrom state rest = (lexFrom .idle rest).map ([.scalar value] ++ ·) := by
  cases rest with
  | nil => rw [lexFrom, hend]; rfl
  | cons c rest =>
      rw [lexFrom, hstep c rfl, lexFrom, lexStep]
      cases hidle : lexIdle c with
      | none => simp only [lexAfter, hidle, Option.map_none]
      | some next =>
          simp only [lexAfter, hidle, Option.map_map]
          rfl

/-! ## String literals -/

theorem lexFrom_letter {letter c : Char} (hletter : (letter == 'u') = false)
    (h : escapeValue? letter = some c) (units : List Nat) (rest : List Char) :
    lexFrom (.string units .plain) ('\\' :: letter :: rest) =
      lexFrom (.string (c.toNat :: units) .plain) rest := by
  have hescape : lexStep (.string units .plain) '\\' = some (.string units .escaped, []) := rfl
  have hvalue : lexStep (.string units .escaped) letter =
      some (.string (c.toNat :: units) .plain, []) := by
    rw [lexStep, lexString, hletter, h]
    rfl
  rw [lexFrom_silent hescape, lexFrom_silent hvalue]

theorem hexValue?_digitChar : ∀ n < 16, hexValue? (Nat.digitChar n) = some n := by
  decide

theorem lexFrom_hexDigit {missing digit : Nat} (hmissing : ¬missing ≤ 1) (hdigit : digit < 16)
    (units : List Nat) (value : Nat) (rest : List Char) :
    lexFrom (.string units (.unit missing value)) (Nat.digitChar digit :: rest) =
      lexFrom (.string units (.unit (missing - 1) (16 * value + digit))) rest := by
  refine lexFrom_silent ?_ rest
  rw [lexStep, lexString, hexValue?_digitChar digit hdigit]
  simp only [Option.map_some, if_neg hmissing]

theorem lexFrom_lastHexDigit {digit : Nat} (hdigit : digit < 16) (units : List Nat) (value : Nat)
    (rest : List Char) :
    lexFrom (.string units (.unit 1 value)) (Nat.digitChar digit :: rest) =
      lexFrom (.string ((16 * value + digit) :: units) .plain) rest := by
  refine lexFrom_silent ?_ rest
  rw [lexStep, lexString, hexValue?_digitChar digit hdigit]
  rfl

theorem lexFrom_hex4 {n : Nat} (h : n < 65536) (units : List Nat) (rest : List Char) :
    lexFrom (.string units .plain) ('\\' :: 'u' :: hex4 n ++ rest) =
      lexFrom (.string (n :: units) .plain) rest := by
  have hescape : lexStep (.string units .plain) '\\' = some (.string units .escaped, []) := rfl
  have hunit : lexStep (.string units .escaped) 'u' = some (.string units (.unit 4 0), []) := rfl
  have hvalue : 16 * (16 * (16 * (16 * 0 + n / 4096 % 16) + n / 256 % 16) + n / 16 % 16) + n % 16 =
      n := by omega
  simp only [hex4, List.map_cons, List.map_nil, List.cons_append, List.nil_append]
  rw [lexFrom_silent hescape, lexFrom_silent hunit,
    lexFrom_hexDigit (by decide) (Nat.mod_lt _ (by decide)),
    lexFrom_hexDigit (by decide) (Nat.mod_lt _ (by decide)),
    lexFrom_hexDigit (by decide) (Nat.mod_lt _ (by decide)),
    lexFrom_lastHexDigit (Nat.mod_lt _ (by decide)), hvalue]

/-- The lexer reads what stands for a character as the number of the character. -/
theorem lexFrom_escapeChar (units : List Nat) (c : Char) (rest : List Char) :
    lexFrom (.string units .plain) (escapeChar c ++ rest) =
      lexFrom (.string (c.toNat :: units) .plain) rest := by
  unfold escapeChar
  iterate 7
    split
    · rename_i hc
      rw [hc]
      exact lexFrom_letter rfl rfl units rest
  split
  · rename_i hcontrol
    exact lexFrom_hex4 (Nat.lt_trans hcontrol (by decide)) units rest
  · rename_i hmark hslash _ _ _ _ _ hcontrol
    refine lexFrom_silent ?_ rest
    rw [lexStep, lexString, beq_false_of_ne hmark, beq_false_of_ne hslash, if_neg hcontrol]
    rfl

theorem lexFrom_flatMap_escapeChar (units : List Nat) (text rest : List Char) :
    lexFrom (.string units .plain) (text.flatMap escapeChar ++ rest) =
      lexFrom (.string ((text.map Char.toNat).reverse ++ units) .plain) rest := by
  induction text generalizing units with
  | nil => rfl
  | cons c text ih =>
      rw [List.flatMap_cons, List.append_assoc, lexFrom_escapeChar, ih, List.map_cons,
        List.reverse_cons, List.append_assoc]
      rfl

theorem not_surrogate (c : Char) :
    isHighSurrogate c.toNat = false ∧ isLowSurrogate c.toNat = false := by
  have hvalid : c.toNat < 0xD800 ∨ 0xDFFF < c.toNat ∧ c.toNat < 0x110000 := c.valid
  simp only [isHighSurrogate, isLowSurrogate, Bool.and_eq_false_iff, decide_eq_false_iff_not]
  omega

/-- Characters that no escape has split are put together as they were. -/
theorem joinPairs_map_toNat (text : List Char) : joinPairs (text.map Char.toNat) = some text := by
  induction text with
  | nil => rfl
  | cons c text ih =>
      obtain ⟨hhigh, hlow⟩ := not_surrogate c
      cases text with
      | nil =>
          rw [List.map_singleton, joinPairs, hhigh, hlow, Char.ofNat_toNat]
          rfl
      | cons d text =>
          rw [List.map_cons, List.map_cons] at *
          rw [joinPairs, hhigh, hlow, ih, Char.ofNat_toNat]
          rfl

theorem spells_literalOf (text : String) : Spells (literalOf text) [.scalar (.string text)] := by
  intro rest _
  have hopen : lexStep .idle '"' = some (.string [] .plain, []) := rfl
  have hvalue : stringValue (text.toList.map Char.toNat) = .string text := by
    rw [stringValue, joinPairs_map_toNat]
    exact congrArg Json.string String.ofList_toList
  have hclose : lexStep (.string (text.toList.map Char.toNat).reverse .plain) '"' =
      some (.idle, [.scalar (.string text)]) := by
    rw [← hvalue, ← List.reverse_reverse (text.toList.map Char.toNat), List.reverse_reverse]
    rfl
  rw [literalOf, List.cons_append, List.cons_append, lexFrom_silent hopen, List.append_assoc,
    lexFrom_flatMap_escapeChar, List.append_nil, List.singleton_append, lexFrom_cons hclose]

/-! ## Numbers and words -/

theorem digitsOf_nat (n : Nat) : digitsOf (n : Int) = Nat.toDigits 10 n := by
  rw [digitsOf]
  exact Nat.toList_repr

theorem isDigit_of_mem_digits {n : Nat} {c : Char} (h : c ∈ Nat.toDigits 10 n) :
    c.isDigit = true :=
  Nat.isDigit_of_mem_toDigits (by decide) (by decide) h

theorem head?_digits_ne {n : Nat} (h : n ≠ 0) : (Nat.toDigits 10 n).head? ≠ some '0' := by
  induction n using Nat.strongRecOn with
  | ind n ih =>
      rw [Nat.toDigits_eq_if (by decide)]
      split
      · rename_i hn
        have hdigit : ∀ m < 10, m ≠ 0 → [Nat.digitChar m].head? ≠ some '0' := by decide
        exact hdigit n hn h
      · rename_i hn
        have hhead := ih (n / 10) (by omega) (by omega)
        obtain ⟨c, digits, hdigits⟩ : ∃ c digits, Nat.toDigits 10 (n / 10) = c :: digits :=
          List.exists_cons_of_ne_nil (List.ne_nil_of_length_pos Nat.length_toDigits_pos)
        rw [hdigits] at hhead ⊢
        exact hhead

theorem isWholePart_digits (n : Nat) : isWholePart (Nat.toDigits 10 n) = true := by
  by_cases hn : n = 0
  · rw [hn]
    rfl
  · have hne : Nat.toDigits 10 n ≠ [] := List.ne_nil_of_length_pos Nat.length_toDigits_pos
    have hall : (Nat.toDigits 10 n).all Char.isDigit = true :=
      List.all_eq_true.2 (fun c hc => isDigit_of_mem_digits hc)
    have hhead : ((Nat.toDigits 10 n).head? != some '0') = true :=
      bne_iff_ne.2 (head?_digits_ne hn)
    rw [isWholePart, hall, hhead, List.isEmpty_eq_false_iff.2 hne]
    rfl

theorem numberValue?_digits {n : Nat} (h : n < Count.limit) :
    numberValue? (Nat.toDigits 10 n) = some (.nat n) := by
  have htake : (Nat.toDigits 10 n).takeWhile Char.isDigit = Nat.toDigits 10 n :=
    List.takeWhile_eq_self_iff.2 (fun c hc => isDigit_of_mem_digits hc)
  have hvalue : decimalValue (Nat.toDigits 10 n) = n :=
    Nat.ofDigitChars_toDigits (by decide) (by decide)
  have hsign : ∀ body, Nat.toDigits 10 n ≠ '-' :: body := by
    intro body hbody
    have hminus := isDigit_of_mem_digits (n := n) (c := '-') (hbody ▸ List.mem_cons_self)
    cases hminus
  rw [numberValue?]
  · simp only [htake, List.drop_length, isWholePart_digits, hvalue, h]
    rfl
  · exact hsign

theorem lexIdle_of_isDigit {c : Char} (h : c.isDigit = true) :
    lexIdle c = some (.number [c], []) := by
  have hne : ∀ d : Char, d.isDigit = false → c ≠ d := by
    rintro d hd rfl
    rw [h] at hd
    cases hd
  have hgap : isGap c = false := by
    simp only [isGap, Bool.or_eq_false_iff, beq_eq_false_iff_ne]
    exact ⟨⟨⟨hne _ rfl, hne _ rfl⟩, hne _ rfl⟩, hne _ rfl⟩
  have hmark : mark? c = none := by
    unfold mark?
    split <;> first | rfl | exact absurd rfl (hne _ rfl)
  rw [lexIdle, hgap, hmark, h, beq_false_of_ne (hne '"' rfl)]
  rfl

theorem lexFrom_digits {digits : List Char} (h : ∀ c ∈ digits, c.isDigit = true)
    (read rest : List Char) :
    lexFrom (.number read) (digits ++ rest) = lexFrom (.number (digits.reverse ++ read)) rest := by
  induction digits generalizing read with
  | nil => rfl
  | cons c digits ih =>
      have hstep : lexStep (.number read) c = some (.number (c :: read), []) := by
        rw [lexStep, isNumberChar, h c List.mem_cons_self]
        rfl
      rw [List.cons_append, lexFrom_silent hstep,
        ih (fun d hd => h d (List.mem_cons_of_mem _ hd)), List.reverse_cons, List.append_assoc]
      rfl

/-- A number of 64 bits is one token. -/
theorem spells_digitsOf {n : Nat} (h : n < Count.limit) :
    Spells (digitsOf n) [.scalar (.nat n)] := by
  intro rest hrest
  rw [digitsOf_nat]
  obtain ⟨c, digits, hdigits⟩ : ∃ c digits, Nat.toDigits 10 n = c :: digits :=
    List.exists_cons_of_ne_nil (List.ne_nil_of_length_pos Nat.length_toDigits_pos)
  have hall : ∀ d ∈ c :: digits, d.isDigit = true :=
    fun d hd => isDigit_of_mem_digits (hdigits ▸ hd)
  have hvalue : numberValue? (digits.reverse ++ [c]).reverse = some (.nat n) := by
    rw [List.reverse_append, List.reverse_reverse, List.reverse_singleton, List.singleton_append,
      ← hdigits, numberValue?_digits h]
  have hopen : lexStep .idle c = some (.number [c], []) :=
    lexIdle_of_isDigit (hall c List.mem_cons_self)
  rw [hdigits, List.cons_append, lexFrom_silent hopen,
    lexFrom_digits (fun d hd => hall d (List.mem_cons_of_mem _ hd))]
  refine lexFrom_finished ?_ (fun d hd => ?_)
  · rw [lexEnd, hvalue]
    rfl
  · rw [lexStep, (hrest d hd).1, hvalue]
    rfl

theorem lexFrom_letters {letters : List Char} (h : ∀ c ∈ letters, c.isAlpha = true)
    (read rest : List Char) :
    lexFrom (.word read) (letters ++ rest) = lexFrom (.word (letters.reverse ++ read)) rest := by
  induction letters generalizing read with
  | nil => rfl
  | cons c letters ih =>
      have hstep : lexStep (.word read) c = some (.word (c :: read), []) := by
        rw [lexStep, h c List.mem_cons_self]
        rfl
      rw [List.cons_append, lexFrom_silent hstep,
        ih (fun d hd => h d (List.mem_cons_of_mem _ hd)), List.reverse_cons, List.append_assoc]
      rfl

theorem spells_word {c : Char} {letters : List Char} {value : Json}
    (hopen : lexStep .idle c = some (.word [c], []))
    (hletters : ∀ d ∈ letters, d.isAlpha = true)
    (hvalue : wordValue? (letters.reverse ++ [c]).reverse = some value) :
    Spells (c :: letters) [.scalar value] := by
  intro rest hrest
  rw [List.cons_append, lexFrom_silent hopen, lexFrom_letters hletters]
  refine lexFrom_finished ?_ (fun d hd => ?_)
  · rw [lexEnd, hvalue]
    rfl
  · rw [lexStep, (hrest d hd).2, hvalue]
    rfl

theorem spells_null : Spells "null".toList [.scalar .null] := by
  have hchars : "null".toList = ['n', 'u', 'l', 'l'] := rfl
  rw [hchars]
  exact spells_word rfl (List.all_eq_true.1 rfl) rfl

theorem spells_true : Spells "true".toList [.scalar (.bool true)] := by
  have hchars : "true".toList = ['t', 'r', 'u', 'e'] := rfl
  rw [hchars]
  exact spells_word rfl (List.all_eq_true.1 rfl) rfl

theorem spells_false : Spells "false".toList [.scalar (.bool false)] := by
  have hchars : "false".toList = ['f', 'a', 'l', 's', 'e'] := rfl
  rw [hchars]
  exact spells_word rfl (List.all_eq_true.1 rfl) rfl

/-! ## Layouts -/

theorem delimited_cons {c : Char} (hnumber : isNumberChar c = false) (halpha : c.isAlpha = false)
    (rest : List Char) : Delimited (c :: rest) := by
  rintro d hd
  rw [← Option.some.inj hd]
  exact ⟨hnumber, halpha⟩

theorem delimited_newline (level : Nat) (rest : List Char) : Delimited (newline level ++ rest) :=
  delimited_cons rfl rfl _

theorem delimited_prettyItems (level : Nat) (items : List Json) (rest : List Char) :
    Delimited (prettyItems level items ++ rest) := by
  cases items with
  | nil => exact delimited_newline level (']' :: rest)
  | cons item items => exact delimited_cons rfl rfl _

theorem delimited_prettyMembers (level : Nat) (members : List (String × Json))
    (rest : List Char) : Delimited (prettyMembers level members ++ rest) := by
  cases members with
  | nil => exact delimited_newline level ('}' :: rest)
  | cons member members => exact delimited_cons rfl rfl _

theorem delimited_compactItems (items : List Json) (rest : List Char) :
    Delimited (compactItems items ++ rest) := by
  cases items <;> exact delimited_cons rfl rfl _

theorem delimited_compactMembers (members : List (String × Json)) (rest : List Char) :
    Delimited (compactMembers members ++ rest) := by
  cases members <;> exact delimited_cons rfl rfl _

theorem Spells.member {text : List Char} {tokens : List Token} (key : String)
    (h : Spells text tokens) :
    Spells (literalOf key ++ ':' :: text) (.scalar (.string key) :: .colon :: tokens) :=
  (spells_literalOf key).append (h.mark rfl rfl) (fun _ _ => delimited_cons rfl rfl _)

theorem spells_prettyItems {level : Nat} {items : List Json}
    (h : ∀ item ∈ items, Spells (prettyChars (level + 1) item) (tokensOf item)) :
    Spells (prettyItems level items) (itemTokens items) := by
  induction items with
  | nil => exact (Spells.nil.mark rfl rfl).newline level
  | cons item items ih =>
      have hitems := ih (fun other hother => h other (List.mem_cons_of_mem _ hother))
      have hitem := (h item List.mem_cons_self).append hitems
        (fun rest _ => delimited_prettyItems level items rest)
      have hbehind := (hitem.newline (level + 1)).mark (c := ',') rfl rfl
      simpa [prettyItems, itemTokens] using hbehind

theorem spells_prettyMembers {level : Nat} {members : List (String × Json)}
    (h : ∀ m ∈ members, Spells (prettyChars (level + 1) m.2) (tokensOf m.2)) :
    Spells (prettyMembers level members) (memberTokens members) := by
  induction members with
  | nil => exact (Spells.nil.mark rfl rfl).newline level
  | cons member members ih =>
      obtain ⟨key, value⟩ := member
      have hmembers := ih (fun other hother => h other (List.mem_cons_of_mem _ hother))
      have hvalue := (h (key, value) List.mem_cons_self).append hmembers
        (fun rest _ => delimited_prettyMembers level members rest)
      have hbehind := ((hvalue.blank.member key).newline (level + 1)).mark (c := ',') rfl rfl
      simpa [prettyMembers, memberTokens] using hbehind

/-- **The pretty layout spells the tokens of a value**, on any level. -/
theorem spells_pretty {value : Json} (h : Kept value) (level : Nat) :
    Spells (prettyChars level value) (tokensOf value) := by
  induction h generalizing level with
  | null => exact spells_null
  | bool b => cases b with
    | true => exact spells_true
    | false => exact spells_false
  | nat hn => exact spells_digitsOf hn
  | string text => exact spells_literalOf text
  | @array items _ ih =>
      cases items with
      | nil => exact (Spells.nil.mark rfl rfl).mark rfl rfl
      | cons item items =>
          have hitems := @spells_prettyItems level items
            (fun other hother => ih other (List.mem_cons_of_mem _ hother) (level + 1))
          have hitem := (ih item List.mem_cons_self (level + 1)).append hitems
            (fun rest _ => delimited_prettyItems level items rest)
          have harray := (hitem.newline (level + 1)).mark (c := '[') rfl rfl
          simpa [prettyChars, tokensOf] using harray
  | @object members _ ih =>
      cases members with
      | nil => exact (Spells.nil.mark rfl rfl).mark rfl rfl
      | cons member members =>
          obtain ⟨key, value⟩ := member
          have hmembers := @spells_prettyMembers level members
            (fun other hother => ih other (List.mem_cons_of_mem _ hother) (level + 1))
          have hvalue := (ih (key, value) List.mem_cons_self (level + 1)).append hmembers
            (fun rest _ => delimited_prettyMembers level members rest)
          have hobject :=
            ((hvalue.blank.member key).newline (level + 1)).mark (c := '{') rfl rfl
          simpa [prettyChars, tokensOf] using hobject

theorem spells_compactItems {items : List Json}
    (h : ∀ item ∈ items, Spells (compactChars item) (tokensOf item)) :
    Spells (compactItems items) (itemTokens items) := by
  induction items with
  | nil => exact Spells.nil.mark rfl rfl
  | cons item items ih =>
      have hitems := ih (fun other hother => h other (List.mem_cons_of_mem _ hother))
      have hitem := (h item List.mem_cons_self).append hitems
        (fun rest _ => delimited_compactItems items rest)
      exact hitem.mark (c := ',') rfl rfl

theorem spells_compactMembers {members : List (String × Json)}
    (h : ∀ m ∈ members, Spells (compactChars m.2) (tokensOf m.2)) :
    Spells (compactMembers members) (memberTokens members) := by
  induction members with
  | nil => exact Spells.nil.mark rfl rfl
  | cons member members ih =>
      obtain ⟨key, value⟩ := member
      have hmembers := ih (fun other hother => h other (List.mem_cons_of_mem _ hother))
      have hvalue := (h (key, value) List.mem_cons_self).append hmembers
        (fun rest _ => delimited_compactMembers members rest)
      have hbehind := (hvalue.member key).mark (c := ',') rfl rfl
      simpa [compactMembers, memberTokens] using hbehind

/-- **The compact layout spells the same tokens.** -/
theorem spells_compact {value : Json} (h : Kept value) :
    Spells (compactChars value) (tokensOf value) := by
  induction h with
  | null => exact spells_null
  | bool b => cases b with
    | true => exact spells_true
    | false => exact spells_false
  | nat hn => exact spells_digitsOf hn
  | string text => exact spells_literalOf text
  | @array items _ ih =>
      cases items with
      | nil => exact (Spells.nil.mark rfl rfl).mark rfl rfl
      | cons item items =>
          have hitems := spells_compactItems
            (fun other hother => ih other (List.mem_cons_of_mem _ hother))
          have hitem := (ih item List.mem_cons_self).append hitems
            (fun rest _ => delimited_compactItems items rest)
          have harray := hitem.mark (c := '[') rfl rfl
          simpa [compactChars, tokensOf] using harray
  | @object members _ ih =>
      cases members with
      | nil => exact (Spells.nil.mark rfl rfl).mark rfl rfl
      | cons member members =>
          obtain ⟨key, value⟩ := member
          have hmembers := spells_compactMembers
            (fun other hother => ih other (List.mem_cons_of_mem _ hother))
          have hvalue := (ih (key, value) List.mem_cons_self).append hmembers
            (fun rest _ => delimited_compactMembers members rest)
          have hobject := (hvalue.member key).mark (c := '{') rfl rfl
          simpa [compactChars, tokensOf] using hobject

end CodeSurvey.Json
