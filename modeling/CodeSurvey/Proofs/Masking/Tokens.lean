/-
# Lines made of tokens

Code with comments of slashes is laid out here by its tokens, and the grammar says what a slash is:
behind a token that ends an operand it divides, and where an expression may start it opens a regular
expression (`mayStart`).  The mask does not know the tokens.  It looks at one character, the last
that is not blank, and a regular expression follows only if that character is on its list
(`Listed`).

Each token but a regular expression is masked as it is meant, whatever stands around it
(`run_token`).
-/
import CodeSurvey.Proofs.Masking.Literals
import CodeSurvey.Proofs.Text.Words

namespace CodeSurvey.Masking

open Text

/-! ## Tokens -/

/-- A token of a line, with the gaps and comments between tokens. -/
inductive Token where
  | gap (text : Line)
  /-- A block comment that is closed on its line. -/
  | comment (text : Line)
  | lineComment (text : Line)
  /-- A word that an expression may follow. -/
  | keyword (text : Line)
  /-- Any other word. -/
  | name (text : Line)
  | number (text : Line)
  | punctuator (text : Line)
  /-- A slash that divides. -/
  | division
  | string (quote : Char) (body : List Piece)
  | regex (body : List RegexPart)
deriving DecidableEq, Repr

/-- Operators and punctuators; a division and an equals sign make a slash that assigns. -/
def punctuators : List Line :=
  ["\x7b", "\x7d", "(", ")", "[", "]", ";", ",", "<", ">", "<=", ">=", "==", "!=", "===", "!==",
    "+", "-", "*", "%", "**", "++", "--", "<<", ">>", ">>>", "&", "|", "^", "!", "~", "&&", "||",
    "??", "?", "?.", ":", "=", "+=", "-=", "*=", "%=", "**=", "<<=", ">>=", ">>>=", "&=", "|=",
    "^=", "&&=", "||=", "??=", "=>", ".", "...", "@"].map String.toList

/-- The punctuators behind which no expression starts. -/
def operandEnds : List Line := [")", "]", "\x7d", "++", "--"].map String.toList

/-- The words that an expression may follow. -/
def keywords : List Line :=
  ["await", "case", "default", "delete", "do", "else", "extends", "in", "instanceof", "new", "of",
    "return", "throw", "typeof", "void", "yield"].map String.toList

def isWordPart (c : Char) : Bool := isWordChar c || c == '$' || c == '#'

namespace Token

/-- A token as it is written. -/
def text : Token → Line
  | gap t | keyword t | name t | number t | punctuator t => t
  | comment t => '/' :: '*' :: (t ++ ['*', '/'])
  | lineComment t => '/' :: '/' :: t
  | division => ['/']
  | string quote body => quote :: (bodyText body ++ [quote])
  | regex body => '/' :: (regexText body ++ ['/'])

/-- A token as it is meant to be masked: literals keep their delimiters, comments keep nothing. -/
def shown : Token → Line
  | gap t | keyword t | name t | number t | punctuator t => t
  | comment t => blanksOf (comment t).text
  | lineComment t => blanksOf (lineComment t).text
  | division => ['/']
  | string quote body => quote :: (blanksOf (bodyText body) ++ [quote])
  | regex body => '/' :: (blanksOf (regexText body) ++ ['/'])

/-- The last token in front, where `prev` was it before: gaps and comments do not count. -/
def after (prev : Option Token) : Token → Option Token
  | gap _ | comment _ | lineComment _ => prev
  | t => some t

def lastChar : Token → Option Char
  | gap _ | comment _ | lineComment _ => none
  | keyword t | name t | number t | punctuator t => t.getLast?
  | division | regex _ => some '/'
  | string quote _ => some quote

def mayStart : Option Token → Bool
  | some (punctuator t) => !operandEnds.contains t
  | some (name _) | some (number _) | some (string _ _) | some (regex _) => false
  | _ => true

/-- Whether the mask takes a slash behind a token for that of a regular expression. -/
def Listed (prev : Option Token) : Prop := regexMayFollow (prev.bind lastChar) = true

/-- Whether a token may stand behind another and in front of a text.  Of a slash behind a closing
brace only the whole program tells what it is, so none stands there. -/
def Fits (prev : Option Token) (rest : Line) : Token → Prop
  | gap t => isBlankText t = true
  | comment t => occursIn ['*', '/'] t = false
  | lineComment _ => rest = []
  | keyword t => t ∈ keywords ∧ rest.head?.any isWordPart = false
  | name t => t ≠ [] ∧ t.all isWordPart = true ∧ rest.head?.any isWordPart = false
  | number t =>
    t ≠ [] ∧ t.all (fun c => isWordPart c || c == '.') = true ∧ rest.head?.any isWordPart = false
  | punctuator t =>
    t ∈ punctuators ∧ ∀ longer ∈ punctuators, t.length < longer.length → ¬longer <+: t ++ rest
  | division =>
    mayStart prev = false ∧ prev ≠ some (punctuator ['}']) ∧
      rest.head? ∉ [some '/', some '*']
  | string quote body => isQuote .slashes quote = true ∧ ∀ p ∈ body, p.Free [quote]
  | regex body =>
    mayStart prev = true ∧ (∀ p ∈ body, p.Free) ∧
      (regexText body).head? ∉ [none, some '/', some '*']

end Token

open Token

def textOf (tokens : List Token) : Line := tokens.flatMap Token.text

/-- The line as it is meant to be masked. -/
def shownOf (tokens : List Token) : Line := tokens.flatMap Token.shown

def lastToken (prev : Option Token) (tokens : List Token) : Option Token :=
  tokens.foldl Token.after prev

def FitTogether (prev : Option Token) : List Token → Prop
  | [] => True
  | t :: rest => t.Fits prev (textOf rest) ∧ FitTogether (t.after prev) rest

instance (prev : Option Token) : Decidable (Listed prev) :=
  inferInstanceAs (Decidable (_ = true))

instance (prev : Option Token) (rest : Line) : DecidablePred (Token.Fits prev rest)
  | gap _ | comment _ => inferInstanceAs (Decidable (_ = _))
  | lineComment _ => inferInstanceAs (Decidable (rest = []))
  | keyword _ | name _ | number _ => inferInstanceAs (Decidable (_ ∧ _))
  | punctuator t =>
    inferInstanceAs (Decidable (t ∈ punctuators ∧
      ∀ longer ∈ punctuators, t.length < longer.length → ¬longer <+: t ++ rest))
  | division => inferInstanceAs (Decidable (_ ∧ _ ∧ rest.head? ∉ [some '/', some '*']))
  | string quote body =>
    inferInstanceAs (Decidable (isQuote .slashes quote = true ∧ ∀ p ∈ body, p.Free [quote]))
  | regex body =>
    inferInstanceAs (Decidable (mayStart prev = true ∧ (∀ p ∈ body, p.Free) ∧
      (regexText body).head? ∉ [none, some '/', some '*']))

instance decidableFitTogether :
    (prev : Option Token) → (tokens : List Token) → Decidable (FitTogether prev tokens)
  | _, [] => .isTrue trivial
  | prev, t :: rest =>
    have := decidableFitTogether (t.after prev) rest
    inferInstanceAs (Decidable (_ ∧ _))

/-! ## Characters of tokens -/

theorem isCode_of_not_mem {c : Char} (h : c ∉ ['"', '\'', '\x60', '/']) : IsCode .slashes c := by
  simp only [List.mem_cons, List.not_mem_nil, or_false, not_or] at h
  obtain ⟨hdouble, hsingle, hback, hslash⟩ := h
  refine ⟨by simp [isQuote, hdouble, hsingle, hback], ?_⟩
  simp [commentOpener, hslash]

theorem not_mem_of_all {p : Char → Bool} {c : Char} (h : p c = true) {marks : List Char}
    (hmarks : marks.all (fun d => !p d) = true) : c ∉ marks := by
  intro hc
  have hnot := List.all_eq_true.1 hmarks c hc
  rw [h] at hnot
  cases hnot

theorem not_isBlank_of_part {c : Char} (h : (isWordPart c || c == '.') = true) :
    isBlank c = false := by
  simp only [isWordPart, Bool.or_eq_true, beq_iff_eq] at h
  rcases h with ((hword | rfl) | rfl) | rfl
  · exact not_isBlank_of_isWordChar hword
  · decide
  · decide
  · decide

theorem code_of_part {c : Char} (h : (isWordPart c || c == '.') = true) :
    IsCode .slashes c ∧ regexMayFollow (some c) = false := by
  have hother : ∀ {marks : List Char},
      marks.all (fun d => !(isWordPart d || d == '.')) = true → c ∉ marks := not_mem_of_all h
  refine ⟨isCode_of_not_mem (hother (by decide)), ?_⟩
  rw [← Bool.not_eq_true, regexMayFollow, List.contains_iff_mem]
  exact hother (by decide)

/-- Ink that is code: every character shows, and is remembered. -/
structure IsInk (text : Line) : Prop where
  ne_nil : text ≠ []
  isCode : ∀ c ∈ text, IsCode .slashes c
  not_isBlank : ∀ c ∈ text, isBlank c = false

theorem isInk_of_parts {text : Line} (hne : text ≠ [])
    (h : text.all (fun c => isWordPart c || c == '.') = true) : IsInk text :=
  ⟨hne, fun c hc => (code_of_part (List.all_eq_true.1 h c hc)).1,
    fun c hc => not_isBlank_of_part (List.all_eq_true.1 h c hc)⟩

theorem parts_of_word {text : Line} (h : text.all isWordPart = true) :
    text.all (fun c => isWordPart c || c == '.') = true :=
  List.all_eq_true.2 (fun c hc => Bool.or_eq_true_iff.2 (.inl (List.all_eq_true.1 h c hc)))

theorem parts_of_keyword {text : Line} (h : text ∈ keywords) :
    text ≠ [] ∧ text.all (fun c => isWordPart c || c == '.') = true := by
  have hall : keywords.all (fun w => !w.isEmpty && w.all isWordPart) = true := by decide
  have hword := List.all_eq_true.1 hall text h
  rw [Bool.and_eq_true, Bool.not_eq_true', List.isEmpty_eq_false_iff] at hword
  exact ⟨hword.1, parts_of_word hword.2⟩

theorem isInk_of_punctuator {text : Line} (h : text ∈ punctuators) : IsInk text := by
  have hall : punctuators.all (fun p => !p.isEmpty &&
      p.all (fun c => decide (IsCode .slashes c) && !isBlank c)) = true := by decide
  have hink := List.all_eq_true.1 hall text h
  rw [Bool.and_eq_true, Bool.not_eq_true', List.isEmpty_eq_false_iff, List.all_eq_true] at hink
  have hchars : ∀ c ∈ text, IsCode .slashes c ∧ isBlank c = false := by
    intro c hc
    have hboth := hink.2 c hc
    rw [Bool.and_eq_true, decide_eq_true_iff, Bool.not_eq_true'] at hboth
    exact hboth
  exact ⟨hink.1, fun c hc => (hchars c hc).1, fun c hc => (hchars c hc).2⟩

theorem isCode_of_isBlank {c : Char} (h : isBlank c = true) : IsCode .slashes c :=
  isCode_of_not_mem (not_mem_of_all h (by decide))

/-! ## Tokens as segments -/

namespace Token

def segment : Token → Segment
  | gap t | keyword t | name t | number t | punctuator t => .code t
  | comment t => .block t []
  | lineComment t => .lineComment t
  | division => .division
  | string quote body => .string quote body
  | regex body => .regex body

end Token

@[simp] theorem text_kept (text : Line) : (kept text).text = text.map some := by
  rw [Layout.text, kept, List.map_map]
  rfl

@[simp] theorem shown_kept (text : Line) : (kept text).shown = text.map some := by
  rw [Layout.shown, kept, List.map_map]
  rfl

@[simp] theorem text_hidden (text : Line) : (hidden text).text = text.map some := by
  rw [Layout.text, hidden, List.map_map]
  rfl

@[simp] theorem shown_hidden (text : Line) : (hidden text).shown = (blanksOf text).map some := by
  rw [Layout.shown, hidden, List.map_map, blanksOf, List.map_replicate]
  show text.map (fun _ => some ' ') = _
  exact List.map_const'

@[simp] theorem nextOn_map_some (line : Line) : nextOn (line.map some) = line.head? := by
  cases line <;> rfl

theorem text_segment (t : Token) : (t.segment.layout .slashes).text = t.text.map some := by
  cases t with
  | gap t | keyword t | name t | number t | punctuator t => exact text_kept t
  | division => rfl
  | lineComment t => exact text_hidden _
  | comment t =>
      simp [Token.segment, Segment.layout, blockLines, furtherLines, text_append, Token.text]
  | string quote body | regex body =>
      simp [Token.segment, Segment.layout, text_append, Token.text]

theorem shown_segment (t : Token) : (t.segment.layout .slashes).shown = t.shown.map some := by
  cases t with
  | gap t | keyword t | name t | number t | punctuator t => exact shown_kept t
  | division => rfl
  | lineComment t => exact shown_hidden _
  | comment t =>
      simp [Token.segment, Segment.layout, blockLines, furtherLines, shown_append, Token.shown,
        Token.text]
      rfl
  | string quote body | regex body =>
      simp [Token.segment, Segment.layout, shown_append, Token.shown]

theorem kept_append (front back : Line) : kept (front ++ back) = kept front ++ kept back :=
  List.map_append

theorem lastInk_of_isInk {text : Line} (h : IsInk text) (prev : Option Char) :
    lastInk prev (kept text) = text.getLast? := by
  obtain ⟨front, c, rfl⟩ := (List.eq_nil_or_concat' text).resolve_left h.ne_nil
  have hc : isBlank c = false :=
    h.not_isBlank c (List.mem_append_right front (List.mem_singleton_self c))
  rw [kept_append, lastInk_append, lastInk_kept_singleton hc, List.getLast?_concat]

theorem lastInk_of_isBlankText {text : Line} (h : isBlankText text = true) (prev : Option Char) :
    lastInk prev (kept text) = prev := by
  induction text with
  | nil => rfl
  | cons c text ih =>
      obtain ⟨hc, hothers⟩ := Bool.and_eq_true_iff.1 h
      have hfirst : lastInk prev (kept [c]) = prev := if_pos hc
      have hsplit : kept (c :: text) = kept [c] ++ kept text := rfl
      rw [hsplit, lastInk_append, hfirst, ih hothers]

namespace Token

variable {prev : Option Token} {rest : Line} {t : Token}

theorem lastInk_segment (h : t.Fits prev rest) :
    lastInk (prev.bind lastChar) (t.segment.layout .slashes) = (t.after prev).bind lastChar := by
  cases t with
  | gap t => exact lastInk_of_isBlankText h _
  | keyword t =>
      obtain ⟨hne, hparts⟩ := parts_of_keyword h.1
      exact lastInk_of_isInk (isInk_of_parts hne hparts) _
  | name t => exact lastInk_of_isInk (isInk_of_parts h.1 (parts_of_word h.2.1)) _
  | number t => exact lastInk_of_isInk (isInk_of_parts h.1 h.2.1) _
  | punctuator t => exact lastInk_of_isInk (isInk_of_punctuator h.1) _
  | division => rfl
  | lineComment t => exact lastInk_hidden _ _
  | comment t =>
      have hlayout : (segment (.comment t)).layout .slashes =
          hidden ['/', '*'] ++ hidden t ++ [] ++ hidden ['*', '/'] := rfl
      rw [hlayout, List.append_nil, lastInk_append, lastInk_append, lastInk_hidden, lastInk_hidden,
        lastInk_hidden]
      rfl
  | string quote body => exact lastInk_delimited (quote_ne_of_isQuote h.1).2.2.2 _ _
  | regex body => exact lastInk_delimited (by decide) _ _

/-- A token that stands in some line. -/
def Placed (t : Token) : Prop := ∃ prev rest, t.Fits prev rest

theorem placed_after {prev : Option Token} (hprev : ∀ t ∈ prev, t.Placed) (h : t.Fits prev rest) :
    ∀ t' ∈ t.after prev, t'.Placed := by
  cases t with
  | gap t | comment t | lineComment t => exact hprev
  | keyword t | name t | number t | punctuator t | division | string quote body | regex body =>
      rintro t' ht'
      obtain rfl := Option.some.inj ht'
      exact ⟨prev, rest, h⟩

/-- Behind words and numbers, a slash is not taken for that of a regular expression. -/
theorem not_listed_of_parts {text : Line} (hne : text ≠ [])
    (h : text.all (fun c => isWordPart c || c == '.') = true) :
    regexMayFollow text.getLast? = false := by
  rw [List.getLast?_eq_some_getLast hne]
  exact (code_of_part (List.all_eq_true.1 h _ (List.getLast_mem hne))).2

/-- Nothing that ends an operand is on the list, a closing brace apart. -/
theorem not_listed_of_division (hprev : ∀ t ∈ prev, t.Placed) (h : division.Fits prev rest) :
    ¬Listed prev := by
  obtain ⟨hends, hbrace, -⟩ := h
  rw [Listed, Bool.not_eq_true]
  cases prev with
  | none => cases hends
  | some t =>
      obtain ⟨before, behind, hplaced⟩ := hprev t rfl
      cases t with
      | gap t | comment t | lineComment t | keyword t | division => cases hends
      | name t => exact not_listed_of_parts hplaced.1 (parts_of_word hplaced.2.1)
      | number t => exact not_listed_of_parts hplaced.1 hplaced.2.1
      | string quote body =>
          have hquote := hplaced.1
          simp only [isQuote, Bool.or_eq_true, Bool.and_eq_true, decide_eq_true_eq] at hquote
          rcases hquote with (rfl | rfl) | ⟨rfl, -⟩ <;> rfl
      | regex body => rfl
      | punctuator t =>
          have hall : operandEnds.all
              (fun p => p == ['}'] || !regexMayFollow p.getLast?) = true := by decide
          rw [mayStart, Bool.not_eq_false', List.contains_iff_mem] at hends
          have hother : (t == ['}']) = false :=
            beq_eq_false_iff_ne.2 (fun heq => hbrace (congrArg (some ∘ punctuator) heq))
          have hlast := List.all_eq_true.1 hall t hends
          rwa [hother, Bool.false_or, Bool.not_eq_true'] at hlast

theorem fits_segment (hprev : ∀ t ∈ prev, t.Placed) (h : t.Fits prev rest)
    (hlisted : ∀ body, t = regex body → Listed prev) :
    t.segment.Fits .slashes (prev.bind lastChar) (rest.map some) := by
  cases t with
  | gap t => exact fun c hc => isCode_of_isBlank (List.all_eq_true.1 h c hc)
  | comment t => exact ⟨rfl, List.forall_mem_singleton.2 h⟩
  | lineComment t =>
      obtain rfl : rest = [] := h
      rfl
  | keyword t =>
      obtain ⟨hne, hparts⟩ := parts_of_keyword h.1
      exact (isInk_of_parts hne hparts).isCode
  | name t => exact (isInk_of_parts h.1 (parts_of_word h.2.1)).isCode
  | number t => exact (isInk_of_parts h.1 h.2.1).isCode
  | punctuator t => exact (isInk_of_punctuator h.1).isCode
  | division =>
      refine ⟨rfl, Bool.eq_false_iff.2 (not_listed_of_division hprev h), ?_⟩
      rw [nextOn_map_some]
      exact h.2.2
  | string quote body => exact h
  | regex body => exact ⟨rfl, hlisted body rfl, h.2⟩

end Token

/-! ## Tokens that are masked as they are meant -/

theorem runOn_map_some {style : CommentStyle} (mode : Mode) (line : Line) :
    runOn style mode (line.map some) = (run style mode line).1.map some := by
  induction line generalizing mode with
  | nil => rfl
  | cons c line ih =>
      rw [List.map_cons, runOn, nextOn_map_some, ih, run_cons]
      rfl

/-- **Each token is masked as it is meant**, but for a regular expression that is not on the list:
the mask goes on behind it with its last character in mind. -/
theorem run_token {prev : Option Token} {rest : Line} {t : Token}
    (hprev : ∀ t ∈ prev, t.Placed) (h : t.Fits prev rest)
    (hlisted : ∀ body, t = regex body → Listed prev) :
    (run .slashes (.code (prev.bind lastChar)) (t.text ++ rest)).1 =
      t.shown ++ (run .slashes (.code ((t.after prev).bind lastChar)) rest).1 := by
  have hpasses := passes_segment (Token.fits_segment hprev h hlisted)
  rw [Passes, text_segment, shown_segment, Token.lastInk_segment h, ← List.map_append,
    runOn_map_some, runOn_map_some, ← List.map_append] at hpasses
  exact List.map_injective_iff.2 (fun _ _ => Option.some.inj) hpasses

end CodeSurvey.Masking
