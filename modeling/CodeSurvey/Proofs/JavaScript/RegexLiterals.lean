/-
# Regular expressions on a line

A line made of tokens is masked as it is meant, if and only if each regular expression stands behind
a token that is on the mask's list, or reads alike as a division (`run_textOf_iff`).  The list
holds characters, so no keyword is on it, and of the operators only those that end with one of its
characters.

The first regular expression that is not on the list is read as code from its slash on
(`run_front`).  A quotation mark within it opens a string, which hides the code behind.
-/
import CodeSurvey.Proofs.Masking
import CodeSurvey.Proofs.Masking.Tokens
import CodeSurvey.Scan.JavaScript

namespace CodeSurvey.JavaScript

open Text Masking
open Token (Listed Placed)

/-! ## A slash that is read as a division -/

theorem stepCode_comment {next : Option Char} (hnext : next ∈ [some '/', some '*'])
    (prev : Option Char) : (stepCode .slashes prev '/' next).2 = ' ' := by
  simp only [List.mem_cons, List.not_mem_nil, or_false] at hnext
  rcases hnext with rfl | rfl <;> rfl

theorem stepCode_shown_of_ne {c : Char} (h : c ≠ '/') (prev next : Option Char) :
    (stepCode .slashes prev c next).2 = c := by
  simp only [stepCode, startsComment, h, decide_false, Bool.false_and, Bool.and_false,
    Bool.false_eq_true, if_false]
  split <;> rfl

/-- A regular expression that looks the same when it is read as a division, code and another
division. -/
def Harmless (body : List RegexPart) (rest : Line) : Prop :=
  (regexText body).all (· == ' ') = true ∧ rest.head? ∉ [some '/', some '*']

instance (body : List RegexPart) (rest : Line) : Decidable (Harmless body rest) :=
  inferInstanceAs (Decidable (_ ∧ rest.head? ∉ [some '/', some '*']))

theorem exists_chars_of_free {p : RegexPart} (h : p.Free) :
    ∃ c more, p.chars = c :: more ∧ c ≠ '/' ∧ (c = ' ' → more = []) := by
  have hbackslash : '\\' ≠ ' ' := by decide
  have hbracket : '[' ≠ ' ' := by decide
  cases p with
  | charClass body => exact ⟨'[', _, rfl, by decide, fun e => absurd e hbracket⟩
  | piece p =>
      cases p with
      | plain c => exact ⟨c, [], rfl, fun e => h.2 (e ▸ List.mem_cons_self), fun _ => rfl⟩
      | escaped c => exact ⟨'\\', [c], rfl, by decide, fun e => absurd e hbackslash⟩

/-- Read as code, the text of a regular expression shows itself.  So it is hidden only if it is made
of spaces. -/
theorem run_code_regexText_iff {prev : Option Char} (hprev : regexMayFollow prev = false)
    {body : List RegexPart} (hbody : ∀ p ∈ body, p.Free) (rest tail : Line) :
    (run .slashes (.code prev) (regexText body ++ '/' :: rest)).1 =
        blanksOf (regexText body) ++ '/' :: tail ↔
      Harmless body rest ∧ (run .slashes (.code (some '/')) rest).1 = tail := by
  induction body with
  | nil =>
      show (run .slashes (.code prev) ('/' :: rest)).1 = '/' :: tail ↔ _
      rw [run_cons, step]
      by_cases hnext : rest.head? ∈ [some '/', some '*']
      · rw [stepCode_comment hnext]
        exact iff_of_false (fun heq => absurd (List.cons.inj heq).1 (by decide))
          (fun h => h.1.2 hnext)
      · rw [stepCode_division hprev hnext]
        exact ⟨fun heq => ⟨⟨rfl, hnext⟩, (List.cons.inj heq).2⟩, fun h => congrArg _ h.2⟩
  | cons p body ih =>
      obtain ⟨hp, hothers⟩ := List.forall_mem_cons.1 hbody
      obtain ⟨c, more, hchars, hslash, hspace⟩ := exists_chars_of_free hp
      have htext : regexText (p :: body) = c :: (more ++ regexText body) := by
        rw [regexText, List.flatMap_cons, hchars]
        rfl
      rw [Harmless, htext, List.cons_append, List.all_cons, run_cons, blanksOf_cons,
        List.cons_append, List.cons.injEq]
      by_cases hc : c = ' '
      · obtain rfl := hspace hc
        have hstep : ∀ next, step .slashes (.code prev) ' ' next = (.code prev, ' ') :=
          fun next => stepCode_of_isCode (by decide) prev next
        rw [hc, hstep, List.nil_append, ih hothers, beq_self_eq_true, Bool.true_and]
        exact and_iff_right rfl
      · -- A character that is no space is shown, and so it is not hidden.
        refine iff_of_false (fun h => ?_) (fun h => ?_)
        · exact hc ((stepCode_shown_of_ne hslash prev _).symm.trans h.1)
        · rw [beq_eq_false_iff_ne.2 hc] at h
          exact absurd h.1.1 Bool.false_ne_true

/-! ## Tokens in order -/

section Tokens

variable {prev : Option Token}

/-- The slash of a regular expression that is not on the list divides, and code goes on behind. -/
theorem run_unlisted (hprev : ¬Listed prev) {body : List RegexPart} {rest : Line}
    (h : (Token.regex body).Fits prev rest) :
    (run .slashes (.code (prev.bind Token.lastChar)) ((Token.regex body).text ++ rest)).1 =
      '/' :: (run .slashes (.code (some '/')) (regexText body ++ '/' :: rest)).1 := by
  obtain ⟨-, -, hhead⟩ := h
  simp only [List.mem_cons, List.not_mem_nil, or_false, not_or] at hhead
  obtain ⟨hnil, hslash, hstar⟩ := hhead
  have htext : (Token.regex body).text ++ rest = '/' :: (regexText body ++ '/' :: rest) := by
    rw [Token.text, List.cons_append, List.append_assoc]
    rfl
  have hnext : (regexText body ++ '/' :: rest).head? = (regexText body).head? :=
    List.head?_append_of_ne_nil _ (fun e => hnil (by rw [e]; rfl))
  have hdivides : (regexText body).head? ∉ [some '/', some '*'] := by simp [hslash, hstar]
  have hstep := stepCode_division (Bool.eq_false_iff.2 hprev) hdivides
  rw [htext, run_cons, hnext, step, hstep]

theorem run_unlisted_iff (hprev : ¬Listed prev) {body : List RegexPart} {rest : Line}
    (h : (Token.regex body).Fits prev rest) (tail : Line) :
    (run .slashes (.code (prev.bind Token.lastChar)) ((Token.regex body).text ++ rest)).1 =
        (Token.regex body).shown ++ tail ↔
      Harmless body rest ∧ (run .slashes (.code (some '/')) rest).1 = tail := by
  have hshown : (Token.regex body).shown ++ tail =
      '/' :: (blanksOf (regexText body) ++ '/' :: tail) := by
    rw [Token.shown, List.cons_append, List.append_assoc]
    rfl
  rw [run_unlisted hprev h, hshown, List.cons.injEq, and_iff_right rfl]
  exact run_code_regexText_iff (by decide) h.2.1 rest tail

/-- What holds of each regular expression holds of the first token, if it is one, and of those among
the others. -/
theorem forall_regex_cons (P : Option Token → List RegexPart → List Token → Prop)
    (prev : Option Token) (t : Token) (tokens : List Token) :
    (∀ front body back, t :: tokens = front ++ .regex body :: back →
        P (lastToken prev front) body back) ↔
      (∀ body, t = .regex body → P prev body tokens) ∧
        ∀ front body back, tokens = front ++ .regex body :: back →
          P (lastToken (t.after prev) front) body back := by
  constructor
  · intro h
    exact ⟨fun body ht => h [] body tokens (by rw [ht]; rfl),
      fun front body back htokens => h (t :: front) body back (by rw [htokens]; rfl)⟩
  · rintro ⟨hfirst, hothers⟩ front body back h
    cases front with
    | nil =>
        obtain ⟨ht, rfl⟩ := List.cons.inj h
        exact hfirst body ht
    | cons t' front =>
        obtain ⟨rfl, htokens⟩ := List.cons.inj h
        exact hothers front body back htokens

/-- **A line is masked as it is meant, if and only if each regular expression stands where the mask
expects one, or is harmless.** -/
theorem run_textOf_iff {tokens : List Token} (hprev : ∀ t ∈ prev, Placed t)
    (hfit : FitTogether prev tokens) :
    (run .slashes (.code (prev.bind Token.lastChar)) (textOf tokens)).1 = shownOf tokens ↔
      ∀ front body back, tokens = front ++ .regex body :: back →
        Listed (lastToken prev front) ∨ Harmless body (textOf back) := by
  induction tokens generalizing prev with
  | nil => exact iff_of_true rfl (fun front body back h => by cases front <;> cases h)
  | cons t tokens ih =>
      obtain ⟨ht, hothers⟩ := hfit
      have hplaced := Token.placed_after hprev ht
      have htext : textOf (t :: tokens) = t.text ++ textOf tokens := List.flatMap_cons
      have hshown : shownOf (t :: tokens) = t.shown ++ shownOf tokens := List.flatMap_cons
      have hsplit := forall_regex_cons
        (fun prev body back => Listed prev ∨ Harmless body (textOf back)) prev t tokens
      rw [hsplit, htext, hshown]
      by_cases hlisted : ∀ body, t = .regex body → Listed prev
      · rw [run_token hprev ht hlisted, List.append_cancel_left_eq, ih hplaced hothers]
        exact (and_iff_right (fun body hbody => .inl (hlisted body hbody))).symm
      · obtain ⟨body, hbody⟩ := not_forall.1 hlisted
        obtain ⟨rfl, hunlisted⟩ := Classical.not_imp.1 hbody
        have hrest := ih hplaced hothers
        rw [run_unlisted_iff hunlisted ht, ← hrest]
        refine and_congr_left (fun _ => ⟨?_, ?_⟩)
        · rintro hharmless body' hbody'
          obtain rfl := Token.regex.inj hbody'
          exact .inr hharmless
        · exact fun h => (h body rfl).resolve_left hunlisted

/-- Up to a place in front of which each regular expression is expected, a line is masked as it is
meant. -/
theorem run_front {front back : List Token} (hprev : ∀ t ∈ prev, Placed t)
    (hfit : FitTogether prev (front ++ back))
    (hlisted : ∀ front' body back', front = front' ++ .regex body :: back' →
      Listed (lastToken prev front')) :
    (run .slashes (.code (prev.bind Token.lastChar)) (textOf (front ++ back))).1 =
        shownOf front ++
          (run .slashes (.code ((lastToken prev front).bind Token.lastChar)) (textOf back)).1 ∧
      FitTogether (lastToken prev front) back := by
  induction front generalizing prev with
  | nil => exact ⟨rfl, hfit⟩
  | cons t front ih =>
      have hparts : t.Fits prev (textOf (front ++ back)) ∧
          FitTogether (t.after prev) (front ++ back) := hfit
      obtain ⟨ht, hothers⟩ := hparts
      have htext : textOf (t :: front ++ back) = t.text ++ textOf (front ++ back) :=
        List.flatMap_cons
      have hshown : shownOf (t :: front) = t.shown ++ shownOf front := List.flatMap_cons
      obtain ⟨hfirst, hmore⟩ := (forall_regex_cons (fun prev _ _ => Listed prev) _ _ _).1 hlisted
      obtain ⟨hrun, hfits⟩ := ih (Token.placed_after hprev ht) hothers hmore
      rw [htext, hshown, run_token hprev ht hfirst, hrun, List.append_assoc]
      exact ⟨rfl, hfits⟩

end Tokens

/-! ## What the list leaves out -/

/-- The punctuators that an expression may follow and that the mask does not know as such. -/
def unlistedPunctuators : List Line :=
  ["<", ">", "+", "-", "*", "%", "**", "<<", ">>", ">>>", "^", "~", "=>", "?.", ".", "...",
    "@"].map String.toList

theorem not_listed_keyword : ∀ word ∈ keywords, ¬Listed (some (.keyword word)) := by
  decide

theorem not_listed_punctuator_iff : ∀ p ∈ punctuators,
    Token.mayStart (some (.punctuator p)) = true →
      (¬Listed (some (.punctuator p)) ↔ p ∈ unlistedPunctuators) := by
  decide

/-- Within a regular expression that is read as code, a quotation mark hides all that is behind. -/
theorem run_quoted {quote : Char} (hquote : isQuote .slashes quote = true) {before behind : Line}
    (hbefore : ∀ c ∈ before, IsCode .slashes c) (hbehind : quote ∉ behind) (prev : Option Char) :
    (run .slashes (.code prev) (before ++ quote :: behind)).1 =
      before ++ quote :: blanksOf behind := by
  induction before generalizing prev with
  | nil =>
      obtain ⟨escaped, hhidden⟩ := run_string_of_not_mem .slashes hbehind false
      rw [List.nil_append, run_cons, step, stepCode_quote hquote, hhidden]
      rfl
  | cons c before ih =>
      obtain ⟨hc, hothers⟩ := List.forall_mem_cons.1 hbefore
      rw [List.cons_append, run_cons, step, stepCode_of_isCode hc, ih hothers]
      rfl

/-! ## Lines of a source -/

/-- **A regular expression is masked where the list expects it.**  A line of tokens, with no block
comment open in front of it, shows what it is meant to if and only if each regular expression stands
behind a token on the list or is harmless.  At the first that is not on the list, code goes on: what
stands in it is shown as code, and a quotation mark in it hides all that is behind, if the line has
no more of its kind.  Not on the list are all keywords, a division, and some of the punctuators that
an expression may follow. -/
theorem regex_literal_masked_iff (source : String) (above below : List Line) (tokens : List Token)
    (hsource : linesOf source = above ++ textOf tokens :: below)
    (hclosed : blockBehind .slashes false above = false) (hfit : FitTogether none tokens) :
    maskLines .slashes (linesOf source) =
      maskLines .slashes above ++ maskLine .slashes (textOf tokens) ::
        maskLinesFrom .slashes (maskFrom .slashes false (textOf tokens)).2 below ∧
    (maskLine .slashes (textOf tokens) = shownOf tokens ↔
      ∀ front body back, tokens = front ++ .regex body :: back →
        Listed (lastToken none front) ∨ Harmless body (textOf back)) ∧
    (∀ front body back, tokens = front ++ .regex body :: back →
      (∀ front' body' back', front = front' ++ .regex body' :: back' →
        Listed (lastToken none front')) →
      ¬Listed (lastToken none front) →
        maskLine .slashes (textOf tokens) = shownOf front ++
          '/' :: (run .slashes (.code (some '/')) (regexText body ++ '/' :: textOf back)).1 ∧
        ∀ before quote behind, regexText body = before ++ quote :: behind →
          isQuote .slashes quote = true → (∀ c ∈ before, IsCode .slashes c) →
          quote ∉ behind ++ '/' :: textOf back →
            maskLine .slashes (textOf tokens) = shownOf front ++
              '/' :: (before ++ quote :: blanksOf (behind ++ '/' :: textOf back))) ∧
    Listed none ∧ (∀ word ∈ keywords, ¬Listed (some (.keyword word))) ∧
      ¬Listed (some .division) ∧ ∀ p ∈ punctuators, Token.mayStart (some (.punctuator p)) = true →
        (¬Listed (some (.punctuator p)) ↔ p ∈ unlistedPunctuators) := by
  have hnone : ∀ t ∈ (none : Option Token), Placed t := fun t ht => by cases ht
  refine ⟨?_, run_textOf_iff hnone hfit, ?_, by decide, not_listed_keyword, by decide,
    not_listed_punctuator_iff⟩
  · rw [hsource, maskLines, maskLinesFrom_append, hclosed, maskLinesFrom_cons]
    rfl
  · rintro front body back rfl hfront hunlisted
    obtain ⟨hrun, hregex, -⟩ := run_front hnone hfit hfront
    have hback : textOf (.regex body :: back) = (Token.regex body).text ++ textOf back :=
      List.flatMap_cons
    have hcode : maskLine .slashes (textOf (front ++ .regex body :: back)) = shownOf front ++
        '/' :: (run .slashes (.code (some '/')) (regexText body ++ '/' :: textOf back)).1 := by
      rw [hback, run_unlisted hunlisted hregex] at hrun
      exact hrun
    refine ⟨hcode, ?_⟩
    intro before quote behind htext hquote hbefore hbehind
    rw [hcode, htext, List.append_assoc, List.cons_append, run_quoted hquote hbefore hbehind]

/-- A regular expression with a quotation mark in it, behind a keyword and in front of a call. -/
def quotedTokens : List Token :=
  [.name "function".toList, .gap [' '], .name ['h'], .punctuator ['('], .name ['s'],
    .punctuator [')'], .gap [' '], .punctuator ['{'], .gap [' '], .keyword "return".toList,
    .gap [' '], .regex [.piece (.plain '\'')], .punctuator ['.'], .name "test".toList,
    .punctuator ['('], .name ['s'], .punctuator [')'], .gap [' '], .punctuator ['|', '|'],
    .gap [' '], .name ['f'], .punctuator ['('], .punctuator [')'], .punctuator [';'], .gap [' '],
    .punctuator ['}']]

def calledBehindRegex : String :=
  "function f() {}\nfunction h(s) \x7b return /'/.test(s) || f(); \x7d\nh('a');"

/-- The call behind the regular expression is hidden with all that follows. -/
theorem calledBehindRegex_hidden :
    maskLine .slashes (textOf quotedTokens) ≠ shownOf quotedTokens ∧
    maskLine .slashes (textOf quotedTokens) =
      "function h(s) \x7b return /'".toList ++ blanksOf "/.test(s) || f(); \x7d".toList := by
  have hsplit : quotedTokens = quotedTokens.take 11 ++
      .regex [.piece (.plain '\'')] :: quotedTokens.drop 12 := by decide
  have hfirst : ∀ front body back, quotedTokens.take 11 = front ++ .regex body :: back →
      Listed (lastToken none front) := by
    intro front body back h
    have hmem : Token.regex body ∈ quotedTokens.take 11 := by
      rw [h]
      exact List.mem_append_right front List.mem_cons_self
    exact absurd hmem (by simp [quotedTokens])
  obtain ⟨-, hiff, hunlisted, -⟩ := regex_literal_masked_iff calledBehindRegex
    ["function f() {}".toList] ["h('a');".toList] quotedTokens (by decide) (by decide) (by decide)
  refine ⟨fun hmeant => absurd (hiff.1 hmeant _ _ _ hsplit) (by decide), ?_⟩
  have hhidden := (hunlisted _ _ _ hsplit hfirst (by decide)).2 [] '\'' [] rfl (by decide)
    (fun c hc => absurd hc List.not_mem_nil) (by decide)
  exact hhidden.trans (by decide)

def calledBehindRegexMeant : List CodeLine :=
  pairLines 1 (linesOf calledBehindRegex) [maskLine .slashes "function f() {}".toList,
    shownOf quotedTokens, maskLine .slashes "h('a');".toList]

/-- **A quotation mark in a regular expression opens a string.**  The call behind it is lost, so the
function counts as unused, and the line seems to lack its semicolon. -/
theorem calledBehindRegex_misread :
    ((analyze calledBehindRegex).unusedFunctions = [⟨"f", 1⟩] ∧
      (analyze calledBehindRegex).semicolonMissing = [2]) ∧
    (findingsOf calledBehindRegexMeant).unusedFunctions = [] ∧
      (findingsOf calledBehindRegexMeant).semicolonMissing = [] := by
  decide

end CodeSurvey.JavaScript
