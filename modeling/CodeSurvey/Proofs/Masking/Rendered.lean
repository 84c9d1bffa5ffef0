/-
# Masking follows the segments

The mask reads a character at a time; the layout of a text goes segment by segment.  They agree on
every text of well-formed segments (`mask_follows_segments`): code and delimiters stand where they
stood, and all else is one blank for one character.

The machine is run over a whole text with its line ends marked (`runOn`), which is the same as
masking its lines (`cut_runOn`).  A stretch of a text is passed if the machine shows what the layout
shows and goes on in a known mode (`Passes`).  There is one such fact for each kind of segment
(`passes_segment`), and between segments the machine is always in code, remembering the last
character shown.
-/
import CodeSurvey.Proofs.Masking.Segment

namespace CodeSurvey.Masking

open Text

variable {style : CommentStyle}

/-! ## The machine on a whole text -/

/-- Run the machine over a text; a line end leaves nothing open but a block comment. -/
def runOn (style : CommentStyle) (mode : Mode) : List (Option Char) → List (Option Char)
  | [] => []
  | none :: rest => none :: runOn style (startMode mode.inBlock) rest
  | some c :: rest =>
    some (step style mode c (nextOn rest)).2 ::
      runOn style (step style mode c (nextOn rest)).1 rest

def maskOn (style : CommentStyle) (mode : Mode) : List Line → List Line
  | [] => []
  | line :: rest =>
    (run style mode line).1 :: maskLinesFrom style (run style mode line).2.inBlock rest

theorem maskLinesFrom_eq_maskOn (inBlock : Bool) (lines : List Line) :
    maskLinesFrom style inBlock lines = maskOn style (startMode inBlock) lines := by
  cases lines with
  | nil => rfl
  | cons line rest => rfl

theorem cut_eq_cons {α : Type} (text : List (Option α)) :
    ∃ line lines, cut text = line :: lines ∧ line.head? = text.head?.join := by
  induction text with
  | nil => exact ⟨[], [], rfl, rfl⟩
  | cons a rest ih =>
      obtain ⟨line, lines, hcut, -⟩ := ih
      cases a with
      | none => exact ⟨[], cut rest, rfl, rfl⟩
      | some a => exact ⟨a :: line, lines, by rw [cut, hcut]; rfl, rfl⟩

theorem cut_runOn (mode : Mode) (text : List (Option Char)) :
    cut (runOn style mode text) = maskOn style mode (cut text) := by
  induction text generalizing mode with
  | nil => rfl
  | cons c rest ih =>
      cases c with
      | none =>
          show [] :: cut (runOn style (startMode mode.inBlock) rest) = _
          rw [ih, ← maskLinesFrom_eq_maskOn]
          rfl
      | some c =>
          obtain ⟨line, lines, hcut, hhead⟩ := cut_eq_cons rest
          rw [runOn, cut, ih, cut, hcut, nextOn, ← hhead]
          rfl

theorem cut_map {α β : Type} (f : α → β) (text : List (Option α)) :
    cut (text.map (Option.map f)) = (cut text).map (List.map f) := by
  induction text with
  | nil => rfl
  | cons a rest ih =>
      obtain ⟨line, lines, hcut, -⟩ := cut_eq_cons rest
      cases a with
      | none => rw [List.map_cons, Option.map_none, cut, ih]; rfl
      | some a => rw [List.map_cons, Option.map_some, cut, ih, cut, hcut]; rfl

/-- At the end of a line it only matters whether a block comment is open. -/
theorem runOn_of_nextOn_eq_none {rest : List (Option Char)} (h : nextOn rest = none)
    {mode mode' : Mode} (hblock : mode.inBlock = mode'.inBlock) :
    runOn style mode rest = runOn style mode' rest := by
  cases rest with
  | nil => rfl
  | cons c rest =>
      cases c with
      | none => rw [runOn, runOn, hblock]
      | some c => cases h

/-! ## Stretches that are passed -/

/-- In front of a text, the machine shows a stretch as its layout does and goes on in a mode. -/
def Passes (style : CommentStyle) (mode : Mode) (stretch : Layout) (mode' : Mode)
    (rest : List (Option Char)) : Prop :=
  runOn style mode (stretch.text ++ rest) = stretch.shown ++ runOn style mode' rest

theorem text_append (front back : Layout) :
    Layout.text (front ++ back) = front.text ++ back.text :=
  List.map_append

theorem shown_append (front back : Layout) :
    Layout.shown (front ++ back) = front.shown ++ back.shown :=
  List.map_append

namespace Passes

variable {mode mode' mode'' : Mode} {front back : Layout} {rest : List (Option Char)}

theorem nil : Passes style mode [] mode rest := rfl

theorem append (hfront : Passes style mode front mode' (back.text ++ rest))
    (hback : Passes style mode' back mode'' rest) :
    Passes style mode (front ++ back) mode'' rest := by
  rw [Passes] at hfront hback ⊢
  rw [text_append, List.append_assoc, hfront, hback, shown_append, List.append_assoc]

theorem glyph {g : Glyph} (h : step style mode g.char (nextOn rest) = (mode', g.shown)) :
    Passes style mode [some g] mode' rest := by
  show some (step style mode g.char (nextOn rest)).2 ::
    runOn style (step style mode g.char (nextOn rest)).1 rest = _
  rw [h]
  rfl

theorem cons {g : Glyph}
    (h : step style mode g.char (nextOn (back.text ++ rest)) = (mode', g.shown))
    (hback : Passes style mode' back mode'' rest) :
    Passes style mode (some g :: back) mode'' rest :=
  (Passes.glyph h).append hback

theorem lineBreak : Passes style mode [none] (startMode mode.inBlock) rest := rfl

end Passes

/-! ## Code -/

theorem stepCode_of_isCode {c : Char} (h : IsCode style c) (prev : Option Char)
    (next : Option Char) : stepCode style prev c next = (.code (remember prev c), c) := by
  obtain ⟨hquote, hopener⟩ := h
  cases style with
  | hash =>
      have hc : c ≠ '#' := fun e => hopener (e ▸ List.mem_cons_self)
      simp [stepCode, startsComment, hc, hquote]
  | slashes =>
      have hc : c ≠ '/' := fun e => hopener (e ▸ List.mem_cons_self)
      simp [stepCode, startsComment, hc, hquote]

theorem passes_kept {text : List Char} (h : ∀ c ∈ text, IsCode style c) (prev : Option Char)
    (rest : List (Option Char)) :
    Passes style (.code prev) (kept text) (.code (lastInk prev (kept text))) rest := by
  induction text generalizing prev with
  | nil => exact .nil
  | cons c text ih =>
      obtain ⟨hc, htext⟩ := List.forall_mem_cons.1 h
      exact .cons (stepCode_of_isCode hc prev _) (ih htext _)

theorem stepCode_division {prev next : Option Char} (hprev : regexMayFollow prev = false)
    (hnext : next ∉ [some '/', some '*']) :
    stepCode .slashes prev '/' next = (.code (some '/'), '/') := by
  simp only [List.mem_cons, List.not_mem_nil, or_false, not_or] at hnext
  simp [stepCode, startsComment, hprev, hnext, isQuote, remember, isBlank]

theorem passes_division {prev : Option Char} {rest : List (Option Char)}
    (hprev : regexMayFollow prev = false) (hnext : nextOn rest ∉ [some '/', some '*']) :
    Passes .slashes (.code prev) (kept ['/']) (.code (some '/')) rest :=
  .glyph (stepCode_division hprev hnext)

/-! ## Literals -/

/-- A mode within a literal: it hides what it reads, a backslash hides the next character as well,
and only the stops lead out of it. -/
structure Hides (style : CommentStyle) (mode behindBackslash : Mode) (stops : List Char) : Prop
    where
  backslash : ∀ next, step style mode '\\' next = (behindBackslash, ' ')
  escaped : ∀ c next, step style behindBackslash c next = (mode, ' ')
  plain : ∀ c next, c ≠ '\\' → c ∉ stops → step style mode c next = (mode, ' ')

theorem hides_string (quote : Char) :
    Hides style (.string quote false) (.string quote true) [quote] where
  backslash _ := rfl
  escaped _ _ := rfl
  plain c next hc hstop := by
    have hquote : c ≠ quote := fun e => hstop (List.mem_singleton.2 e)
    simp [step, stepString, hc, hquote]

theorem hides_regex : Hides style (.regex false false) (.regex false true) ['/', '['] where
  backslash _ := rfl
  escaped _ _ := rfl
  plain c next hc hstop := by
    simp only [List.mem_cons, List.not_mem_nil, or_false, not_or] at hstop
    simp [step, stepRegex, hc, hstop]

theorem hides_charClass : Hides style (.regex true false) (.regex true true) [']'] where
  backslash _ := rfl
  escaped _ _ := rfl
  plain c next hc hstop := by
    have hbracket : c ≠ ']' := fun e => hstop (List.mem_singleton.2 e)
    by_cases hopen : c = '['
    · rw [hopen]
      rfl
    · simp [step, stepRegex, hc, hbracket, hopen]

theorem hidden_append (front back : List Char) :
    hidden (front ++ back) = hidden front ++ hidden back :=
  List.map_append

section Literals

variable {mode behindBackslash : Mode} {stops : List Char}

theorem Hides.passes_piece (h : Hides style mode behindBackslash stops) {p : Piece}
    (hp : p.Free stops) (rest : List (Option Char)) :
    Passes style mode (hidden p.chars) mode rest := by
  cases p with
  | plain c => exact .glyph (h.plain c _ hp.1 hp.2)
  | escaped c =>
      exact .cons (h.backslash _) (.glyph (h.escaped c _))

theorem Hides.passes_body (h : Hides style mode behindBackslash stops) {body : List Piece}
    (hbody : ∀ p ∈ body, p.Free stops) (rest : List (Option Char)) :
    Passes style mode (hidden (bodyText body)) mode rest := by
  induction body with
  | nil => exact .nil
  | cons p body ih =>
      obtain ⟨hp, hothers⟩ := List.forall_mem_cons.1 hbody
      rw [bodyText, List.flatMap_cons, hidden_append]
      exact (h.passes_piece hp _).append (ih hothers)

end Literals

theorem passes_regexPart {p : RegexPart} (hp : p.Free) (rest : List (Option Char)) :
    Passes style (.regex false false) (hidden p.chars) (.regex false false) rest := by
  cases p with
  | piece p => exact hides_regex.passes_piece hp rest
  | charClass body =>
      have hclass : RegexPart.chars (.charClass body) = ['['] ++ bodyText body ++ [']'] := rfl
      rw [hclass, hidden_append, hidden_append]
      have hopener : ∀ rest,
          Passes style (.regex false false) (hidden ['[']) (.regex true false) rest :=
        fun _ => .glyph rfl
      exact ((hopener _).append (hides_charClass.passes_body hp _)).append (.glyph rfl)

theorem passes_regexText {body : List RegexPart} (h : ∀ p ∈ body, p.Free)
    (rest : List (Option Char)) :
    Passes style (.regex false false) (hidden (regexText body)) (.regex false false) rest := by
  induction body with
  | nil => exact .nil
  | cons p body ih =>
      obtain ⟨hp, hothers⟩ := List.forall_mem_cons.1 h
      rw [regexText, List.flatMap_cons, hidden_append]
      exact (passes_regexPart hp _).append (ih hothers)

theorem quote_ne_of_isQuote {quote : Char} (h : isQuote style quote = true) :
    quote ≠ '#' ∧ quote ≠ '/' ∧ quote ≠ '\\' ∧ isBlank quote = false := by
  simp only [isQuote, Bool.or_eq_true, Bool.and_eq_true, decide_eq_true_eq] at h
  rcases h with (rfl | rfl) | ⟨rfl, -⟩ <;> decide

theorem stepCode_quote {quote : Char} (h : isQuote style quote = true) (prev next : Option Char) :
    stepCode style prev quote next = (.string quote false, quote) := by
  obtain ⟨hhash, hslash, -⟩ := quote_ne_of_isQuote h
  cases style with
  | hash => simp [stepCode, startsComment, hhash, h]
  | slashes => simp [stepCode, startsComment, hslash, h]

theorem passes_string {quote : Char} (hquote : isQuote style quote = true) {body : List Piece}
    (hbody : ∀ p ∈ body, p.Free [quote]) (prev : Option Char) (rest : List (Option Char)) :
    Passes style (.code prev) (kept [quote] ++ hidden (bodyText body) ++ kept [quote])
      (.code (some quote)) rest := by
  refine Passes.append (Passes.append (.glyph ?_) ((hides_string quote).passes_body hbody _))
    (.glyph ?_)
  · exact stepCode_quote hquote prev _
  · obtain ⟨-, -, hbackslash, -⟩ := quote_ne_of_isQuote hquote
    show stepString quote false quote = _
    simp [stepString, hbackslash, Glyph.shown]

theorem nextOn_hidden {text : List Char} (h : text ≠ []) (rest : List (Option Char)) :
    nextOn ((hidden text).text ++ rest) = text.head? := by
  cases text with
  | nil => exact absurd rfl h
  | cons c text => rfl

theorem passes_regex {prev : Option Char} {body : List RegexPart}
    (hprev : regexMayFollow prev = true) (hbody : ∀ p ∈ body, p.Free)
    (hhead : (regexText body).head? ∉ [none, some '/', some '*']) (rest : List (Option Char)) :
    Passes .slashes (.code prev) (kept ['/'] ++ hidden (regexText body) ++ kept ['/'])
      (.code (some '/')) rest := by
  simp only [List.mem_cons, List.not_mem_nil, or_false, not_or] at hhead
  obtain ⟨hnil, hslash, hstar⟩ := hhead
  refine Passes.append (Passes.append (.glyph ?_) (passes_regexText hbody _)) (.glyph rfl)
  rw [nextOn_hidden (fun e => hnil (by rw [e]; rfl))]
  show stepCode .slashes prev '/' _ = _
  simp [stepCode, startsComment, hslash, hstar, hprev, Glyph.shown]

/-! ## The last character shown -/

theorem lastInk_append (prev : Option Char) (front back : Layout) :
    lastInk prev (front ++ back) = lastInk (lastInk prev front) back :=
  List.foldl_append

theorem lastInk_hidden (prev : Option Char) (text : List Char) :
    lastInk prev (hidden text) = prev := by
  induction text with
  | nil => rfl
  | cons c text ih => exact ih

theorem lastInk_kept_singleton {c : Char} (h : isBlank c = false) (prev : Option Char) :
    lastInk prev (kept [c]) = some c := by
  show (if isBlank c = true then prev else some c) = some c
  rw [h]
  rfl

theorem lastInk_delimited {quote : Char} (h : isBlank quote = false) (text : List Char)
    (prev : Option Char) :
    lastInk prev (kept [quote] ++ hidden text ++ kept [quote]) = some quote := by
  rw [lastInk_append, lastInk_kept_singleton h]

/-! ## Block comments -/

theorem passes_blockLine {line : List Char} (h : occursIn ['*', '/'] line = false)
    {rest : List (Option Char)} (hrest : nextOn rest ≠ some '/') (prev : Option Char) :
    Passes style (.block prev) (hidden line) (.block prev) rest := by
  induction line with
  | nil => exact .nil
  | cons c line ih =>
      simp only [occursIn, Bool.or_eq_false_iff] at h
      obtain ⟨hfirst, hothers⟩ := h
      refine .cons ?_ (ih hothers)
      show stepBlock prev c _ = _
      rw [stepBlock, if_neg]
      · rfl
      · simp only [Bool.and_eq_true, decide_eq_true_eq, not_and]
        rintro rfl hnext
        cases line with
        | nil => exact hrest hnext
        | cons d line =>
            obtain rfl : d = '/' := Option.some.inj hnext
            simp [List.isPrefixOf] at hfirst

theorem nextOn_furtherLines {rest : List (Option Char)} (hrest : nextOn rest ≠ some '/')
    (more : List (List Char)) :
    nextOn ((furtherLines more).text ++ rest) ≠ some '/' := by
  cases more with
  | nil => exact hrest
  | cons line more => exact nofun

/-- The further lines of a block comment are hidden.  Nothing is remembered across a line end. -/
theorem passes_furtherLines {more : List (List Char)}
    (h : ∀ line ∈ more, occursIn ['*', '/'] line = false) {rest : List (Option Char)}
    (hrest : nextOn rest ≠ some '/') (prev : Option Char) :
    Passes style (.block prev) (furtherLines more) (.block (lastInk prev (furtherLines more)))
      rest := by
  induction more generalizing prev with
  | nil => exact .nil
  | cons line more ih =>
      obtain ⟨hline, hmore⟩ := List.forall_mem_cons.1 h
      have hfurther : furtherLines (line :: more) = [none] ++ hidden line ++ furtherLines more :=
        List.flatMap_cons
      rw [hfurther, lastInk_append, lastInk_append, lastInk_hidden]
      have hbreak : Passes style (.block prev) [none] (.block none)
          ((hidden line).text ++ ((furtherLines more).text ++ rest)) := .lineBreak
      exact (hbreak.append (passes_blockLine hline (nextOn_furtherLines hrest more) none)).append
        (ih hmore none)

theorem passes_blockLines {first : List Char} {more : List (List Char)}
    (h : IsUnclosed first more) {rest : List (Option Char)} (hrest : nextOn rest ≠ some '/')
    (prev : Option Char) :
    Passes .slashes (.code prev) (blockLines first more)
      (.block (lastInk prev (blockLines first more))) rest := by
  obtain ⟨hfirst, hmore⟩ := List.forall_mem_cons.1 h
  have hopener : ∀ rest, Passes .slashes (.code prev) (hidden ['/', '*']) (.block prev) rest :=
    fun _ => .cons rfl (.glyph rfl)
  have hlines : blockLines first more =
      hidden ['/', '*'] ++ hidden first ++ furtherLines more := rfl
  rw [hlines, lastInk_append, lastInk_append, lastInk_hidden, lastInk_hidden]
  exact ((hopener _).append (passes_blockLine hfirst (nextOn_furtherLines hrest more) prev)).append
    (passes_furtherLines hmore hrest prev)

/-! ## What ends with its line -/

/-- At the end of a line it does not matter what the machine was in, if no block comment. -/
theorem Passes.of_lineEnd {mode mode' mode'' : Mode} {stretch : Layout}
    {rest : List (Option Char)} (h : Passes style mode stretch mode' rest)
    (hrest : nextOn rest = none) (hblock : mode'.inBlock = mode''.inBlock) :
    Passes style mode stretch mode'' rest := by
  rw [Passes, ← runOn_of_nextOn_eq_none hrest hblock]
  exact h

theorem passes_lineComment (text : List Char) (prev : Option Char) (rest : List (Option Char)) :
    Passes style (.code prev) (hidden (commentOpener style ++ text)) .lineComment rest := by
  have hcomment : Passes style .lineComment (hidden text) .lineComment rest := by
    induction text with
    | nil => exact .nil
    | cons c text ih => exact .cons rfl ih
  rw [hidden_append]
  refine Passes.append ?_ hcomment
  cases style with
  | hash => exact .glyph rfl
  | slashes => exact .cons rfl (.glyph rfl)

theorem passes_openString {quote : Char} (hquote : isQuote style quote = true)
    {body : List Piece} (hbody : ∀ p ∈ body, p.Free [quote]) (backslash : Bool)
    (prev : Option Char) (rest : List (Option Char)) :
    Passes style (.code prev)
      (kept [quote] ++ hidden (bodyText body ++ if backslash then ['\\'] else []))
      (.string quote backslash) rest := by
  rw [hidden_append]
  refine Passes.append (.glyph (stepCode_quote hquote prev _))
    (((hides_string quote).passes_body hbody _).append ?_)
  cases backslash with
  | false => exact .nil
  | true => exact .glyph rfl

/-! ## Segments -/

/-- **Each segment is passed**: the machine shows it as it is laid out, and is then in code again,
with the last character shown as the one it remembers. -/
theorem passes_segment {s : Segment} {prev : Option Char} {rest : List (Option Char)}
    (h : s.Fits style prev rest) :
    Passes style (.code prev) (s.layout style) (.code (lastInk prev (s.layout style))) rest := by
  cases s with
  | code text => exact passes_kept h prev rest
  | division =>
      obtain ⟨rfl, hprev, hnext⟩ := h
      exact passes_division hprev hnext
  | string quote body =>
      rw [Segment.layout, lastInk_delimited (quote_ne_of_isQuote h.1).2.2.2]
      exact passes_string h.1 h.2 prev rest
  | regex body =>
      obtain ⟨rfl, hprev, hbody, hhead⟩ := h
      rw [Segment.layout, lastInk_delimited (by decide)]
      exact passes_regex hprev hbody hhead rest
  | block first more =>
      obtain ⟨rfl, hunclosed⟩ := h
      rw [Segment.layout, lastInk_append, lastInk_hidden]
      have hcloser : ∀ last, Passes .slashes (.block last) (hidden ['*', '/']) (.code last) rest :=
        fun _ => .cons rfl (.glyph rfl)
      exact (passes_blockLines hunclosed (by exact nofun) prev).append (hcloser _)
  | openString quote body backslash =>
      obtain ⟨hquote, hbody, hend⟩ := h
      exact (passes_openString hquote hbody backslash prev rest).of_lineEnd hend rfl
  | lineComment text => exact (passes_lineComment text prev rest).of_lineEnd h rfl
  | openBlock first more =>
      obtain ⟨rfl, hunclosed, rfl⟩ := h
      -- Behind the last line the machine does nothing in any mode.
      exact passes_blockLines hunclosed (by exact nofun) prev
  | lineBreak => exact .lineBreak

theorem runOn_layoutOf {segments : List Segment} {prev : Option Char}
    (h : WellFormed style prev segments) :
    runOn style (.code prev) (layoutOf style segments).text = (layoutOf style segments).shown := by
  induction segments generalizing prev with
  | nil => rfl
  | cons s segments ih =>
      obtain ⟨hs, hrest⟩ := h
      have hlayout : layoutOf style (s :: segments) = s.layout style ++ layoutOf style segments :=
        List.flatMap_cons
      rw [hlayout, text_append, shown_append, ← ih hrest]
      exact passes_segment hs

/-- **The mask follows the segments.**  Lines made of well-formed segments keep each character of
code and each delimiter in its place, and show one blank for each other character. -/
theorem mask_follows_segments (style : CommentStyle) (segments : List Segment)
    (h : WellFormed style none segments) :
    maskLines style ((pageOf style segments).map (List.map Glyph.char)) =
        (pageOf style segments).map (List.map Glyph.shown) ∧
      (maskLines style ((pageOf style segments).map (List.map Glyph.char))).map List.length =
        ((pageOf style segments).map (List.map Glyph.char)).map List.length := by
  have hlines : (pageOf style segments).map (List.map Glyph.char) =
      cut (layoutOf style segments).text := (cut_map Glyph.char _).symm
  have hshown : (pageOf style segments).map (List.map Glyph.shown) =
      cut (layoutOf style segments).shown := (cut_map Glyph.shown _).symm
  have hmask : maskLines style ((pageOf style segments).map (List.map Glyph.char)) =
      (pageOf style segments).map (List.map Glyph.shown) := by
    rw [hlines, hshown, maskLines, maskLinesFrom_eq_maskOn, ← runOn_layoutOf h, cut_runOn]
    rfl
  refine ⟨hmask, ?_⟩
  rw [hmask]
  simp only [List.map_map, Function.comp_def, List.length_map]

/-- A string with an escaped mark and what looks like a comment, a regular expression with a class
that holds a slash, a division, a comment over three lines and a string that is never closed. -/
def sampleSegments : List Segment :=
  [.code "x = f(".toList, .string '"' [.plain '/', .plain '/', .escaped '"'],
    .code ", ".toList, .regex [.charClass [.plain '/', .plain '\''], .piece (.escaped '/')],
    .code "g) ".toList, .division, .code " 2".toList, .block " it's".toList [[], " * ".toList],
    .regex [.piece (.plain 'a')], .lineComment " b".toList, .lineBreak,
    .code "y = ".toList, .openString '\x60' [.plain '\''] true]

theorem sampleSegments_masked :
    WellFormed .slashes none sampleSegments ∧
    maskLines .slashes (["x = f(\"//\\\"\", /[/']\\//g) / 2/* it's", "", " * *//a/// b",
        "y = \x60'\\"].map String.toList) =
      ["x = f(\"    \", /      /g) / 2       ", "", "     / /    ", "y = \x60  "].map
        String.toList := by
  have hfit : WellFormed .slashes none sampleSegments := by decide
  exact ⟨hfit, (mask_follows_segments .slashes sampleSegments hfit).1⟩

end CodeSurvey.Masking
