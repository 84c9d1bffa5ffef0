/-
# Bracket depth behind a string over several lines

A string that goes on over lines may stand within brackets.  On its first line the brackets before
it are counted.  The line that it ends on begins inside the string, so all of it is passed over, and
with it the brackets behind the closing delimiter.  Behind the string the scan is therefore where it
would be had the string been written on one line exactly if those brackets change nothing
(`depth_behind_string_iff`).  If they close what was open, the brackets stay open, and the
assignments behind are taken for keyword arguments.
-/
import CodeSurvey.Proofs.Python.Assigned
import CodeSurvey.Proofs.Python.Lexing

namespace CodeSurvey.Python

open Text Masking

/-! ## The state where a line is -/

/-- A line of code that is neither an import nor a header. -/
structure IsStatement (text : Line) : Prop where
  content : hasContent text = true
  not_import : importedNames? (trim text) = none
  not_definition : definition? (trim text) = none
  not_class : className? (trim text) = none

theorem IsStatement.roleAt_eq {text : Line} (h : IsStatement text) (depth : Nat) :
    roleAt depth text = .code none (scanCode (maskLine .hash text) depth) := by
  rw [roleAt, h.not_import, h.not_definition, h.not_class]

theorem IsStatement.moduleDepth_eq {text : Line} (h : IsStatement text) (depth : Nat) :
    moduleDepth depth text = depth := by
  rw [moduleDepth, h.not_class]
  rfl

namespace ScanState

def stringsAt (state : ScanState) (text : Line) : StringState :=
  match state.blockOf? text with
  | some b => b.strings
  | none => state.strings

def depthAt (state : ScanState) (text : Line) : Nat :=
  match state.blockOf? text with
  | some b => b.depth
  | none => state.depth

def put (state : ScanState) (block : Option OpenBlock) (strings : StringState) (depth : Nat) :
    ScanState :=
  match block with
  | some b => ⟨state.strings, state.depth, some ⟨b.indent, strings, depth⟩⟩
  | none => ⟨strings, depth, none⟩

theorem role_of_outside {state : ScanState} {text : Line} (houtside : state.stringsAt text = none)
    (hcontent : hasContent text = true)
    (hdepth : moduleDepth (state.depthAt text) text = state.depthAt text) :
    state.role text = roleAt (state.depthAt text) text := by
  rw [stringsAt] at houtside
  rw [depthAt] at hdepth ⊢
  rw [role]
  cases hblock : state.blockOf? text with
  | some b =>
      rw [hblock] at houtside
      dsimp only
      rw [OpenBlock.role, show b.strings = none from houtside, hcontent]
      rfl
  | none =>
      rw [hblock] at houtside hdepth
      dsimp only
      rw [moduleRole_of_outside houtside, show moduleDepth state.depth text = _ from hdepth]

theorem next_of_isStatement {state : ScanState} {text : Line} (h : IsStatement text)
    (houtside : state.stringsAt text = none) :
    state.next text =
      state.put (state.blockOf? text) (openedBy text)
        (depthAfter (state.depthAt text) (maskLine .hash text)) := by
  have hrole := role_of_outside houtside h.content (h.moduleDepth_eq _)
  rw [h.roleAt_eq, role] at hrole
  rw [stringsAt] at houtside
  rw [next, depthAt]
  cases hblock : state.blockOf? text with
  | some b =>
      rw [hblock] at houtside hrole
      dsimp only at hrole ⊢
      rw [OpenBlock.next, hrole, show b.strings = none from houtside]
      rfl
  | none =>
      rw [hblock] at houtside hrole
      dsimp only at hrole ⊢
      have hcode : ∀ name parameters,
          state.moduleRole text ≠ .definition name parameters := by
        intro name parameters hdefinition
        rw [hrole] at hdefinition
        cases hdefinition
      rw [moduleNext_of_not_definition houtside hcode, hrole, h.moduleDepth_eq,
        show state.strings = none from houtside]
      rfl

theorem next_of_inside {state : ScanState} {text : Line} {quote : TripleQuote}
    (hinside : state.stringsAt text = some quote) :
    state.next text =
      state.put (state.blockOf? text) (StringState.next (some quote) text)
        (state.depthAt text) := by
  rw [next]
  cases hblock : state.blockOf? text with
  | some b =>
      rw [stringsAt, hblock] at hinside
      have hstrings : b.strings = some quote := hinside
      have hrole : b.role text = .quoted := by
        rw [OpenBlock.role, hstrings]
        rfl
      rw [depthAt, hblock]
      dsimp only
      rw [OpenBlock.next, hrole, hstrings]
      rfl
  | none =>
      rw [stringsAt, hblock] at hinside
      have hstrings : state.strings = some quote := hinside
      have hrole : state.moduleRole text = .quoted := by
        rw [moduleRole, hstrings]
        rfl
      rw [depthAt, hblock]
      dsimp only
      rw [moduleNext, hrole, hstrings]
      rfl

/-! ## Staying at one place -/

def Holds (block : Option OpenBlock) (lines : List Line) : Prop :=
  ∀ b, block = some b → ∀ line ∈ lines, inBlock b.indent line = true

theorem blockOf?_put {state : ScanState} {block : Option OpenBlock} {strings : StringState}
    {depth : Nat} {line : Line} (h : Holds block [line]) :
    (state.put block strings depth).blockOf? line =
      block.map (fun b => ⟨b.indent, strings, depth⟩) := by
  cases block with
  | none => rfl
  | some b =>
      exact blockOf?_of_inBlock (h b rfl line List.mem_cons_self)

theorem stringsAt_put {state : ScanState} {block : Option OpenBlock} {strings : StringState}
    {depth : Nat} {line : Line} (h : Holds block [line]) :
    (state.put block strings depth).stringsAt line = strings := by
  rw [stringsAt, blockOf?_put h]
  cases block <;> rfl

theorem depthAt_put {state : ScanState} {block : Option OpenBlock} {strings : StringState}
    {depth : Nat} {line : Line} (h : Holds block [line]) :
    (state.put block strings depth).depthAt line = depth := by
  rw [depthAt, blockOf?_put h]
  cases block <;> rfl

theorem put_put {state : ScanState} {block : Option OpenBlock} {strings strings' : StringState}
    {depth depth' : Nat} :
    (state.put block strings depth).put (block.map (fun b => ⟨b.indent, strings, depth⟩)) strings'
      depth' = state.put block strings' depth' := by
  cases block <;> rfl

theorem put_inj {state : ScanState} {block : Option OpenBlock} {strings : StringState}
    {depth depth' : Nat} :
    state.put block strings depth = state.put block strings depth' ↔ depth = depth' := by
  cases block with
  | none => simp [put]
  | some b => simp [put]

theorem next_put {state : ScanState} {block : Option OpenBlock} {quote : TripleQuote}
    {depth : Nat} {line : Line} (h : Holds block [line]) :
    (state.put block (some quote) depth).next line =
      state.put block (StringState.next (some quote) line) depth := by
  rw [next_of_inside (stringsAt_put h), blockOf?_put h, depthAt_put h, put_put]

/-- Lines without the delimiter change nothing. -/
theorem after_put {state : ScanState} {block : Option OpenBlock} {quote : TripleQuote}
    {depth : Nat} {lines : List Line} (h : Holds block lines)
    (hopen : ∀ line ∈ lines, occursIn quote.text line = false) :
    (state.put block (some quote) depth).after lines = state.put block (some quote) depth := by
  induction lines with
  | nil => rfl
  | cons line lines ih =>
      obtain ⟨hline, hothers⟩ := List.forall_mem_cons.1 hopen
      have hfirst : Holds block [line] := fun b hb first hfirst =>
        h b hb first (by rw [List.mem_singleton.1 hfirst]; exact List.mem_cons_self)
      show ((state.put block (some quote) depth).next line).after lines = _
      rw [next_put hfirst, StringState.next, hline]
      exact ih (fun b hb line hline => h b hb line (List.mem_cons_of_mem _ hline)) hothers

end ScanState

/-! ## A string over several lines -/

/-- A triple quoted string over several lines, with what stands on them. -/
structure LongString where
  quote : TripleQuote
  /-- What is in front of it on its first line. -/
  front : Line
  /-- What it holds on its first line. -/
  head : List Piece
  middle : List Line
  /-- What it holds on its last line. -/
  tail : Line
  /-- What is behind it on its last line. -/
  back : Line

namespace LongString

variable (s : LongString)

def opening : Line := s.front ++ (s.quote.text ++ bodyText s.head)

def closing : Line := s.tail ++ (s.quote.text ++ s.back)

def lines : List Line := s.opening :: (s.middle ++ [s.closing])

/-- The string written on one line, with a text in it. -/
def joined (body : List Piece) : Line :=
  s.front ++ (s.quote.text ++ (bodyText body ++ (s.quote.text ++ s.back)))

def frontBrackets : Int := bracketDelta (maskLine .hash s.front)

def backBrackets : Int := bracketDelta (maskLine .hash s.back)

/-- The brackets behind the string change nothing: they are even, or none is open on either side. -/
def Settles (depth : Nat) : Prop :=
  s.backBrackets = 0 ∨
    depth + s.frontBrackets ≤ 0 ∧ depth + s.frontBrackets + s.backBrackets ≤ 0

/-- The front of the first line ends in code. -/
def BeginsInCode : Prop := ∃ prev, (run .hash (.code none) s.front).2 = .code prev

variable {s}

theorem run_text_code (quote : TripleQuote) (prev : Option Char) :
    run .hash (.code prev) quote.text = (quote.text, .string quote.mark false) := by
  cases quote <;> rfl

theorem run_text_string (quote : TripleQuote) :
    run .hash (.string quote.mark false) quote.text = (quote.text, .code (some quote.mark)) := by
  cases quote <;> rfl

theorem bracketDelta_text (quote : TripleQuote) : bracketDelta quote.text = 0 := by
  cases quote <;> rfl

theorem bracketDelta_spaces (n : Nat) : bracketDelta (List.replicate n ' ') = 0 :=
  bracketDelta_of_blank (fun c hc => by rw [List.eq_of_mem_replicate hc]; rfl)

theorem run_front (hcode : s.BeginsInCode) {body : List Piece}
    (hbody : ∀ p ∈ body, p.Free [s.quote.mark]) :
    ∃ shown, run .hash (.code none) (s.front ++ (s.quote.text ++ bodyText body)) =
        (shown, .string s.quote.mark false) ∧ bracketDelta shown = s.frontBrackets := by
  have hnone : Mode.OnLine (.code none) := trivial
  obtain ⟨prev, hprev⟩ := hcode
  have hmode : Mode.OnLine (.code prev) := trivial
  refine ⟨maskLine .hash s.front ++
    (s.quote.text ++ List.replicate (bodyText body).length ' '), ?_, ?_⟩
  · rw [run_append hnone, hprev, run_append hmode, run_text_code, run_bodyText hbody]
    rfl
  · rw [bracketDelta_append, bracketDelta_append, bracketDelta_text, bracketDelta_spaces]
    simp only [Int.add_zero]
    rfl

theorem bracketDelta_opening (hcode : s.BeginsInCode)
    (hhead : ∀ p ∈ s.head, p.Free [s.quote.mark]) :
    bracketDelta (maskLine .hash s.opening) = s.frontBrackets := by
  obtain ⟨shown, hrun, hshown⟩ := run_front hcode hhead
  show bracketDelta (run .hash (.code none) s.opening).1 = _
  rw [opening, hrun, hshown]

theorem bracketDelta_joined (hcode : s.BeginsInCode) {body : List Piece}
    (hbody : ∀ p ∈ body, p.Free [s.quote.mark]) :
    bracketDelta (maskLine .hash (s.joined body)) = s.frontBrackets + s.backBrackets := by
  obtain ⟨shown, hrun, hshown⟩ := run_front hcode hbody
  have hnone : Mode.OnLine (.code none) := trivial
  have hstring : Mode.OnLine (.string s.quote.mark false) := trivial
  have hjoined : s.joined body =
      (s.front ++ (s.quote.text ++ bodyText body)) ++ (s.quote.text ++ s.back) := by
    simp [joined]
  show bracketDelta (run .hash (.code none) (s.joined body)).1 = _
  rw [hjoined, run_append hnone, hrun, run_append hstring, run_text_string,
    run_code_eq (some s.quote.mark) none, bracketDelta_append, bracketDelta_append, hshown,
    bracketDelta_text, Int.zero_add]
  rfl

/-! ### Indentation -/

theorem takeWhile_append_of_nil {p : Char → Bool} {back back' : Line}
    (h : back.takeWhile p = []) (h' : back'.takeWhile p = []) (front : Line) :
    (front ++ back).takeWhile p = (front ++ back').takeWhile p := by
  rw [List.takeWhile_append, List.takeWhile_append, h, h']

theorem inBlock_front (quote : TripleQuote) (indent : Nat) (front rest rest' : Line) :
    inBlock indent (front ++ (quote.text ++ rest)) =
      inBlock indent (front ++ (quote.text ++ rest')) := by
  have hcontent : ∀ rest, isBlankText (front ++ (quote.text ++ rest)) = false := by
    intro rest
    cases quote <;> simp [isBlankText, TripleQuote.text, isBlank]
  have hmark : ∀ rest, (quote.text ++ rest).takeWhile isBlank = [] := by
    intro rest
    cases quote <;> rfl
  rw [inBlock, inBlock, hcontent, hcontent, indentWidth, indentWidth,
    takeWhile_append_of_nil (hmark rest) (hmark rest')]

/-! ### Reading the string -/

/-- The scan reads the string as one, from some state: over its lines and on one line with a text
in it. -/
structure ReadFrom (s : LongString) (state : ScanState) (body : List Piece) : Prop where
  outside : state.stringsAt s.opening = none
  code : s.BeginsInCode
  head_free : ∀ p ∈ s.head, p.Free [s.quote.mark]
  body_free : ∀ p ∈ body, p.Free [s.quote.mark]
  opening_statement : IsStatement s.opening
  joined_statement : IsStatement (s.joined body)
  opens : openedBy s.opening = some s.quote
  closes : openedBy (s.joined body) = none
  middle_open : ∀ line ∈ s.middle, occursIn s.quote.text line = false
  stays : ScanState.Holds (state.blockOf? s.opening) (s.middle ++ [s.closing])

variable {state : ScanState} {body : List Piece}

theorem blockOf?_joined (s : LongString) (state : ScanState) (body : List Piece) :
    state.blockOf? (s.joined body) = state.blockOf? s.opening := by
  have hsame : ∀ b : OpenBlock, inBlock b.indent (s.joined body) = inBlock b.indent s.opening :=
    fun b => inBlock_front s.quote b.indent s.front _ _
  simp only [ScanState.blockOf?, hsame]

theorem occursIn_closing (s : LongString) : occursIn s.quote.text s.closing = true := by
  unfold closing
  induction s.tail with
  | nil => cases s.quote <;> rfl
  | cons c tail ih => rw [List.cons_append, occursIn, ih, Bool.or_true]

theorem ReadFrom.after_lines (h : s.ReadFrom state body) :
    state.after s.lines =
      state.put (state.blockOf? s.opening) none
        (state.depthAt s.opening + s.frontBrackets).toNat := by
  show (state.next s.opening).after (s.middle ++ [s.closing]) = _
  have hmiddle : ScanState.Holds (state.blockOf? s.opening) s.middle := fun b hb line hline =>
    h.stays b hb line (List.mem_append_left _ hline)
  have hclosing : ScanState.Holds (state.blockOf? s.opening) [s.closing] := fun b hb line hline =>
    h.stays b hb line (List.mem_append_right _ hline)
  -- the first line opens the string, the lines between keep it open, and the last one ends it
  rw [ScanState.next_of_isStatement h.opening_statement h.outside, h.opens, ScanState.after_append,
    ScanState.after_put hmiddle h.middle_open]
  show ScanState.next _ s.closing = _
  rw [ScanState.next_put hclosing, StringState.next, occursIn_closing, depthAfter,
    bracketDelta_opening h.code h.head_free]
  rfl

theorem ReadFrom.after_joined (h : s.ReadFrom state body) :
    state.after [s.joined body] =
      state.put (state.blockOf? s.opening) none
        (state.depthAt s.opening + (s.frontBrackets + s.backBrackets)).toNat := by
  have houtside : state.stringsAt (s.joined body) = none := by
    rw [ScanState.stringsAt, blockOf?_joined]
    exact h.outside
  have hdepth : state.depthAt (s.joined body) = state.depthAt s.opening := by
    rw [ScanState.depthAt, ScanState.depthAt, blockOf?_joined]
  show state.next (s.joined body) = _
  rw [ScanState.next_of_isStatement h.joined_statement houtside, h.closes, blockOf?_joined, hdepth,
    depthAfter, bracketDelta_joined h.code h.body_free]

theorem ReadFrom.after_eq_iff (h : s.ReadFrom state body) :
    state.after s.lines = state.after [s.joined body] ↔ s.Settles (state.depthAt s.opening) := by
  rw [h.after_lines, h.after_joined, ScanState.put_inj, Settles]
  omega

end LongString

/-! ## Assignments behind the string -/

def ScanState.IsOpen (state : ScanState) (text : Line) : Prop :=
  state.stringsAt text = none ∧ state.depthAt text = 0

theorem PlainAssignment.mem_declaredVars_role (a : PlainAssignment) {state : ScanState}
    (h : state.IsOpen a.text) : String.ofList a.name ∈ (state.role a.text).declaredVars := by
  obtain ⟨hstrings, hdepth⟩ := h
  have hmodule : moduleDepth (state.depthAt a.text) a.text = state.depthAt a.text := by
    rw [hdepth, moduleDepth, ite_self]
  rw [ScanState.role_of_outside hstrings a.hasContent_text hmodule, hdepth]
  exact a.mem_declaredVars_roleAt

/-- An assignment that the scan is open for is declared, and then it is not reported as read before
it was written. -/
theorem PlainAssignment.declared (a : PlainAssignment) {front : List Line} (below : List Line)
    (h : (stateBehind front).IsOpen a.text) :
    String.ofList a.name ∈ (analyzeLines (front ++ a.text :: below)).declaredVars ∧
      String.ofList a.name ∉ (analyzeLines (front ++ a.text :: below)).uninitializedVars := by
  have hmem : String.ofList a.name ∈ (analyzeLines (front ++ a.text :: below)).declaredVars := by
    rw [mem_declaredVars_iff]
    refine ⟨(stateBehind front).role a.text, ?_, a.mem_declaredVars_role h⟩
    rw [ScanState.roles_append]
    exact List.mem_append_right _ List.mem_cons_self
  exact ⟨hmem, not_mem_uninitializedVars hmem⟩

theorem PlainAssignment.keyword (a : PlainAssignment) {depth : Nat} (h : depth ≠ 0) :
    ⟨String.ofList a.name, a.indent.length, .keyword⟩ ∈
      assignments (maskLine .hash a.text) depth := by
  obtain ⟨b, hmask, hname, hindent⟩ := a.maskLine_text
  have htarget := b.mem_assignments depth
  rw [PlainAssignment.target, if_neg h, hname, hindent] at htarget
  rw [hmask]
  exact htarget

/-- **Depth behind a string over several lines.**  The line behind it is read at the depth behind
its first line; on one line, what is behind the string counts, too.  The scan goes on alike if and
only if what is behind changes nothing.  Then every assignment behind that the one-line form leaves
the scan open for is declared.  But if only what is behind closes the brackets, an assignment on the
next line is taken for a keyword argument. -/
theorem depth_behind_string_iff {before : List Line} {s : LongString} {body : List Piece}
    {depth : Nat} (hdepth : (stateBehind before).depthAt s.opening = depth)
    (h : s.ReadFrom (stateBehind before) body) :
    (∀ line, ScanState.Holds ((stateBehind before).blockOf? s.opening) [line] →
      (stateBehind (before ++ s.lines)).depthAt line = (depth + s.frontBrackets).toNat ∧
      (stateBehind (before ++ [s.joined body])).depthAt line =
        (depth + (s.frontBrackets + s.backBrackets)).toNat) ∧
    (stateBehind (before ++ s.lines) = stateBehind (before ++ [s.joined body]) ↔
      s.Settles depth) ∧
    (s.Settles depth → ∀ (more : List Line) (a : PlainAssignment) (below : List Line),
      (stateBehind (before ++ [s.joined body] ++ more)).IsOpen a.text →
        String.ofList a.name ∈
          (analyzeLines (before ++ s.lines ++ more ++ a.text :: below)).declaredVars ∧
        String.ofList a.name ∉
          (analyzeLines (before ++ s.lines ++ more ++ a.text :: below)).uninitializedVars) ∧
    (¬s.Settles depth → depth + (s.frontBrackets + s.backBrackets) ≤ 0 → ∀ a : PlainAssignment,
      ScanState.Holds ((stateBehind before).blockOf? s.opening) [a.text] →
        ⟨String.ofList a.name, a.indent.length, .keyword⟩ ∈ assignments (maskLine .hash a.text)
          ((stateBehind (before ++ s.lines)).depthAt a.text)) := by
  have hlines := h.after_lines
  have hjoined := h.after_joined
  have hiff := h.after_eq_iff
  rw [hdepth] at hlines hjoined hiff
  rw [← stateBehind_append] at hlines hjoined
  rw [← stateBehind_append, ← stateBehind_append] at hiff
  have hat : ∀ line, ScanState.Holds ((stateBehind before).blockOf? s.opening) [line] →
      (stateBehind (before ++ s.lines)).depthAt line = (depth + s.frontBrackets).toNat := by
    intro line hline
    rw [hlines, ScanState.depthAt_put hline]
  refine ⟨fun line hline => ⟨hat line hline, ?_⟩, hiff, ?_, ?_⟩
  · rw [hjoined, ScanState.depthAt_put hline]
  · intro hsettles more a below hopen
    refine a.declared below ?_
    rw [stateBehind_append, hiff.2 hsettles, ← stateBehind_append]
    exact hopen
  · intro hsettles hclosed a hplace
    rw [hat a.text hplace]
    refine a.keyword ?_
    rw [LongString.Settles] at hsettles
    omega

/-- A call whose first argument is a string over three lines, and whose second is on the next. -/
def openCall : LongString where
  quote := .double
  front := "x = f(".toList
  head := [.plain 'a']
  middle := ["(b".toList]
  tail := "c".toList
  back := ",".toList

def simpleAssignment : PlainAssignment where
  indent := []
  first := 'y'
  others := []
  gap := [' ']
  value := [' ', '1']
  indent_blank := List.forall_mem_nil _
  first_start := by decide
  others_word := List.forall_mem_nil _
  gap_blank := List.forall_mem_singleton.2 rfl
  value_head := by decide
  not_keyword := by decide

theorem readFrom_openCall : openCall.ReadFrom (stateBehind []) [.plain 'a', .plain 'b'] where
  outside := rfl
  code := ⟨_, rfl⟩
  head_free := by decide
  body_free := by decide
  opening_statement := ⟨by decide, by decide, by decide, by decide⟩
  joined_statement := ⟨by decide, by decide, by decide, by decide⟩
  opens := by decide
  closes := by decide
  middle_open := by decide
  stays := fun _ hb => by cases hb

theorem declared_behind_openCall :
    openCall.Settles 0 ∧
      "y" ∈ (analyzeLines (openCall.lines ++ ["1)".toList] ++ simpleAssignment.text :: [])
        ).declaredVars := by
  have hsettles : openCall.Settles 0 := .inl (by decide)
  have hopen : (stateBehind ([openCall.joined [.plain 'a', .plain 'b']] ++
      ["1)".toList])).IsOpen simpleAssignment.text := ⟨by decide, by decide⟩
  obtain ⟨-, -, hdeclared, -⟩ := depth_behind_string_iff rfl readFrom_openCall
  exact ⟨hsettles, (hdeclared hsettles ["1)".toList] simpleAssignment [] hopen).1⟩

def closedCall : LongString where
  quote := .double
  front := "x = f(".toList
  head := []
  middle := ["a".toList]
  tail := []
  back := ")".toList

theorem readFrom_closedCall : closedCall.ReadFrom (stateBehind []) [.plain 'a'] where
  outside := rfl
  code := ⟨_, rfl⟩
  head_free := by decide
  body_free := by decide
  opening_statement := ⟨by decide, by decide, by decide, by decide⟩
  joined_statement := ⟨by decide, by decide, by decide, by decide⟩
  opens := by decide
  closes := by decide
  middle_open := by decide
  stays := fun _ hb => by cases hb

def closedCallInBody : String :=
  "def g():\n    x = f(\"\"\"\n    a\n    \"\"\")\n    y = 1\n    return y"

/-- The bracket stays open, and the assignment behind it is lost. -/
theorem not_declared_behind_closedCall :
    closedCall.ReadFrom (stateBehind []) [.plain 'a'] ∧
      "y" ∈ (analyzeLines [closedCall.joined [.plain 'a'], "y = 1".toList]).declaredVars ∧
      "y" ∉ (analyzeLines (closedCall.lines ++ ["y = 1".toList])).declaredVars ∧
      "y" ∉ (analyze closedCallInBody).declaredVars ∧
      "y" ∈ (analyze closedCallInBody).uninitializedVars := by
  refine ⟨readFrom_closedCall, ?_⟩
  decide

end CodeSurvey.Python
