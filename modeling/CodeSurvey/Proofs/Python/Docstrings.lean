/-
# Docstring remarks

A docstring is wanted below every header of a function and below every class at module level.  The
first line of the block with content has to begin a triple quoted string, behind at most two prefix
letters, and the string has to be closed on that line or on a later line of the block
(`Heading.Passes`).  There is one remark for each header that fails, in the order of the source, and
the lines of the remarks never go back (`docstring_remarks_complete`): a class shares lines with its
methods, but none of them stands above the line that the class is blamed for.
-/
import CodeSurvey.Proofs.FirstSeen
import CodeSurvey.Proofs.Python.BlockChanges
import CodeSurvey.Proofs.Python.Contentless
import CodeSurvey.Proofs.Python.Counting
import CodeSurvey.Proofs.Python.Located
import CodeSurvey.Proofs.Python.Numbering
import CodeSurvey.Proofs.Text.Pieces

namespace CodeSurvey.Python

open Text

/-! ## Headers and their docstrings -/

/-- A header that wants a docstring, with its block. -/
structure Heading where
  kind : String
  name : String
  number : Nat
  block : List Line

def Step.heading? : Step → Option Heading
  | .function f => some ⟨"Function", f.name, f.number, f.block⟩
  | .line item =>
    match item.role with
    | .code (some name) _ =>
      some ⟨"Class", name, item.number, blockUnder item.text item.below⟩
    | _ => none

/-- The headers of a source that want a docstring. -/
def headingsIn (lines : List Line) : List Heading := (outline lines).filterMap Step.heading?

/-- A line begins a string: behind at most two prefix letters stand a triple quote and a text. -/
def BeginsString (line : Line) (quote : TripleQuote) (text : List Char) : Prop :=
  ∃ letters : List Char, letters.length ≤ 2 ∧ (∀ c ∈ letters, isStringPrefix c = true) ∧
    trim line = letters ++ (quote.text ++ text)

/-- The first line of a block with content, the lines above it and those below. -/
structure ContentAt (block front : List Line) (line : Line) (rest : List Line) : Prop where
  block_eq : block = front ++ line :: rest
  contentless : ∀ other ∈ front, hasContent other = false
  has_content : hasContent line = true

namespace Heading

/-- The block begins with a docstring that is closed. -/
def Passes (h : Heading) : Prop :=
  ∃ front line rest quote text, ContentAt h.block front line rest ∧
    BeginsString line quote text ∧
    (quote.text <:+: text ∨ ∃ later ∈ rest, quote.text <:+: later)

def message (h : Heading) (fault : String) : String := h.kind ++ " '" ++ h.name ++ "' has " ++ fault

/-- What the remark on a header says: on the header if the block has no content, else on the first
line with content; the docstring is unterminated if one begins there. -/
structure Reports (h : Heading) (i : LineIssue) : Prop where
  on_header : (∀ line ∈ h.block, hasContent line = false) →
    i = ⟨h.number, h.message "no docstring."⟩
  on_content : ∀ front line rest, ContentAt h.block front line rest →
    i.line = h.number + 1 + front.length ∧
      (i.message = h.message "no docstring." ∨
        i.message = h.message "an unterminated docstring.") ∧
      (i.message = h.message "an unterminated docstring." ↔
        ∃ quote text, BeginsString line quote text)

def issue? (h : Heading) : Option LineIssue := docstringIssue? h.kind h.name h.number h.block

end Heading

theorem Step.docstringIssue?_eq (step : Step) :
    step.docstringIssue? = step.heading?.bind Heading.issue? := by
  cases step with
  | function f => rfl
  | line item =>
      obtain ⟨number, text, role, below⟩ := item
      rcases role with _ | _ | _ | _ | ⟨_ | name, scan⟩ <;> rfl

theorem docstringIssues_eq_filterMap (lines : List Line) :
    (analyzeLines lines).docstringIssues = (headingsIn lines).filterMap Heading.issue? := by
  have hissue : Step.docstringIssue? = fun step => step.heading?.bind Heading.issue? :=
    funext Step.docstringIssue?_eq
  rw [headingsIn, List.filterMap_filterMap, ← hissue]
  rfl

/-! ## The first line with content -/

section Content

variable {block front rest : List Line} {line : Line}

theorem contentless_or_contentAt (block : List Line) :
    (∀ line ∈ block, hasContent line = false) ∨
      ∃ front line rest, ContentAt block front line rest := by
  induction block with
  | nil => exact .inl nofun
  | cons first block ih =>
      cases hfirst : hasContent first with
      | true => exact .inr ⟨[], first, block, rfl, nofun, hfirst⟩
      | false =>
          rcases ih with hnone | ⟨front, line, rest, hblock, hfront, hline⟩
          · exact .inl (List.forall_mem_cons.2 ⟨hfirst, hnone⟩)
          · refine .inr ⟨first :: front, line, rest, congrArg (first :: ·) hblock, ?_, hline⟩
            exact List.forall_mem_cons.2 ⟨hfirst, hfront⟩

theorem ContentAt.firstContent?_eq (h : ContentAt block front line rest) :
    firstContent? block = some (front.length, line) := by
  rw [h.block_eq, firstContent?_append_of_none (firstContent?_eq_none h.contentless),
    firstContent?_cons, h.has_content, if_pos rfl]
  rfl

theorem ContentAt.drop_eq (h : ContentAt block front line rest) :
    block.drop (front.length + 1) = rest := by
  rw [h.block_eq, ← List.drop_drop, List.drop_left, List.drop_one, List.tail_cons]

theorem ContentAt.unique {front' rest' : List Line} {line' : Line}
    (h : ContentAt block front line rest) (h' : ContentAt block front' line' rest') :
    front.length = front'.length ∧ line = line' ∧ rest = rest' := by
  have hfirst := h.firstContent?_eq.symm.trans h'.firstContent?_eq
  obtain ⟨hlength, hline⟩ := Prod.mk.inj (Option.some.inj hfirst)
  exact ⟨hlength, hline, by rw [← h.drop_eq, ← h'.drop_eq, hlength]⟩

theorem ContentAt.not_contentless (h : ContentAt block front line rest) :
    ¬∀ line ∈ block, hasContent line = false := by
  intro hnone
  have hmem : line ∈ block := by
    rw [h.block_eq]
    exact List.mem_append_right front List.mem_cons_self
  exact absurd (h.has_content.symm.trans (hnone line hmem)) nofun

end Content

/-! ## Strings at the beginning of a line -/

section Strings

variable {line : Line} {quote : TripleQuote} {text content : List Char}

theorem dropWhile_isStringPrefix (quote : TripleQuote) (text : List Char) :
    (quote.text ++ text).dropWhile isStringPrefix = quote.text ++ text := by
  cases quote <;> rfl

theorem dropStringPrefix_letters {letters : List Char} (hlength : letters.length ≤ 2)
    (hletters : ∀ c ∈ letters, isStringPrefix c = true) :
    dropStringPrefix (letters ++ (quote.text ++ text)) = quote.text ++ text := by
  have hstripped : (letters ++ (quote.text ++ text)).dropWhile isStringPrefix =
      quote.text ++ text := by
    rw [List.dropWhile_append_of_pos hletters, dropWhile_isStringPrefix]
  have hshort : (letters ++ (quote.text ++ text)).length ≤ (quote.text ++ text).length + 2 := by
    rw [List.length_append, Nat.add_comm]
    exact Nat.add_le_add_left hlength _
  have hquote : (quote.text ++ text).head?.any (fun c => c == '"' || c == '\'') = true := by
    cases quote <;> rfl
  rw [dropStringPrefix, hstripped, hquote, decide_eq_true hshort]
  rfl

theorem exists_letters_of_dropStringPrefix (content : List Char) :
    ∃ letters : List Char, letters.length ≤ 2 ∧ (∀ c ∈ letters, isStringPrefix c = true) ∧
      content = letters ++ dropStringPrefix content := by
  unfold dropStringPrefix
  dsimp only
  split
  · rename_i hdropped
    have hshort := of_decide_eq_true (Bool.and_eq_true_iff.1 hdropped).1
    have hlength := congrArg List.length
      (List.takeWhile_append_dropWhile (p := isStringPrefix) (l := content))
    rw [List.length_append] at hlength
    exact ⟨content.takeWhile isStringPrefix, by omega,
      fun c hc => List.mem_takeWhile_imp hc, List.takeWhile_append_dropWhile.symm⟩
  · exact ⟨[], Nat.zero_le 2, nofun, rfl⟩

theorem leadingQuote?_delimiter (quote : TripleQuote) (text : List Char) :
    leadingQuote? (quote.text ++ text) = some quote := by
  cases quote <;> rfl

theorem exists_text_of_leadingQuote? (h : leadingQuote? content = some quote) :
    ∃ text, content = quote.text ++ text := by
  rw [leadingQuote?] at h
  have hprefix := List.find?_some h
  obtain ⟨text, htext⟩ := List.isPrefixOf_iff_prefix.1 hprefix
  exact ⟨text, htext.symm⟩

theorem beginsString_iff :
    BeginsString line quote text ↔ dropStringPrefix (trim line) = quote.text ++ text := by
  constructor
  · rintro ⟨letters, hlength, hletters, hline⟩
    rw [hline, dropStringPrefix_letters hlength hletters]
  · intro h
    obtain ⟨letters, hlength, hletters, hline⟩ := exists_letters_of_dropStringPrefix (trim line)
    exact ⟨letters, hlength, hletters, by rw [← h]; exact hline⟩

theorem BeginsString.unique {quote' : TripleQuote} {text' : List Char}
    (h : BeginsString line quote text) (h' : BeginsString line quote' text') :
    quote = quote' ∧ text = text' := by
  have hsame := (beginsString_iff.1 h).symm.trans (beginsString_iff.1 h')
  have hquote := congrArg leadingQuote? hsame
  rw [leadingQuote?_delimiter, leadingQuote?_delimiter] at hquote
  obtain rfl := Option.some.inj hquote
  exact ⟨rfl, List.append_cancel_left hsame⟩

/-- A docstring is closed on its line exactly if its delimiter stands in the text behind it. -/
theorem two_le_occurrences_iff :
    2 ≤ occurrences quote.text (quote.text ++ text) ↔ quote.text <:+: text := by
  have hdelimiter : quote.text ≠ [] := by cases quote <;> exact List.cons_ne_nil _ _
  rw [Lexer.occurrences_delimiter, if_pos rfl, ← occurrences_pos_iff hdelimiter]
  omega

/-! ## What is wrong with a docstring -/

theorem docstringFault?_of_not_begins (h : ∀ quote text, ¬BeginsString line quote text)
    (rest : List Line) : docstringFault? line rest = some "no docstring." := by
  have hnone : leadingQuote? (dropStringPrefix (trim line)) = none := by
    rw [Option.eq_none_iff_forall_ne_some]
    intro quote hquote
    obtain ⟨text, htext⟩ := exists_text_of_leadingQuote? hquote
    exact h quote text (beginsString_iff.2 htext)
  rw [docstringFault?, hnone]

theorem docstringFault?_of_begins (h : BeginsString line quote text) (rest : List Line)
    [Decidable (quote.text <:+: text ∨ ∃ later ∈ rest, quote.text <:+: later)] :
    docstringFault? line rest =
      if quote.text <:+: text ∨ ∃ later ∈ rest, quote.text <:+: later then none
      else some "an unterminated docstring." := by
  have hlater : rest.any (occursIn quote.text) = true ↔ ∃ later ∈ rest, quote.text <:+: later := by
    rw [List.any_eq_true]
    exact exists_congr (fun later => and_congr Iff.rfl occursIn_iff_isInfix)
  rw [docstringFault?, beginsString_iff.1 h, leadingQuote?_delimiter]
  dsimp only
  refine if_congr ?_ rfl rfl
  rw [Bool.or_eq_true, decide_eq_true_eq, two_le_occurrences_iff, hlater]

end Strings

/-! ## What a header gets -/

namespace Heading

variable {h : Heading} {front rest : List Line} {line : Line} {quote : TripleQuote}
  {text : List Char} {i : LineIssue}

theorem passes_iff (hcontent : ContentAt h.block front line rest)
    (hbegins : BeginsString line quote text) :
    h.Passes ↔ quote.text <:+: text ∨ ∃ later ∈ rest, quote.text <:+: later := by
  constructor
  · rintro ⟨front', line', rest', quote', text', hcontent', hbegins', hclosed⟩
    obtain ⟨-, rfl, rfl⟩ := hcontent.unique hcontent'
    obtain ⟨rfl, rfl⟩ := hbegins.unique hbegins'
    exact hclosed
  · exact fun hclosed => ⟨front, line, rest, quote, text, hcontent, hbegins, hclosed⟩

theorem not_passes_of_not_begins (hcontent : ContentAt h.block front line rest)
    (hbegins : ¬∃ quote text, BeginsString line quote text) : ¬h.Passes := by
  rintro ⟨front', line', rest', quote, text, hcontent', hstring, -⟩
  obtain ⟨-, rfl, -⟩ := hcontent.unique hcontent'
  exact hbegins ⟨quote, text, hstring⟩

theorem issue?_of_contentAt (hcontent : ContentAt h.block front line rest) :
    h.issue? = (docstringFault? line rest).map
      (fun fault => ⟨h.number + 1 + front.length, h.message fault⟩) := by
  rw [issue?, docstringIssue?_of_some hcontent.firstContent?_eq, hcontent.drop_eq]
  rfl

theorem message_ne (h : Heading) :
    h.message "no docstring." ≠ h.message "an unterminated docstring." := by
  intro heq
  have htexts := congrArg String.toList heq
  simp only [message, String.toList_append, List.append_cancel_left_eq] at htexts
  exact absurd htexts (by decide)

theorem issue?_spec (h : Heading) :
    (h.issue? = none ∧ h.Passes) ∨ ∃ i, h.issue? = some i ∧ ¬h.Passes ∧ h.Reports i := by
  classical
  rcases contentless_or_contentAt h.block with hnone | ⟨front, line, rest, hcontent⟩
  · refine .inr ⟨_, docstringIssue?_of_none (firstContent?_eq_none hnone) _ _ _, ?_, ?_, ?_⟩
    · rintro ⟨_, _, _, _, _, hcontent, -⟩
      exact hcontent.not_contentless hnone
    · exact fun _ => rfl
    · exact fun _ _ _ hcontent => absurd hnone hcontent.not_contentless
  · -- the remark is on the first line with content, so it is told by that line
    have hreports : ∀ fault, (fault = "no docstring." ∨ fault = "an unterminated docstring.") →
        (fault = "an unterminated docstring." ↔ ∃ quote text, BeginsString line quote text) →
        h.Reports ⟨h.number + 1 + front.length, h.message fault⟩ := by
      intro fault hfault hstring
      refine ⟨fun hnone => absurd hnone hcontent.not_contentless, ?_⟩
      intro front' line' rest' hcontent'
      obtain ⟨hlength, rfl, -⟩ := hcontent.unique hcontent'
      refine ⟨by rw [hlength], hfault.imp (congrArg h.message) (congrArg h.message), ?_⟩
      rw [← hstring]
      constructor
      · rcases hfault with rfl | rfl
        · exact fun heq => absurd heq h.message_ne
        · exact fun _ => rfl
      · exact congrArg h.message
    rw [issue?_of_contentAt hcontent]
    by_cases hbegins : ∃ quote text, BeginsString line quote text
    · obtain ⟨quote, text, hstring⟩ := hbegins
      rw [docstringFault?_of_begins hstring, passes_iff hcontent hstring]
      split
      · rename_i hclosed
        exact .inl ⟨rfl, hclosed⟩
      · rename_i hopen
        refine .inr ⟨_, rfl, hopen, hreports _ (.inr rfl) ?_⟩
        exact iff_of_true rfl ⟨quote, text, hstring⟩
    · rw [docstringFault?_of_not_begins (fun quote text hstring => hbegins ⟨quote, text, hstring⟩)]
      refine .inr ⟨_, rfl, not_passes_of_not_begins hcontent hbegins, hreports _ (.inl rfl) ?_⟩
      exact iff_of_false (by decide) hbegins

theorem issue?_eq_none_iff : h.issue? = none ↔ h.Passes := by
  rcases h.issue?_spec with ⟨hnone, hpasses⟩ | ⟨i, hissue, hfails, -⟩
  · exact iff_of_true hnone hpasses
  · exact iff_of_false (by rw [hissue]; exact Option.some_ne_none i) hfails

instance : DecidablePred Heading.Passes := fun h =>
  decidable_of_iff (h.issue? = none) issue?_eq_none_iff

theorem reports_of_issue? (hissue : h.issue? = some i) : h.Reports i := by
  rcases h.issue?_spec with ⟨hnone, -⟩ | ⟨i', hissue', -, hreports⟩
  · rw [hnone] at hissue
    cases hissue
  · rw [hissue'] at hissue
    exact Option.some.inj hissue ▸ hreports

/-- One remark for each header that fails, and none for the others. -/
theorem forall₂_reports (headings : List Heading) :
    List.Forall₂ Reports (headings.filter (fun h => ¬h.Passes))
      (headings.filterMap issue?) := by
  have hfails : headings.filter (fun h => ¬h.Passes) =
      headings.filter (fun h => h.issue?.isSome) := by
    refine List.filter_congr (fun h _ => ?_)
    rw [Bool.eq_iff_iff, decide_eq_true_eq, Option.isSome_iff_ne_none]
    exact not_congr issue?_eq_none_iff.symm
  rw [hfails]
  exact (forall₂_filterMap issue? headings).imp (fun _ _ hissue => reports_of_issue? hissue)

theorem Reports.le_line (hreports : h.Reports i) : h.number ≤ i.line := by
  rcases contentless_or_contentAt h.block with hnone | ⟨front, line, rest, hcontent⟩
  · rw [hreports.on_header hnone]
  · rw [(hreports.on_content front line rest hcontent).1, Nat.add_assoc]
    exact Nat.le_add_right _ _

end Heading

/-! ## Headers in their places -/

/-- A header stands in its place, and its block is that of the lines below. -/
def Heading.Placed (lines : List Line) (h : Heading) : Prop :=
  ∃ header below, LinesFrom lines h.number (header :: below) ∧ hasContent header = true ∧
    h.block = blockUnder header below

theorem hasContent_of_roleAt {depth : Nat} {text : Line}
    (h : roleAt depth text ≠ .code none .nothing) : hasContent text = true := by
  by_contra hcontent
  exact h (roleAt_of_contentless (Bool.eq_false_iff.2 hcontent) depth)

theorem placed_heading_functionAt {lines : List Line} {depth number : Nat} {text : Line}
    {name : String} {parameters : List String} {below : List Line}
    (hrole : roleAt depth text = .definition name parameters)
    (hbelow : LinesFrom lines number (text :: below)) :
    ∀ h, (Step.function (functionAt number text name parameters below)).heading? = some h →
      h.Placed lines := by
  intro h hheading
  obtain rfl := Option.some.inj hheading
  refine ⟨text, below, hbelow, hasContent_of_roleAt (by rw [hrole]; exact nofun), ?_⟩
  rw [Function.block, functionAt, bodyItems_text, take_blockSize]

theorem placed_heading_line {lines : List Line} {depth number : Nat} {text : Line}
    {below : List Line} (hbelow : LinesFrom lines number (text :: below)) :
    ∀ h, (Step.line ⟨number, text, roleAt depth text, below⟩).heading? = some h →
      h.Placed lines := by
  intro h hheading
  rw [Step.heading?] at hheading
  dsimp only at hheading
  split at hheading
  · rename_i name scan hrole
    obtain rfl := Option.some.inj hheading
    exact ⟨text, below, hbelow, hasContent_of_roleAt (by rw [hrole]; exact nofun), rfl⟩
  · cases hheading

theorem Outlined.placed_headings {lines : List Line} {strings : StringState}
    {depth number : Nat} {below : List Line} {steps : List Step}
    (h : Outlined strings depth number below steps) (hbelow : LinesFrom lines number below) :
    ∀ step ∈ steps, ∀ heading, step.heading? = some heading → heading.Placed lines := by
  induction h with
  | done => exact fun _ h => absurd h List.not_mem_nil
  | quoted _ ih => exact List.forall_mem_cons.2 ⟨nofun, ih hbelow.next⟩
  | line _ _ ih => exact List.forall_mem_cons.2 ⟨placed_heading_line hbelow, ih hbelow.next⟩
  | function hrole _ ih =>
      exact List.forall_mem_cons.2
        ⟨placed_heading_functionAt hrole hbelow, ih (hbelow.next.drop _)⟩

theorem placed_of_mem_headingsIn {lines : List Line} {h : Heading} (hh : h ∈ headingsIn lines) :
    h.Placed lines := by
  obtain ⟨step, hstep, hheading⟩ := List.mem_filterMap.1 hh
  exact (outlined_outline lines).placed_headings (LinesFrom.first lines) step hstep h hheading

theorem Step.number_mem_numbers {step : Step} {h : Heading} (hheading : step.heading? = some h) :
    h.number ∈ step.numbers := by
  cases step with
  | function f =>
      obtain rfl := Option.some.inj hheading
      exact List.mem_cons_self
  | line item =>
      rw [Step.heading?] at hheading
      split at hheading
      · obtain rfl := Option.some.inj hheading
        exact List.mem_singleton_self item.number
      · cases hheading

theorem pairwise_headingsIn (lines : List Line) :
    (headingsIn lines).Pairwise (fun h h' => h.number < h'.number) :=
  (pairwise_steps lines).filterMap _ (fun _ _ hlt _ hh _ hh' =>
    hlt _ (Step.number_mem_numbers hh) _ (Step.number_mem_numbers hh'))

/-- What a header is blamed for is not below the next header: a header has content. -/
theorem Heading.Reports.line_le {lines : List Line} {h h' : Heading} {i : LineIssue}
    (hreports : h.Reports i) (hh : h.Placed lines) (hh' : h'.Placed lines)
    (hlt : h.number < h'.number) : i.line ≤ h'.number := by
  rcases contentless_or_contentAt h.block with hnone | ⟨front, line, rest, hcontent⟩
  · rw [hreports.on_header hnone]
    exact Nat.le_of_lt hlt
  · rw [(hreports.on_content front line rest hcontent).1]
    by_contra hover
    obtain ⟨header, below, hbelow, -, hblock⟩ := hh
    obtain ⟨header', below', hbelow', hheader', -⟩ := hh'
    -- the next header would be one of the lines without content at the top of the block
    obtain ⟨k, hk⟩ : ∃ k, h'.number = h.number + 1 + k := Nat.exists_eq_add_of_le hlt
    have hshort : k < front.length := by omega
    have hprefix : front <+: below := by
      have hall : h.block <+: below := by
        rw [hblock]
        exact List.takeWhile_prefix _
      rw [hcontent.block_eq] at hall
      exact (List.prefix_append front _).trans hall
    have hfront : below[k]? = some front[k] := by
      obtain ⟨others, rfl⟩ := hprefix
      rw [List.getElem?_append_left hshort, List.getElem?_eq_getElem hshort]
    have hsame : header' = front[k] := by
      have hhere := hbelow.next.lineAt_of_getElem? hfront
      rw [← hk] at hhere
      exact LineAt.unique hbelow'.lineAt hhere
    have hempty := hcontent.contentless front[k] (List.getElem_mem hshort)
    rw [← hsame, hheader'] at hempty
    cases hempty

/-! ## All remarks -/

/-- The docstring remarks of a source: the headers stand in their places and in order, the remarks
are those on the headers that fail, and they never go back. -/
structure DocstringsChecked (lines : List Line) (issues : List LineIssue) : Prop where
  placed : ∀ h ∈ headingsIn lines, h.Placed lines
  ordered : (headingsIn lines).Pairwise (fun h h' => h.number < h'.number)
  complete : List.Forall₂ Heading.Reports ((headingsIn lines).filter (fun h => ¬h.Passes)) issues
  monotone : issues.Pairwise (fun i i' => i.line ≤ i'.line)

theorem pairwise_docstringIssues (lines : List Line) :
    ((headingsIn lines).filterMap Heading.issue?).Pairwise (fun i i' => i.line ≤ i'.line) := by
  refine List.pairwise_filterMap.2 ((pairwise_headingsIn lines).imp_of_mem ?_)
  intro h h' hh hh' hlt i hi i' hi'
  have hreports := Heading.reports_of_issue? hi
  have hreports' := Heading.reports_of_issue? hi'
  calc i.line
      ≤ h'.number :=
        hreports.line_le (placed_of_mem_headingsIn hh) (placed_of_mem_headingsIn hh') hlt
    _ ≤ i'.line := hreports'.le_line

/-- **Docstring remarks are complete.** -/
theorem docstring_remarks_complete (source : String) :
    DocstringsChecked (linesOf source) (analyze source).docstringIssues := by
  rw [analyze, docstringIssues_eq_filterMap]
  exact
    { placed := fun _ hh => placed_of_mem_headingsIn hh
      ordered := pairwise_headingsIn _
      complete := Heading.forall₂_reports _
      monotone := pairwise_docstringIssues _ }

end CodeSurvey.Python
