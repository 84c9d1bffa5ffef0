/-
# What a printed report consists of

`fileText` writes a report from the top down and styles it on the way.  Here the same report is laid
out as a list of entries, one to a line: the head with the program, the file and the language, the
line that counts the issues, and then section by section the opening with severity, title and id,
the description, the items in their order, the hint, and an empty line.

An entry is a row of spans, and a span is a text with the display codes it is shown in.  Nothing of
this is taken from the printer.  The words, the columns and the codes stand here as they are to
appear, so `fileText_eq_printed` fails to hold as soon as the printer drops an entry, moves one or
writes it in another way.

Only one thing about a span is not plain to see.  A style ends with a reset, and a text may hold
resets of its own, behind which the style would be lost; so each of them is replaced by a reset with
the style behind it (`insertAfterResets_eq_replace`).
-/
import CodeSurvey.Proofs.Text.Endings
import CodeSurvey.Report

namespace CodeSurvey.Report

open Text (styled insertAfterResets resetSequence beginSequence replace)

/-! ## The layout -/

/-- A text and the display codes it is shown in, none for plain text. -/
structure Span where
  codes : String
  text : String

/-- Without colors a span is its text.  With colors the codes are turned on in front of it, off
behind it, and on again behind whatever turns them off in between. -/
def Span.shown (colors : Bool) (s : Span) : String :=
  if colors && s.codes != "" then
    let opening := "\x1b[" ++ s.codes ++ "m"
    let reset := "\x1b[0m"
    opening ++
      String.ofList (replace reset.toList (reset ++ opening).toList s.text.toList) ++ reset
  else s.text

/-- What stands on one line of a report. -/
inductive Entry where
  | blank
  | program
  | file (path : String)
  | language (name : String)
  | issues (count : Nat)
  | opening (severity : Severity) (title id : String)
  | description (text : String)
  | item (text : String)
  | hint (text : String)

def severitySpan : Severity → Span
  | .warning => ⟨"33", "WARN"⟩
  | .info => ⟨"34", "INFO"⟩
  | .success => ⟨"32", "OK  "⟩

def Entry.spans : Entry → List Span
  | blank => []
  | program => [⟨"", "  "⟩, ⟨"1;36", "code-analyzer"⟩, ⟨"", " v0.1.0"⟩]
  | file path => [⟨"", "  "⟩, ⟨"2", "File:     "⟩, ⟨"", path⟩]
  | language name => [⟨"", "  "⟩, ⟨"2", "Language: "⟩, ⟨"", name⟩]
  | issues 0 => [⟨"", "  "⟩, ⟨"32", "✓ No issues"⟩]
  | issues 1 => [⟨"", "  "⟩, ⟨"31", "✗ 1 issue"⟩]
  | issues count => [⟨"", "  "⟩, ⟨"31", "✗ " ++ toString count ++ " issues"⟩]
  | opening severity title id =>
    [⟨"", "    "⟩, severitySpan severity, ⟨"", " "⟩, ⟨"1", title⟩, ⟨"", "  "⟩, ⟨"2", id⟩]
  | description text => [⟨"", "         "⟩, ⟨"2", text⟩]
  | item text => [⟨"", "         - "⟩, ⟨"", text⟩]
  | hint text => [⟨"", "         "⟩, ⟨"2", "hint: " ++ text⟩]

def Entry.shown (colors : Bool) (e : Entry) : String :=
  String.join (e.spans.map (Span.shown colors)) ++ "\n"

def printed (colors : Bool) (entries : List Entry) : String :=
  String.join (entries.map (Entry.shown colors))

end CodeSurvey.Report

namespace CodeSurvey

open Report (Entry)

def Section.entries (s : Section) : List Entry :=
  [.opening s.severity s.title s.id] ++ s.description.toList.map .description ++
    s.items.map .item ++ s.hint.toList.map .hint ++ [.blank]

def FileReport.entries (r : FileReport) : List Entry :=
  [.blank, .program, .blank] ++ r.fileName.toList.map .file ++
    [.language r.language.displayName, .blank, .issues r.summary.issuesCount, .blank] ++
    r.summary.sections.flatMap Section.entries

end CodeSurvey

namespace CodeSurvey.Report

open Text (styled insertAfterResets resetSequence beginSequence replace)

variable {colors : Bool}

/-! ## Spans -/

/-- A style is taken up again behind each reset, and nothing else is changed. -/
theorem insertAfterResets_eq_replace (insertion text : List Char) :
    insertAfterResets insertion 0 text =
      replace resetSequence (resetSequence ++ insertion) text := by
  have hreset : resetSequence = ['\x1b', '[', '0', 'm'] := by decide
  induction hlength : text.length using Nat.strong_induction_on generalizing text with
  | h length ih =>
      cases text with
      | nil => rfl
      | cons c text =>
          by_cases hfound : resetSequence <+: c :: text
          · obtain ⟨rest, htext⟩ := hfound
            have hrest := ih rest.length (by
              rw [← hlength, ← htext, hreset]
              simp only [List.cons_append, List.nil_append, List.length_cons]
              omega) rest rfl
            rw [← htext, hreset, Text.replace_found, ← hreset, ← hrest, hreset]
            simp [insertAfterResets, hreset]
          · have hrest := ih text.length (by simp [← hlength]) text rfl
            have hnot : resetSequence.isPrefixOf (c :: text) = false := by
              rwa [Bool.eq_false_iff, ne_eq, List.isPrefixOf_iff_prefix]
            rw [Text.replace_kept hfound, ← hrest, insertAfterResets]
            simp [hnot]

theorem styled_eq_shown {effects : List Text.Effect} {codes text : String}
    (hcodes : codes ≠ "") (h : beginSequence effects = ("\x1b[" ++ codes ++ "m").toList) :
    styled colors effects text = Span.shown colors ⟨codes, text⟩ := by
  have hreset : resetSequence = "\x1b[0m".toList := by decide
  cases colors with
  | false => rfl
  | true =>
      rw [styled, if_pos rfl, Span.shown, if_pos (by simpa using hcodes), h]
      simp only [insertAfterResets_eq_replace, hreset, String.ofList_append, String.ofList_toList,
        String.toList_append]

@[simp] theorem shown_plain (text : String) : Span.shown colors ⟨"", text⟩ = text := by
  simp [Span.shown]

@[simp] theorem styled_dimmed (text : String) :
    styled colors [.dimmed] text = Span.shown colors ⟨"2", text⟩ :=
  styled_eq_shown (by decide) (by decide)

theorem severityTag_eq (severity : Severity) :
    severityTag colors severity = Span.shown colors (severitySpan severity) := by
  cases severity with
  | info => exact styled_eq_shown (by decide) (by decide)
  | warning => exact styled_eq_shown (by decide) (by decide)
  | success => exact styled_eq_shown (by decide) (by decide)

/-! ## Lines -/

theorem printed_cons (e : Entry) (entries : List Entry) :
    printed colors (e :: entries) = e.shown colors ++ printed colors entries := by
  rw [printed, List.map_cons, String.join_cons]
  rfl

theorem printed_append (entries entries' : List Entry) :
    printed colors (entries ++ entries') = printed colors entries ++ printed colors entries' := by
  rw [printed, List.map_append, String.join_append]
  rfl

@[simp] theorem printed_singleton (e : Entry) : printed colors [e] = e.shown colors := by
  rw [printed_cons]
  exact String.append_empty

theorem printed_flatMap {α : Type} (f : α → List Entry) (xs : List α) :
    printed colors (xs.flatMap f) = String.join (xs.map (fun x => printed colors (f x))) := by
  induction xs with
  | nil => rfl
  | cons x xs ih => rw [List.flatMap_cons, printed_append, ih, List.map_cons, String.join_cons]

theorem heading_eq : heading colors = printed colors [.blank, .program, .blank] := by
  have hname : styled colors [.bold, .cyan] programName =
      Span.shown colors ⟨"1;36", "code-analyzer"⟩ :=
    styled_eq_shown (by decide) (by decide)
  have hversion : " v" ++ version = " v0.1.0" := by decide
  simp only [heading, hname, printed, Entry.shown, Entry.spans, line, shown_plain, List.map_cons,
    List.map_nil, String.join_cons, String.join_nil, String.append_assoc, String.append_empty,
    String.empty_append, ← hversion]

theorem labelled_eq {e : Entry} {label text : String}
    (h : e.spans = [⟨"", "  "⟩, ⟨"2", label⟩, ⟨"", text⟩]) :
    labelled colors label text = printed colors [e] := by
  simp [labelled, line, Entry.shown, h, String.append_assoc]

theorem issueLine_eq (count : Nat) : issueLine colors count = printed colors [.issues count] := by
  -- in each of the three cases the line is a margin and one span
  suffices ∃ codes text, (Entry.issues count).spans = [⟨"", "  "⟩, ⟨codes, text⟩] ∧
      issueLine colors count = line ("  " ++ Span.shown colors ⟨codes, text⟩) by
    obtain ⟨codes, text, hspans, hline⟩ := this
    simp [hline, line, Entry.shown, hspans, String.append_assoc]
  have hred (text : String) : styled colors [.red] text = Span.shown colors ⟨"31", text⟩ :=
    styled_eq_shown (by decide) (by decide)
  match count with
  | 0 =>
      have hgreen : styled colors [.green] "✓ No issues" =
          Span.shown colors ⟨"32", "✓ No issues"⟩ :=
        styled_eq_shown (by decide) (by decide)
      exact ⟨"32", "✓ No issues", rfl, by rw [issueLine, if_pos rfl, hgreen]⟩
  | 1 => exact ⟨"31", "✗ 1 issue", rfl, by rw [← hred]; rfl⟩
  | count + 2 =>
      refine ⟨"31", "✗ " ++ toString (count + 2) ++ " issues", rfl, ?_⟩
      have hplural : " issue" ++ "s" = " issues" := by decide
      rw [issueLine, if_neg (by omega), if_neg (by omega), hred, ← hplural, ← String.append_assoc]

/-! ## Sections and reports -/

theorem detail_description (text : String) :
    detail (styled colors [.dimmed] text) = printed colors [.description text] := by
  simp [detail, line, Entry.shown, Entry.spans, String.append_assoc]

theorem detail_item (colors : Bool) (text : String) :
    detail ("- " ++ text) = Entry.shown colors (.item text) := by
  have hmargin : "         - " = "         " ++ "- " := by decide
  simp only [detail, line, Entry.shown, Entry.spans, shown_plain, List.map_cons, List.map_nil,
    String.join_cons, String.join_nil, String.append_assoc, String.append_empty, hmargin]

theorem sectionText_eq (s : Section) : sectionText colors s = printed colors s.entries := by
  have hopening : line ("    " ++ severityTag colors s.severity ++ " " ++
      styled colors [.bold] s.title ++ "  " ++ styled colors [.dimmed] s.id) =
      printed colors [.opening s.severity s.title s.id] := by
    have hbold : styled colors [.bold] s.title = Span.shown colors ⟨"1", s.title⟩ :=
      styled_eq_shown (by decide) (by decide)
    simp [line, severityTag_eq, hbold, Entry.shown, Entry.spans, String.append_assoc]
  have hdescription :
      (s.description.map (fun text => detail (styled colors [.dimmed] text))).getD "" =
        printed colors (s.description.toList.map .description) := by
    cases s.description with
    | none => rfl
    | some text => exact detail_description text
  have hitems : String.join (s.items.map (fun item => detail ("- " ++ item))) =
      printed colors (s.items.map .item) := by
    simp only [detail_item colors, printed, List.map_map]
    rfl
  have hhint :
      (s.hint.map (fun hint => detail (styled colors [.dimmed] ("hint: " ++ hint)))).getD "" =
        printed colors (s.hint.toList.map .hint) := by
    cases s.hint with
    | none => rfl
    | some hint => exact detail_description ("hint: " ++ hint)
  have hend : line "" = printed colors [.blank] := rfl
  rw [sectionText, hopening, hdescription, hitems, hhint, hend]
  simp only [Section.entries, printed_append]

/-- **What a report consists of**: the head, the number of issues, and the sections in their order,
each with its items in theirs. -/
theorem fileText_eq_printed (r : FileReport) : fileText colors r = printed colors r.entries := by
  have hfile : (r.fileName.map (labelled colors "File:     ")).getD "" =
      printed colors (r.fileName.toList.map .file) := by
    cases r.fileName with
    | none => rfl
    | some path => exact labelled_eq rfl
  have hlanguage : labelled colors "Language: " r.language.displayName =
      printed colors [.language r.language.displayName] := labelled_eq rfl
  have hsections : String.join (r.summary.sections.map (sectionText colors)) =
      printed colors (r.summary.sections.flatMap Section.entries) := by
    rw [printed_flatMap, funext sectionText_eq]
  have hblank : line "" = printed colors [.blank] := rfl
  have hhead :
      [Entry.language r.language.displayName, .blank, .issues r.summary.issuesCount, .blank] =
        [.language r.language.displayName] ++ [.blank] ++ [.issues r.summary.issuesCount] ++
          [.blank] := rfl
  rw [fileText, heading_eq, hfile, hlanguage, issueLine_eq, hsections, hblank, FileReport.entries,
    hhead]
  simp only [printed_append, String.append_assoc]

end CodeSurvey.Report
