/-
# HTML findings stand on their lines

The tags on the stack and among the orphans keep the line they were read on (`AllOn`): reading a
line adds tags of that line and changes no other.  A tag name is kept in lower case, so it is its
name in some case that stands on the line.

The invariant is one of the state of the scan and not of a line, as a tag may stay open to the end
of the source, far below the line that it was opened on.  It is kept by opening and by closing a
tag, so by reading a line and by reading all of them; the remaining findings are made line by line
and carry the number of the line that they are read from.
-/
import CodeSurvey.Proofs.Pattern.Spans
import CodeSurvey.Proofs.Text.Pieces
import CodeSurvey.Scan.Html

namespace CodeSurvey

open Text

/-- A tag stands on its line, its name in some case. -/
def TagLocation.Located (lines : List Line) (t : TagLocation) : Prop :=
  ∃ name, lowerAscii name = t.tag.toList ∧ OnLine lines t.line name

/-- Tags and snippets stand on their lines. -/
structure HtmlFindings.Located (lines : List Line) (r : HtmlFindings) : Prop where
  unclosedTags : ∀ t ∈ r.unclosedTags, t.Located lines
  missingCloseTags : ∀ t ∈ r.missingCloseTags, t.Located lines
  incompleteTags : ∀ s ∈ r.incompleteTags, OnLine lines s.line s.snippet.toList
  imgsWithoutAlt : ∀ s ∈ r.imgsWithoutAlt, OnLine lines s.line s.snippet.toList
  linksWithoutHref : ∀ s ∈ r.linksWithoutHref, OnLine lines s.line s.snippet.toList

namespace Html

open Pattern

variable {lines : List Line} {number : Nat} {line : Line}

/-! ## What a line shows -/

theorem located_of_match (hline : LineAt lines number line) {pattern : Pattern} {m : Match}
    (hm : IsMatch pattern line m) : TagLocation.Located lines ⟨nameOf m, number⟩ :=
  ⟨m.groupText 1, String.toList_ofList.symm, hline.onLine (hm.groupText_isInfix 1)⟩

theorem located_of_mem_openedTags (hline : LineAt lines number line) :
    ∀ t ∈ openedTags number line, t.Located lines := by
  intro t ht
  obtain ⟨m, hm, rfl⟩ := List.mem_map.1 ht
  exact located_of_match hline (isMatch_of_mem_findAll (List.mem_filter.1 hm).1)

theorem located_of_mem_closedTags (hline : LineAt lines number line) :
    ∀ t ∈ closedTags number line, t.Located lines := by
  intro t ht
  obtain ⟨m, hm, rfl⟩ := List.mem_map.1 ht
  exact located_of_match hline (isMatch_of_mem_findAll hm)

theorem onLine_of_mem_tagsWithout (hline : LineAt lines number line) {tag required : String} :
    ∀ s ∈ tagsWithout tag required number line, OnLine lines s.line s.snippet.toList := by
  intro s hs
  obtain ⟨m, hm, rfl⟩ := List.mem_map.1 hs
  rw [snippetOf, String.toList_ofList]
  exact hline.onLine (isMatch_of_mem_findAll (List.mem_filter.1 hm).1).text_isInfix

theorem onLine_of_mem_incomplete (hline : LineAt lines number line) :
    ∀ s ∈ incomplete number line, OnLine lines s.line s.snippet.toList := by
  intro s hs
  unfold incomplete at hs
  split at hs
  · rw [List.mem_singleton.1 hs, String.toList_ofList]
    exact hline.onLine (trim_isInfix line)
  · cases hs

/-! ## Open tags and orphans -/

/-- Every tag that is open or an orphan stands on its line. -/
structure TagState.AllOn (lines : List Line) (s : TagState) : Prop where
  stack : ∀ t ∈ s.stack, t.Located lines
  orphans : ∀ t ∈ s.orphans, t.Located lines

namespace TagState.AllOn

variable {s : TagState} {t : TagLocation}

theorem push (h : s.AllOn lines) (ht : t.Located lines) : (s.push t).AllOn lines :=
  ⟨List.forall_mem_cons.2 ⟨ht, h.stack⟩, h.orphans⟩

theorem close (h : s.AllOn lines) (ht : t.Located lines) : (s.close t).AllOn lines := by
  unfold TagState.close
  split
  · exact ⟨fun other hother => h.stack other (List.mem_of_mem_eraseP hother), h.orphans⟩
  · exact ⟨h.stack, List.forall_mem_append.2 ⟨h.orphans, List.forall_mem_singleton.2 ht⟩⟩

theorem readLine (h : s.AllOn lines) (hline : LineAt lines number line) :
    (s.readLine number line).AllOn lines := by
  have hopened : ((openedTags number line).foldl TagState.push s).AllOn lines :=
    List.foldlRecOn _ _ h (fun _ h t ht => h.push (located_of_mem_openedTags hline t ht))
  exact List.foldlRecOn _ _ hopened
    (fun _ h t ht => h.close (located_of_mem_closedTags hline t ht))

theorem readLines (h : s.AllOn lines) {below : List Line} (hbelow : LinesFrom lines number below) :
    (s.readLines number below).AllOn lines := by
  induction below generalizing s number with
  | nil => exact h
  | cons line below ih => exact ih (h.readLine hbelow.lineAt) hbelow.next

end TagState.AllOn

/-! ## All findings -/

/-- **HTML findings stand on their lines.** -/
theorem located_analyzeText (text : List Char) :
    (analyzeText text).Located (splitLines text) := by
  have htags : (TagState.readLines ⟨[], []⟩ 1 (splitLines text)).AllOn (splitLines text) :=
    TagState.AllOn.readLines ⟨fun _ h => absurd h List.not_mem_nil,
      fun _ h => absurd h List.not_mem_nil⟩ (.first _)
  constructor
  case unclosedTags => exact fun t ht => htags.stack t (List.mem_reverse.1 ht)
  case missingCloseTags => exact htags.orphans
  case incompleteTags =>
    intro s hs
    obtain ⟨n, line, hline, hfound⟩ := lineAt_of_mem_eachLine hs
    exact onLine_of_mem_incomplete hline s hfound
  case imgsWithoutAlt =>
    intro s hs
    obtain ⟨n, line, hline, hfound⟩ := lineAt_of_mem_eachLine hs
    exact onLine_of_mem_tagsWithout hline s hfound
  case linksWithoutHref =>
    intro s hs
    obtain ⟨n, line, hline, hfound⟩ := lineAt_of_mem_eachLine hs
    exact onLine_of_mem_tagsWithout hline s hfound

end Html

end CodeSurvey
