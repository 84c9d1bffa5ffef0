/-
# Plain assignments

A line `name = value` writes its name if it begins outside brackets; within brackets the name is
taken for that of a keyword argument, and nothing is written (`mem_assignments`).  The value may
be anything.  Such a line is neither an import nor a header, for those begin with a keyword, so
outside brackets its name is declared (`mem_declaredVars_roleAt`).
-/
import CodeSurvey.Proofs.Masking.Literals
import CodeSurvey.Proofs.Pattern.First
import CodeSurvey.Proofs.Python.Headers
import CodeSurvey.Proofs.Python.Reading
import CodeSurvey.Proofs.Python.Targets
import CodeSurvey.Proofs.Text.Pieces

namespace CodeSurvey.Python

open Text Pattern

/-! ## Lines that begin with a keyword -/

/-- A word and a blank stand at a place. -/
def LedBy (word : String) (place : Place) : Prop :=
  ∃ c rest, place.rest = word.toList ++ c :: rest ∧ isBlank c = true

theorem LedBy.takeWhile_eq {word : String} {place : Place} (h : LedBy word place)
    (hword : word.toList.all isWordChar = true) :
    place.rest.takeWhile isWordChar = word.toList := by
  obtain ⟨c, rest, hrest, hc⟩ := h
  rw [hrest, List.takeWhile_append_of_pos (List.all_eq_true.1 hword), List.takeWhile_cons_of_neg
    (Bool.eq_false_iff.1 (not_isWordChar_of_isBlank hc)), List.append_nil]

theorem LedBy.isKeyword_takeWhile {word : String} {place : Place} (h : LedBy word place)
    (hword : word.toList.all isWordChar = true) (hkeyword : isKeyword word = true) :
    isKeyword (String.ofList (place.rest.takeWhile isWordChar)) = true := by
  rw [h.takeWhile_eq hword, String.ofList_toList, hkeyword]

theorem ledBy_of_mem_runs {word : String} {here mid out : Place × Groups}
    (hword : mid ∈ (literal word).runs here) (hblanks : out ∈ blanks1.runs mid) :
    LedBy word here.1 := by
  obtain ⟨next, hone, -⟩ := mem_runs_append.1 hblanks
  obtain ⟨c, hrest, hc⟩ := rest_of_mem_one hone
  exact ⟨c, next.1.rest, by rw [rest_of_mem_literal hword, hrest], hc⟩

theorem ledBy_fromImportPattern : Requires (LedBy "from") fromImportPattern := by
  unfold fromImportPattern
  iterate 5 refine Requires.append ?_ _
  intro here out hout
  obtain ⟨mid, hmid, hblanks⟩ := mem_runs_append.1 hout
  obtain ⟨first, hfirst, hfrom⟩ := mem_runs_append.1 hmid
  rw [(mem_runs_textStart.1 hfirst).2] at hfrom
  exact ledBy_of_mem_runs hfrom hblanks

theorem ledBy_definitionPattern :
    Requires (fun place => LedBy "async" place ∨ LedBy "def" place) definitionPattern := by
  unfold definitionPattern
  iterate 8 refine Requires.append ?_ _
  intro here out hout
  obtain ⟨mid, hmid, hblanks⟩ := mem_runs_append.1 hout
  obtain ⟨first, hfirst, hdef⟩ := mem_runs_append.1 hmid
  obtain ⟨start, hstart, hasync⟩ := mem_runs_append.1 hfirst
  rw [(mem_runs_textStart.1 hstart).2] at hasync
  rcases mem_runs_optional.1 hasync with hasync | rfl
  · obtain ⟨behind, hword, hgap⟩ := mem_runs_append.1 hasync
    exact .inl (ledBy_of_mem_runs hword hgap)
  · exact .inr (ledBy_of_mem_runs hdef hblanks)

theorem isKeyword_of_definition? {trimmed : List Char} {found : String × List String}
    (h : definition? trimmed = some found) :
    isKeyword (String.ofList (trimmed.takeWhile isWordChar)) = true := by
  obtain ⟨m, hm, -⟩ := Option.map_eq_some_iff.1 h
  rcases anchored_definitionPattern.requires_of_find? ledBy_definitionPattern hm with hled | hled
  · exact hled.isKeyword_takeWhile (by decide) (by decide)
  · exact hled.isKeyword_takeWhile (by decide) (by decide)

theorem isKeyword_of_importedNames? {trimmed : List Char} {names : List String}
    (h : importedNames? trimmed = some names) :
    isKeyword (String.ofList (trimmed.takeWhile isWordChar)) = true := by
  have hled : ∀ word, LedBy word (Place.start (before (· == '#') trimmed)) →
      LedBy word (Place.start trimmed) := by
    rintro word ⟨c, rest, hrest, hc⟩
    obtain ⟨more, hmore⟩ := List.takeWhile_prefix (fun c => !(c == '#')) (l := trimmed)
    refine ⟨c, rest ++ more, ?_, hc⟩
    show trimmed = _
    rw [← hmore, show trimmed.takeWhile (fun c => !(c == '#')) = _ from hrest]
    simp
  rcases import_or_from_of_importedNames? h with ⟨rest, hstrip⟩ | ⟨m, hm⟩
  · have himport : LedBy "import" (Place.start (before (· == '#') trimmed)) :=
      ⟨' ', rest, (eq_append_of_stripPrefix? hstrip).trans rfl, rfl⟩
    exact (hled _ himport).isKeyword_takeWhile (by decide) (by decide)
  · have hfrom := anchored_fromImportPattern.requires_of_find? ledBy_fromImportPattern hm
    exact (hled _ hfrom).isKeyword_takeWhile (by decide) (by decide)

/-! ## Assignments -/

/-- The parts of a line that assigns a value to a name. -/
structure PlainAssignment where
  indent : List Char
  first : Char
  others : List Char
  gap : List Char
  value : List Char
  indent_blank : ∀ c ∈ indent, isBlank c = true
  first_start : isNameStart first = true
  others_word : ∀ c ∈ others, isWordChar c = true
  gap_blank : ∀ c ∈ gap, isBlank c = true
  /-- Two equals signs compare. -/
  value_head : value.head? ≠ some '='
  not_keyword : isKeyword (String.ofList (first :: others)) = false

namespace PlainAssignment

variable (a : PlainAssignment)

def name : List Char := a.first :: a.others

def text : Line := a.indent ++ (a.name ++ (a.gap ++ '=' :: a.value))

theorem name_word : ∀ c ∈ a.name, isWordChar c = true :=
  List.forall_mem_cons.2 ⟨isWordChar_of_isNameStart a.first_start, a.others_word⟩

/-! ### The match -/

/-- What stands behind the name. -/
def behind : List Char := a.gap ++ '=' :: a.value

theorem head?_behind {c : Char} (h : a.behind.head? = some c) : isWordChar c = false := by
  unfold behind at h
  cases hgap : a.gap with
  | nil =>
      rw [hgap] at h
      rw [← Option.some.inj h]
      decide
  | cons d gap =>
      rw [hgap] at h
      rw [← Option.some.inj h]
      exact not_isWordChar_of_isBlank (a.gap_blank d (by rw [hgap]; exact List.mem_cons_self))

def nameStart : Place := ⟨a.indent.length, lastOf none a.indent, a.name ++ a.behind⟩

def nameEnd : Place := (a.nameStart.past [a.first] (a.others ++ a.behind)).past a.others a.behind

def equalsEnd : Place := (a.nameEnd.past a.gap ('=' :: a.value)).past ['='] a.value

theorem first_identifier (groups : Groups) :
    First identifier (a.nameStart, groups) (a.nameEnd, groups) :=
  .append (.one rfl a.first_start) (.many rfl a.others_word (fun _ => a.head?_behind))

theorem first_assignmentPattern :
    First assignmentPattern (a.nameStart, []) (a.equalsEnd, [(1, ⟨a.nameStart, a.nameEnd⟩)]) := by
  have hedge : a.nameStart.atWordEdge = true := by
    have hbefore : (lastOf none a.indent).any isWordChar = false :=
      any_lastOf rfl (fun c hc => not_isWordChar_of_isBlank (a.indent_blank c hc))
    have hafter : isWordChar a.first = true := isWordChar_of_isNameStart a.first_start
    simp [Place.atWordEdge, nameStart, hbefore, name, hafter]
  refine .append (.append (.append (.append (.wordEdge hedge) (.group 1 (a.first_identifier [])))
    (.many rfl a.gap_blank ?_)) (.leaveOut ?_)) (.one rfl rfl)
  · intro c hc
    rw [← Option.some.inj hc]
    decide
  · rfl

theorem requires_assignmentPattern :
    Requires (fun place => place.rest.head?.any isNameStart = true) assignmentPattern := by
  unfold assignmentPattern
  iterate 3 refine Requires.append ?_ _
  intro here out hout
  obtain ⟨mid, hmid, hgroup⟩ := mem_runs_append.1 hout
  have hhere : mid = here := by
    rw [runs] at hmid
    split at hmid
    · exact List.mem_singleton.1 hmid
    · cases hmid
  obtain ⟨inner, hinner, -⟩ := mem_runs_group.1 hgroup
  obtain ⟨first, hfirst, -⟩ := mem_runs_append.1 hinner
  obtain ⟨c, hrest, hc⟩ := rest_of_mem_one hfirst
  rw [← hhere, hrest]
  exact hc

def nameSpan : Span := ⟨a.nameStart, a.nameEnd⟩

def found : Match := ⟨⟨a.nameStart, a.equalsEnd⟩, [(1, a.nameSpan)]⟩

theorem findAll_assignmentPattern : ∃ more, assignmentPattern.findAll a.text = a.found :: more := by
  have hmatch := First.matchAt?_eq a.first_assignmentPattern
  rw [Pattern.findAll, text, findAllFrom_append requires_assignmentPattern _ _
    (fun c hc => not_isNameStart_of_isBlank (a.indent_blank c hc)), Nat.zero_add]
  exact findAllFrom_of_matchAt? hmatch

/-! ### The target -/

/-- The target of the assignment on a line that begins at a bracket depth. -/
def target (depth : Nat) : Assignment :=
  ⟨String.ofList a.name, a.indent.length, if depth = 0 then .plain else .keyword⟩

theorem text_nameSpan : a.nameSpan.text = a.name := by
  refine Span.text_eq ⟨rfl, ?_⟩
  simp [nameSpan, nameEnd, Place.past, name, Nat.add_assoc, Nat.add_comm]

theorem text_found : a.found.text = a.name ++ (a.gap ++ ['=']) := by
  refine Span.text_eq ⟨?_, ?_⟩
  · simp [found, nameStart, equalsEnd, Place.past, behind]
  · simp [found, equalsEnd, nameEnd, Place.past, name]
    omega

theorem trim_operator : trim (a.gap ++ ['=']) = ['='] := by
  rw [trim, trimStartOf, List.dropWhile_append_of_pos a.gap_blank]
  rfl

theorem assignKind_eq (depth : Nat) :
    assignKind a.text depth a.found a.nameSpan = if depth = 0 then .plain else .keyword := by
  have hindent : a.text.take a.nameSpan.start.offset = a.indent := List.take_left
  have hoperator : a.found.text.drop a.nameSpan.text.length = a.gap ++ ['='] := by
    rw [text_found, text_nameSpan, List.drop_left]
  rw [assignKind, hindent, hoperator, trim_operator, bracketDelta_of_blank a.indent_blank]
  by_cases hdepth : depth = 0
  · simp [hdepth]
  · have hpositive : (0 : Int) < depth + 0 := by omega
    rw [if_pos hpositive, if_neg hdepth]

theorem addAssignment_eq (depth : Nat) :
    addAssignment a.text depth 0 [] a.found = [a.target depth] := by
  have hcomparison : isComparison a.found = false := beq_false_of_ne a.value_head
  have hattribute : (a.nameSpan.start.before == some '.') = false := by
    have hdot : (lastOf none a.indent).any (· == '.') = false :=
      any_lastOf rfl (fun c hc => by
        rw [beq_eq_false_iff_ne]
        rintro rfl
        exact absurd (a.indent_blank _ hc) (by decide))
    cases hlast : lastOf none a.indent with
    | none => rw [nameSpan, nameStart, hlast]; rfl
    | some c =>
        rw [hlast] at hdot
        rw [nameSpan, nameStart, hlast]
        exact hdot
  have hgroup : a.found.group? 1 = some a.nameSpan := rfl
  have hkeyword : isKeyword (String.ofList a.name) = false := a.not_keyword
  rw [addAssignment, hgroup]
  simp [hcomparison, hattribute, addTarget, text_nameSpan, hkeyword, assignKind_eq, target]
  rfl

/-- Before its equals sign, the line has blanks and word characters only. -/
theorem eq_of_leadsTo {c : Char} (hc : isNameText c = false)
    (h : LeadsTo c (Place.start a.text)) : c = '=' := by
  have htext : a.text = a.indent ++ (a.name ++ a.gap) ++ '=' :: a.value := by
    simp [text]
  rcases h.mem_or_eq htext hc (by decide) with hmem | heq
  · have hname : isNameText c = true := by
      rw [isNameText, Bool.or_eq_true]
      simp only [List.mem_append] at hmem
      rcases hmem with hmem | hmem | hmem
      · exact .inl (a.indent_blank c hmem)
      · exact .inr (a.name_word c hmem)
      · exact .inl (a.gap_blank c hmem)
    rw [hname] at hc
    cases hc
  · exact heq

theorem addLineTargets_eq (depth : Nat) : addLineTargets a.text depth = ([], 0) := by
  -- either pattern would need its own mark where the equals sign is
  have hannotated : annotatedPattern.find? a.text = none := by
    cases hfind : annotatedPattern.find? a.text with
    | none => rfl
    | some m =>
        have hcolon :=
          anchored_annotatedPattern.requires_of_find? requires_annotatedPattern hfind
        exact absurd (a.eq_of_leadsTo (by decide) hcolon) (by decide)
  have htuple : tuplePattern.find? a.text = none := by
    cases hfind : tuplePattern.find? a.text with
    | none => rfl
    | some m =>
        have hcomma := anchored_tuplePattern.requires_of_find? requires_tuplePattern hfind
        exact absurd (a.eq_of_leadsTo (by decide) hcomma) (by decide)
  unfold addLineTargets annotatedTarget? tupleTargets?
  rw [hannotated, htuple]
  split <;> rfl

/-- **The target of an assignment** is plain outside brackets and a keyword argument within. -/
theorem mem_assignments (depth : Nat) : a.target depth ∈ assignments a.text depth := by
  obtain ⟨more, hmore⟩ := a.findAll_assignmentPattern
  have hprefix := prefix_assignments (a.addLineTargets_eq depth) hmore
  rw [addAssignment_eq] at hprefix
  exact hprefix.subset List.mem_cons_self

/-! ### The role -/

theorem isCode_text {c : Char} (hc : isNameText c = true ∨ c = '=') : Masking.IsCode .hash c := by
  have hmarks : ∀ d, d = '"' ∨ d = '\'' ∨ d = '#' → ¬(isNameText d = true ∨ d = '=') := by
    rintro d (rfl | rfl | rfl) <;> decide
  refine ⟨?_, fun hd => hmarks c (.inr (.inr (List.mem_singleton.1 hd))) hc⟩
  rw [← Bool.not_eq_true]
  intro hquote
  simp [Masking.isQuote] at hquote
  rcases hquote with rfl | rfl
  · exact hmarks _ (.inl rfl) hc
  · exact hmarks _ (.inr (.inl rfl)) hc

theorem maskLine_text : ∃ b : PlainAssignment, maskLine .hash a.text = b.text ∧
    b.name = a.name ∧ b.indent = a.indent := by
  have hcode : ∀ c ∈ a.indent ++ (a.name ++ (a.gap ++ ['='])), Masking.IsCode .hash c := by
    intro c hc
    simp only [List.mem_append, List.mem_singleton] at hc
    refine isCode_text ?_
    rw [isNameText, Bool.or_eq_true]
    rcases hc with hc | hc | hc | rfl
    · exact .inl (.inl (a.indent_blank c hc))
    · exact .inl (.inr (a.name_word c hc))
    · exact .inl (.inl (a.gap_blank c hc))
    · exact .inr rfl
  obtain ⟨prev, hrun⟩ := Masking.run_of_isCode hcode none
  have hmode : Masking.Mode.OnLine (.code none) := trivial
  have htext : a.text = a.indent ++ (a.name ++ (a.gap ++ ['='])) ++ a.value := by
    simp [text]
  have hvalue : (Masking.run .hash (.code prev) a.value).1.head? ≠ some '=' := by
    have hmasked := Masking.isMasked_run .hash (.code prev) a.value
    exact Masking.IsMasked.head?_ne hmasked (by decide) a.value_head
  refine ⟨{ a with value := _, value_head := hvalue }, ?_, rfl, rfl⟩
  show (Masking.run .hash (.code none) a.text).1 = _
  rw [htext, Masking.run_append hmode, hrun]
  simp [text, name]

theorem takeWhile_trim : (trim a.text).takeWhile isWordChar = a.name := by
  have hname : (a.name ++ a.behind).takeWhile isWordChar = a.name := by
    have hbehind : a.behind.takeWhile isWordChar = [] := by
      cases hhead : a.behind with
      | nil => rfl
      | cons c rest =>
          exact List.takeWhile_cons_of_neg (Bool.eq_false_iff.1 (a.head?_behind (by rw [hhead]; rfl)))
    rw [List.takeWhile_append_of_pos a.name_word, hbehind, List.append_nil]
  have hstart : trimStartOf isBlank a.text = a.name ++ a.behind := by
    have hfirst := not_isBlank_of_isWordChar (isWordChar_of_isNameStart a.first_start)
    rw [trimStartOf, text, List.dropWhile_append_of_pos a.indent_blank]
    exact List.dropWhile_cons_of_neg (Bool.eq_false_iff.1 hfirst)
  obtain ⟨gap, hgap, hblank⟩ := trimEndOf_append isBlank (a.name ++ a.behind)
  rw [trim, hstart]
  rw [hgap, List.takeWhile_append] at hname
  split at hname
  · -- then all but the blanks at the end would be a word, but there is the equals sign
    rename_i hlength
    have hword := (List.takeWhile_prefix isWordChar).eq_of_length hlength
    have hequals : '=' ∈ trimEndOf isBlank (a.name ++ a.behind) ++ gap := by
      rw [← hgap]
      simp [behind]
    rcases List.mem_append.1 hequals with hmem | hmem
    · rw [← hword] at hmem
      exact absurd (List.mem_takeWhile_imp hmem) (by decide)
    · exact absurd (hblank _ hmem) (by decide)
  · exact hname

theorem roleAt_eq (depth : Nat) :
    roleAt depth a.text =
      .code (className? (trim a.text)) (scanCode (maskLine .hash a.text) depth) := by
  have himport : importedNames? (trim a.text) = none := by
    cases hfind : importedNames? (trim a.text) with
    | none => rfl
    | some names =>
        have hkeyword := isKeyword_of_importedNames? hfind
        rw [takeWhile_trim] at hkeyword
        exact absurd hkeyword (Bool.eq_false_iff.1 a.not_keyword)
  have hdefinition : definition? (trim a.text) = none := by
    cases hfind : definition? (trim a.text) with
    | none => rfl
    | some found =>
        have hkeyword := isKeyword_of_definition? hfind
        rw [takeWhile_trim] at hkeyword
        exact absurd hkeyword (Bool.eq_false_iff.1 a.not_keyword)
  rw [roleAt, himport, hdefinition]

theorem mem_declaredVars_roleAt : String.ofList a.name ∈ (roleAt 0 a.text).declaredVars := by
  obtain ⟨b, hmask, hname, -⟩ := a.maskLine_text
  have htarget := b.mem_assignments 0
  rw [roleAt_eq, Role.declaredVars, hmask, ← hname]
  exact List.mem_map.2 ⟨b.target 0, List.mem_filter.2 ⟨htarget, rfl⟩, rfl⟩

theorem head?_trim : (trim a.text).head? = some a.first := by
  have htrim := List.takeWhile_append_dropWhile (p := isWordChar) (l := trim a.text)
  rw [takeWhile_trim] at htrim
  rw [← htrim]
  rfl

theorem hasContent_text : hasContent a.text = true := by
  rw [hasContent, Bool.and_eq_true, Bool.not_eq_true', Bool.not_eq_true']
  constructor
  · rw [Bool.eq_false_iff]
    intro hblank
    have hhead := a.head?_trim
    rw [trim_of_isBlankText hblank] at hhead
    cases hhead
  · rw [isCommentLine, head?_trim, beq_eq_false_iff_ne]
    intro hcomment
    have hstart := a.first_start
    rw [Option.some.inj hcomment] at hstart
    exact absurd hstart (by decide)

end PlainAssignment

end CodeSurvey.Python
