/-
# CSS findings stand on their lines

Blanking a comment keeps its newlines, so the text without comments has the lines of the source.
In that text a block is found where it stands (`Block.StandsBehind`): its selector begins and its
body follows on the lines that the block is given, counted by the newlines in front.  No two blocks
stand in one place, so the lines are those of their own selectors (`blocks_stand`).  A declaration
then stands on a line of the body, which is a piece of a line of the text.
-/
import Mathlib.Data.List.Induction
import CodeSurvey.Proofs.Pattern.Runs
import CodeSurvey.Proofs.Pattern.Spans
import CodeSurvey.Proofs.SortedMap
import CodeSurvey.Proofs.Text.Pieces
import CodeSurvey.Scan.Css

namespace CodeSurvey

open Text

namespace Css

open Pattern

/-! ## Comments -/

theorem blanked_eq_newline (c : Char) : (blanked c == '\n') = (c == '\n') := by
  unfold blanked
  split
  · rename_i hc
    rw [hc]
  · rename_i hc
    rw [beq_eq_false_iff_ne.2 hc]
    rfl

theorem count_newline_blankMatches (skip offset : Nat) (found : List Match) (text : List Char) :
    (blankMatches skip offset found text).count '\n' = text.count '\n' := by
  induction text generalizing skip offset found with
  | nil => rfl
  | cons c text ih =>
      unfold blankMatches
      repeat' split
      all_goals simp only [List.count_cons, ih, blanked_eq_newline]

theorem length_splitLines_blankComments (text : List Char) :
    (splitLines (blankComments text)).length = (splitLines text).length := by
  rw [length_splitLines, length_splitLines, blankComments, count_newline_blankMatches]

/-! ## Blocks -/

/-- A block stands in a text behind what is in front: there its selector begins, on the line of the
block; blanks and the opening brace follow, and then its body up to the closing brace. -/
structure Block.StandsBehind (text front : List Char) (b : Block) : Prop where
  text_eq : ∃ gap back,
    text = front ++ b.selector.toList ++ gap ++ '{' :: b.body ++ '}' :: back ∧
      (∀ c ∈ gap, isBlank c = true) ∧
      b.bodyLine = (splitLines (front ++ b.selector.toList ++ gap ++ ['{'])).length
  line_eq : b.line = (splitLines front).length

theorem lineOf_append (front rest : List Char) :
    lineOf (front ++ rest) front.length = (splitLines front).length := by
  rw [lineOf, List.take_left, length_splitLines]

/-- A match of a block in a text: what stands in front of its head, the head, the body, and what
is behind. -/
structure BlockMatch (text : List Char) (m : Match) (front : List Char) (head body : Span)
    (back : List Char) : Prop where
  text_eq : text = front ++ head.text ++ '{' :: body.text ++ '}' :: back
  head_group : m.group? 1 = some head
  body_group : m.group? 2 = some body
  start_eq : m.start = front.length
  head_stop : head.stop.offset = (front ++ head.text).length
  body_start : body.start.offset = (front ++ head.text ++ ['{']).length
  head_lt_stop : (front ++ head.text).length < m.stop

/-- A run of the block pattern: a head, a brace, a body and a brace, one behind the other. -/
structure BlockRun (here out : Place × Groups) (head body : List Char)
    (headEnd bodyStart bodyEnd : Place) : Prop where
  head_takes : here.1.Takes head headEnd
  open_takes : headEnd.Takes ['{'] bodyStart
  body_takes : bodyStart.Takes body bodyEnd
  close_takes : bodyEnd.Takes ['}'] out.1
  head_ne_nil : head ≠ []
  head_free : ∀ c ∈ head, notBrace c = true
  body_free : ∀ c ∈ body, notBrace c = true
  groups_eq : out.2 = (2, ⟨bodyStart, bodyEnd⟩) :: (1, ⟨here.1, headEnd⟩) :: here.2

theorem blockRun_of_mem_runs {here out : Place × Groups} (h : out ∈ blockPattern.runs here) :
    ∃ head body headEnd bodyStart bodyEnd,
      BlockRun here out head body headEnd bodyStart bodyEnd := by
  obtain ⟨afterBody, hbody, hclose⟩ := mem_runs_append.1 h
  obtain ⟨afterOpen, hopen, hbody⟩ := mem_runs_append.1 hbody
  obtain ⟨afterHead, hhead, hopen⟩ := mem_runs_append.1 hopen
  obtain ⟨headEnd, hheadEnd, rfl⟩ := mem_runs_group.1 hhead
  obtain ⟨bodyEnd, hbodyEnd, rfl⟩ := mem_runs_group.1 hbody
  obtain ⟨first, hfirst, hmore⟩ := mem_runs_append.1 hheadEnd
  obtain ⟨c, hc, hcFree, hfirstGroups⟩ := takes_of_mem_one hfirst
  obtain ⟨more, hmore, hmoreFree, hheadGroups⟩ := takes_of_mem_many hmore
  obtain ⟨brace, hopen, hbrace, hopenGroups⟩ := takes_of_mem_one hopen
  obtain ⟨body, hbody, hbodyFree, hbodyGroups⟩ := takes_of_mem_many hbodyEnd
  obtain ⟨brace', hclose, hbrace', hcloseGroups⟩ := takes_of_mem_one hclose
  rw [eq_of_beq hbrace] at hopen
  rw [eq_of_beq hbrace'] at hclose
  refine ⟨c :: more, body, headEnd.1, afterOpen.1, bodyEnd.1, hc.trans hmore, hopen, hbody, hclose,
    List.cons_ne_nil c more, List.forall_mem_cons.2 ⟨hcFree, hmoreFree⟩, hbodyFree, ?_⟩
  rw [hcloseGroups, hbodyGroups, hopenGroups, hheadGroups, hfirstGroups]

theorem blockMatch_of_isMatch {text : List Char} {m : Match} (hm : IsMatch blockPattern text m) :
    ∃ front head body back, BlockMatch text m front head body back := by
  obtain ⟨⟨front, hfront⟩, hrun⟩ := hm
  obtain ⟨head, body, headEnd, bodyStart, bodyEnd, hblock⟩ := blockRun_of_mem_runs hrun
  have hheadText : Span.text ⟨m.span.start, headEnd⟩ = head := Span.text_eq hblock.head_takes
  have hbodyText : Span.text ⟨bodyStart, bodyEnd⟩ = body := Span.text_eq hblock.body_takes
  have hgroups : m.groups = [(2, ⟨bodyStart, bodyEnd⟩), (1, ⟨m.span.start, headEnd⟩)] :=
    hblock.groups_eq
  have hhead := hfront.trans hblock.head_takes
  have htoBody := hhead.trans hblock.open_takes
  have hall := (htoBody.trans hblock.body_takes).trans hblock.close_takes
  refine ⟨front, ⟨m.span.start, headEnd⟩, ⟨bodyStart, bodyEnd⟩, m.span.stop.rest, ?_, ?_, ?_,
    hfront.offset.trans (Nat.zero_add _), ?_, ?_, ?_⟩
  · rw [hheadText, hbodyText]
    have hrest : text = _ := hall.rest
    simpa using hrest
  · rw [Match.group?, hgroups]
    rfl
  · rw [Match.group?, hgroups]
    rfl
  · rw [hheadText]
    exact hhead.offset.trans (Nat.zero_add _)
  · rw [hheadText]
    exact htoBody.offset.trans (Nat.zero_add _)
  · have hstop : m.stop = _ := hall.offset
    rw [hheadText, hstop]
    simp only [List.length_append, List.length_singleton]
    omega

/-- The selector in a head: it begins behind the last semicolon and the blanks that follow, and only
blanks are behind it. -/
theorem exists_selector_in_head (head : List Char) :
    ∃ front gap, head = front ++ trim (afterSemicolon head) ++ gap ∧
      (∀ c ∈ gap, isBlank c = true) ∧
      head.length = front.length + (trimStartOf isBlank (afterSemicolon head)).length := by
  generalize hraw : afterSemicolon head = raw
  obtain ⟨before, hbefore⟩ : raw <:+ head := by
    have hsuffix := List.reverse_suffix.2
      (List.takeWhile_prefix (· != ';') (l := head.reverse))
    rwa [List.reverse_reverse, ← afterSemicolon, hraw] at hsuffix
  obtain ⟨gap, hgap, hblank⟩ := trimEndOf_append isBlank (trimStartOf isBlank raw)
  have hlead : raw.takeWhile isBlank ++ trimStartOf isBlank raw = raw :=
    List.takeWhile_append_dropWhile
  have hhead : head = before ++ raw.takeWhile isBlank ++ trimStartOf isBlank raw := by
    rw [List.append_assoc, hlead, hbefore]
  refine ⟨before ++ raw.takeWhile isBlank, gap, ?_, hblank, ?_⟩
  · rw [List.append_assoc, trim, ← hgap]
    exact hhead
  · exact (congrArg List.length hhead).trans List.length_append

theorem standsBehind_of_blockOf? {text : List Char} {m : Match} (hm : IsMatch blockPattern text m)
    {b : Block} (h : blockOf? text m = some b) :
    ∃ front, b.StandsBehind text front ∧ m.start ≤ front.length ∧ front.length < m.stop := by
  obtain ⟨front, head, body, back, hblock⟩ := blockMatch_of_isMatch hm
  obtain ⟨before, gap, hhead, hblank, hbefore⟩ := exists_selector_in_head head.text
  unfold blockOf? at h
  rw [hblock.head_group, hblock.body_group] at h
  dsimp only at h
  split at h
  · cases h
  rw [← Option.some.inj h]
  have hselector : front ++ before ++ trim (afterSemicolon head.text) ++ gap =
      front ++ head.text := by
    rw [List.append_assoc front, List.append_assoc front, ← hhead]
  refine ⟨front ++ before, ⟨⟨gap, back, ?_, hblank, ?_⟩, ?_⟩, ?_, ?_⟩
  · rw [String.toList_ofList, hselector]
    exact hblock.text_eq
  · rw [String.toList_ofList, hselector]
    dsimp only
    have htext : text = (front ++ head.text ++ ['{']) ++ (body.text ++ '}' :: back) := by
      rw [hblock.text_eq]
      simp only [List.append_assoc, List.cons_append, List.nil_append]
    rw [hblock.body_start, htext, lineOf_append]
  · have hstart : head.stop.offset - (trimStartOf isBlank (afterSemicolon head.text)).length =
        (front ++ before).length := by
      rw [hblock.head_stop, List.length_append, List.length_append, hbefore, ← Nat.add_assoc,
        Nat.add_sub_cancel]
    dsimp only
    rw [hstart, hblock.text_eq, ← hselector]
    simp only [List.append_assoc]
    rw [← List.append_assoc front before, lineOf_append]
  · rw [hblock.start_eq, List.length_append]
    exact Nat.le_add_right _ _
  · refine Nat.lt_of_le_of_lt ?_ hblock.head_lt_stop
    rw [List.length_append, List.length_append]
    omega

theorem blocks_stand_of_apart {text : List Char} {found : List Match}
    (hfound : ∀ m ∈ found, IsMatch blockPattern text m)
    (hapart : found.Pairwise (fun m n => m.stop ≤ n.start)) :
    ∃ fronts : List (List Char), fronts.Pairwise (fun f g => f.length < g.length) ∧
      List.Forall₂ (Block.StandsBehind text) fronts (found.filterMap (blockOf? text)) ∧
      ∀ front ∈ fronts, ∃ m ∈ found, m.start ≤ front.length := by
  induction found with
  | nil => exact ⟨[], .nil, .nil, fun _ h => absurd h List.not_mem_nil⟩
  | cons m found ih =>
      obtain ⟨hm, hothers⟩ := List.forall_mem_cons.1 hfound
      obtain ⟨hbehind, hapart⟩ := List.pairwise_cons.1 hapart
      obtain ⟨fronts, hordered, hstand, hplaces⟩ := ih hothers hapart
      have hlater : ∀ front ∈ fronts, ∃ n ∈ m :: found, n.start ≤ front.length := by
        intro front hfront
        obtain ⟨n, hn, hle⟩ := hplaces front hfront
        exact ⟨n, List.mem_cons_of_mem _ hn, hle⟩
      cases hb : blockOf? text m with
      | none =>
          rw [List.filterMap_cons_none hb]
          exact ⟨fronts, hordered, hstand, hlater⟩
      | some b =>
          rw [List.filterMap_cons_some hb]
          obtain ⟨front, hfront, hstart, hstop⟩ := standsBehind_of_blockOf? hm hb
          refine ⟨front :: fronts, .cons (fun other hother => ?_) hordered, .cons hfront hstand,
            List.forall_mem_cons.2 ⟨⟨m, List.mem_cons_self, hstart⟩, hlater⟩⟩
          obtain ⟨n, hn, hle⟩ := hplaces other hother
          exact Nat.lt_of_lt_of_le hstop ((hbehind n hn).trans hle)

theorem blocks_stand (text : List Char) :
    ∃ fronts : List (List Char), fronts.Pairwise (fun f g => f.length < g.length) ∧
      List.Forall₂ (Block.StandsBehind text) fronts (blocks text) := by
  obtain ⟨fronts, hordered, hstand, -⟩ := blocks_stand_of_apart
    (fun _ hm => isMatch_of_mem_findAll hm) (apart_findAll blockPattern text)
  exact ⟨fronts, hordered, hstand⟩

theorem standsBehind_of_mem_blocks {text : List Char} :
    ∀ b ∈ blocks text, ∃ front, b.StandsBehind text front := by
  intro b hb
  obtain ⟨m, hm, hblock⟩ := List.mem_filterMap.1 hb
  obtain ⟨front, hfront, -, -⟩ := standsBehind_of_blockOf? (isMatch_of_mem_findAll hm) hblock
  exact ⟨front, hfront⟩

theorem Block.StandsBehind.isLine {text front : List Char} {b : Block}
    (h : b.StandsBehind text front) : IsLine (splitLines text) b.line := by
  obtain ⟨gap, back, htext, -, -⟩ := h.text_eq
  rw [IsLine, h.line_eq, htext, length_splitLines, length_splitLines]
  simp only [List.append_assoc, List.count_append]
  omega

/-! ## Declarations -/

theorem of_mem_lineFragments {number : Nat} {line : Line} {f : Fragment}
    (h : f ∈ lineFragments number line) : f.line = number ∧ f.text <:+: line := by
  obtain ⟨piece, hpiece, rfl⟩ := List.mem_map.1 h
  obtain ⟨whole, hwhole, rfl⟩ := List.mem_map.1 (List.mem_filter.1 hpiece).1
  exact ⟨rfl, (trim_isInfix whole).trans (isInfix_of_mem_splitWhere hwhole)⟩

theorem Block.StandsBehind.onLine_fragment {text front : List Char} {b : Block}
    (h : b.StandsBehind text front) {f : Fragment} (hf : f ∈ b.fragments) :
    OnLine (splitLines text) f.line f.text := by
  obtain ⟨gap, back, htext, -, hbody⟩ := h.text_eq
  obtain ⟨i, line, hline, hfound⟩ := mem_eachLine hf
  obtain ⟨hnumber, hpiece⟩ := of_mem_lineFragments hfound
  have htext' : text = (front ++ b.selector.toList ++ gap ++ ['{']) ++ b.body ++ '}' :: back := by
    rw [htext]
    simp only [List.append_assoc, List.cons_append, List.nil_append]
  rw [hnumber, hbody, htext', length_splitLines]
  exact (onLine_of_piece hline).of_isInfix hpiece

theorem Fragment.isInfix_of_property? {f : Fragment} {property : String}
    (h : f.property? = some property) : property.toList <:+: f.text := by
  unfold Fragment.property? at h
  split at h
  · rw [← Option.some.inj h, String.toList_ofList]
    exact (trim_isInfix _).trans (before_isInfix _ _)
  · cases h

/-- A remark on a fragment of a block shows the fragment, or its property, and is on its line. -/
def Block.RemarksOn (b : Block) (i : PropertyIssue) : Prop :=
  ∃ f ∈ b.fragments, i.line = f.line ∧ i.property.toList <:+: f.text

theorem Block.remarksOn_of_invalid? {b : Block} {f : Fragment} (hf : f ∈ b.fragments)
    {i : PropertyIssue} (h : b.invalid? f = some i) : b.RemarksOn i := by
  unfold Block.invalid? at h
  split at h
  · rw [← Option.some.inj h]
    have hshown : (String.ofList f.text).toList = f.text := String.toList_ofList
    exact ⟨f, hf, rfl, hshown.symm ▸ List.infix_refl f.text⟩
  · cases h

theorem Block.remarksOn_of_unknown? {b : Block} {f : Fragment} (hf : f ∈ b.fragments)
    {i : PropertyIssue} (h : b.unknown? f = some i) : b.RemarksOn i := by
  unfold Block.unknown? at h
  split at h
  · cases h
  · rename_i property hproperty
    split at h
    · cases h
    · rw [← Option.some.inj h]
      exact ⟨f, hf, rfl, Fragment.isInfix_of_property? hproperty⟩

theorem Block.remarksOn_of_mem_repeatedFrom {b : Block} {seen : List String}
    {fragments : List Fragment} (hfragments : ∀ f ∈ fragments, f ∈ b.fragments)
    {i : PropertyIssue} (h : i ∈ b.repeatedFrom seen fragments) : b.RemarksOn i := by
  induction fragments generalizing seen with
  | nil => cases h
  | cons f fragments ih =>
      obtain ⟨hf, hothers⟩ := List.forall_mem_cons.1 hfragments
      rw [Block.repeatedFrom] at h
      split at h
      · exact ih hothers h
      · rename_i property hproperty
        split at h
        · rcases List.mem_cons.1 h with rfl | h
          · exact ⟨f, hf, rfl, Fragment.isInfix_of_property? hproperty⟩
          · exact ih hothers h
        · exact ih hothers h

/-! ## Lines of selectors -/

theorem selectorLines_concat (bs : List Block) (b : Block) :
    selectorLines (bs ++ [b]) = (selectorLines bs).alter b.selector
      (fun lines => lines.getD [] ++ [b.line]) := by
  rw [selectorLines, List.foldl_append]
  rfl

theorem selector_mem_keys {bs : List Block} : ∀ b ∈ bs, b.selector ∈ (selectorLines bs).keys := by
  induction bs using List.reverseRecOn with
  | nil => exact fun _ h => absurd h List.not_mem_nil
  | append_singleton bs last ih =>
      intro b hb
      rw [selectorLines_concat]
      rcases List.mem_append.1 hb with hb | hb
      · exact SortedMap.key_mem_alterEntries _ (.inr (ih b hb))
      · exact SortedMap.key_mem_alterEntries _ (.inl (by rw [List.mem_singleton.1 hb]))

theorem lines_of_mem_selectorLines {bs : List Block} :
    ∀ e ∈ (selectorLines bs).entries,
      e.2 = (bs.filter (fun b => b.selector == e.1)).map (·.line) := by
  induction bs using List.reverseRecOn with
  | nil => exact fun _ h => absurd h List.not_mem_nil
  | append_singleton bs last ih =>
      intro e he
      rw [selectorLines_concat] at he
      rw [List.filter_append, List.map_append]
      rcases SortedMap.entry_of_mem_alterEntries (selectorLines bs).sorted he with
        ⟨hold, hother⟩ | ⟨lines, hlines, rfl⟩ | ⟨hfresh, rfl⟩
      · have hlast : [last].filter (fun b => b.selector == e.1) = [] :=
          List.filter_cons_of_neg (by simpa using hother.symm)
        rw [hlast, List.map_nil, List.append_nil]
        exact ih e hold
      · have hlast : [last].filter (fun b => b.selector == last.selector) = [last] :=
          List.filter_cons_of_pos (beq_self_eq_true last.selector)
        rw [hlast, ← ih _ hlines]
        rfl
      · have hlast : [last].filter (fun b => b.selector == last.selector) = [last] :=
          List.filter_cons_of_pos (beq_self_eq_true last.selector)
        have hnone : bs.filter (fun b => b.selector == last.selector) = [] := by
          refine List.filter_eq_nil_iff.2 (fun b hb hsame => ?_)
          obtain ⟨old, hold, hkey⟩ := List.mem_map.1 (selector_mem_keys b hb)
          exact hfresh old hold (hkey.trans (eq_of_beq hsame))
        rw [hlast, hnone]
        rfl

end Css

/-! ## All findings -/

/-- Remarks on properties stand on their lines of the text without comments, and the lines of a
selector are those of its blocks, which stand in that text, each in a place of its own.  Line
numbers are those of the source: the text without comments has its lines. -/
structure CssFindings.Located (lines : List Line) (text : List Char) (r : CssFindings) : Prop where
  invalidProperties : ∀ i ∈ r.invalidProperties,
    IsLine lines i.line ∧ OnLine (splitLines text) i.line i.property.toList
  repeatedProperties : ∀ i ∈ r.repeatedProperties,
    IsLine lines i.line ∧ OnLine (splitLines text) i.line i.property.toList
  unknownProperties : ∀ i ∈ r.unknownProperties,
    IsLine lines i.line ∧ OnLine (splitLines text) i.line i.property.toList
  blockLines : ∀ b ∈ Css.blocks text, IsLine lines b.line
  blocks : ∃ fronts : List (List Char), fronts.Pairwise (fun f g => f.length < g.length) ∧
    List.Forall₂ (Css.Block.StandsBehind text) fronts (Css.blocks text)
  selectors : r.selectors = (Css.blocks text).map (·.selector)
  selectorLines : ∀ e ∈ r.selectorLines.entries,
    e.2 = ((Css.blocks text).filter (fun b => b.selector == e.1)).map (·.line)

namespace Css

theorem isLine_of_blanked {source : List Char} {n : Nat}
    (h : IsLine (splitLines (blankComments source)) n) : IsLine (splitLines source) n := by
  rwa [IsLine, length_splitLines_blankComments] at h

/-- **CSS findings stand on their lines**, whatever HTML document is compared with. -/
theorem located_findingsOf (source : List Char) (html : Option String) :
    (findingsOf (blocks (blankComments source)) html).Located (splitLines source)
      (blankComments source) := by
  have hremark : ∀ b ∈ blocks (blankComments source), ∀ i, b.RemarksOn i →
      IsLine (splitLines source) i.line ∧
        OnLine (splitLines (blankComments source)) i.line i.property.toList := by
    rintro b hb i ⟨f, hf, hline, hproperty⟩
    obtain ⟨front, hfront⟩ := standsBehind_of_mem_blocks b hb
    have hon := hfront.onLine_fragment hf
    rw [hline]
    exact ⟨isLine_of_blanked hon.isLine, hon.of_isInfix hproperty⟩
  constructor
  case invalidProperties =>
    intro i hi
    obtain ⟨b, hb, hfound⟩ := List.mem_flatMap.1 hi
    obtain ⟨f, hf, hissue⟩ := List.mem_filterMap.1 hfound
    exact hremark b hb i (Block.remarksOn_of_invalid? hf hissue)
  case repeatedProperties =>
    intro i hi
    obtain ⟨b, hb, hfound⟩ := List.mem_flatMap.1 hi
    exact hremark b hb i (Block.remarksOn_of_mem_repeatedFrom (fun _ hf => hf) hfound)
  case unknownProperties =>
    intro i hi
    obtain ⟨b, hb, hfound⟩ := List.mem_flatMap.1 hi
    obtain ⟨f, hf, hissue⟩ := List.mem_filterMap.1 hfound
    exact hremark b hb i (Block.remarksOn_of_unknown? hf hissue)
  case blockLines =>
    intro b hb
    obtain ⟨front, hfront⟩ := standsBehind_of_mem_blocks b hb
    exact isLine_of_blanked hfront.isLine
  case blocks => exact blocks_stand (blankComments source)
  case selectors => rfl
  case selectorLines => exact lines_of_mem_selectorLines

end Css

end CodeSurvey
