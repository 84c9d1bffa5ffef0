/-
# Values between quotes

Some patterns read a value between two quotes behind a fixed text, as in `id="main"`
(`ReadsValues`).  Such a value is read if it is not empty and the text in front of its first quote
ends in that lead.  So a search is a scan over the text cut at its quotes, that goes on behind the
second quote where a value is read and behind the first where none is (`map_findBehind`).

The scan goes from left to right, and a value that is not closed is not read.  So what is read of a
text is read of every longer text (`valuesBetween_splitAt_isPrefix`).
-/
import CodeSurvey.Proofs.Pattern.Searching
import CodeSurvey.Proofs.Text.Pieces

namespace CodeSurvey.Pattern

open Text

/-! ## The scan -/

/-- The values of a text that is cut at its quotes, each behind a text that ends in the lead. -/
def valuesBetween (lead : List Char) : List (List Char) → List (List Char)
  | text :: value :: next :: rest =>
    if lead.isSuffixOf text && !value.isEmpty then value :: valuesBetween lead (next :: rest)
    else valuesBetween lead (value :: next :: rest)
  | _ => []

section Scan

variable {lead text value last : List Char} {pieces rest : List (List Char)}

theorem isRead_iff :
    (lead.isSuffixOf text && !value.isEmpty) = true ↔ lead <:+ text ∧ value ≠ [] := by
  rw [Bool.and_eq_true, List.isSuffixOf_iff_suffix, Bool.not_eq_true', List.isEmpty_eq_false_iff]

theorem valuesBetween_read (hlead : lead <:+ text) (hvalue : value ≠ []) (hrest : rest ≠ []) :
    valuesBetween lead (text :: value :: rest) = value :: valuesBetween lead rest := by
  obtain ⟨next, others, rfl⟩ := List.exists_cons_of_ne_nil hrest
  rw [valuesBetween, if_pos (isRead_iff.2 ⟨hlead, hvalue⟩)]

theorem valuesBetween_pass (h : ¬(lead <:+ text ∧ value ≠ [])) :
    valuesBetween lead (text :: value :: rest) = valuesBetween lead (value :: rest) := by
  cases rest with
  | nil => rfl
  | cons next others => rw [valuesBetween, if_neg (mt isRead_iff.1 h)]

/-- What is read in front of a piece does not depend on it, nor on the pieces behind. -/
theorem valuesBetween_isPrefix (lead : List Char) (pieces : List (List Char)) (last : List Char)
    (rest : List (List Char)) (hrest : rest ≠ []) :
    valuesBetween lead (pieces ++ [last]) <+: valuesBetween lead (pieces ++ rest) := by
  match pieces with
  | [] => exact List.nil_prefix
  | [_] => exact List.nil_prefix
  | text :: value :: others =>
      by_cases hread : lead <:+ text ∧ value ≠ []
      · have hbehind := valuesBetween_isPrefix lead others last rest hrest
        have hne : others ++ rest ≠ [] := List.append_ne_nil_of_right_ne_nil others hrest
        simp only [List.cons_append]
        rw [valuesBetween_read hread.1 hread.2 (List.append_ne_nil_of_right_ne_nil _
          (List.cons_ne_nil last [])), valuesBetween_read hread.1 hread.2 hne]
        exact List.cons_prefix_cons.2 ⟨rfl, hbehind⟩
      · have hbehind := valuesBetween_isPrefix lead (value :: others) last rest hrest
        simp only [List.cons_append] at hbehind ⊢
        rwa [valuesBetween_pass hread, valuesBetween_pass hread]

/-- **What is read of a text is read of every longer one.** -/
theorem valuesBetween_splitAt_isPrefix (lead front back : List Char) :
    valuesBetween lead (splitAt '"' front) <+: valuesBetween lead (splitAt '"' (front ++ back)) := by
  obtain ⟨pieces, last, hfront, hlonger⟩ := splitWhere_append (· == '"') front
  obtain ⟨first, others, -, hboth⟩ := hlonger back
  rw [splitAt, splitAt, hfront, hboth]
  exact valuesBetween_isPrefix lead pieces last _ (List.cons_ne_nil _ _)

end Scan

/-! ## The search -/

/-- A pattern of a lead and a value in quotes: it matches where these are, and takes as much. -/
structure ReadsValues (lead : List Char) (pattern : Pattern) : Prop where
  leadFree : '"' ∉ lead
  requires : Requires (fun place => ∃ value back,
    place.rest = lead ++ '"' :: (value ++ '"' :: back) ∧ value ≠ [] ∧ '"' ∉ value) pattern
  reads : ∀ front value back, value ≠ [] → '"' ∉ value →
    ∃ m, pattern.matchAt? (Place.between front (lead ++ '"' :: (value ++ '"' :: back))) = some m ∧
      m.stop = (front ++ (lead ++ '"' :: (value ++ ['"']))).length ∧ m.groupText 1 = value

theorem notQuote_of_not_mem {text : List Char} (h : '"' ∉ text) :
    ∀ c ∈ text, (c != '"') = true := by
  intro c hc
  rw [bne_iff_ne]
  rintro rfl
  exact h hc

theorem not_mem_of_notQuote {text : List Char} (h : ∀ c ∈ text, (c != '"') = true) :
    '"' ∉ text :=
  fun hmem => absurd (h '"' hmem) (by decide)

theorem readsValues_of_opener {lead : List Char} {opener : Pattern} (hlead : '"' ∉ lead)
    (htext : ∀ here, ∀ out ∈ opener.runs here, here.1.rest = lead ++ '"' :: out.1.rest)
    (hfirst : ∀ front back groups, First opener (Place.between front (lead ++ '"' :: back), groups)
      (Place.between (front ++ (lead ++ ['"'])) back, groups)) :
    ReadsValues lead (opener ++ group 1 (some1 (· != '"')) ++ char '"') where
  leadFree := hlead
  requires := by
    intro here out hout
    obtain ⟨stop, hstop, hclose⟩ := mem_runs_append.1 hout
    obtain ⟨start, hstart, hgroup⟩ := mem_runs_append.1 hstop
    obtain ⟨inner, hinner, rfl⟩ := mem_runs_group.1 hgroup
    obtain ⟨first, hone, hmany⟩ := mem_runs_append.1 hinner
    obtain ⟨c, hc, hquote⟩ := rest_of_mem_one hone
    obtain ⟨more, hmore, hfree, -⟩ := takes_of_mem_many hmany
    obtain ⟨d, hd, hend⟩ := rest_of_mem_one hclose
    rw [beq_iff_eq.1 hend] at hd
    have hbehind : inner.1.rest = '"' :: out.1.rest := hd
    have hvalue := not_mem_of_notQuote (List.forall_mem_cons.2 ⟨hquote, hfree⟩)
    refine ⟨c :: more, out.1.rest, ?_, List.cons_ne_nil _ _, hvalue⟩
    rw [htext here start hstart, hc, hmore.rest, hbehind]
    rfl
  reads := by
    intro front value back hne hvalue
    have hclosing : ('"' :: back).head?.any (· != '"') = false := rfl
    have hopen := hfirst front (value ++ '"' :: back) []
    have hgroup := fun groups => First.group 1 (first_some1 (notQuote_of_not_mem hvalue) hne
      hclosing (front ++ (lead ++ ['"'])) groups)
    have hclose := first_char '"' (front ++ (lead ++ ['"']) ++ value) back
    refine ⟨_, ((hopen.append (hgroup _)).append (hclose _)).matchAt?_eq, ?_, ?_⟩
    · have hstop : front ++ (lead ++ ['"']) ++ value ++ ['"'] =
          front ++ (lead ++ '"' :: (value ++ ['"'])) := by
        simp only [List.append_assoc, List.cons_append, List.nil_append]
      rw [← hstop]
      rfl
    · exact Span.text_between (front ++ (lead ++ ['"'])) value ('"' :: back)

namespace ReadsValues

variable {lead front text value back rest : List Char} {pattern : Pattern}

/-- Without two quotes nothing is found. -/
theorem findBehind_of_count (h : ReadsValues lead pattern) (hcount : rest.count '"' < 2)
    (front : List Char) : pattern.findBehind front rest = [] := by
  have hstretch : pattern.findBehind front (rest ++ []) =
      pattern.findBehind (front ++ rest) [] := by
    refine findBehind_stretch h.requires ?_
    rintro done c more rfl ⟨value, back, hrest, -, -⟩
    have hrest : c :: (more ++ []) = lead ++ '"' :: (value ++ '"' :: back) := hrest
    rw [List.append_nil] at hrest
    rw [hrest] at hcount
    simp only [List.count_append, List.count_cons_self] at hcount
    omega
  rwa [List.append_nil] at hstretch

/-- In front of a quote and at it no match begins, unless the lead and a value are there. -/
theorem findBehind_pass (h : ReadsValues lead pattern) (htext : '"' ∉ text) (hvalue : '"' ∉ value)
    (hread : ¬(lead <:+ text ∧ value ≠ [])) (front back : List Char) :
    pattern.findBehind front (text ++ '"' :: (value ++ '"' :: back)) =
      pattern.findBehind (front ++ (text ++ ['"'])) (value ++ '"' :: back) := by
  -- a match that begins in the text or at its quote has the lead and a value behind it
  have hnone : ∀ done more, text = done ++ more →
      ∀ other behind, more ++ '"' :: (value ++ '"' :: back) =
        lead ++ '"' :: (other ++ '"' :: behind) → other ≠ [] → '"' ∉ other → False := by
    rintro done more rfl other behind hrest hne hother
    have hmore : '"' ∉ more := fun hmem => htext (List.mem_append_right _ hmem)
    obtain ⟨rfl, -, hsame⟩ := free_append_inj (notQuote_of_not_mem hmore)
      (notQuote_of_not_mem h.leadFree) rfl rfl hrest
    obtain ⟨rfl, -, -⟩ := free_append_inj (notQuote_of_not_mem hvalue)
      (notQuote_of_not_mem hother) rfl rfl hsame
    exact hread ⟨List.suffix_append done more, hne⟩
  have hpass : pattern.findBehind front (text ++ '"' :: (value ++ '"' :: back)) =
      pattern.findBehind (front ++ text) ('"' :: (value ++ '"' :: back)) := by
    refine findBehind_stretch h.requires ?_
    rintro done c more htext' ⟨other, behind, hrest, hne, hother⟩
    exact hnone done (c :: more) htext' other behind hrest hne hother
  have hquote : pattern.matchAt?
      (Place.between (front ++ text) ('"' :: (value ++ '"' :: back))) = none := by
    refine matchAt?_eq_none_of_requires h.requires ?_
    rintro ⟨other, behind, hrest, hne, hother⟩
    exact hnone text [] (List.append_nil text).symm other behind hrest hne hother
  rw [hpass, findBehind_cons hquote, List.append_assoc]

theorem findBehind_read (h : ReadsValues lead pattern) (htext : '"' ∉ text) (hvalue : '"' ∉ value)
    (hlead : lead <:+ text) (hne : value ≠ []) (front back : List Char) :
    ∃ m, pattern.findBehind front (text ++ '"' :: (value ++ '"' :: back)) =
        m :: pattern.findBehind (front ++ (text ++ '"' :: (value ++ ['"']))) back ∧
      m.groupText 1 = value := by
  obtain ⟨before, rfl⟩ := hlead
  have hpass : pattern.findBehind front
      (before ++ (lead ++ '"' :: (value ++ '"' :: back))) =
      pattern.findBehind (front ++ before) (lead ++ '"' :: (value ++ '"' :: back)) := by
    refine findBehind_stretch h.requires ?_
    rintro done c more rfl ⟨other, behind, hrest, -, -⟩
    have hmore : '"' ∉ c :: (more ++ lead) := by
      intro hmem
      refine htext ?_
      rw [List.append_assoc]
      exact List.mem_append_right _ hmem
    have hrest : (c :: (more ++ lead)) ++ '"' :: (value ++ '"' :: back) =
        lead ++ '"' :: (other ++ '"' :: behind) := by
      rw [List.cons_append, List.append_assoc]
      exact hrest
    obtain ⟨hlead, -, -⟩ := free_append_inj (notQuote_of_not_mem hmore)
      (notQuote_of_not_mem h.leadFree) rfl rfl hrest
    -- the lead would be longer than itself
    have hlength := congrArg List.length hlead
    rw [List.length_cons, List.length_append] at hlength
    omega
  obtain ⟨m, hm, hstop, hgroup⟩ := h.reads (front ++ before) value back hne hvalue
  obtain ⟨c, taken, htaken⟩ : ∃ c taken, lead ++ '"' :: (value ++ ['"']) = c :: taken :=
    List.exists_cons_of_ne_nil (List.append_ne_nil_of_right_ne_nil _ (List.cons_ne_nil _ _))
  have hmatched : lead ++ '"' :: (value ++ '"' :: back) = c :: (taken ++ back) := by
    have hall := congrArg (· ++ back) htaken
    simpa only [List.append_assoc, List.cons_append, List.nil_append] using hall
  have hlength : m.stop = (front ++ before).length + (taken.length + 1) := by
    rw [hstop, htaken, List.length_append, List.length_cons]
  rw [hmatched] at hm
  have hfound := findBehind_match hm hlength
  have hbehind : front ++ before ++ c :: taken =
      front ++ (before ++ lead ++ '"' :: (value ++ ['"'])) := by
    rw [← htaken]
    simp only [List.append_assoc]
  refine ⟨m, ?_, hgroup⟩
  rw [List.append_assoc, hpass, hmatched, hfound, hbehind]

/-- **Values are read between quotes**, behind any front. -/
theorem map_findBehind (h : ReadsValues lead pattern) (front rest : List Char) :
    (pattern.findBehind front rest).map (·.groupText 1) =
      valuesBetween lead (splitAt '"' rest) := by
  by_cases hfirst : '"' ∈ rest
  · obtain ⟨text, after, hrest, htext⟩ := List.eq_append_cons_of_mem hfirst
    by_cases hsecond : '"' ∈ after
    · obtain ⟨value, back, hafter, hvalue⟩ := List.eq_append_cons_of_mem hsecond
      have hlater : splitAt '"' after = value :: splitAt '"' back := by
        rw [hafter, splitAt_append_cons hvalue]
      have hpieces : splitAt '"' rest = text :: value :: splitAt '"' back := by
        rw [hrest, splitAt_append_cons htext, hlater]
      rw [hpieces]
      by_cases hread : lead <:+ text ∧ value ≠ []
      · obtain ⟨m, hfound, hgroup⟩ := h.findBehind_read htext hvalue hread.1 hread.2 front back
        have hnext := map_findBehind h (front ++ (text ++ '"' :: (value ++ ['"']))) back
        rw [hrest, hafter, hfound, List.map_cons, hgroup, hnext,
          valuesBetween_read hread.1 hread.2 (splitAt_ne_nil '"' back)]
      · have hnext := map_findBehind h (front ++ (text ++ ['"'])) after
        rw [hrest, hafter, h.findBehind_pass htext hvalue hread, ← hafter, hnext, hlater,
          valuesBetween_pass hread]
    · have hcount : rest.count '"' < 2 := by
        rw [hrest, List.count_append, List.count_cons_self, List.count_eq_zero.2 htext,
          List.count_eq_zero.2 hsecond]
        exact Nat.lt_succ_self 1
      rw [h.findBehind_of_count hcount, hrest, splitAt_append_cons htext, splitAt_free hsecond]
      rfl
  · have hcount : rest.count '"' < 2 := by
      rw [List.count_eq_zero.2 hfirst]
      exact Nat.succ_pos 1
    rw [h.findBehind_of_count hcount, splitAt_free hfirst]
    rfl
termination_by rest.length
decreasing_by
  all_goals
    subst_vars
    simp only [List.length_append, List.length_cons]
    omega

/-- **Values are read between quotes.** -/
theorem map_findAll (h : ReadsValues lead pattern) (text : List Char) :
    (pattern.findAll text).map (·.groupText 1) = valuesBetween lead (splitAt '"' text) :=
  h.map_findBehind [] text

end ReadsValues

end CodeSurvey.Pattern
