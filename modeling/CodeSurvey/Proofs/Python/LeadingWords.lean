/-
# Statements are told by their first word

The scan takes a line for a return or a loop if it begins with the keyword and the word ends there.
`BeginsWith` says so of the text; the patterns match exactly such texts (`occurs_returnPattern_iff`,
`occurs_loopPattern_iff`).

Both patterns are anchored, so that one occurs in a text means that it has a run at its start
(`occurs_iff_of_anchored`), and the run goes through one of the keywords to an edge of a word
(`exists_mem_runs_leading_iff`).  The word that follows need not be a blank: `return(x)` is a
return, and `returned` is none.
-/
import CodeSurvey.Proofs.Python.Names
import CodeSurvey.Scan.Python

namespace CodeSurvey.Python

open Text Pattern

def BeginsWith (word : String) (text : List Char) : Prop :=
  ∃ rest, text = word.toList ++ rest ∧ rest.head?.any isWordChar = false

instance decidableBeginsWith (word : String) (text : List Char) :
    Decidable (BeginsWith word text) :=
  decidable_of_iff (word.toList.isPrefixOf text = true ∧
      (text.drop word.toList.length).head?.any isWordChar = false) (by
    constructor
    · rintro ⟨hbegins, hrest⟩
      obtain ⟨rest, rfl⟩ := List.isPrefixOf_iff_prefix.1 hbegins
      rw [List.drop_left] at hrest
      exact ⟨rest, rfl, hrest⟩
    · rintro ⟨rest, rfl, hrest⟩
      rw [List.drop_left]
      exact ⟨List.isPrefixOf_iff_prefix.2 (List.prefix_append _ _), hrest⟩)

theorem occurs_iff_of_anchored {pattern : Pattern} (h : Anchored pattern) {text : List Char} :
    pattern.occurs text = true ↔ ∃ out, out ∈ pattern.runs (Place.start text, []) := by
  rw [occurs, h.find?_eq, matchAt?, Option.isSome_map, List.isSome_head?, ← List.length_pos_iff]
  exact List.length_pos_iff_exists_mem

theorem exists_mem_runs_leading_iff {middle : Pattern} (words : List String)
    (hmiddle : ∀ text out, out ∈ middle.runs (Place.start text, []) →
      ∃ word ∈ words, out ∈ (literal word).runs (Place.start text, []))
    (hwords : ∀ text, ∀ word ∈ words, ∀ out, out ∈ (literal word).runs (Place.start text, []) →
      out ∈ middle.runs (Place.start text, []))
    (hlast : ∀ word ∈ words, word.toList.getLast?.any isWordChar = true) {text : List Char} :
    (textStart ++ middle ++ wordEdge).occurs text = true ↔
      ∃ word ∈ words, BeginsWith word text := by
  have hanchored : Anchored (textStart ++ middle ++ wordEdge) :=
    Requires.append (Requires.append anchored_textStart _) _
  rw [occurs_iff_of_anchored hanchored]
  constructor
  · rintro ⟨out, hout⟩
    obtain ⟨mid, hmid, hedge⟩ := mem_runs_append.1 hout
    obtain ⟨start, hstart, hmid⟩ := mem_runs_append.1 hmid
    rw [(mem_runs_textStart.1 hstart).2] at hmid
    obtain ⟨word, hword, hliteral⟩ := hmiddle text mid hmid
    have hbetween : mid ∈ (literal word).runs (Place.between [] text, []) := hliteral
    obtain ⟨back, htext, hplace⟩ := between_of_mem_literal hbetween
    have hat := (mem_runs_wordEdge.1 hedge).1
    rw [hplace, atWordEdge_between, List.nil_append, hlast word hword] at hat
    exact ⟨word, hword, back, htext, by simpa using hat⟩
  · rintro ⟨word, hword, back, rfl, hback⟩
    have hliteral := List.mem_of_head? (first_literal word [] back [])
    refine ⟨(Place.between word.toList back, []), mem_runs_append.2 ⟨_, mem_runs_append.2
      ⟨_, mem_runs_textStart.2 ⟨rfl, rfl⟩, hwords _ word hword _ hliteral⟩, ?_⟩⟩
    rw [mem_runs_wordEdge, List.nil_append, atWordEdge_between, hlast word hword, hback]
    exact ⟨rfl, rfl⟩

theorem occurs_returnPattern_iff {text : List Char} :
    returnPattern.occurs text = true ↔ BeginsWith "return" text := by
  refine (exists_mem_runs_leading_iff ["return"] ?_ ?_ ?_).trans ?_
  · exact fun text out h => ⟨"return", List.mem_cons_self, h⟩
  · intro text word hword out h
    rwa [List.mem_singleton.1 hword] at h
  · exact List.forall_mem_singleton.2 (by decide)
  · simp only [List.mem_singleton, exists_eq_left]

theorem occurs_loopPattern_iff {text : List Char} :
    loopPattern.occurs text = true ↔ BeginsWith "for" text ∨ BeginsWith "while" text := by
  refine (exists_mem_runs_leading_iff ["for", "while"] ?_ ?_ ?_).trans ?_
  · intro text out h
    rcases List.mem_append.1 h with h | h
    · exact ⟨"for", List.mem_cons_self, h⟩
    · exact ⟨"while", List.mem_cons_of_mem _ List.mem_cons_self, h⟩
  · intro text word hword out h
    rcases List.mem_cons.1 hword with rfl | hword
    · exact List.mem_append_left _ h
    · rw [List.mem_singleton.1 hword] at h
      exact List.mem_append_right _ h
  · exact List.forall_mem_cons.2 ⟨by decide, List.forall_mem_singleton.2 (by decide)⟩
  · simp only [List.mem_cons, List.not_mem_nil, or_false, exists_eq_or_imp, exists_eq_left]

end CodeSurvey.Python
