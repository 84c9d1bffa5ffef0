/-
# Unused names of a JavaScript source

Whether a name is used is decided by counting, and here it is said by places.  Each header of a
function ends with a call token of its name, and each declaration of a variable with a token of its
name (`callIn`, `tokenIn`).  Both are found by the scans that count, and no two headers end with the
same one.  So there are never fewer calls than headers, and as many exactly if every call of the
name is the one of a header (`count_map_le_iff`).
-/
import Mathlib.Data.List.Forall2
import CodeSurvey.Proofs.Pattern.Searching
import CodeSurvey.Proofs.Pattern.Repetition
import CodeSurvey.Proofs.Python.CallTokens
import CodeSurvey.Proofs.Python.LeadingWords
import CodeSurvey.Scan.JavaScript

namespace CodeSurvey.JavaScript

open Text Pattern
open Python (IsName NameAt first_identifier_between name_of_mem_identifier
  mem_findAll_callPattern mem_findAll_namePattern nameMatch callMatch)

/-! ## The name that a run leads over -/

theorem between_of_mem_identifier {front rest : List Char} {groups : Groups} {out : Place × Groups}
    (h : out ∈ identifier.runs (Place.between front rest, groups)) :
    ∃ name back, rest = name ++ back ∧ IsName name ∧
      out.1 = Place.between (front ++ name) back := by
  obtain ⟨taken, back, hrest, hout, -⟩ := between_of_mem_runs (over_true _) h
  obtain ⟨name, hname, htakes⟩ := name_of_mem_identifier h
  have hback : out.1.rest = back := by rw [hout]; rfl
  have hsplit : taken ++ back = name ++ back := by
    rw [← hrest, ← hback]
    exact htakes.rest
  exact ⟨name, back, hrest.trans hsplit, hname, by rw [hout, List.append_cancel_right hsplit]⟩

theorem between_of_first_identifier {front rest : List Char} {groups : Groups}
    {out : Place × Groups} (h : First identifier (Place.between front rest, groups) out) :
    ∃ name back, rest = name ++ back ∧ IsName name ∧ back.head?.any isWordChar = false ∧
      out = (Place.between (front ++ name) back, groups) := by
  obtain ⟨short, others, rfl, ⟨first, more, rfl, hfirst, hmore⟩, -⟩ :=
    between_of_mem_identifier (List.mem_of_head? h)
  have hname : IsName (first :: (more ++ others).takeWhile isWordChar) :=
    ⟨first, _, rfl, hfirst, fun c hc => List.mem_takeWhile_imp hc⟩
  have hback : ((more ++ others).dropWhile isWordChar).head?.any isWordChar = false := by
    have hnot := List.head?_dropWhile_not isWordChar (more ++ others)
    cases hhead : ((more ++ others).dropWhile isWordChar).head? with
    | none => rfl
    | some c =>
        rw [hhead] at hnot
        exact hnot
  have hsplit : first :: more ++ others =
      (first :: (more ++ others).takeWhile isWordChar) ++
        (more ++ others).dropWhile isWordChar := by
    rw [List.cons_append, List.cons_append, List.takeWhile_append_dropWhile]
  rw [hsplit] at h ⊢
  exact ⟨_, _, rfl, hname, hback,
    Option.some.inj (h.symm.trans (first_identifier_between hname hback))⟩

/-! ## Headers and declarations -/

def nameOf (m : Match) : String := String.ofList (m.groupText 1)

/-- A match at a place leads over an opening to a name. -/
structure Named (m : Match) (front opening name back : List Char) : Prop where
  start : m.start = front.length
  begins : (front ++ opening).getLast?.any isWordChar = false
  isName : IsName name
  group : m.group? 1 = some ⟨.between (front ++ opening) (name ++ back),
    .between (front ++ opening ++ name) back⟩

/-- What stands between the word of a function and its name. -/
def IsStarChar (c : Char) : Prop := isWordChar c = false ∧ c ≠ '('

theorem over_generatorStar : generatorStar.Over IsStarChar := by
  have hblanks : blanks.Over IsStarChar := by
    refine fun c hc => ⟨not_isWordChar_of_isBlank hc, ?_⟩
    rintro rfl
    exact absurd hc (by decide)
  refine ⟨⟨hblanks, fun c hc => ?_, trivial⟩, hblanks⟩
  rw [beq_iff_eq.1 hc]
  exact ⟨by decide, by decide⟩

theorem opening_of_mem_runs {front back : List Char} {out : Place × Groups}
    (h : out ∈ (wordEdge ++ literal "function" ++ wordEdge ++ generatorStar).runs
      (Place.between front back, [])) (hout : out.1.rest.head?.any isWordChar = true) :
    ∃ opening rest, back = opening ++ rest ∧ out.1 = Place.between (front ++ opening) rest ∧
      '(' ∉ opening ∧ (front ++ opening).getLast?.any isWordChar = false := by
  obtain ⟨⟨place, groups⟩, hword, hmore⟩ := mem_runs_append.1 h
  obtain ⟨mid, hmid, hedge⟩ := mem_runs_append.1 hword
  obtain ⟨first, hfirst, hliteral⟩ := mem_runs_append.1 hmid
  obtain ⟨-, rfl⟩ := mem_runs_wordEdge.1 hfirst
  obtain ⟨hat, rfl⟩ := mem_runs_wordEdge.1 hedge
  obtain ⟨behind, rfl, rfl⟩ := between_of_mem_literal hliteral
  obtain ⟨star, rest, rfl, hplace, hstar⟩ := between_of_mem_runs over_generatorStar hmore
  have hrest : rest.head?.any isWordChar = true := by rwa [hplace] at hout
  have hne : star ≠ [] := by
    rintro rfl
    -- a word that goes on has no edge
    rw [atWordEdge_between, List.nil_append, hrest,
      any_getLast?_append_of_word (by decide) (List.all_eq_true.1 rfl)] at hat
    cases hat
  refine ⟨"function".toList ++ star, rest, by rw [List.append_assoc], ?_, ?_, ?_⟩
  · rw [hplace, List.append_assoc]
  · rw [List.mem_append]
    rintro (hmem | hmem)
    · exact absurd hmem (by decide)
    · exact (hstar _ hmem).2 rfl
  · rw [← List.append_assoc, List.getLast?_append, List.getLast?_eq_some_getLast hne,
      Option.some_or]
    exact (hstar _ (List.getLast_mem hne)).1

/-- A header leads over its name to a parenthesis, which is the only one in it. -/
theorem exists_header_of_mem {text : List Char} {m : Match} (h : m ∈ functionPattern.findAll text) :
    ∃ front opening name gap rest,
      text = front ++ (opening ++ (name ++ (gap ++ '(' :: rest))) ∧
        Named m front opening name (gap ++ '(' :: rest) ∧ '(' ∉ opening ∧
          (∀ c ∈ gap, isBlank c = true) ∧
            m.span.stop = .between (front ++ opening ++ name ++ gap ++ ['(']) rest := by
  obtain ⟨front, back, rfl, -, hm⟩ := matchAt?_of_mem_findAll h
  have hruns : ∀ here, functionPattern.runs here =
      ((wordEdge ++ literal "function" ++ wordEdge ++ generatorStar) ++
        (group 1 identifier ++ (blanks ++ char '('))).runs here := by
    intro here
    rw [functionPattern, runs_append_assoc, runs_append_assoc]
  obtain ⟨start, stop, groups, hstart, hname, hend, hgroup⟩ :=
    parts_of_matchAt? hruns rfl rfl rfl hm
  have hword : start.rest.head?.any isWordChar = true := by
    obtain ⟨mid, hone, -⟩ := mem_runs_append.1 hname
    obtain ⟨c, hrest, hc⟩ := rest_of_mem_one hone
    rw [hrest]
    exact isWordChar_of_isNameStart hc
  obtain ⟨opening, rest, rfl, rfl, hparen, hedge⟩ := opening_of_mem_runs hstart hword
  obtain ⟨name, behind, rfl, hisName, rfl⟩ := between_of_mem_identifier hname
  obtain ⟨⟨place, groups'⟩, hblanks, hchar⟩ := mem_runs_append.1 hend
  have hover : blanks.Over (isBlank · = true) := fun _ hc => hc
  obtain ⟨gap, last, rfl, rfl, hgap⟩ := between_of_mem_runs hover hblanks
  obtain ⟨final, rfl, hstop⟩ := between_of_mem_char hchar
  exact ⟨front, opening, name, gap, final, rfl, ⟨start_of_matchAt? hm, hedge, hisName, hgroup⟩,
    hparen, hgap, hstop⟩

theorem exists_declaration_of_mem {text : List Char} {m : Match}
    (h : m ∈ variablePattern.findAll text) :
    ∃ front opening name back, text = front ++ (opening ++ (name ++ back)) ∧
      Named m front opening name back ∧ back.head?.any isWordChar = false ∧
        m.span.stop = .between (front ++ opening ++ name) back := by
  obtain ⟨front, back, rfl, -, hm⟩ := matchAt?_of_mem_findAll h
  obtain ⟨start, groups, out, hstart, hname, hspan, hgroup⟩ := parts_of_matchAt?_group hm
  obtain ⟨⟨place, groups'⟩, hword, hblanks⟩ := mem_runs_append.1 hstart
  obtain ⟨taken, behind, rfl, rfl, -⟩ := between_of_mem_runs (over_true _) hword
  obtain ⟨gap, rest, rfl, hne, hgap, rfl⟩ := between_of_mem_blanks1 hblanks
  obtain ⟨name, back, rfl, hisName, hback, rfl⟩ := between_of_first_identifier hname
  have hopening : front ++ taken ++ gap = front ++ (taken ++ gap) :=
    List.append_assoc front taken gap
  rw [hopening] at hspan hgroup
  refine ⟨front, taken ++ gap, name, back, by rw [List.append_assoc],
    ⟨start_of_matchAt? hm, ?_, hisName, hgroup⟩, hback, by rw [hspan]⟩
  rw [← hopening]
  exact getLast?_append_of_ne_nil hgap hne _

/-! ## The token that a match ends with -/

def nameSpan (m : Match) : Span := (m.group? 1).getD m.span

def callIn (header : Match) : Match :=
  ⟨⟨(nameSpan header).start, header.span.stop⟩, [(1, nameSpan header)]⟩

/-- The name that a declaration ends with. -/
def tokenIn (declaration : Match) : Match := ⟨nameSpan declaration, []⟩

/-- A match that lies within another. -/
structure Inside (m outer : Match) : Prop where
  start_le : outer.start ≤ m.start
  stop_le : m.stop ≤ outer.stop

theorem Named.nameSpan_eq {m : Match} {front opening name back : List Char}
    (h : Named m front opening name back) :
    nameSpan m = ⟨.between (front ++ opening) (name ++ back),
      .between (front ++ opening ++ name) back⟩ := by
  rw [nameSpan, h.group, Option.getD_some]

theorem Named.nameOf_eq {m : Match} {front opening name back : List Char}
    (h : Named m front opening name back) : nameOf m = String.ofList name := by
  rw [nameOf, Match.groupText, h.group]
  exact congrArg String.ofList (Span.text_between (front ++ opening) name back)

/-- Where a stretch of a text has no character of a kind, none is found. -/
theorem length_le_of_only {c : Char} {front inner rest front' rest' : List Char}
    (h : front ++ (inner ++ c :: rest) = front' ++ c :: rest') (hinner : c ∉ inner)
    (hle : front.length ≤ front'.length) : front.length + inner.length ≤ front'.length := by
  by_contra hlt
  obtain ⟨more, rfl⟩ : front <+: front' := List.prefix_of_prefix_length_le ⟨_, h⟩ ⟨_, rfl⟩ hle
  rw [List.append_assoc, List.append_cancel_left_eq] at h
  rw [List.length_append] at hlt
  have hat : (inner ++ c :: rest)[more.length]? = some c := by
    rw [h, List.getElem?_append_right (Nat.le_refl _), Nat.sub_self]
    rfl
  rw [List.getElem?_append_left (by omega)] at hat
  exact hinner (List.mem_of_getElem? hat)

section Calls

variable {text : List Char} {header call : Match}

theorem callIn_eq {front opening name gap rest : List Char}
    (h : Named header front opening name (gap ++ '(' :: rest))
    (hstop : header.span.stop = .between (front ++ opening ++ name ++ gap ++ ['(']) rest) :
    callIn header = callMatch (front ++ opening) name gap rest := by
  rw [callIn, h.nameSpan_eq, hstop]
  rfl

theorem callIn_mem (h : header ∈ functionPattern.findAll text) :
    callIn header ∈ callPattern.findAll text := by
  obtain ⟨front, opening, name, gap, rest, htext, hnamed, -, hgap, hstop⟩ := exists_header_of_mem h
  refine mem_findAll_callPattern.2 ⟨front ++ opening, name, gap, rest, ?_, hnamed.isName,
    hnamed.begins, hgap, callIn_eq hnamed hstop⟩
  rw [htext, List.append_assoc]

theorem nameOf_callIn (h : header ∈ functionPattern.findAll text) :
    nameOf (callIn header) = nameOf header := by
  obtain ⟨front, opening, name, gap, rest, -, hnamed, -, -, hstop⟩ := exists_header_of_mem h
  rw [hnamed.nameOf_eq, callIn_eq hnamed hstop, nameOf, Python.groupText_callMatch]

theorem group?_callIn (h : header ∈ functionPattern.findAll text) :
    (callIn header).group? 1 = header.group? 1 := by
  obtain ⟨front, opening, name, gap, rest, -, hnamed, -, -, hstop⟩ := exists_header_of_mem h
  rw [hnamed.group, callIn_eq hnamed hstop]
  rfl

theorem callIn_inside (h : header ∈ functionPattern.findAll text) :
    Inside (callIn header) header := by
  obtain ⟨front, opening, name, gap, rest, -, hnamed, -, -, hstop⟩ := exists_header_of_mem h
  refine ⟨?_, Nat.le_refl _⟩
  rw [hnamed.start, callIn_eq hnamed hstop, Python.start_callMatch, List.length_append]
  exact Nat.le_add_right _ _

theorem start_callIn_lt (h : header ∈ functionPattern.findAll text) :
    (callIn header).start < header.stop := by
  obtain ⟨front, opening, name, gap, rest, -, hnamed, -, -, hstop⟩ := exists_header_of_mem h
  rw [Match.stop, hstop, callIn_eq hnamed hstop, Python.start_callMatch]
  simp only [Place.between, List.length_append, List.length_singleton]
  omega

theorem start_lt_stop_of_call (h : call ∈ callPattern.findAll text) : call.start < call.stop := by
  obtain ⟨front, name, gap, rest, -, -, -, -, rfl⟩ := mem_findAll_callPattern.1 h
  simp only [Match.start, Match.stop, callMatch, Place.between, List.length_append,
    List.length_singleton]
  omega

theorem stop_eq_of_inside (hheader : header ∈ functionPattern.findAll text)
    (hcall : call ∈ callPattern.findAll text) (h : Inside call header) :
    call.stop = header.stop := by
  obtain ⟨front, opening, name, gap, rest, htext, hnamed, hparen, hgap, hstop⟩ :=
    exists_header_of_mem hheader
  obtain ⟨front', name', gap', rest', htext', -, -, -, rfl⟩ := mem_findAll_callPattern.1 hcall
  have hinner : '(' ∉ opening ++ (name ++ gap) := by
    rw [List.mem_append, List.mem_append]
    rintro (hmem | hmem | hmem)
    · exact hparen hmem
    · exact absurd (hnamed.isName.word _ hmem) (by decide)
    · exact absurd (hgap _ hmem) (by decide)
  have hsplit : front ++ (opening ++ (name ++ gap) ++ '(' :: rest) =
      front' ++ (name' ++ gap') ++ '(' :: rest' := by
    simp only [List.append_assoc]
    exact htext.symm.trans htext'
  have hstart : front.length ≤ front'.length := by
    rw [← hnamed.start]
    exact h.start_le
  have hle := h.stop_le
  have hbound := length_le_of_only hsplit hinner (by rw [List.length_append]; omega)
  rw [Match.stop, Match.stop, hstop] at hle ⊢
  simp only [callMatch, Place.between, List.length_append, List.length_singleton] at hle hbound ⊢
  omega

theorem eq_callIn_of_inside (hheader : header ∈ functionPattern.findAll text)
    (hcall : call ∈ callPattern.findAll text) (h : Inside call header) : call = callIn header := by
  have hstop : (callIn header).stop = header.stop := rfl
  have hstart := start_callIn_lt hheader
  have hcallStart : call.start < call.stop := start_lt_stop_of_call hcall
  have hend := stop_eq_of_inside hheader hcall h
  by_contra hne
  rcases apart_of_mem_findAll hcall (callIn_mem hheader) hne with hlt | hlt <;> omega

end Calls

/-! ## Counting -/

section Counting

variable {α κ : Type} [DecidableEq κ]

/-- **As often as all, or less.**  Some of the things found have a key no less often than all have
it, if and only if all that have it are among them. -/
theorem count_map_le_iff {own found : List α} (h : own.Sublist found) (hnodup : found.Nodup)
    (key : α → κ) (k : κ) :
    (found.map key).count k ≤ (own.map key).count k ↔ ∀ a ∈ found, key a = k → a ∈ own := by
  have hcount : ∀ l : List α, (l.map key).count k = (l.filter (key · == k)).length := by
    intro l
    rw [List.count, List.countP_map, List.countP_eq_length_filter]
    rfl
  rw [hcount, hcount]
  constructor
  · intro hle a ha hkey
    have hsame := (h.filter (key · == k)).eq_of_length_le hle
    have hmem : a ∈ found.filter (key · == k) := List.mem_filter.2 ⟨ha, beq_iff_eq.2 hkey⟩
    rw [← hsame] at hmem
    exact (List.mem_filter.1 hmem).1
  · intro hall
    refine (List.subperm_of_subset (hnodup.filter _) ?_).length_le
    intro a ha
    obtain ⟨hmem, hkey⟩ := List.mem_filter.1 ha
    exact List.mem_filter.2 ⟨hall a hmem (beq_iff_eq.1 hkey), hkey⟩

/-- What is at least as often on each line is as often on all if it is on each. -/
theorem count_flatMap_le_iff {f g : α → List κ} {k : κ} (ls : List α)
    (h : ∀ l ∈ ls, (g l).count k ≤ (f l).count k) :
    (ls.flatMap g).count k ≤ (ls.flatMap f).count k ∧
      ((ls.flatMap f).count k ≤ (ls.flatMap g).count k ↔
        ∀ l ∈ ls, (f l).count k ≤ (g l).count k) := by
  induction ls with
  | nil => simp
  | cons l ls ih =>
      obtain ⟨hl, hothers⟩ := List.forall_mem_cons.1 h
      obtain ⟨hle, hiff⟩ := ih hothers
      rw [List.flatMap_cons, List.flatMap_cons, List.count_append, List.count_append,
        List.forall_mem_cons, ← hiff]
      omega

end Counting

/-! ## Calls and tokens of a line -/

section Tokens

variable {text : List Char} {declaration : Match}

theorem tokenIn_eq {front opening name back : List Char}
    (h : Named declaration front opening name back) :
    tokenIn declaration = nameMatch (front ++ opening) name back := by
  rw [tokenIn, h.nameSpan_eq]
  rfl

theorem tokenIn_mem (h : declaration ∈ variablePattern.findAll text) :
    tokenIn declaration ∈ namePattern.findAll text := by
  obtain ⟨front, opening, name, back, htext, hnamed, hback, -⟩ := exists_declaration_of_mem h
  have hsplit : text = front ++ opening ++ (name ++ back) := by rw [htext, List.append_assoc]
  exact mem_findAll_namePattern.2 ⟨front ++ opening, name, back, hsplit,
    ⟨hnamed.isName, hnamed.begins, back, hsplit, hback⟩, hback, tokenIn_eq hnamed⟩

theorem text_tokenIn (h : declaration ∈ variablePattern.findAll text) :
    String.ofList (tokenIn declaration).text = nameOf declaration := by
  obtain ⟨front, opening, name, back, -, hnamed, -, -⟩ := exists_declaration_of_mem h
  rw [tokenIn_eq hnamed, hnamed.nameOf_eq, Python.text_nameMatch]

theorem group?_eq_span_tokenIn (h : declaration ∈ variablePattern.findAll text) :
    declaration.group? 1 = some (tokenIn declaration).span := by
  obtain ⟨front, opening, name, back, -, hnamed, -, -⟩ := exists_declaration_of_mem h
  rw [tokenIn, hnamed.nameSpan_eq, hnamed.group]

theorem start_tokenIn (h : declaration ∈ variablePattern.findAll text) :
    declaration.start ≤ (tokenIn declaration).start ∧
      (tokenIn declaration).start < declaration.stop := by
  obtain ⟨front, opening, name, back, -, hnamed, -, hstop⟩ := exists_declaration_of_mem h
  have hname := List.length_pos_iff.2 hnamed.isName.ne_nil
  rw [hnamed.start, Match.stop, hstop, tokenIn_eq hnamed, Python.start_nameMatch]
  simp only [Place.between, List.length_append]
  omega

theorem eq_tokenIn_of_group? {token : Match} (htoken : token ∈ namePattern.findAll text)
    (h : declaration.group? 1 = some token.span) : token = tokenIn declaration := by
  obtain ⟨front, name, back, -, -, -, rfl⟩ := mem_findAll_namePattern.1 htoken
  rw [tokenIn, nameSpan, h]
  rfl

end Tokens

/-- A header and the call token that it ends with. -/
structure EndsWithCall (header call : Match) : Prop where
  inside : Inside call header
  name : call.group? 1 = header.group? 1

theorem headers_have_calls (text : List Char) :
    ((functionPattern.findAll text).map callIn).Sublist (callPattern.findAll text) := by
  refine sublist_of_found (pairwise_map_findAll ?_) (pairwise_findAll callPattern text) ?_
  · exact fun header h => ⟨(callIn_inside h).start_le, start_callIn_lt h⟩
  · intro call hcall
    obtain ⟨header, hheader, rfl⟩ := List.mem_map.1 hcall
    exact callIn_mem hheader

theorem declarations_have_tokens (text : List Char) :
    ((variablePattern.findAll text).map tokenIn).Sublist (namePattern.findAll text) := by
  refine sublist_of_found (pairwise_map_findAll fun _ => start_tokenIn)
    (pairwise_findAll namePattern text) ?_
  intro token htoken
  obtain ⟨declaration, hdeclaration, rfl⟩ := List.mem_map.1 htoken
  exact tokenIn_mem hdeclaration

theorem sublistForall₂_of_map {α : Type} {R : α → α → Prop} {f : α → α} {outer found : List α}
    (h : (outer.map f).Sublist found) (hR : ∀ a ∈ outer, R a (f a)) :
    List.SublistForall₂ R outer found := by
  refine List.sublistForall₂_iff.2 ⟨outer.map f, ?_, h⟩
  rw [List.forall₂_map_right_iff]
  exact List.forall₂_same.2 hR

theorem map_nameOf_callIn (text : List Char) :
    ((functionPattern.findAll text).map callIn).map nameOf =
      (functionPattern.findAll text).map nameOf := by
  rw [List.map_map]
  exact List.map_congr_left (fun header h => nameOf_callIn h)

theorem map_text_tokenIn (text : List Char) :
    ((variablePattern.findAll text).map tokenIn).map (fun m => String.ofList m.text) =
      (variablePattern.findAll text).map nameOf := by
  rw [List.map_map]
  exact List.map_congr_left (fun declaration h => text_tokenIn h)

namespace CodeLine

variable (l : CodeLine) (name : String)

theorem count_names_le_calls : (l.names functionPattern).count name ≤ l.calls.count name := by
  have hnames : l.names functionPattern = _ := (map_nameOf_callIn l.code).symm
  rw [hnames]
  exact ((headers_have_calls l.code).map nameOf).count_le name

theorem count_names_le_identifiers :
    (l.names variablePattern).count name ≤ l.identifiers.count name := by
  have hnames : l.names variablePattern = _ := (map_text_tokenIn l.code).symm
  rw [hnames]
  exact ((declarations_have_tokens l.code).map _).count_le name

/-- **Calls of a line and headers.** -/
theorem count_calls_le_iff :
    l.calls.count name ≤ (l.names functionPattern).count name ↔
      ∀ call ∈ callPattern.findAll l.code, nameOf call = name →
        ∃ header ∈ functionPattern.findAll l.code, nameOf header = name ∧ Inside call header := by
  have hnames : l.names functionPattern = _ := (map_nameOf_callIn l.code).symm
  rw [hnames]
  have hnodup := nodup_of_pairwise_start (pairwise_findAll callPattern l.code)
  refine (count_map_le_iff (headers_have_calls l.code) hnodup nameOf name).trans ?_
  refine forall_congr' (fun call => forall_congr' (fun hcall => forall_congr' (fun hname => ?_)))
  rw [List.mem_map]
  constructor
  · rintro ⟨header, hheader, rfl⟩
    exact ⟨header, hheader, (nameOf_callIn hheader).symm.trans hname, callIn_inside hheader⟩
  · rintro ⟨header, hheader, -, hinside⟩
    exact ⟨header, hheader, (eq_callIn_of_inside hheader hcall hinside).symm⟩

/-- **Identifiers of a line and declarations.** -/
theorem count_identifiers_le_iff :
    l.identifiers.count name ≤ (l.names variablePattern).count name ↔
      ∀ token ∈ namePattern.findAll l.code, String.ofList token.text = name →
        ∃ declaration ∈ variablePattern.findAll l.code,
          declaration.group? 1 = some token.span := by
  have hnames : l.names variablePattern = _ := (map_text_tokenIn l.code).symm
  rw [hnames]
  have hnodup := nodup_of_pairwise_start (pairwise_findAll namePattern l.code)
  refine (count_map_le_iff (declarations_have_tokens l.code) hnodup _ name).trans ?_
  refine forall_congr' (fun token => forall_congr' (fun htoken => forall_congr' (fun _ => ?_)))
  rw [List.mem_map]
  refine exists_congr (fun declaration => and_congr_right (fun hdeclaration => ?_))
  constructor
  · rintro rfl
    exact group?_eq_span_tokenIn hdeclaration
  · intro hgroup
    exact (eq_tokenIn_of_group? htoken hgroup).symm

end CodeLine

/-! ## Unused names -/

/-- **Unused names are exact.**  A declared function is unused if and only if each call token of its
name, on any line, lies within a header of that name; a declared variable, if and only if each
identifier that is its name is the name of a declaration.  Every header has a call token of its own
and every declaration an identifier of its own, so names are counted no less often than they are
declared, and where the count decides that a name is unused the two are equal.  What is unused is
declared, in the same order. -/
theorem unused_names_exact (source : String) :
    (∀ f ∈ (analyze source).declaredFunctions, f ∈ (analyze source).unusedFunctions ↔
      ∀ l ∈ codeLines (linesOf source), ∀ call ∈ callPattern.findAll l.code,
        nameOf call = f.name → ∃ header ∈ functionPattern.findAll l.code,
          nameOf header = f.name ∧ Inside call header) ∧
    (∀ v ∈ (analyze source).declaredVariables, v ∈ (analyze source).unusedVariables ↔
      ∀ l ∈ codeLines (linesOf source), ∀ token ∈ namePattern.findAll l.code,
        String.ofList token.text = v.name → ∃ declaration ∈ variablePattern.findAll l.code,
          declaration.group? 1 = some token.span) ∧
    (∀ l ∈ codeLines (linesOf source),
      List.SublistForall₂ EndsWithCall (functionPattern.findAll l.code)
        (callPattern.findAll l.code) ∧
      List.SublistForall₂ (fun declaration token => declaration.group? 1 = some token.span)
        (variablePattern.findAll l.code) (namePattern.findAll l.code)) ∧
    (∀ name,
      (((codeLines (linesOf source)).flatMap CodeLine.calls).count name ≤
          ((codeLines (linesOf source)).flatMap (CodeLine.names functionPattern)).count name →
        ((codeLines (linesOf source)).flatMap CodeLine.calls).count name =
          ((codeLines (linesOf source)).flatMap (CodeLine.names functionPattern)).count name) ∧
      (((codeLines (linesOf source)).flatMap CodeLine.identifiers).count name ≤
          ((codeLines (linesOf source)).flatMap (CodeLine.names variablePattern)).count name →
        ((codeLines (linesOf source)).flatMap CodeLine.identifiers).count name =
          ((codeLines (linesOf source)).flatMap (CodeLine.names variablePattern)).count name)) ∧
    (analyze source).unusedFunctions.Sublist (analyze source).declaredFunctions ∧
    (analyze source).unusedVariables.Sublist (analyze source).declaredVariables := by
  have hcalls := fun name => count_flatMap_le_iff (codeLines (linesOf source))
    (fun l _ => CodeLine.count_names_le_calls l name)
  have htokens := fun name => count_flatMap_le_iff (codeLines (linesOf source))
    (fun l _ => CodeLine.count_names_le_identifiers l name)
  refine ⟨?_, ?_, ?_, ?_, List.filter_sublist, List.filter_sublist⟩
  · intro f hf
    refine (List.mem_filter.trans (and_iff_right hf)).trans (decide_eq_true_iff.trans ?_)
    exact (hcalls f.name).2.trans (forall₂_congr (fun l _ => l.count_calls_le_iff f.name))
  · intro v hv
    refine (List.mem_filter.trans (and_iff_right hv)).trans (decide_eq_true_iff.trans ?_)
    exact (htokens v.name).2.trans (forall₂_congr (fun l _ => l.count_identifiers_le_iff v.name))
  · intro l _
    refine ⟨sublistForall₂_of_map (headers_have_calls l.code) ?_,
      sublistForall₂_of_map (declarations_have_tokens l.code) ?_⟩
    · exact fun header h => ⟨callIn_inside h, group?_callIn h⟩
    · exact fun declaration h => group?_eq_span_tokenIn h
  · intro name
    exact ⟨fun hle => Nat.le_antisymm hle (hcalls name).1,
      fun hle => Nat.le_antisymm hle (htokens name).1⟩

/-- One function calls the other, and the name of a variable is used by none. -/
def callerAlone : String := "function used() {}\nfunction alone() { used(); }\nlet spare = 1;"

/-- The caller and the variable are declared and unused, and each of their tokens is a declaration. -/
theorem unused_callerAlone :
    ⟨"used", 1⟩ ∉ (analyze callerAlone).unusedFunctions ∧
    ⟨"alone", 2⟩ ∈ (analyze callerAlone).declaredFunctions ∧
    ⟨"alone", 2⟩ ∈ (analyze callerAlone).unusedFunctions ∧
    (∀ l ∈ codeLines (linesOf callerAlone), ∀ call ∈ callPattern.findAll l.code,
      nameOf call = "alone" → ∃ header ∈ functionPattern.findAll l.code,
        nameOf header = "alone" ∧ Inside call header) ∧
    ⟨"spare", 3⟩ ∈ (analyze callerAlone).declaredVariables ∧
    ⟨"spare", 3⟩ ∈ (analyze callerAlone).unusedVariables ∧
    (∀ l ∈ codeLines (linesOf callerAlone), ∀ token ∈ namePattern.findAll l.code,
      String.ofList token.text = "spare" → ∃ declaration ∈ variablePattern.findAll l.code,
        declaration.group? 1 = some token.span) := by
  obtain ⟨hfunctions, hvariables, -⟩ := unused_names_exact callerAlone
  have halone : ⟨"alone", 2⟩ ∈ (analyze callerAlone).declaredFunctions := by decide
  have haloneUnused : ⟨"alone", 2⟩ ∈ (analyze callerAlone).unusedFunctions := by decide
  have hspare : ⟨"spare", 3⟩ ∈ (analyze callerAlone).declaredVariables := by decide
  have hspareUnused : ⟨"spare", 3⟩ ∈ (analyze callerAlone).unusedVariables := by decide
  exact ⟨by decide, halone, haloneUnused, (hfunctions ⟨"alone", 2⟩ halone).1 haloneUnused,
    hspare, hspareUnused, (hvariables ⟨"spare", 3⟩ hspare).1 hspareUnused⟩

end CodeSurvey.JavaScript
