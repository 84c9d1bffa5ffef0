/-
# Declarations with semicolons in their values

A semicolon ends a declaration, but for those that stand between quotes or inside `url(…)`: these
belong to a value.  A body is cut at every semicolon all the same, so the value of such a
declaration ends at its first semicolon, and what stands behind it comes as fragments of its own,
the strays of the declaration (`piecesOf_bodyOf`).  A stray with a colon counts as a declaration,
and what is in front of its colon as the name of a property; one without a colon is remarked on as
it is.

Something that is not blank follows every semicolon of a value, if only the mark that closes it, so
each leaves a stray.  So a block is read as it is declared exactly if no value has a semicolon
(`asDeclared_iff_of_fragments`).
-/
import CodeSurvey.Proofs.Css.Tables
import CodeSurvey.Proofs.Pattern.WholeWords

namespace CodeSurvey.Css

open Text

/-! ## Values and declarations -/

/-- Whether a text stays between its quotes: a quote in it is escaped, and so is a backslash. -/
def staysQuoted (quote : Char) : List Char → Bool
  | '\\' :: c :: rest => c != '\n' && staysQuoted quote rest
  | c :: rest => c != quote && c != '\\' && c != '\n' && staysQuoted quote rest
  | [] => true

/-- Whether a character stands in a value by itself: it is on the line, ends nothing and opens no
quotes. -/
def isPlainInValue (c : Char) : Bool := c != ';' && c != '\n' && c != '"' && c != '\''

/-- Whether a character stays inside a `url(…)`. -/
def staysInUrl (c : Char) : Bool := c != ')' && c != '\n'

/-- Whether a character may stand in the name of a property. -/
def isPropertyChar (c : Char) : Bool := c != ':' && c != ';' && c != '\n'

/-- A part of a value: one character, a text between quotes, or the text of a `url(…)`. -/
inductive ValuePart where
  | char (c : Char) (plain : isPlainInValue c = true)
  | quoted (quote : Char) (text : List Char) (mark : quote = '"' ∨ quote = '\'')
      (stays : staysQuoted quote text = true)
  | url (text : List Char) (inside : text.all staysInUrl = true)

def ValuePart.text : ValuePart → List Char
  | char c _ => [c]
  | quoted quote text _ _ => quote :: (text ++ [quote])
  | url text _ => 'u' :: 'r' :: 'l' :: '(' :: (text ++ [')'])

/-- A declaration `name: value;` on one line, behind blanks. -/
structure Declaration where
  /-- The blanks in front, and the ends of the lines in front. -/
  lead : List Char
  name : List Char
  /-- The blanks between the name and its colon. -/
  gap : List Char
  value : List ValuePart
  lead_blank : isBlankText lead = true
  named : name ≠ []
  trimmed : name.head?.any isBlank = false ∧ name.getLast?.any isBlank = false
  name_chars : name.all isPropertyChar = true
  gap_blank : ∀ c ∈ gap, isBlank c = true ∧ c ≠ '\n'

namespace Declaration

/-- The text of the value, from the colon to the semicolon that ends the declaration. -/
def valueText (d : Declaration) : List Char := d.value.flatMap ValuePart.text

/-- The name and the colon. -/
def front (d : Declaration) : List Char := d.name ++ (d.gap ++ [':'])

def text (d : Declaration) : List Char := d.lead ++ ((d.front ++ d.valueText) ++ [';'])

/-- The name of the property that is declared. -/
def property (d : Declaration) : String := String.ofList d.name

end Declaration

/-- The text of declarations, with blanks behind them. -/
def bodyOf (ds : List Declaration) (tail : List Char) : List Char :=
  ds.flatMap Declaration.text ++ tail

/-! ## What declarations leave -/

/-- Pieces without the blanks around them, the blank ones apart. -/
def trimmedPieces (pieces : List (List Char)) : List (List Char) :=
  (pieces.map trim).filter (fun piece => !piece.isEmpty)

def endsFragment (c : Char) : Bool := c == '\n' || c == ';'

/-- The name in front of the first colon of a text. -/
def nameOf (text : List Char) : String := String.ofList (trim (before (· == ':') text))

namespace Declaration

/-- The declaration up to its first semicolon. -/
def head (d : Declaration) : List Char := d.front ++ trimEndOf isBlank (before (· == ';') d.valueText)

/-- What stands between the semicolons behind the first one. -/
def strays (d : Declaration) : List (List Char) :=
  trimmedPieces (splitAt ';' d.valueText).tail

def colonlessStrays (d : Declaration) : List (List Char) :=
  d.strays.filter (fun stray => !stray.contains ':')

def strayNames (d : Declaration) : List String :=
  (d.strays.filter (·.contains ':')).map nameOf

end Declaration

section Pieces

variable {piece : List Char} {pieces others : List (List Char)}

theorem piecesOf_eq (body : List Char) :
    piecesOf body = trimmedPieces (splitWhere endsFragment body) := rfl

theorem trimmedPieces_append (pieces others : List (List Char)) :
    trimmedPieces (pieces ++ others) = trimmedPieces pieces ++ trimmedPieces others := by
  rw [trimmedPieces, List.map_append, List.filter_append]
  rfl

theorem trimmedPieces_cons (h : trim piece ≠ []) :
    trimmedPieces (piece :: others) = trim piece :: trimmedPieces others := by
  rw [trimmedPieces, List.map_cons, List.filter_cons_of_pos (by simpa using h)]
  rfl

theorem trimmedPieces_eq_nil_iff :
    trimmedPieces pieces = [] ↔ ∀ piece ∈ pieces, ∀ c ∈ piece, isBlank c = true := by
  simp only [trimmedPieces, List.filter_eq_nil_iff, List.forall_mem_map, Bool.not_eq_true',
    Bool.not_eq_false, isEmpty_trim, isBlankText, List.all_eq_true]

theorem trim_append_of_blank {gap : List Char} (hgap : ∀ c ∈ gap, isBlank c = true)
    (text : List Char) : trim (gap ++ text) = trim text := by
  have hstart : trimStartOf isBlank (gap ++ text) = trimStartOf isBlank text :=
    List.dropWhile_append_of_pos hgap
  rw [trim, hstart, trim]

theorem piecesOf_blank {gap : List Char} (hgap : ∀ c ∈ gap, isBlank c = true) :
    piecesOf gap = [] := by
  rw [piecesOf_eq, trimmedPieces_eq_nil_iff]
  exact fun piece hpiece c hc => hgap c ((isInfix_of_mem_splitWhere hpiece).subset hc)

theorem piecesOf_blank_append {gap text first : List Char} {others : List (List Char)}
    (hgap : ∀ c ∈ gap, isBlank c = true) (htext : splitWhere endsFragment text = first :: others)
    (hfirst : trim first ≠ []) :
    piecesOf (gap ++ text) = trim first :: trimmedPieces others := by
  obtain ⟨pieces, last, hpieces, hlonger⟩ := splitWhere_append endsFragment gap
  obtain ⟨first', others', htext', hboth⟩ := hlonger text
  obtain ⟨rfl, rfl⟩ := List.cons.inj (htext.symm.trans htext')
  have hblank : ∀ piece ∈ pieces ++ [last], ∀ c ∈ piece, isBlank c = true := by
    rw [← hpieces]
    exact fun piece hpiece c hc => hgap c ((isInfix_of_mem_splitWhere hpiece).subset hc)
  have hlast : ∀ c ∈ last, isBlank c = true :=
    hblank last (List.mem_append_right _ (List.mem_singleton_self last))
  have hfront : trimmedPieces pieces = [] :=
    trimmedPieces_eq_nil_iff.2 (fun piece hpiece => hblank piece (List.mem_append_left _ hpiece))
  have hhead := trim_append_of_blank hlast first
  rw [piecesOf_eq, hboth, trimmedPieces_append, hfront, List.nil_append,
    trimmedPieces_cons (by rwa [hhead]), hhead]

end Pieces

/-! ## The semicolons of a value -/

section Values

theorem newline_not_mem_of_staysQuoted {quote : Char} {text : List Char}
    (h : staysQuoted quote text = true) : '\n' ∉ text := by
  fun_induction staysQuoted quote text with
  | case1 c rest ih =>
      obtain ⟨hc, hrest⟩ := Bool.and_eq_true_iff.1 h
      simp only [List.mem_cons, not_or]
      exact ⟨by decide, (bne_iff_ne.1 hc).symm, ih hrest⟩
  | case2 c rest _ ih =>
      obtain ⟨hchars, hrest⟩ := Bool.and_eq_true_iff.1 h
      obtain ⟨-, hc⟩ := Bool.and_eq_true_iff.1 hchars
      exact List.not_mem_cons_of_ne_of_not_mem (bne_iff_ne.1 hc).symm (ih hrest)
  | case3 => exact List.not_mem_nil

theorem ValuePart.newline_not_mem (part : ValuePart) : '\n' ∉ part.text := by
  cases part with
  | char c plain =>
      rw [text, List.mem_singleton]
      rintro rfl
      cases plain
  | quoted quote text mark stays =>
      have hquote : '\n' ≠ quote := by
        rcases mark with rfl | rfl <;> decide
      simp only [ValuePart.text, List.mem_cons, List.mem_append, List.not_mem_nil, or_false, not_or]
      exact ⟨hquote, newline_not_mem_of_staysQuoted stays, hquote⟩
  | url text inside =>
      simp only [ValuePart.text, List.mem_cons, List.mem_append, List.not_mem_nil, or_false, not_or]
      refine ⟨by decide, by decide, by decide, by decide, fun hmem => ?_, by decide⟩
      have hnewline := List.all_eq_true.1 inside _ hmem
      cases hnewline

theorem ValuePart.exists_closer {part : ValuePart} (h : ';' ∈ part.text) :
    ∃ inner closer, part.text = inner ++ [closer] ∧ ';' ∈ inner ∧ isBlank closer = false ∧
      closer ≠ ';' := by
  cases part with
  | char c plain =>
      obtain rfl := List.mem_singleton.1 h
      cases plain
  | quoted quote text mark stays =>
      have hblank : isBlank quote = false := by
        rcases mark with rfl | rfl <;> decide
      have hquote : quote ≠ ';' := by
        rcases mark with rfl | rfl <;> decide
      refine ⟨quote :: text, quote, rfl, ?_, hblank, hquote⟩
      have hmem : ';' ∈ (quote :: text) ++ [quote] := h
      exact (List.mem_append.1 hmem).resolve_right
        (fun hlast => hquote (List.mem_singleton.1 hlast).symm)
  | url text inside =>
      refine ⟨'u' :: 'r' :: 'l' :: '(' :: text, ')', rfl, ?_, by decide, by decide⟩
      have hmem : ';' ∈ ('u' :: 'r' :: 'l' :: '(' :: text) ++ [')'] := h
      exact (List.mem_append.1 hmem).resolve_right
        (fun hlast => absurd (List.mem_singleton.1 hlast) (by decide))

variable (d : Declaration)

theorem Declaration.newline_not_mem_valueText : '\n' ∉ d.valueText := by
  intro hmem
  obtain ⟨part, -, hpart⟩ := List.mem_flatMap.1 hmem
  exact part.newline_not_mem hpart

/-- **A value leaves strays exactly if it has a semicolon.** -/
theorem Declaration.strays_eq_nil_iff : d.strays = [] ↔ ';' ∉ d.valueText := by
  rw [strays, trimmedPieces_eq_nil_iff]
  constructor
  · intro hblank hmem
    obtain ⟨part, hpart, hsemicolon⟩ := List.mem_flatMap.1 hmem
    obtain ⟨inner, closer, htext, hinner, hcloser, hother⟩ := ValuePart.exists_closer hsemicolon
    obtain ⟨before, after, hvalue⟩ := List.append_of_mem hpart
    -- the closing mark stands behind the semicolon, so in a piece behind the first one
    have hcut : d.valueText = (before.flatMap ValuePart.text ++ inner) ++
        closer :: after.flatMap ValuePart.text := by
      rw [valueText, hvalue, List.flatMap_append, List.flatMap_cons, htext]
      simp only [List.append_assoc, List.cons_append, List.nil_append]
    obtain ⟨stray, hstray, hmem⟩ := exists_mem_tail_splitAt
      (List.mem_append_right (before.flatMap ValuePart.text) hinner) hother
      (after.flatMap ValuePart.text)
    rw [← hcut] at hstray
    have hnot := hblank stray hstray closer hmem
    rw [hcloser] at hnot
    cases hnot
  · intro hfree
    rw [splitAt_free hfree]
    exact List.forall_mem_nil _

end Values

/-! ## The fragments of declarations -/

namespace Declaration

variable (d : Declaration)

theorem ne_of_mem_name {c : Char} (hc : c ∈ d.name) : c ≠ ':' ∧ c ≠ ';' ∧ c ≠ '\n' := by
  have hchar := List.all_eq_true.1 d.name_chars c hc
  simpa only [isPropertyChar, Bool.and_eq_true, bne_iff_ne, and_assoc] using hchar

theorem colon_mem_head : d.head.contains ':' = true := by
  rw [List.contains_iff_mem, head, front]
  simp

theorem head_ne_nil : d.head ≠ [] :=
  List.ne_nil_of_mem (List.contains_iff_mem.1 d.colon_mem_head)

theorem endsFragment_of_mem_front {c : Char} (hc : c ∈ d.front) : endsFragment c = false := by
  have hne : c ≠ '\n' ∧ c ≠ ';' := by
    simp only [front, List.mem_append, List.mem_singleton] at hc
    rcases hc with hc | hc | rfl
    · exact ⟨(d.ne_of_mem_name hc).2.2, (d.ne_of_mem_name hc).2.1⟩
    · refine ⟨(d.gap_blank c hc).2, ?_⟩
      rintro rfl
      exact absurd (d.gap_blank _ hc).1 (by decide)
    · decide
  rw [endsFragment, beq_false_of_ne hne.1, beq_false_of_ne hne.2]
  rfl

theorem trim_front_append (text : List Char) :
    trim (d.front ++ text) = d.front ++ trimEndOf isBlank text := by
  obtain ⟨c, others, hname⟩ := List.exists_cons_of_ne_nil d.named
  have hc : isBlank c = false := by
    have hfirst := d.trimmed.1
    rw [hname] at hfirst
    exact hfirst
  have hstart : trimStartOf isBlank (d.front ++ text) = d.front ++ text := by
    rw [front, hname]
    exact List.dropWhile_cons_of_neg (Bool.eq_false_iff.1 hc)
  have hlast : d.front.getLast?.any isBlank = false := by
    rw [front, ← List.append_assoc, List.getLast?_concat]
    rfl
  rw [trim, hstart, trimEndOf_append_of_last hlast]

theorem nameOf_head : nameOf d.head = d.property := by
  have hcolon : ∀ c ∈ d.name ++ d.gap, (!(c == ':')) = true := by
    intro c hc
    have hne : c ≠ ':' := by
      rcases List.mem_append.1 hc with hc | hc
      · exact (d.ne_of_mem_name hc).1
      · rintro rfl
        exact absurd (d.gap_blank _ hc).1 (by decide)
    rw [beq_false_of_ne hne]
    rfl
  have hbefore : before (· == ':') d.head = d.name ++ d.gap := by
    rw [head, front, ← List.append_assoc, List.append_assoc, before,
      List.takeWhile_append_of_pos hcolon]
    simp
  have hname : trim ([] ++ (d.name ++ d.gap)) = d.name :=
    trim_between (List.forall_mem_nil _) (fun c hc => (d.gap_blank c hc).1) d.trimmed.1 d.trimmed.2
  rw [nameOf, hbefore, property]
  exact congrArg String.ofList hname

theorem splitWhere_front_append (d : Declaration) :
    splitWhere endsFragment (d.front ++ d.valueText) =
      (d.front ++ before (· == ';') d.valueText) :: (splitAt ';' d.valueText).tail := by
  have hvalue : splitWhere endsFragment d.valueText = splitAt ';' d.valueText := by
    refine splitWhere_congr (fun c hc => ?_)
    have hne : c ≠ '\n' := fun heq => d.newline_not_mem_valueText (heq ▸ hc)
    rw [endsFragment, beq_false_of_ne hne, Bool.false_or]
  have hpieces : splitAt ';' d.valueText =
      before (· == ';') d.valueText :: (splitAt ';' d.valueText).tail :=
    splitWhere_eq_before_cons _ _
  exact splitWhere_append_of_free (fun c hc => d.endsFragment_of_mem_front hc)
    (hvalue.trans hpieces)

/-- **A declaration leaves its front and its strays**, whatever stands behind it. -/
theorem piecesOf_text_append (rest : List Char) :
    piecesOf (d.text ++ rest) = d.head :: d.strays ++ piecesOf rest := by
  have hfirst : trim (d.front ++ before (· == ';') d.valueText) = d.head := d.trim_front_append _
  have hhere : piecesOf (d.lead ++ (d.front ++ d.valueText)) = d.head :: d.strays := by
    rw [piecesOf_blank_append (List.all_eq_true.1 d.lead_blank) d.splitWhere_front_append
      (by rw [hfirst]; exact d.head_ne_nil), hfirst]
    rfl
  have htext : d.text ++ rest = (d.lead ++ (d.front ++ d.valueText)) ++ ';' :: rest := by
    simp only [text, List.append_assoc, List.cons_append, List.nil_append]
  rw [htext, piecesOf_eq, splitWhere_append_cons rfl, trimmedPieces_append, ← piecesOf_eq,
    ← piecesOf_eq, hhere]

end Declaration

/-- **The fragments of declarations** are their fronts and their strays. -/
theorem piecesOf_bodyOf (ds : List Declaration) {tail : List Char}
    (htail : ∀ c ∈ tail, isBlank c = true) :
    piecesOf (bodyOf ds tail) = ds.flatMap (fun d => d.head :: d.strays) := by
  induction ds with
  | nil => exact piecesOf_blank htail
  | cons d ds ih =>
      have hbody : bodyOf (d :: ds) tail = d.text ++ bodyOf ds tail := by
        rw [bodyOf, List.flatMap_cons, List.append_assoc]
        rfl
      rw [hbody, d.piecesOf_text_append, ih, List.flatMap_cons]

/-! ## What is found of a block of declarations -/

/-- What is read of a block of declarations. -/
structure Block.ReadsDeclarations (b : Block) (ds : List Declaration) : Prop where
  /-- Its fragments are the declarations up to their first semicolons, each with its strays. -/
  fragments : b.fragments.map (·.text) = ds.flatMap (fun d => d.head :: d.strays)
  /-- The strays without a colon are remarked on. -/
  colonless : b.colonless.map (·.text) = ds.flatMap Declaration.colonlessStrays
  /-- The names that are checked are those declared, each with the names of its strays. -/
  names : b.declarations.map Fragment.name = ds.flatMap (fun d => d.property :: d.strayNames)
  /-- Nothing is remarked on and the names are those declared if no value has a semicolon, and only
  then. -/
  asDeclared_iff : b.colonless = [] ∧ b.declarations.map Fragment.name = ds.map (·.property) ↔
    ∀ d ∈ ds, ';' ∉ d.valueText

section Blocks

variable {b : Block} {ds : List Declaration}

theorem map_text_filter (fragments : List Fragment) (p : List Char → Bool) :
    (fragments.filter (fun f => p f.text)).map (·.text) = (fragments.map (·.text)).filter p := by
  rw [List.filter_map]
  rfl

theorem colonless_of_fragments
    (h : b.fragments.map (·.text) = ds.flatMap (fun d => d.head :: d.strays)) :
    b.colonless.map (·.text) = ds.flatMap Declaration.colonlessStrays := by
  rw [Block.colonless, map_text_filter b.fragments (fun text => !text.contains ':'), h,
    List.filter_flatMap]
  refine List.flatMap_congr (fun d _ => ?_)
  rw [List.filter_cons_of_neg (by rw [d.colon_mem_head]; decide)]
  rfl

theorem names_of_fragments
    (h : b.fragments.map (·.text) = ds.flatMap (fun d => d.head :: d.strays)) :
    b.declarations.map Fragment.name = ds.flatMap (fun d => d.property :: d.strayNames) := by
  have hnames : b.declarations.map Fragment.name = (b.declarations.map (·.text)).map nameOf := by
    rw [List.map_map]
    rfl
  rw [hnames, Block.declarations, map_text_filter b.fragments (·.contains ':'), h,
    List.filter_flatMap, List.map_flatMap]
  refine List.flatMap_congr (fun d _ => ?_)
  have hkept : (d.head :: d.strays).filter (fun text => text.contains ':') =
      d.head :: d.strays.filter (fun text => text.contains ':') :=
    List.filter_cons_of_pos d.colon_mem_head
  rw [hkept, List.map_cons, d.nameOf_head]
  rfl

theorem length_flatMap_cons {α β : Type} (f : α → β) (g : α → List β) (l : List α) :
    (l.flatMap (fun a => f a :: g a)).length = l.length + (l.flatMap g).length := by
  induction l with
  | nil => rfl
  | cons a l ih =>
      rw [List.flatMap_cons, List.flatMap_cons, List.length_append, ih, List.length_append,
        List.length_cons, List.length_cons]
      omega

/-- Each element is put down alone if nothing is put down with any. -/
theorem flatMap_cons_eq_map_iff {α β : Type} {f : α → β} {g : α → List β} {l : List α} :
    l.flatMap (fun a => f a :: g a) = l.map f ↔ ∀ a ∈ l, g a = [] := by
  constructor
  · intro h
    have hlength := length_flatMap_cons f g l
    rw [h, List.length_map] at hlength
    have hnil : (l.flatMap g).length = 0 := by omega
    exact List.flatMap_eq_nil_iff.1 (List.length_eq_zero_iff.1 hnil)
  · intro h
    rw [← List.flatMap_singleton' (l.map f), List.flatMap_map]
    exact List.flatMap_congr (fun a ha => by rw [h a ha])

theorem asDeclared_iff_of_fragments
    (h : b.fragments.map (·.text) = ds.flatMap (fun d => d.head :: d.strays)) :
    b.colonless = [] ∧ b.declarations.map Fragment.name = ds.map (·.property) ↔
      ∀ d ∈ ds, ';' ∉ d.valueText := by
  have hcolonless : b.colonless = [] ↔ ∀ d ∈ ds, d.colonlessStrays = [] := by
    rw [← List.map_eq_nil_iff (f := (·.text)), colonless_of_fragments h, List.flatMap_eq_nil_iff]
  rw [hcolonless, names_of_fragments h, flatMap_cons_eq_map_iff]
  -- a value leaves no stray, if none with a colon and none without
  constructor
  · rintro ⟨hwithout, hwith⟩ d hd
    refine d.strays_eq_nil_iff.1 (List.eq_nil_iff_forall_not_mem.2 (fun stray hstray => ?_))
    cases hcolon : stray.contains ':' with
    | true =>
        have hmem : nameOf stray ∈ d.strayNames :=
          List.mem_map_of_mem (List.mem_filter.2 ⟨hstray, hcolon⟩)
        rw [hwith d hd] at hmem
        exact List.not_mem_nil hmem
    | false =>
        have hmem : stray ∈ d.colonlessStrays :=
          List.mem_filter.2 ⟨hstray, by rw [hcolon]; rfl⟩
        rw [hwithout d hd] at hmem
        exact List.not_mem_nil hmem
  · intro hfree
    have hnone : ∀ d ∈ ds, d.strays = [] := fun d hd => d.strays_eq_nil_iff.2 (hfree d hd)
    refine ⟨fun d hd => ?_, fun d hd => ?_⟩
    · rw [Declaration.colonlessStrays, hnone d hd, List.filter_nil]
    · rw [Declaration.strayNames, hnone d hd, List.filter_nil, List.map_nil]

theorem readsDeclarations {tail : List Char} (htail : ∀ c ∈ tail, isBlank c = true)
    (hbody : b.body = bodyOf ds tail) : b.ReadsDeclarations ds := by
  have hfragments : b.fragments.map (·.text) = ds.flatMap (fun d => d.head :: d.strays) := by
    rw [b.fragments_text, hbody, piecesOf_bodyOf ds htail]
  exact ⟨hfragments, colonless_of_fragments hfragments, names_of_fragments hfragments,
    asDeclared_iff_of_fragments hfragments⟩

end Blocks

def blocksOfSource (source : String) : List Block :=
  blocks (blankComments (unifyEndings source.toList))

/-- **A value ends at its first semicolon.**  What is found of a source is found block by block, and
a block of declarations is read as it is declared exactly if none of its values has a semicolon. -/
theorem values_end_at_semicolons (source : String) :
    BlockByBlock (blocksOfSource source) (analyze source) ∧
      ∀ b ∈ blocksOfSource source, ∀ ds tail, (∀ c ∈ tail, isBlank c = true) →
        b.body = bodyOf ds tail → b.ReadsDeclarations ds :=
  ⟨blockByBlock _ none, fun _ _ _ _ htail hbody => readsDeclarations htail hbody⟩

/-- A background whose value has a semicolon within its parentheses. -/
def dataBackground : Declaration where
  lead := []
  name := "background".toList
  gap := []
  value := [.url "data:a;b".toList rfl]
  lead_blank := rfl
  named := by decide
  trimmed := ⟨rfl, rfl⟩
  name_chars := rfl
  gap_blank := List.forall_mem_nil _

/-- A cursor whose value has a semicolon and a colon within its quotes. -/
def quotedCursor : Declaration where
  lead := [' ']
  name := "cursor".toList
  gap := []
  value := [.char ' ' rfl, .quoted '"' "a;b:c".toList (.inl rfl) rfl]
  lead_blank := rfl
  named := by decide
  trimmed := ⟨rfl, rfl⟩
  name_chars := rfl
  gap_blank := List.forall_mem_nil _

/-- A source of one block with both declarations. -/
def twoValues : String := ".a\x7bbackground:url(data:a;b); cursor: \"a;b:c\";\x7d"

def twoValuesBlock : Block := ⟨".a", 1, bodyOf [dataBackground, quotedCursor] [], 1⟩

theorem blocksOfSource_twoValues : blocksOfSource twoValues = [twoValuesBlock] := by
  decide +kernel

theorem twoValues_end_at_semicolons :
    twoValuesBlock ∈ blocksOfSource twoValues ∧
      twoValuesBlock.ReadsDeclarations [dataBackground, quotedCursor] := by
  have hmem : twoValuesBlock ∈ blocksOfSource twoValues := by
    rw [blocksOfSource_twoValues]
    exact List.mem_singleton_self _
  exact ⟨hmem, (values_end_at_semicolons twoValues).2 twoValuesBlock hmem _ []
    (List.forall_mem_nil _) rfl⟩

/-- Of the two declarations one leaves a remark, and the other a name that is not declared. -/
theorem twoValues_misread : blocksOfSource twoValues = [twoValuesBlock] ∧
    (analyze twoValues).invalidProperties = [⟨".a", 1, "b)"⟩] ∧
    (analyze twoValues).unknownProperties = [⟨".a", 1, "b"⟩] := by
  decide +kernel

end CodeSurvey.Css
