/-
# The parameters of a header

The parameter list of a header is cut at every comma, and of each piece the name at its front is
kept.  A piece that begins a parameter gives the name of that parameter.  A comma within an
annotation or a default begins a piece as well, and if that piece reads like a parameter, its name
is taken for one (`parameters_listText`).  So a list is read as it is meant exactly if no such piece
reads like a parameter.  Where the list ends is told by the last parenthesis that may end a header
(`definition?_text`).
-/
import CodeSurvey.Proofs.Pattern.Repetition
import CodeSurvey.Proofs.Python.Uses
import CodeSurvey.Proofs.Text.Pieces

namespace CodeSurvey.Python

open Text Pattern

/-! ## One parameter -/

theorem ne_of_class {p : Char → Bool} {c d : Char} (hc : p c = true) (hd : p d = false) :
    c ≠ d := by
  rintro rfl
  rw [hc] at hd
  cases hd

theorem occurs_wholeName {name : List Char} (h : IsName name) : wholeName.occurs name = true := by
  have hanchored : Anchored wholeName := by
    unfold wholeName
    iterate 2 refine Requires.append ?_ _
    exact anchored_textStart
  have hname : First identifier (Place.start name, []) (Place.between name [], []) := by
    have hwhole := @first_identifier_between [] name [] [] h rfl
    rw [List.append_nil, List.nil_append] at hwhole
    exact hwhole
  have hstart : First textStart (Place.start name, []) (Place.start name, []) := rfl
  have hend : First textEnd (Place.between name [], []) (Place.between name [], []) := rfl
  have hfirst : First wholeName (Place.start name, []) (Place.between name [], []) :=
    .append (.append hstart hname) hend
  rw [occurs, hanchored.find?_eq, hfirst.matchAt?_eq]
  rfl

/-- A parameter as it is written: a name behind blanks and stars, and behind it what annotates it
and what it defaults to. -/
structure Parameter where
  indent : List Char
  stars : List Char
  space : List Char
  name : List Char
  gap : List Char
  /-- The annotation and the default, with the marks in front of them. -/
  tail : List Char
  indent_blank : ∀ c ∈ indent, isBlank c = true
  stars_star : ∀ c ∈ stars, c = '*'
  space_blank : ∀ c ∈ space, isBlank c = true
  /-- Without a star, the blanks in front of the name are the indent. -/
  space_stars : stars = [] → space = []
  isName : IsName name
  not_keyword : isKeyword (String.ofList name) = false
  gap_blank : ∀ c ∈ gap, isBlank c = true
  tail_head : ∀ c, tail.head? = some c → c = ':' ∨ c = '='

namespace Parameter

variable (p : Parameter)

/-- The name with its stars. -/
def starred : List Char := p.stars ++ (p.space ++ p.name)

/-- The parameter up to its annotation and default. -/
def front : List Char := p.indent ++ (p.starred ++ p.gap)

def text : List Char := p.front ++ p.tail

/-- What the parameter declares: its name, unless it is that of the object or of its class. -/
def declared? : Option String :=
  if String.ofList p.name = "self" ∨ String.ofList p.name = "cls" then none
  else some (String.ofList p.name)

/-- What is read like a parameter behind the commas of the annotation and of the default. -/
def strays : List String := (splitAt ',' p.tail).tail.filterMap parameterName?

theorem getLast?_starred : p.starred.getLast?.any isBlank = false := by
  have hlast : p.starred.getLast? = p.name.getLast? := by
    rw [starred, List.getLast?_append, List.getLast?_append,
      List.getLast?_eq_some_getLast p.isName.ne_nil]
    rfl
  rw [hlast, List.getLast?_eq_some_getLast p.isName.ne_nil]
  exact not_isBlank_of_isWordChar (p.isName.word _ (List.getLast_mem _))

theorem head?_starred : p.starred.head?.any isBlank = false := by
  cases hstars : p.stars with
  | nil =>
      obtain ⟨first, others, hname, hfirst, -⟩ := p.isName
      rw [starred, hstars, p.space_stars hstars, hname]
      exact not_isBlank_of_isWordChar (isWordChar_of_isNameStart hfirst)
  | cons star stars =>
      have hstar : star = '*' := p.stars_star star (by rw [hstars]; exact List.mem_cons_self)
      rw [starred, hstars, hstar]
      rfl

theorem trimStartOf_star (rest : List Char) :
    trimStartOf (· == '*') (p.starred ++ rest) = p.space ++ (p.name ++ rest) := by
  have hstars : ∀ c ∈ p.stars, (c == '*') = true :=
    fun c hc => beq_iff_eq.2 (p.stars_star c hc)
  have hhead : (p.space ++ (p.name ++ rest)).head?.any (· == '*') = false := by
    cases hspace : p.space with
    | nil =>
        obtain ⟨first, others, hname, hfirst, -⟩ := p.isName
        rw [hname]
        exact beq_eq_false_iff_ne.2 (ne_of_class hfirst (by decide))
    | cons c space =>
        have hc : isBlank c = true := p.space_blank c (by rw [hspace]; exact List.mem_cons_self)
        exact beq_eq_false_iff_ne.2 (ne_of_class hc (by decide))
  rw [starred, trimStartOf, List.append_assoc, List.dropWhile_append_of_pos hstars,
    List.append_assoc]
  cases htext : p.space ++ (p.name ++ rest) with
  | nil => rfl
  | cons c back =>
      rw [htext] at hhead
      have hc : (c == '*') = false := hhead
      exact List.dropWhile_cons_of_neg (Bool.eq_false_iff.1 hc)

theorem takeWhile_tail {piece : List Char} (hpiece : piece <+: p.tail) :
    (p.gap ++ piece).takeWhile (fun c => !(c == '=' || c == ':')) = p.gap := by
  have hgap : ∀ c ∈ p.gap, (!(c == '=' || c == ':')) = true := by
    intro c hc
    have hequals := ne_of_class (p.gap_blank c hc) (show isBlank '=' = false by decide)
    have hcolon := ne_of_class (p.gap_blank c hc) (show isBlank ':' = false by decide)
    rw [beq_false_of_ne hequals, beq_false_of_ne hcolon]
    rfl
  rw [List.takeWhile_append_of_pos hgap]
  cases piece with
  | nil => exact List.append_nil p.gap
  | cons c piece =>
      obtain ⟨rest, hrest⟩ := hpiece
      have hc : c = ':' ∨ c = '=' := p.tail_head c (by rw [← hrest]; rfl)
      have hnone : (c :: piece).takeWhile (fun c => !(c == '=' || c == ':')) = [] := by
        rcases hc with rfl | rfl <;> rfl
      rw [hnone, List.append_nil]

theorem not_mark_of_mem_name : ∀ c ∈ p.space ++ p.name, (!(c == '=' || c == ':')) = true := by
  intro c hc
  have hne : c ≠ '=' ∧ c ≠ ':' := by
    rcases List.mem_append.1 hc with hc | hc
    · exact ⟨ne_of_class (p.space_blank c hc) (by decide),
        ne_of_class (p.space_blank c hc) (by decide)⟩
    · exact ⟨ne_of_class (p.isName.word c hc) (by decide),
        ne_of_class (p.isName.word c hc) (by decide)⟩
  rw [beq_false_of_ne hne.1, beq_false_of_ne hne.2]
  rfl

theorem trim_front_append (piece : List Char) :
    trim (p.front ++ piece) = p.starred ++ trimEndOf isBlank (p.gap ++ piece) := by
  have hstart : trimStartOf isBlank (p.front ++ piece) = p.starred ++ (p.gap ++ piece) := by
    rw [front, List.append_assoc, List.append_assoc, trimStartOf,
      List.dropWhile_append_of_pos p.indent_blank]
    cases hstarred : p.starred with
    | nil => exact absurd hstarred (by simp [starred, p.isName.ne_nil])
    | cons c rest =>
        have hhead := p.head?_starred
        rw [hstarred] at hhead
        have hc : isBlank c = false := hhead
        exact List.dropWhile_cons_of_neg (Bool.eq_false_iff.1 hc)
  rw [trim, hstart, trimEndOf_append_of_last p.getLast?_starred]

theorem trim_before_piece {piece : List Char} (hpiece : piece <+: p.tail) :
    trim (before (fun c => c == '=' || c == ':')
      (trimStartOf (· == '*') (trim (p.front ++ piece)))) = p.name := by
  -- of the gap, blanks may be left in front of the annotation
  have hleft : ∀ c ∈ (trimEndOf isBlank (p.gap ++ piece)).takeWhile
      (fun c => !(c == '=' || c == ':')), isBlank c = true := by
    intro c hc
    have hsub := (takeWhile_isPrefix_takeWhile (fun c => !(c == '=' || c == ':'))
      (trimEndOf_isPrefix isBlank (p.gap ++ piece))).subset hc
    rw [p.takeWhile_tail hpiece] at hsub
    exact p.gap_blank c hsub
  have hfirst : p.name.head?.any isBlank = false := by
    have hhead := p.isName.head?_append []
    rwa [List.append_nil] at hhead
  have hlast : p.name.getLast?.any isBlank = false := by
    rw [List.getLast?_eq_some_getLast p.isName.ne_nil]
    exact not_isBlank_of_isWordChar (p.isName.word _ (List.getLast_mem _))
  rw [p.trim_front_append, p.trimStartOf_star, before, ← List.append_assoc,
    List.takeWhile_append_of_pos p.not_mark_of_mem_name, List.append_assoc]
  exact trim_between p.space_blank hleft hfirst hlast

theorem parameterName?_front {piece : List Char} (hpiece : piece <+: p.tail) :
    parameterName? (p.front ++ piece) = p.declared? := by
  unfold parameterName?
  dsimp only
  rw [p.trim_before_piece hpiece, occurs_wholeName p.isName, p.not_keyword, declared?]
  by_cases hself : String.ofList p.name = "self"
  · rw [hself]
    rfl
  · by_cases hcls : String.ofList p.name = "cls"
    · rw [hcls]
      rfl
    · simp [hself, hcls]

theorem not_comma_front : ∀ c ∈ p.front, (c == ',') = false := by
  intro c hc
  rw [beq_eq_false_iff_ne]
  simp only [front, starred, List.mem_append] at hc
  rcases hc with hc | (hc | hc | hc) | hc
  · exact ne_of_class (p.indent_blank c hc) (by decide)
  · rw [p.stars_star c hc]
    decide
  · exact ne_of_class (p.space_blank c hc) (by decide)
  · exact ne_of_class (p.isName.word c hc) (by decide)
  · exact ne_of_class (p.gap_blank c hc) (by decide)

theorem parameters_text : parameters p.text = p.declared?.toList ++ p.strays := by
  obtain ⟨first, others, hsplit, hfirst, -⟩ := splitWhere_pieces (· == ',') p.tail
  have htext : splitAt ',' p.text = (p.front ++ first) :: others :=
    splitWhere_append_of_free p.not_comma_front hsplit
  have htail : splitAt ',' p.tail = first :: others := hsplit
  rw [parameters, htext, List.filterMap_cons, p.parameterName?_front hfirst, strays, htail]
  cases p.declared? <;> rfl

end Parameter

/-! ## The list -/

/-- A star or a slash that stands alone, or nothing. -/
structure Marker where
  indent : List Char
  sign : List Char
  gap : List Char
  indent_blank : ∀ c ∈ indent, isBlank c = true
  sign_eq : sign = [] ∨ sign = ['*'] ∨ sign = ['/']
  gap_blank : ∀ c ∈ gap, isBlank c = true

def Marker.text (m : Marker) : List Char := m.indent ++ (m.sign ++ m.gap)

theorem Marker.parameters_text (m : Marker) : parameters m.text = [] := by
  have hcomma : m.sign.all (fun c => !(c == ',')) = true := by
    rcases m.sign_eq with h | h | h <;> rw [h] <;> rfl
  have hedges : m.sign.head?.any isBlank = false ∧ m.sign.getLast?.any isBlank = false := by
    rcases m.sign_eq with h | h | h <;> rw [h] <;> exact ⟨rfl, rfl⟩
  have hfree : ∀ c ∈ m.text, (c == ',') = false := by
    intro c hc
    simp only [text, List.mem_append] at hc
    rcases hc with hc | hc | hc
    · exact beq_eq_false_iff_ne.2 (ne_of_class (m.indent_blank c hc) (by decide))
    · exact Bool.not_eq_true' _ ▸ List.all_eq_true.1 hcomma c hc
    · exact beq_eq_false_iff_ne.2 (ne_of_class (m.gap_blank c hc) (by decide))
  have hsplit : splitAt ',' m.text = [m.text] := by
    have hwhole := splitWhere_append_of_free hfree (show splitWhere (· == ',') [] = [[]] from rfl)
    rw [List.append_nil] at hwhole
    exact hwhole
  have htrim : trim m.text = m.sign :=
    trim_between m.indent_blank m.gap_blank hedges.1 hedges.2
  have hnone : parameterName? m.text = none := by
    unfold parameterName?
    rw [htrim]
    rcases m.sign_eq with h | h | h <;> rw [h] <;> decide
  rw [parameters, hsplit, List.filterMap_cons, hnone]
  rfl

/-- What stands between two commas of a parameter list. -/
inductive Entry where
  | parameter (p : Parameter)
  | marker (m : Marker)

namespace Entry

def text : Entry → List Char
  | parameter p => p.text
  | marker m => m.text

def declared : Entry → List String
  | parameter p => p.declared?.toList
  | marker _ => []

/-- What is read like a parameter within an entry. -/
def strays : Entry → List String
  | parameter p => p.strays
  | marker _ => []

theorem parameters_text (e : Entry) : parameters e.text = e.declared ++ e.strays := by
  cases e with
  | parameter p => exact p.parameters_text
  | marker m => exact m.parameters_text

end Entry

def listText : List Entry → List Char
  | [] => []
  | [e] => e.text
  | e :: entries => e.text ++ ',' :: listText entries

theorem parameters_append_comma (front back : List Char) :
    parameters (front ++ ',' :: back) = parameters front ++ parameters back := by
  have hsplit : splitAt ',' (front ++ ',' :: back) = splitAt ',' front ++ splitAt ',' back :=
    @splitWhere_append_cons (· == ',') ',' rfl front back
  rw [parameters, hsplit, List.filterMap_append]
  rfl

/-- **What is read of a parameter list**: the names that its entries declare, each with the strays
of its annotation and its default. -/
theorem parameters_listText (entries : List Entry) :
    parameters (listText entries) = entries.flatMap (fun e => e.declared ++ e.strays) := by
  induction entries with
  | nil => rfl
  | cons e entries ih =>
      rw [List.flatMap_cons, ← e.parameters_text, ← ih]
      cases entries with
      | nil => exact (List.append_nil _).symm
      | cons next entries => exact parameters_append_comma _ _

theorem parameters_listText_eq_iff (entries : List Entry) :
    parameters (listText entries) = entries.flatMap Entry.declared ↔
      ∀ e ∈ entries, e.strays = [] := by
  rw [parameters_listText]
  constructor
  · intro h
    have hlength := congrArg List.length h
    clear h
    induction entries with
    | nil => exact fun e he => absurd he List.not_mem_nil
    | cons e entries ih =>
        have hmore : (entries.flatMap Entry.declared).length ≤
            (entries.flatMap (fun e => e.declared ++ e.strays)).length := by
          clear ih hlength
          induction entries with
          | nil => exact Nat.le_refl 0
          | cons e entries ih =>
              simp only [List.flatMap_cons, List.length_append]
              omega
        simp only [List.flatMap_cons, List.length_append] at hlength
        refine List.forall_mem_cons.2 ⟨List.length_eq_zero_iff.1 (by omega), ih (by omega)⟩
  · intro h
    induction entries with
    | nil => rfl
    | cons e entries ih =>
        obtain ⟨he, hothers⟩ := List.forall_mem_cons.1 h
        rw [List.flatMap_cons, List.flatMap_cons, ih hothers, he, List.append_nil]

/-! ## The end of the list -/

def openingPattern : Pattern :=
  textStart ++ optional (literal "async" ++ blanks1) ++ literal "def" ++ blanks1 ++
    group 1 identifier ++ blanks ++ char '('

/-- The pattern of a header behind its parameter list. -/
def endingPattern : Pattern :=
  char ')' ++ (blanks ++ (optional (literal "->" ++ many (· != ':')) ++ char ':'))

theorem runs_definitionPattern (here : Place × Groups) :
    definitionPattern.runs here =
      (openingPattern ++ (group 2 (many notNewline) ++ endingPattern)).runs here := by
  rw [definitionPattern, runs_append_assoc, runs_append_assoc, runs_append_assoc,
    runs_append_assoc]
  rfl

/-- What may stand behind the parenthesis that closes a parameter list: blanks, what is returned,
and a colon. -/
def EndsHeader (back : List Char) : Prop :=
  ∃ gap arrow rest, back = gap ++ (arrow ++ ':' :: rest) ∧ (∀ c ∈ gap, isBlank c = true) ∧
    (arrow = [] ∨ ∃ returned, arrow = "->".toList ++ returned ∧ ∀ c ∈ returned, c ≠ ':')

/-- No parenthesis further on may close the list as well. -/
def IsLast (back : List Char) : Prop :=
  ∀ more rest, back = more ++ ')' :: rest → ¬ EndsHeader rest

theorem endsHeader_of_mem_runs {here out : Place × Groups} (h : out ∈ endingPattern.runs here) :
    ∃ back, here.1.rest = ')' :: back ∧ EndsHeader back := by
  obtain ⟨first, hfirst, hbehind⟩ := mem_runs_append.1 h
  obtain ⟨c, hrest, hc⟩ := rest_of_mem_one hfirst
  obtain ⟨second, hgap, hbehind⟩ := mem_runs_append.1 hbehind
  obtain ⟨gap, hsecond, hblank, -⟩ := takes_of_mem_many hgap
  obtain ⟨third, hoption, hcolon⟩ := mem_runs_append.1 hbehind
  obtain ⟨d, hthird, hd⟩ := rest_of_mem_one hcolon
  refine ⟨first.1.rest, by rw [hrest, beq_iff_eq.1 hc], ?_⟩
  rw [hsecond.rest]
  rcases mem_runs_optional.1 hoption with harrow | rfl
  · obtain ⟨mid, hmid, hreturned⟩ := mem_runs_append.1 harrow
    obtain ⟨returned, hthird', hcolonless, -⟩ := takes_of_mem_many hreturned
    refine ⟨gap, "->".toList ++ returned, out.1.rest, ?_, hblank, Or.inr ⟨returned, rfl, ?_⟩⟩
    · rw [rest_of_mem_literal hmid, hthird'.rest, hthird, beq_iff_eq.1 hd, List.append_assoc]
    · intro e he
      exact bne_iff_ne.1 (hcolonless e he)
  · refine ⟨gap, [], out.1.rest, ?_, hblank, Or.inl rfl⟩
    rw [hthird, beq_iff_eq.1 hd]
    rfl

theorem exists_first_ending {back : List Char} (h : EndsHeader back) (front : List Char)
    (groups : Groups) :
    ∃ stop, First endingPattern (Place.between front (')' :: back), groups) (stop, groups) := by
  obtain ⟨gap, arrow, rest, rfl, hgap, harrow⟩ := h
  have hclose := first_char ')' front (gap ++ (arrow ++ ':' :: rest)) groups
  rcases harrow with rfl | ⟨returned, rfl, hreturned⟩
  · have hblanks := first_many hgap (show (':' :: rest).head?.any isBlank = false from rfl)
      (front ++ [')']) groups
    have hcolon := first_char ':' (front ++ [')'] ++ gap) rest groups
    refine ⟨_, .append hclose (.append hblanks (.append (.leaveOut ?_) hcolon))⟩
    rfl
  · have hblanks := first_many hgap
      (show ("->".toList ++ returned ++ ':' :: rest).head?.any isBlank = false from rfl)
      (front ++ [')']) groups
    have hmark := first_literal "->" (front ++ [')'] ++ gap) (returned ++ ':' :: rest) groups
    have hreturned' : ∀ c ∈ returned, (c != ':') = true :=
      fun c hc => bne_iff_ne.2 (hreturned c hc)
    have hmany := first_many hreturned' (show (':' :: rest).head?.any (· != ':') = false from rfl)
      (front ++ [')'] ++ gap ++ "->".toList) groups
    have hcolon := first_char ':'
      (front ++ [')'] ++ gap ++ "->".toList ++ returned) rest groups
    exact ⟨_, .append hclose (.append hblanks (.append (.takeUp (.append hmark hmany)) hcolon))⟩

theorem exists_isLast {back : List Char} (h : EndsHeader back) :
    ∃ more rest, ')' :: back = more ++ ')' :: rest ∧ EndsHeader rest ∧ IsLast rest := by
  generalize hn : back.length = n
  induction n using Nat.strongRecOn generalizing back with
  | ind n ih =>
      by_cases hlast : IsLast back
      · exact ⟨[], back, rfl, h, hlast⟩
      · simp only [IsLast, not_forall, not_not] at hlast
        obtain ⟨front, rest, rfl, hends⟩ := hlast
        have hshorter : rest.length < n := by
          rw [← hn, List.length_append, List.length_cons]
          omega
        obtain ⟨more, last, hsplit, hlastEnds, hlast⟩ := ih rest.length hshorter hends rfl
        refine ⟨')' :: front ++ more, last, ?_, hlastEnds, hlast⟩
        rw [List.append_assoc, ← hsplit]
        rfl

/-! ## The header -/

/-- The header of a function on one line. -/
structure Header where
  indent : List Char
  /-- The blanks behind `async`, if the function is one. -/
  async? : Option (List Char)
  gap : List Char
  name : List Char
  space : List Char
  entries : List Entry
  /-- What is behind the parenthesis that closes the list. -/
  after : List Char
  margin : List Char
  indent_blank : ∀ c ∈ indent, isBlank c = true
  async_blank : ∀ blanks, async? = some blanks → blanks ≠ [] ∧ ∀ c ∈ blanks, isBlank c = true
  gap_ne_nil : gap ≠ []
  gap_blank : ∀ c ∈ gap, isBlank c = true
  isName : IsName name
  space_blank : ∀ c ∈ space, isBlank c = true
  after_ends : EndsHeader after
  after_last : after.getLast?.any isBlank = false
  margin_blank : ∀ c ∈ margin, isBlank c = true
  one_line : '\n' ∉ listText entries ++ ')' :: after

namespace Header

variable (h : Header)

/-- The word in front of `def`, with its blanks. -/
def lead : List Char :=
  match h.async? with
  | some blanks => "async".toList ++ blanks
  | none => []

/-- The header up to its name. -/
def front : List Char := h.lead ++ "def".toList ++ h.gap

def opening : List Char := h.front ++ h.name ++ h.space ++ ['(']

def list : List Char := listText h.entries

/-- The header without the blanks around it. -/
def core : List Char := h.opening ++ (h.list ++ ')' :: h.after)

def text : Line := h.indent ++ (h.core ++ h.margin)

theorem trim_text : trim h.text = h.core := by
  have hfirst : h.core.head?.any isBlank = false := by
    rw [core, opening, front, lead]
    cases h.async? <;> rfl
  have hlast : h.core.getLast?.any isBlank = false := by
    obtain ⟨gap, arrow, rest, hafter, -⟩ := h.after_ends
    have hne : h.after ≠ [] := by
      rw [hafter]
      simp
    have hback : h.core.getLast? = h.after.getLast? := by
      rw [core, List.getLast?_append, List.getLast?_append, List.getLast?_cons,
        List.getLast?_eq_some_getLast hne]
      rfl
    rw [hback]
    exact h.after_last
  exact trim_between h.indent_blank h.margin_blank hfirst hlast

theorem first_lead (rest : List Char) :
    First (optional (literal "async" ++ blanks1))
      (Place.between [] (h.lead ++ ("def".toList ++ rest)), [])
      (Place.between h.lead ("def".toList ++ rest), []) := by
  have hblanks := h.async_blank
  rw [lead]
  cases hasync : h.async? with
  | none =>
      refine .leaveOut (List.eq_nil_iff_forall_not_mem.2 ?_)
      intro out hout
      obtain ⟨mid, hmid, -⟩ := mem_runs_append.1 hout
      have hrest : "def".toList ++ rest = "async".toList ++ mid.1.rest := rest_of_mem_literal hmid
      have hhead : some 'd' = some 'a' := congrArg List.head? hrest
      cases hhead
  | some blanks =>
      obtain ⟨hne, hblank⟩ := hblanks blanks hasync
      have hword := first_literal "async" [] (blanks ++ ("def".toList ++ rest)) []
      have hgap := first_some1 hblank hne (show ("def".toList ++ rest).head?.any isBlank = false
        from rfl) ([] ++ "async".toList) []
      dsimp only
      rw [List.append_assoc]
      exact .takeUp (.append hword hgap)

/-- Where the name stands, and what is behind the opening parenthesis. -/
def nameSpan (rest : List Char) : Span :=
  ⟨Place.between h.front (h.name ++ (h.space ++ '(' :: rest)),
    Place.between (h.front ++ h.name) (h.space ++ '(' :: rest)⟩

/-- Where a text up to a closing parenthesis stands. -/
def innerSpan (inner back : List Char) : Span :=
  ⟨Place.between h.opening (inner ++ ')' :: back), Place.between (h.opening ++ inner) (')' :: back)⟩

theorem first_opening (rest : List Char) :
    First openingPattern (Place.start (h.opening ++ rest), [])
      (Place.between h.opening rest, [(1, h.nameSpan rest)]) := by
  have htext : h.opening ++ rest =
      h.lead ++ ("def".toList ++ (h.gap ++ (h.name ++ (h.space ++ '(' :: rest)))) := by
    simp only [opening, front, List.append_assoc, List.singleton_append]
  have hafterGap := h.isName.head?_append (h.space ++ '(' :: rest)
  have hafterName : (h.space ++ '(' :: rest).head?.any isWordChar = false :=
    head?_append_of_blank h.space_blank rfl
  have hbegin : First textStart (Place.start (h.opening ++ rest), [])
      (Place.start (h.opening ++ rest), []) := rfl
  have hlead := h.first_lead (h.gap ++ (h.name ++ (h.space ++ '(' :: rest)))
  have hdef := first_literal "def" h.lead (h.gap ++ (h.name ++ (h.space ++ '(' :: rest))) []
  have hgap := first_some1 h.gap_blank h.gap_ne_nil hafterGap (h.lead ++ "def".toList) []
  have hidentifier :=
    First.group 1 (@first_identifier_between h.front h.name _ [] h.isName hafterName)
  have hspace := first_many h.space_blank (show ('(' :: rest).head?.any isBlank = false from rfl)
    (h.front ++ h.name)
  have hopen := first_char '(' (h.front ++ h.name ++ h.space) rest
  rw [← htext] at hlead
  exact .append (.append (.append (.append (.append (.append hbegin hlead) hdef) hgap)
    hidentifier) (hspace _)) (hopen _)

/-- **What is read of a header**: its name, and the parameters of the text up to the last
parenthesis that may close the list. -/
theorem definition?_opening {inner back : List Char} (hinner : '\n' ∉ inner)
    (hends : EndsHeader back) (hlast : IsLast back) :
    definition? (h.opening ++ (inner ++ ')' :: back)) =
      some (String.ofList h.name, parameters inner) := by
  have hclass : ∀ c ∈ inner, notNewline c = true := by
    intro c hc
    refine bne_iff_ne.2 ?_
    rintro rfl
    exact hinner hc
  obtain ⟨stop, hstop⟩ := exists_first_ending hends (h.opening ++ inner)
    [(2, h.innerSpan inner back), (1, h.nameSpan (inner ++ ')' :: back))]
  have hfar : ∀ more rest, ')' :: back = more ++ rest → more ≠ [] → ∀ here groups,
      endingPattern.runs (Place.between here rest, groups) = [] := by
    intro more rest hsplit hne here groups
    refine List.eq_nil_iff_forall_not_mem.2 ?_
    intro out hout
    obtain ⟨behind, hrest, hbehind⟩ := endsHeader_of_mem_runs hout
    obtain ⟨c, others, rfl⟩ := List.exists_cons_of_ne_nil hne
    have hrest : rest = ')' :: behind := hrest
    rw [hrest] at hsplit
    exact hlast others behind (List.cons.inj hsplit).2 hbehind
  have hrest := first_group_many_append hclass hstop hfar
  have hfirst : First definitionPattern (Place.start (h.opening ++ (inner ++ ')' :: back)), [])
      (stop, [(2, h.innerSpan inner back), (1, h.nameSpan (inner ++ ')' :: back))]) := by
    show (definitionPattern.runs _).head? = _
    rw [runs_definitionPattern]
    exact First.append (h.first_opening (inner ++ ')' :: back)) hrest
  have hname : (h.nameSpan (inner ++ ')' :: back)).text = h.name := Span.text_between _ _ _
  have hlist : (h.innerSpan inner back).text = inner := Span.text_between _ _ _
  rw [definition?, anchored_definitionPattern.find?_eq, hfirst.matchAt?_eq]
  show some (String.ofList (h.nameSpan _).text, parameters (h.innerSpan _ _).text) = _
  rw [hname, hlist]

theorem definition?_text :
    ∃ inner back, h.list ++ ')' :: h.after = inner ++ ')' :: back ∧ EndsHeader back ∧
      IsLast back ∧ definition? (trim h.text) =
        some (String.ofList h.name, parameters inner) := by
  obtain ⟨more, back, hsplit, hends, hlast⟩ := exists_isLast h.after_ends
  have hline : h.list ++ ')' :: h.after = h.list ++ more ++ ')' :: back := by
    rw [List.append_assoc, ← hsplit]
  refine ⟨h.list ++ more, back, hline, hends, hlast, ?_⟩
  have hinner : '\n' ∉ h.list ++ more := by
    intro hmem
    refine h.one_line ?_
    show '\n' ∈ h.list ++ ')' :: h.after
    rw [hline]
    exact List.mem_append_left _ hmem
  rw [h.trim_text, core, hline]
  exact h.definition?_opening hinner hends hlast

/-- If the list is closed where it seems to be, its own parameters are read. -/
theorem definition?_of_isLast (hlast : IsLast h.after) :
    definition? (trim h.text) = some (String.ofList h.name, parameters h.list) := by
  have hinner : '\n' ∉ h.list := fun hmem => h.one_line (List.mem_append_left _ hmem)
  rw [h.trim_text]
  exact h.definition?_opening hinner h.after_ends hlast

end Header

theorem ScanState.role_of_definition? {state : ScanState} {text : Line} {name : String}
    {names : List String} (houtside : state.stringsAt text = none)
    (h : definition? (trim text) = some (name, names)) :
    state.role text = .definition name names := by
  rw [role_eq, houtside, hasContent_of_definition? h, roleAt_of_definition? h, Bool.not_true,
    Bool.and_false]
  rfl

/-- **The parameters of a header.**  Up to the last parenthesis that may close it, the list is read
as its entries and their strays; it is read as it is meant if and only if there are no strays.
Wherever the header stands outside strings, just the parameters that are read are declared by it. -/
theorem header_parameters (h : Header) :
    (∃ inner back, h.list ++ ')' :: h.after = inner ++ ')' :: back ∧ EndsHeader back ∧
        IsLast back ∧ definition? (trim h.text) =
          some (String.ofList h.name, parameters inner)) ∧
      parameters h.list = h.entries.flatMap (fun e => e.declared ++ e.strays) ∧
      (parameters h.list = h.entries.flatMap Entry.declared ↔ ∀ e ∈ h.entries, e.strays = []) ∧
      ∀ front below, IsLast h.after → (stateBehind front).stringsAt h.text = none →
        (stateBehind front).role h.text =
            .definition (String.ofList h.name) (parameters h.list) ∧
          ∀ name ∈ parameters h.list,
            name ∈ (analyzeLines (front ++ h.text :: below)).declaredVars := by
  refine ⟨h.definition?_text, parameters_listText h.entries, parameters_listText_eq_iff h.entries,
    ?_⟩
  intro front below hlast houtside
  have hrole := ScanState.role_of_definition? houtside (h.definition?_of_isLast hlast)
  refine ⟨hrole, ?_⟩
  intro name hname
  refine mem_declaredVars_iff.2 ⟨_, mem_roles_iff.2 ⟨front, h.text, below, rfl, rfl⟩, ?_⟩
  show name ∈ ((stateBehind front).role h.text).declaredVars
  rw [hrole]
  exact hname

def letterParameter (letter : Char) (hletter : isNameStart letter = true) (tail : List Char)
    (hkeyword : isKeyword (String.ofList [letter]) = false)
    (htail : ∀ c, tail.head? = some c → c = ':' ∨ c = '=') : Parameter where
  indent := []
  stars := []
  space := []
  name := [letter]
  gap := []
  tail := tail
  indent_blank := isBlank_of_mem_nil
  stars_star := List.forall_mem_nil _
  space_blank := isBlank_of_mem_nil
  space_stars := fun _ => rfl
  isName := ⟨letter, [], rfl, hletter, List.forall_mem_nil _⟩
  not_keyword := hkeyword
  gap_blank := isBlank_of_mem_nil
  tail_head := htail

def letterHeader (p : Parameter) (hline : '\n' ∉ p.text ++ [')', ':']) : Header where
  indent := []
  async? := none
  gap := [' ']
  name := ['f']
  space := []
  entries := [.parameter p]
  after := [':']
  margin := []
  indent_blank := isBlank_of_mem_nil
  async_blank := fun _ h => by cases h
  gap_ne_nil := List.cons_ne_nil _ _
  gap_blank := isBlank_of_mem_space
  isName := ⟨'f', [], rfl, rfl, List.forall_mem_nil _⟩
  space_blank := isBlank_of_mem_nil
  after_ends := ⟨[], [], [], rfl, List.forall_mem_nil _, Or.inl rfl⟩
  after_last := rfl
  margin_blank := isBlank_of_mem_nil
  one_line := hline

theorem isLast_colon : IsLast [':'] := by
  intro more rest h
  have hmem : ')' ∈ [':'] := by
    rw [h]
    exact List.mem_append_right more List.mem_cons_self
  exact absurd hmem (by decide)

def mapParameter : Parameter :=
  letterParameter 'x' rfl ": Dict[str, \"a, b\"] = {}".toList rfl
    (fun _ hc => Or.inl (Option.some.inj hc).symm)

/-- Its commas leave no strays. -/
theorem parameters_mapParameter :
    (stateBehind []).role "def f(x: Dict[str, \"a, b\"] = {}):".toList = .definition "f" ["x"] ∧
      "x" ∈ (analyzeLines ["def f(x: Dict[str, \"a, b\"] = {}):".toList]).declaredVars := by
  let h := letterHeader mapParameter (by decide)
  have htext : h.text = "def f(x: Dict[str, \"a, b\"] = {}):".toList := by decide
  have hstrays : ∀ e ∈ h.entries, e.strays = [] := List.forall_mem_singleton.2 (by decide)
  obtain ⟨-, -, hlist, hsource⟩ := header_parameters h
  have hparameters : parameters h.list = ["x"] := hlist.2 hstrays
  obtain ⟨hrole, hdeclared⟩ := hsource [] [] isLast_colon rfl
  rw [hparameters, htext] at hrole
  rw [hparameters] at hdeclared
  rw [htext] at hdeclared
  exact ⟨hrole, hdeclared "x" List.mem_cons_self⟩

def tupleParameter : Parameter :=
  letterParameter 'x' rfl ": Tuple[int, str, int]".toList rfl
    (fun _ hc => Or.inl (Option.some.inj hc).symm)

def tupleFunction : String := "def f(x: Tuple[int, str, int]):\n    return x"

/-- The type between the commas is taken for a parameter, and reported as one.  And a parenthesis in
what is returned is taken for the end of the list. -/
theorem parameters_tupleParameter :
    (Entry.parameter tupleParameter).declared = ["x"] ∧
      "def f(".toList ++ tupleParameter.text ++ "):".toList ∈ linesOf tupleFunction ∧
      parameters tupleParameter.text = ["x", "str"] ∧
      (analyze tupleFunction).declaredVars = ["x", "str"] ∧
      (analyze tupleFunction).unusedVars = ["str"] ∧
      (analyze tupleFunction).unusedWrites = [⟨"f", ["str"]⟩] ∧
      definition? "def f(a) -> (int):".toList = some ("f", []) := by
  decide

end CodeSurvey.Python
