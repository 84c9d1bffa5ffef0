/-
# Code behind a return

A line is reported as unreachable if it is the first behind a return of the body that is no deeper
than the body and no return itself (`unreachable_iff`).  Nothing but the indentation is asked for.
So a bracket that closes the value of the return is reported where it stands no deeper than the
body.  And a line behind a return is found if some line there is no deeper than the body and no
return (`unreachable_found_iff`); returns alone are not.
-/
import CodeSurvey.Proofs.Python.Blocks
import CodeSurvey.Proofs.Python.LeadingWords
import CodeSurvey.Proofs.Python.Lexing
import CodeSurvey.Proofs.Python.Numbering

namespace CodeSurvey.Python

open Text

/-! ## Open brackets -/

namespace Lexer

/-- The characters of code on the rest of a line.  The first `skip` characters belong to the
delimiter before them. -/
def codeOn (mode : Mode) (skip : Nat) : Line → List Char
  | [] => []
  | c :: rest =>
    if skip > 0 then codeOn mode (skip - 1) rest
    else
      let (mode', delimiter) := read mode c rest
      let behind := codeOn mode' (if delimiter.isSome then 2 else 0) rest
      if mode = .code ∧ mode' = .code then c :: behind else behind

def codeOf (mode : Mode) : List Line → List Char
  | [] => []
  | line :: rest => codeOn mode 0 line ++ codeOf (nextLine mode line) rest

end Lexer

/-- How many brackets are open behind lines that begin outside strings. -/
def openBrackets (lines : List Line) : Nat :=
  (Lexer.codeOf .code lines).foldl (fun depth c => (depth + bracketStep c).toNat) 0

/-! ## Lines of a body -/

namespace Function

variable (f : Function)

/-- A return of the body: at its indent, outside strings. -/
structure IsReturn (item : Item) : Prop where
  active : item.isActive = true
  begins : BeginsWith "return" (trim item.text)
  indent : f.bodyIndent? = some (indentWidth item.text)

/-- A line that is no deeper than the body and none of its returns. -/
structure IsOuter (item : Item) : Prop where
  active : item.isActive = true
  indent : ∃ limit, f.bodyIndent? = some limit ∧ indentWidth item.text ≤ limit
  not_return : ¬f.IsReturn item

/-- Any other line: blank, a comment, in a string or deeper than the body. -/
structure IsInner (item : Item) : Prop where
  not_return : ¬f.IsReturn item
  not_outer : ¬f.IsOuter item

/-- A line is the first behind a return that is no deeper than the body. -/
structure Behind (ret : Item) (between : List Item) (item : Item) : Prop where
  split : ∃ above rest, f.body = above ++ ret :: (between ++ item :: rest)
  isReturn : f.IsReturn ret
  inner : ∀ other ∈ between, f.IsInner other
  outer : f.IsOuter item

instance decidableIsReturn (item : Item) : Decidable (f.IsReturn item) :=
  decidable_of_iff (item.isActive = true ∧ BeginsWith "return" (trim item.text) ∧
      f.bodyIndent? = some (indentWidth item.text))
    ⟨fun h => ⟨h.1, h.2.1, h.2.2⟩, fun h => ⟨h.active, h.begins, h.indent⟩⟩

end Function

/-- The remark on a line behind a return. -/
def unreachableIssue (number : Nat) : LineIssue :=
  ⟨number, "Code after 'return' is unreachable."⟩

variable {f : Function} {item other : Item} {items rest : List Item} {behind : Option Nat} {n : Nat}

theorem Function.line_cases (f : Function) (item : Item) :
    f.IsReturn item ∨ f.IsOuter item ∨ f.IsInner item := by
  by_cases hreturn : f.IsReturn item
  · exact Or.inl hreturn
  · by_cases houter : f.IsOuter item
    · exact Or.inr (Or.inl houter)
    · exact Or.inr (Or.inr ⟨hreturn, houter⟩)

/-! ## One line -/

theorem isReturn_iff (hactive : item.isActive = true) :
    (returnPattern.occurs (trim item.text) &&
        f.bodyIndent? == some (indentWidth item.text)) = true ↔ f.IsReturn item := by
  rw [Bool.and_eq_true, occurs_returnPattern_iff, beq_iff_eq]
  exact ⟨fun h => ⟨hactive, h.1, h.2⟩, fun h => ⟨h.begins, h.indent⟩⟩

/-- The indent that the scan keeps is that of a return of the body. -/
def Function.Keeps (f : Function) (behind : Option Nat) : Prop :=
  ∀ limit, behind = some limit → f.bodyIndent? = some limit

theorem keeps_none (f : Function) : f.Keeps none := nofun

theorem unreachable_of_isReturn (h : f.IsReturn item) :
    unreachable f.bodyIndent? behind item = ([], f.bodyIndent?) := by
  unfold unreachable
  dsimp only
  rw [if_pos ((isReturn_iff h.active).2 h), h.indent]

theorem unreachable_of_isOuter (h : f.IsOuter item) (hbehind : f.Keeps behind) :
    unreachable f.bodyIndent? behind item =
      (if behind.isSome then [unreachableIssue item.number] else [], none) := by
  unfold unreachable
  dsimp only
  rw [if_neg (mt (isReturn_iff h.active).1 h.not_return)]
  cases behind with
  | none => rfl
  | some limit =>
      obtain ⟨limit', hlimit, hle⟩ := h.indent
      obtain rfl := Option.some.inj ((hbehind limit rfl).symm.trans hlimit)
      dsimp only
      rw [if_pos hle]
      rfl

theorem unreachable_of_isInner (h : f.IsInner item) (hactive : item.isActive = true)
    (hbehind : f.Keeps behind) : unreachable f.bodyIndent? behind item = ([], behind) := by
  unfold unreachable
  dsimp only
  rw [if_neg (mt (isReturn_iff hactive).1 h.not_return)]
  cases behind with
  | none => rfl
  | some limit =>
      have hdeep : ¬indentWidth item.text ≤ limit :=
        fun hle => h.not_outer ⟨hactive, ⟨limit, hbehind limit rfl, hle⟩, h.not_return⟩
      dsimp only
      rw [if_neg hdeep]

theorem unreachableIssue_not_mem (number : Nat) (item : Item) :
    unreachableIssue number ∉ item.ifFalseIssue?.toList := by
  rw [Option.mem_toList, Item.ifFalseIssue?]
  split
  · intro h
    have hmessage : "'if False' block found." = "Code after 'return' is unreachable." :=
      congrArg LineIssue.message (Option.some.inj h)
    exact absurd hmessage (by decide)
  · nofun

theorem mem_deadCodeFrom_cons (hactive : item.isActive = true) :
    unreachableIssue n ∈ deadCodeFrom f.bodyIndent? behind (item :: rest) ↔
      unreachableIssue n ∈ (unreachable f.bodyIndent? behind item).1 ∨
        unreachableIssue n ∈
          deadCodeFrom f.bodyIndent? (unreachable f.bodyIndent? behind item).2 rest := by
  rw [deadCodeFrom, if_pos hactive]
  dsimp only
  rw [List.append_assoc, List.mem_append, List.mem_append,
    or_iff_right (unreachableIssue_not_mem n item)]

theorem mem_deadCodeFrom_of_isReturn (h : f.IsReturn item) :
    unreachableIssue n ∈ deadCodeFrom f.bodyIndent? behind (item :: rest) ↔
      unreachableIssue n ∈ deadCodeFrom f.bodyIndent? f.bodyIndent? rest := by
  rw [mem_deadCodeFrom_cons h.active, unreachable_of_isReturn h]
  exact or_iff_right List.not_mem_nil

theorem mem_deadCodeFrom_of_isOuter (h : f.IsOuter item) (hbehind : f.Keeps behind) :
    unreachableIssue n ∈ deadCodeFrom f.bodyIndent? behind (item :: rest) ↔
      (behind.isSome = true ∧ n = item.number) ∨
        unreachableIssue n ∈ deadCodeFrom f.bodyIndent? none rest := by
  rw [mem_deadCodeFrom_cons h.active, unreachable_of_isOuter h hbehind]
  cases behind with
  | none => simp
  | some limit => simp [unreachableIssue]

theorem mem_deadCodeFrom_of_isInner (h : f.IsInner item) (hbehind : f.Keeps behind) :
    unreachableIssue n ∈ deadCodeFrom f.bodyIndent? behind (item :: rest) ↔
      unreachableIssue n ∈ deadCodeFrom f.bodyIndent? behind rest := by
  by_cases hactive : item.isActive = true
  · rw [mem_deadCodeFrom_cons hactive, unreachable_of_isInner h hactive hbehind]
    exact or_iff_right List.not_mem_nil
  · rw [deadCodeFrom, if_neg hactive]

/-! ## All lines of a body -/

/-- The first line that is no deeper than the body, with no return before it. -/
def Function.NextOuter (f : Function) (items : List Item) (item : Item) : Prop :=
  ∃ between rest, items = between ++ item :: rest ∧ (∀ other ∈ between, f.IsInner other) ∧
    f.IsOuter item

def Function.BehindReturn (f : Function) (items : List Item) (item : Item) : Prop :=
  ∃ above ret rest, items = above ++ ret :: rest ∧ f.IsReturn ret ∧ f.NextOuter rest item

theorem nextOuter_cons_iff :
    f.NextOuter (item :: items) other ↔
      (f.IsOuter item ∧ other = item) ∨ (f.IsInner item ∧ f.NextOuter items other) := by
  constructor
  · rintro ⟨between, rest, hitems, hinner, houter⟩
    cases between with
    | nil =>
        obtain ⟨rfl, -⟩ := List.cons.inj hitems
        exact Or.inl ⟨houter, rfl⟩
    | cons first between =>
        obtain ⟨rfl, hrest⟩ := List.cons.inj hitems
        obtain ⟨hfirst, hothers⟩ := List.forall_mem_cons.1 hinner
        exact Or.inr ⟨hfirst, between, rest, hrest, hothers, houter⟩
  · rintro (⟨houter, rfl⟩ | ⟨hinner, between, rest, rfl, hothers, houter⟩)
    · exact ⟨[], items, rfl, List.forall_mem_nil _, houter⟩
    · exact ⟨item :: between, rest, rfl, List.forall_mem_cons.2 ⟨hinner, hothers⟩, houter⟩

theorem behindReturn_cons_iff :
    f.BehindReturn (item :: items) other ↔
      (f.IsReturn item ∧ f.NextOuter items other) ∨ f.BehindReturn items other := by
  constructor
  · rintro ⟨above, ret, rest, hitems, hreturn, hnext⟩
    cases above with
    | nil =>
        obtain ⟨rfl, rfl⟩ := List.cons.inj hitems
        exact Or.inl ⟨hreturn, hnext⟩
    | cons first above =>
        obtain ⟨rfl, hrest⟩ := List.cons.inj hitems
        exact Or.inr ⟨above, ret, rest, hrest, hreturn, hnext⟩
  · rintro (⟨hreturn, hnext⟩ | ⟨above, ret, rest, rfl, hreturn, hnext⟩)
    · exact ⟨[], item, items, rfl, hreturn, hnext⟩
    · exact ⟨item :: above, ret, rest, rfl, hreturn, hnext⟩

/-- What is reported from a line on: the next line that is no deeper than the body, if a return is
above, and those behind later returns. -/
theorem mem_deadCodeFrom_iff (hbehind : f.Keeps behind) :
    unreachableIssue n ∈ deadCodeFrom f.bodyIndent? behind items ↔
      ∃ item, item.number = n ∧
        ((behind.isSome = true ∧ f.NextOuter items item) ∨ f.BehindReturn items item) := by
  induction items generalizing behind with
  | nil =>
      rw [deadCodeFrom]
      refine iff_of_false List.not_mem_nil ?_
      rintro ⟨item, -, ⟨-, between, rest, h, -⟩ | ⟨above, ret, rest, h, -⟩⟩
      · exact absurd h (by simp)
      · exact absurd h (by simp)
  | cons first items ih =>
      rcases f.line_cases first with hreturn | houter | hinner
      · have hsome : f.bodyIndent?.isSome = true := by rw [hreturn.indent]; rfl
        rw [mem_deadCodeFrom_of_isReturn hreturn, ih (fun _ h => h)]
        refine exists_congr (fun item => and_congr Iff.rfl ?_)
        rw [nextOuter_cons_iff, behindReturn_cons_iff]
        have hnotOuter : ¬f.IsOuter first := fun h => h.not_return hreturn
        have hnotInner : ¬f.IsInner first := fun h => h.not_return hreturn
        tauto
      · rw [mem_deadCodeFrom_of_isOuter houter hbehind, ih (keeps_none f)]
        have hnotReturn := houter.not_return
        have hnotInner : ¬f.IsInner first := fun h => h.not_outer houter
        constructor
        · rintro (⟨hsome, rfl⟩ | ⟨item, hnumber, ⟨hnone, -⟩ | hreport⟩)
          · exact ⟨first, rfl, Or.inl ⟨hsome, nextOuter_cons_iff.2 (Or.inl ⟨houter, rfl⟩)⟩⟩
          · cases hnone
          · exact ⟨item, hnumber, Or.inr (behindReturn_cons_iff.2 (Or.inr hreport))⟩
        · rintro ⟨item, rfl, hreport⟩
          rw [nextOuter_cons_iff, behindReturn_cons_iff] at hreport
          rcases hreport with ⟨hsome, ⟨-, rfl⟩ | ⟨hinner, -⟩⟩ | ⟨hreturn, -⟩ | hreport
          · exact Or.inl ⟨hsome, rfl⟩
          · exact absurd hinner hnotInner
          · exact absurd hreturn hnotReturn
          · exact Or.inr ⟨item, rfl, Or.inr hreport⟩
      · rw [mem_deadCodeFrom_of_isInner hinner hbehind, ih hbehind]
        refine exists_congr (fun item => and_congr Iff.rfl ?_)
        rw [nextOuter_cons_iff, behindReturn_cons_iff]
        have hnotReturn := hinner.not_return
        have hnotOuter := hinner.not_outer
        tauto

theorem exists_behind_iff :
    (∃ ret between, f.Behind ret between item) ↔ f.BehindReturn f.body item := by
  constructor
  · rintro ⟨ret, between, ⟨above, rest, hbody⟩, hreturn, hinner, houter⟩
    exact ⟨above, ret, _, hbody, hreturn, between, rest, rfl, hinner, houter⟩
  · rintro ⟨above, ret, rest, hbody, hreturn, between, more, rfl, hinner, houter⟩
    exact ⟨ret, between, ⟨above, more, hbody⟩, hreturn, hinner, houter⟩

/-- **What is reported in a function.** -/
theorem mem_deadCode_iff :
    unreachableIssue n ∈ f.deadCode ↔
      ∃ ret between item, f.Behind ret between item ∧ item.number = n := by
  rw [Function.deadCode, mem_deadCodeFrom_iff (keeps_none f)]
  constructor
  · rintro ⟨item, hnumber, ⟨hnone, -⟩ | hreport⟩
    · cases hnone
    · obtain ⟨ret, between, hbehind⟩ := exists_behind_iff.2 hreport
      exact ⟨ret, between, item, hbehind, hnumber⟩
  · rintro ⟨ret, between, item, hbehind, hnumber⟩
    exact ⟨item, hnumber, Or.inr (exists_behind_iff.1 ⟨ret, between, hbehind⟩)⟩

/-- **What is reported in a source** is what is reported in its functions. -/
theorem mem_deadCode_analyzeLines_iff {lines : List Line} :
    unreachableIssue n ∈ (analyzeLines lines).deadCode ↔
      ∃ f ∈ functionsIn lines, ∃ ret between item,
        f.Behind ret between item ∧ item.number = n := by
  show _ ∈ (functionsIn lines).flatMap Function.deadCode ↔ _
  simp only [List.mem_flatMap, mem_deadCode_iff]

/-! ## Reports that are right -/

/-- A line continues a return: it is behind it and no other return, and brackets that were opened
from there on are not all closed before the line. -/
structure Function.Continues (f : Function) (item : Item) : Prop where
  split : ∃ above ret between rest, f.body = above ++ ret :: (between ++ item :: rest) ∧
    f.IsReturn ret ∧ (∀ other ∈ between, ¬f.IsReturn other) ∧
      0 < openBrackets ((ret :: between).map Item.text)

/-- The brackets of a return are closed on deeper lines: on the first line behind it that is no
deeper than the body none of them is open. -/
def Function.ClosesDeeper (f : Function) : Prop :=
  ∀ ret between item, f.Behind ret between item → openBrackets ((ret :: between).map Item.text) = 0

theorem eq_of_last_split {α : Type} {p : α → Prop} {front back front' back' : List α} {a b : α}
    (h : front ++ a :: back = front' ++ b :: back') (ha : p a) (hb : p b)
    (hback : ∀ c ∈ back, ¬p c) (hback' : ∀ c ∈ back', ¬p c) : a = b ∧ back = back' := by
  rcases List.append_eq_append_iff.1 h with ⟨more, rfl, hmore⟩ | ⟨more, rfl, hmore⟩
  · cases more with
    | nil =>
        obtain ⟨rfl, rfl⟩ := List.cons.inj hmore
        exact ⟨rfl, rfl⟩
    | cons c more =>
        obtain ⟨rfl, rfl⟩ := List.cons.inj hmore
        exact absurd hb (hback b (by simp))
  · cases more with
    | nil =>
        obtain ⟨rfl, rfl⟩ := List.cons.inj hmore
        exact ⟨rfl, rfl⟩
    | cons c more =>
        obtain ⟨rfl, rfl⟩ := List.cons.inj hmore
        exact absurd ha (hback' a (by simp))

theorem continues_iff {lines : List Line} (hf : f ∈ functionsIn lines) {ret : Item}
    {between : List Item} (h : f.Behind ret between item) :
    f.Continues item ↔ 0 < openBrackets ((ret :: between).map Item.text) := by
  have hnodup := nodup_body hf
  obtain ⟨⟨above, rest, hbody⟩, hreturn, hinner, -⟩ := h
  have hnot : ∀ other ∈ between, ¬f.IsReturn other := fun other hother =>
    (hinner other hother).not_return
  constructor
  · rintro ⟨above', ret', between', rest', hbody', hreturn', hnot', hopen⟩
    have hsplit : f.body = (above ++ ret :: between) ++ item :: rest := by simp [hbody]
    have hsplit' : f.body = (above' ++ ret' :: between') ++ item :: rest' := by simp [hbody']
    -- a line stands once in a body, so the lines above it are the same
    have hbelow : ∀ other ∈ rest, item ≠ other := by
      rw [hsplit] at hnodup
      rintro other hother rfl
      exact (List.nodup_cons.1 hnodup.of_append_right).1 hother
    have hbelow' : ∀ other ∈ rest', item ≠ other := by
      rw [hsplit'] at hnodup
      rintro other hother rfl
      exact (List.nodup_cons.1 hnodup.of_append_right).1 hother
    have hsame := hsplit.symm.trans hsplit'
    obtain ⟨-, rfl⟩ := eq_of_last_split hsame rfl rfl hbelow hbelow'
    have habove : above ++ ret :: between = above' ++ ret' :: between' :=
      List.append_cancel_right hsame
    obtain ⟨rfl, rfl⟩ := eq_of_last_split habove hreturn hreturn' hnot hnot'
    exact hopen
  · exact fun hopen => ⟨above, ret, between, rest, hbody, hreturn, hnot, hopen⟩

theorem Function.Behind.mem_body {ret : Item} {between : List Item}
    (h : f.Behind ret between item) : item ∈ f.body := by
  obtain ⟨above, rest, hbody⟩ := h.split
  rw [hbody]
  simp

theorem mem_deadCode_iff_of_mem_body {lines : List Line} (hf : f ∈ functionsIn lines)
    (hitem : item ∈ f.body) :
    unreachableIssue item.number ∈ (analyzeLines lines).deadCode ↔
      ∃ ret between, f.Behind ret between item := by
  rw [mem_deadCode_analyzeLines_iff]
  constructor
  · rintro ⟨g, hg, ret, between, other, hbehind, hnumber⟩
    obtain ⟨rfl, rfl⟩ := eq_of_number_eq hg hf hbehind.mem_body hitem hnumber
    exact ⟨ret, between, hbehind⟩
  · rintro ⟨ret, between, hbehind⟩
    exact ⟨f, hf, ret, between, item, hbehind, rfl⟩

/-- **What is reported as unreachable**: the first line behind a return of the body that is no
deeper than the body and no return itself.  No report of a function is on a line that continues a
return if and only if the brackets of its returns are closed on deeper lines. -/
theorem unreachable_iff (source : String) :
    (∀ n, unreachableIssue n ∈ (analyze source).deadCode ↔
      ∃ f ∈ functionsIn (linesOf source), ∃ ret between item,
        f.Behind ret between item ∧ item.number = n) ∧
    ∀ f ∈ functionsIn (linesOf source),
      (∀ item ∈ f.body, unreachableIssue item.number ∈ (analyze source).deadCode →
        ¬f.Continues item) ↔ f.ClosesDeeper := by
  refine ⟨fun _ => mem_deadCode_analyzeLines_iff, fun f hf => ⟨?_, ?_⟩⟩
  · intro hsound ret between item hbehind
    have hreported := (mem_deadCode_iff_of_mem_body hf hbehind.mem_body).2 ⟨ret, between, hbehind⟩
    by_contra hopen
    exact hsound item hbehind.mem_body hreported
      ((continues_iff hf hbehind).2 (Nat.pos_of_ne_zero hopen))
  · intro hdeeper item hitem hreported hcontinues
    obtain ⟨ret, between, hbehind⟩ := (mem_deadCode_iff_of_mem_body hf hitem).1 hreported
    exact Nat.ne_of_gt ((continues_iff hf hbehind).1 hcontinues) (hdeeper ret between item hbehind)

/-- A return whose value ends on a deeper line, and a statement behind it. -/
def deeperReturn : String := "def f(x):\n    return [\n        x]\n    print(x)"

def deeperFunction : Function :=
  functionAt 1 "def f(x):".toList "f" ["x"]
    ["    return [".toList, "        x]".toList, "    print(x)".toList]

theorem deeperFunction_mem : deeperFunction ∈ functionsIn (linesOf deeperReturn) := by
  have hbegins : (stateBehind []).BeginsFunction "def f(x):".toList "f" ["x"] :=
    ⟨rfl, rfl, by decide⟩
  exact mem_functionsIn.2 (functionAt_mem_outline hbegins)

theorem closesDeeper_deeperFunction : deeperFunction.ClosesDeeper := by
  rintro ret between item ⟨⟨above, rest, hbody⟩, hreturn, -, houter⟩
  have htexts : (above ++ ret :: (between ++ item :: rest)).map Item.text =
      ["    return [".toList, "        x]".toList, "    print(x)".toList] := by
    rw [← hbody]
    decide
  have hindent : deeperFunction.bodyIndent? = some 4 := by decide
  obtain ⟨limit, hlimit, hle⟩ := houter.indent
  obtain rfl := Option.some.inj (hindent.symm.trans hlimit)
  simp only [List.map_append, List.map_cons] at htexts
  rcases above with _ | ⟨first, _ | ⟨second, above⟩⟩
  · obtain ⟨hret, hrest⟩ := List.cons.inj htexts
    rcases between with _ | ⟨second, _ | ⟨third, between⟩⟩
    · -- the line that ends the value is deeper than the body
      rw [(List.cons.inj hrest).1] at hle
      exact absurd hle (by decide)
    · rw [List.map_cons, List.map_cons, hret, (List.cons.inj hrest).1]
      decide
    · simp at hrest
  · have hbegins := hreturn.begins
    rw [(List.cons.inj (List.cons.inj htexts).2).1] at hbegins
    exact absurd hbegins (by decide)
  · have hlength := congrArg List.length htexts
    simp at hlength
    omega

/-- The statement is reported, and the line that ends the value is not. -/
theorem reported_deeperReturn :
    unreachableIssue 4 ∈ (analyze deeperReturn).deadCode ∧
      ∀ item ∈ deeperFunction.body,
        unreachableIssue item.number ∈ (analyze deeperReturn).deadCode →
          ¬deeperFunction.Continues item := by
  obtain ⟨-, hcontinues⟩ := unreachable_iff deeperReturn
  exact ⟨by decide, (hcontinues deeperFunction deeperFunction_mem).2 closesDeeper_deeperFunction⟩

/-- A return whose value ends on a line at the indent of the body. -/
def shallowReturn : String := "def f(x):\n    return [\n        x,\n    ]"

def shallowFunction : Function :=
  functionAt 1 "def f(x):".toList "f" ["x"]
    ["    return [".toList, "        x,".toList, "    ]".toList]

/-- The bracket that ends the value is reported, though it continues the return. -/
theorem reported_shallowReturn :
    shallowFunction ∈ functionsIn (linesOf shallowReturn) ∧
      ∃ item ∈ shallowFunction.body, item.text = "    ]".toList ∧ shallowFunction.Continues item ∧
        unreachableIssue item.number ∈ (analyze shallowReturn).deadCode := by
  have hbegins : (stateBehind []).BeginsFunction "def f(x):".toList "f" ["x"] :=
    ⟨rfl, rfl, by decide⟩
  refine ⟨mem_functionsIn.2 (functionAt_mem_outline hbegins), ?_⟩
  -- the three lines of the body
  have hitems : ∃ ret inner item, shallowFunction.body = [ret, inner, item] ∧
      shallowFunction.IsReturn ret ∧ ¬shallowFunction.IsReturn inner ∧
      ret.text = "    return [".toList ∧ inner.text = "        x,".toList ∧
      item.text = "    ]".toList ∧ item.number = 4 :=
    ⟨_, _, _, rfl, by decide, by decide, rfl, rfl, rfl, rfl⟩
  obtain ⟨ret, inner, item, hbody, hret, hinner, hretText, hinnerText, htext, hnumber⟩ := hitems
  refine ⟨item, by rw [hbody]; simp, htext, ⟨[], ret, [inner], [], hbody, hret, ?_, ?_⟩, ?_⟩
  · exact List.forall_mem_singleton.2 hinner
  · rw [List.map_cons, List.map_singleton, hretText, hinnerText]
    decide
  · rw [hnumber]
    decide

/-! ## Lines that are found -/

theorem exists_nextOuter_or_behindReturn (h : ∃ item ∈ items, f.IsOuter item) :
    ∃ item ∈ items, f.NextOuter items item ∨ f.BehindReturn items item := by
  induction items with
  | nil =>
      obtain ⟨item, hitem, -⟩ := h
      cases hitem
  | cons first items ih =>
      obtain ⟨item, hitem, houter⟩ := h
      rcases f.line_cases first with hreturn | hfirst | hinner
      · rcases List.mem_cons.1 hitem with rfl | hitem
        · exact absurd hreturn houter.not_return
        · obtain ⟨other, hother, hreport⟩ := ih ⟨item, hitem, houter⟩
          refine ⟨other, List.mem_cons_of_mem _ hother, Or.inr (behindReturn_cons_iff.2 ?_)⟩
          exact hreport.imp (fun hnext => ⟨hreturn, hnext⟩) id
      · exact ⟨first, List.mem_cons_self, Or.inl (nextOuter_cons_iff.2 (Or.inl ⟨hfirst, rfl⟩))⟩
      · rcases List.mem_cons.1 hitem with rfl | hitem
        · exact absurd houter hinner.not_outer
        · obtain ⟨other, hother, hreport⟩ := ih ⟨item, hitem, houter⟩
          refine ⟨other, List.mem_cons_of_mem _ hother, ?_⟩
          rw [nextOuter_cons_iff, behindReturn_cons_iff]
          exact hreport.imp (fun hnext => Or.inr ⟨hinner, hnext⟩) Or.inr

theorem BehindReturn.append (above : List Item) (h : f.BehindReturn items item) :
    f.BehindReturn (above ++ items) item := by
  obtain ⟨front, ret, rest, rfl, hreturn, hnext⟩ := h
  exact ⟨above ++ front, ret, rest, (List.append_assoc ..).symm, hreturn, hnext⟩

/-- Behind a return of a body something is reported if some line there is no deeper than the body
and no return. -/
theorem exists_reported_iff {above : List Item} {ret : Item}
    (hbody : f.body = above ++ ret :: rest) (hreturn : f.IsReturn ret) :
    (∃ item ∈ rest, ∃ ret between, f.Behind ret between item) ↔ ∃ item ∈ rest, f.IsOuter item := by
  constructor
  · rintro ⟨item, hitem, _, _, hbehind⟩
    exact ⟨item, hitem, hbehind.outer⟩
  · intro houter
    obtain ⟨item, hitem, hreport⟩ := exists_nextOuter_or_behindReturn houter
    refine ⟨item, hitem, exists_behind_iff.2 ?_⟩
    rw [hbody]
    exact BehindReturn.append above
      (behindReturn_cons_iff.2 (hreport.imp (fun hnext => ⟨hreturn, hnext⟩) id))

/-- **What is found behind a return.**  In a function whose header stands in no other block, a line
behind a return is reported if and only if some line there is no deeper than the body and no return
of it.  So a statement at the indent of the body is enough, unless it is a return as well. -/
theorem unreachable_found_iff {source : String} {front below : List Line} {header : Line}
    {name : String} {parameters : List String}
    (hlines : linesOf source = front ++ header :: below)
    (hbegins : (stateBehind front).BeginsFunction header name parameters)
    (hf : f = functionAt (front.length + 1) header name parameters below)
    {above : List Item} {ret : Item} (hbody : f.body = above ++ ret :: rest)
    (hreturn : f.IsReturn ret) :
    ((∃ item ∈ rest, unreachableIssue item.number ∈ (analyze source).deadCode) ↔
      ∃ item ∈ rest, f.IsOuter item) ∧
    ((∃ item ∈ rest, item.isActive = true ∧ f.bodyIndent? = some (indentWidth item.text) ∧
        ¬BeginsWith "return" (trim item.text)) →
      ∃ item ∈ rest, unreachableIssue item.number ∈ (analyze source).deadCode) := by
  have hmem : f ∈ functionsIn (linesOf source) := by
    rw [mem_functionsIn, hf, hlines]
    exact functionAt_mem_outline hbegins
  have hfound : (∃ item ∈ rest, unreachableIssue item.number ∈ (analyze source).deadCode) ↔
      ∃ item ∈ rest, f.IsOuter item := by
    rw [← exists_reported_iff hbody hreturn]
    refine exists_congr (fun item => and_congr_right (fun hitem => ?_))
    refine mem_deadCode_iff_of_mem_body hmem ?_
    rw [hbody]
    exact List.mem_append_right _ (List.mem_cons_of_mem _ hitem)
  refine ⟨hfound, ?_⟩
  rintro ⟨item, hitem, hactive, hindent, hbegins⟩
  exact hfound.2 ⟨item, hitem, hactive, ⟨_, hindent, Nat.le_refl _⟩, fun h => hbegins h.begins⟩

/-- A method with a statement behind its return. -/
def methodWithRest : String := "class A:\n    def f(self):\n        return 1\n        print(2)"

/-- The statement is found. -/
theorem found_methodWithRest : unreachableIssue 4 ∈ (analyze methodWithRest).deadCode := by
  have hlines : linesOf methodWithRest = ["class A:".toList] ++ "    def f(self):".toList ::
      ["        return 1".toList, "        print(2)".toList] := by decide
  have hbegins :
      (stateBehind ["class A:".toList]).BeginsFunction "    def f(self):".toList "f" [] :=
    ⟨by decide, by decide, by decide⟩
  obtain ⟨f, hf⟩ : ∃ f, f = functionAt 2 "    def f(self):".toList "f" []
    ["        return 1".toList, "        print(2)".toList] := ⟨_, rfl⟩
  have hitems : ∃ ret item, f.body = [] ++ ret :: [item] ∧ item.number = 4 ∧ f.IsReturn ret ∧
      item.isActive = true ∧ f.bodyIndent? = some (indentWidth item.text) ∧
      ¬BeginsWith "return" (trim item.text) := by
    rw [hf]
    exact ⟨_, _, rfl, rfl, by decide, by decide, by decide, by decide⟩
  obtain ⟨ret, item, hbody, hnumber, hret, hrest⟩ := hitems
  obtain ⟨-, hfound⟩ := unreachable_found_iff hlines hbegins hf hbody hret
  obtain ⟨other, hother, hreported⟩ := hfound ⟨item, List.mem_singleton_self item, hrest⟩
  rwa [List.mem_singleton.1 hother, hnumber] at hreported

def twoReturns : String := "def f():\n    return 1\n    return 2"

def twoReturnsFunction : Function :=
  functionAt 1 "def f():".toList "f" [] ["    return 1".toList, "    return 2".toList]

/-- The second return is behind the first, at the indent of the body, and nothing is found. -/
theorem unfound_twoReturns :
    linesOf twoReturns = [] ++ "def f():".toList :: ["    return 1".toList, "    return 2".toList] ∧
      (stateBehind []).BeginsFunction "def f():".toList "f" [] ∧
      (∃ first second, twoReturnsFunction.body = [first, second] ∧
        twoReturnsFunction.IsReturn first ∧ second.isActive = true ∧
          twoReturnsFunction.bodyIndent? = some (indentWidth second.text)) ∧
      (analyze twoReturns).deadCode = [] :=
  ⟨by decide, ⟨rfl, rfl, by decide⟩, ⟨_, _, rfl, by decide, by decide, by decide⟩, by decide⟩

end CodeSurvey.Python
