/-
# The outline with a comment put in

A comment that stands outside strings, spares the blocks that it is in, and is in no docstring
changes the outline in its numbers only, up to lines that show nothing (`Outlined.upTo`).  Such
lines are the comment itself, and the blank lines and comments at the end of a block that it cuts
off.  The two outlines are followed line by line: above the place, where the blocks differ, and
below it, where nothing but the numbers does.
-/
import CodeSurvey.Proofs.Python.BlockChanges
import CodeSurvey.Proofs.Python.Depth
import CodeSurvey.Proofs.UpTo

namespace CodeSurvey.Python

open Text Pattern

/-! ## The same lines in other places -/

/-- A line that has moved. -/
structure Item.Moved (place : Nat) (old new : Item) : Prop where
  number : new.number = shift place old.number
  text : new.text = old.text
  role : new.role = old.role

/-- A line of a body that has moved.  A loop still calls or still does not. -/
structure Item.MovedInBody (place : Nat) (old new : Item) : Prop extends
    Item.Moved place old new where
  loop : old.isLoop = true → new.loopHasCall = old.loopHasCall

/-- The body of a function that has moved, up to lines that are passed over. -/
abbrev MovedBody (place : Nat) : List Item → List Item → Prop :=
  UpTo (Item.MovedInBody place) (fun item => item.isActive = false)

/-- A function that has moved. -/
structure Function.Moved (place : Nat) (old new : Function) : Prop where
  number : new.number = shift place old.number
  name : new.name = old.name
  parameters : new.parameters = old.parameters
  body : MovedBody place old.body new.body
  bodyIndent : new.bodyIndent? = old.bodyIndent?
  docstring : docstringIssue? "Function" new.name new.number new.block =
    (docstringIssue? "Function" old.name old.number old.block).map (LineIssue.moved place)

/-- A step that has moved. -/
inductive Step.Moved (place : Nat) : Step → Step → Prop
  | line {old new : Item} : old.Moved place new →
      (∀ name scan, old.role = .code (some name) scan →
        Python.docstringIssue? "Class" name new.number (blockUnder new.text new.below) =
          (Python.docstringIssue? "Class" name old.number (blockUnder old.text old.below)).map
            (LineIssue.moved place)) →
      Step.Moved place (.line old) (.line new)
  | function {old new : Function} : old.Moved place new →
      Step.Moved place (.function old) (.function new)

/-- A line at module level that shows nothing. -/
inductive Step.IsIdle : Step → Prop
  | line {item : Item} : hasContent item.text = false → item.role = .code none .nothing →
      Step.IsIdle (.line item)

/-! ## Lines of a body -/

theorem bodyItems_append (b : OpenBlock) (number size : Nat) (front back : List Line) :
    bodyItems b.strings b.depth number (front.length + size) (front ++ back) =
      bodyItems b.strings b.depth number front.length (front ++ back) ++
        bodyItems (b.after front).strings (b.after front).depth (number + front.length) size
          back := by
  induction front generalizing b number with
  | nil =>
      rw [List.length_nil, Nat.zero_add, List.nil_append]
      rfl
  | cons text front ih =>
      have hnext := ih (b.next text) (number + 1)
      rw [Nat.add_right_comm number 1, Nat.add_assoc number] at hnext
      rw [List.length_cons, Nat.add_right_comm, List.cons_append, bodyItems, bodyItems,
        List.cons_append]
      exact congrArg (_ :: ·) hnext

theorem isActive_bodyItems {size : Nat} {below : List Line}
    (h : ∀ line ∈ below.take size, hasContent line = false) (strings : StringState)
    (depth number : Nat) :
    ∀ item ∈ bodyItems strings depth number size below, item.isActive = false := by
  induction size generalizing strings depth number below with
  | zero => exact fun _ h => absurd h List.not_mem_nil
  | succ size ih =>
      cases below with
      | nil => exact fun _ h => absurd h List.not_mem_nil
      | cons text below =>
          rw [List.take_succ_cons] at h
          obtain ⟨htext, hbelow⟩ := List.forall_mem_cons.1 h
          refine List.forall_mem_cons.2 ⟨?_, ih hbelow _ _ _⟩
          rw [htext]
          cases strings with
          | none => rfl
          | some quote => rfl

theorem movedBody_below {place number : Nat} (hnumber : place < number) (strings : StringState)
    (depth size : Nat) (lines : List Line) :
    MovedBody place (bodyItems strings depth number size lines)
      (bodyItems strings depth (number + 1) size lines) := by
  induction size generalizing strings depth number lines with
  | zero => exact .nil
  | succ size ih =>
      cases lines with
      | nil => exact .nil
      | cons text lines =>
          refine .both ⟨⟨(shift_of_lt hnumber).symm, rfl, rfl⟩, fun _ => rfl⟩ ?_
          exact ih (Nat.lt_succ_of_lt hnumber) _ _ _

section Comment

variable {c : Line} {back : List Line} {place : Nat}

theorem loopHasCall_eq {header : Line} {front block block' : List Line}
    (h : BlockChange header c front back block block') (hc : isCommentLine c = true) :
    block'.any (fun line => callPattern.occurs (maskLine .hash line)) =
      block.any (fun line => callPattern.occurs (maskLine .hash line)) :=
  h.any_eq (hasContent_of_isCommentLine hc) (fun _ => not_call_of_contentless)

theorem movedBody_above (hc : isCommentLine c = true) {size number : Nat} {front : List Line}
    (hsize : size ≤ front.length) (hplace : number + size ≤ place + 1) (strings : StringState)
    (depth : Nat)
    (hspares : ∀ item ∈ bodyItems strings depth number size (front ++ back), item.isLoop = true →
      Spares c back item.text item.below) :
    MovedBody place (bodyItems strings depth number size (front ++ back))
      (bodyItems strings depth number size (front ++ c :: back)) := by
  induction size generalizing strings depth number front with
  | zero => exact .nil
  | succ size ih =>
      cases front with
      | nil => exact absurd hsize (Nat.not_succ_le_zero size)
      | cons text front =>
          have hnumber : number = shift place number := (shift_of_le (by omega)).symm
          rw [List.cons_append, bodyItems] at hspares
          obtain ⟨htext, hothers⟩ := List.forall_mem_cons.1 hspares
          rw [List.cons_append, List.cons_append, bodyItems, bodyItems]
          refine .both ⟨⟨hnumber, rfl, rfl⟩, fun hloop => ?_⟩
            (ih (Nat.le_of_succ_le_succ hsize) (by omega) _ _ hothers)
          exact loopHasCall_eq (blockChange_blockUnder hc (htext hloop)) hc

/-! ## Functions -/

theorem bodyIndent?_functionAt (number : Nat) (header : Line) (name : String)
    (parameters : List String) (below : List Line) :
    (functionAt number header name parameters below).bodyIndent? =
      ((firstContent? (blockUnder header below)).map (·.2)).map indentWidth := by
  rw [Function.bodyIndent?, block_functionAt, Option.map_map]
  rfl

theorem bodyItems_comment (hc : isCommentLine c = true) (depth number size : Nat)
    (below : List Line) :
    ∃ item, item.isActive = false ∧ bodyItems none depth number (size + 1) (c :: below) =
      item :: bodyItems none depth (number + 1) size below := by
  have hcontent := hasContent_of_isCommentLine hc
  refine ⟨⟨number, c, .idle, below⟩, rfl, ?_⟩
  rw [bodyItems, hcontent, StringState.next, openedBy_of_contentless hcontent]
  rfl

theorem movedBody_of_blockChange (hc : isCommentLine c = true) {number : Nat} {header : Line}
    {front block block' : List Line} (h : BlockChange header c front back block block')
    (hplace : number + front.length = place)
    (hloops : ∀ item ∈ bodyItems none 0 (number + 1) block.length (front ++ back),
      item.isLoop = true → Spares c back item.text item.below)
    (houtside : AllInBlock (indentWidth header) front → indentWidth header < indentWidth c →
      ((⟨indentWidth header, none, 0⟩ : OpenBlock).after front).strings = none) :
    MovedBody place (bodyItems none 0 (number + 1) block.length (front ++ back))
      (bodyItems none 0 (number + 1) block'.length (front ++ c :: back)) := by
  let b : OpenBlock := ⟨indentWidth header, none, 0⟩
  have hparts : ∀ size below, bodyItems none 0 (number + 1) (front.length + size)
      (front ++ below) = bodyItems none 0 (number + 1) front.length (front ++ below) ++
        bodyItems (b.after front).strings (b.after front).depth (number + 1 + front.length) size
          below := fun size below => bodyItems_append b (number + 1) size front below
  have hbelow : place < number + 1 + front.length := by omega
  have hsize : number + 1 + front.length ≤ place + 1 := by omega
  cases h with
  | @above block others hfront _ _ _ =>
      have hblock : block.length ≤ front.length := by
        rw [hfront, List.length_append]
        exact Nat.le_add_right _ _
      exact movedBody_above hc hblock (by omega) none 0 hloops
  | within hall hdeeper =>
      rw [List.length_append, hparts] at hloops ⊢
      rw [List.length_append, List.length_cons, hparts, houtside hall hdeeper]
      have habove := movedBody_above hc (Nat.le_refl front.length) hsize none 0
        (fun item hitem => hloops item (List.mem_append_left _ hitem))
      obtain ⟨item, hidle, hitems⟩ := bodyItems_comment hc (b.after front).depth
        (number + 1 + front.length) (blockUnder header back).length back
      rw [hitems]
      exact habove.append (.right hidle (movedBody_below hbelow _ _ _ _))
  | cut hall _ hbehind =>
      rw [List.length_append, hparts] at hloops ⊢
      have habove := movedBody_above hc (Nat.le_refl front.length) hsize none 0
        (fun item hitem => hloops item (List.mem_append_left _ hitem))
      rw [← take_blockSize] at hbehind
      rw [← List.append_nil (bodyItems none 0 (number + 1) front.length (front ++ c :: back))]
      exact habove.append (UpTo.of_idle_left (isActive_bodyItems hbehind _ _ _))

/-- **A function above the place has moved only.** -/
theorem moved_functionAt (hc : isCommentLine c = true) {number : Nat} {front : List Line}
    (hplace : number + front.length = place) {header : Line} {name : String}
    {parameters : List String}
    (hspares : Spares c back header (front ++ back))
    (hloops : ∀ item ∈ (functionAt number header name parameters (front ++ back)).body,
      item.isLoop = true → Spares c back item.text item.below)
    (hclosed : AllInBlock (indentWidth header) front → ¬DocstringOpen front)
    (houtside : AllInBlock (indentWidth header) front → indentWidth header < indentWidth c →
      ((⟨indentWidth header, none, 0⟩ : OpenBlock).after front).strings = none) :
    (functionAt number header name parameters (front ++ back)).Moved place
      (functionAt number header name parameters (front ++ c :: back)) := by
  have hcontent := hasContent_of_isCommentLine hc
  have hchange := blockChange_blockUnder hc hspares
  refine ⟨(shift_of_le (by show number ≤ place; omega)).symm, rfl, rfl, ?_, ?_, ?_⟩
  · exact movedBody_of_blockChange hc hchange hplace hloops houtside
  · rw [bodyIndent?_functionAt, bodyIndent?_functionAt, hchange.firstContent?_eq hcontent]
  · rw [block_functionAt, block_functionAt]
    exact hchange.docstringIssue?_eq hcontent hclosed hplace "Function" name

end Comment

/-! ## The outline below the place -/

/-- Lines without content at module level show nothing and leave the scan as it is. -/
theorem Outlined.idle_append {depth number : Nat} {tail rest : List Line} {steps : List Step}
    (h : Outlined none depth number (tail ++ rest) steps)
    (htail : ∀ line ∈ tail, hasContent line = false) :
    ∃ idle others, steps = idle ++ others ∧ (∀ step ∈ idle, step.IsIdle) ∧
      Outlined none depth (number + tail.length) rest others := by
  induction tail generalizing number steps with
  | nil => exact ⟨[], steps, rfl, List.forall_mem_nil _, h⟩
  | cons line tail ih =>
      obtain ⟨hline, hothers⟩ := List.forall_mem_cons.1 htail
      cases h with
      | function hrole _ =>
          rw [roleAt_of_contentless hline] at hrole
          cases hrole
      | line _ hnext =>
          rw [roleAt_of_contentless hline, moduleDepth_of_contentless hline,
            openedBy_of_contentless hline, Role.depthAfter, depthAfter_of_contentless hline]
            at hnext
          obtain ⟨idle, others, rfl, hidle, hrest⟩ := ih hnext hothers
          refine ⟨_ :: idle, others, rfl, List.forall_mem_cons.2 ⟨.line hline ?_, hidle⟩, ?_⟩
          · exact roleAt_of_contentless hline _
          · rw [List.length_cons, Nat.add_comm tail.length, ← Nat.add_assoc]
            exact hrest

theorem Outlined.upTo_below {place : Nat} {strings : StringState} {depth number : Nat}
    {lines : List Line} {steps steps' : List Step}
    (h : Outlined strings depth number lines steps)
    (h' : Outlined strings depth (number + 1) lines steps') (hnumber : place < number) :
    UpTo (Step.Moved place) Step.IsIdle steps steps' := by
  induction h generalizing steps' with
  | done =>
      cases h'
      exact .nil
  | quoted _ ih =>
      cases h' with
      | quoted h' =>
          refine .both (.line ⟨(shift_of_lt hnumber).symm, rfl, rfl⟩ ?_)
            (ih h' (Nat.lt_succ_of_lt hnumber))
          intro name scan hrole
          cases hrole
  | line hrole _ ih =>
      cases h' with
      | function hrole' _ => exact absurd hrole' (hrole _ _)
      | line _ h' =>
          refine .both (.line ⟨(shift_of_lt hnumber).symm, rfl, rfl⟩ ?_)
            (ih h' (Nat.lt_succ_of_lt hnumber))
          exact fun name scan _ => docstringIssue?_below hnumber _ _ _
  | @function depth number text name parameters below steps hrole _ ih =>
      cases h' with
      | line hrole' _ => exact absurd hrole (hrole' _ _)
      | @function _ _ _ name' parameters' _ steps' hrole' h' =>
          obtain ⟨rfl, rfl⟩ := Role.definition.inj (hrole.symm.trans hrole')
          have hbelow : place < number + 1 + blockSize text below := by omega
          rw [Nat.add_right_comm _ 1] at h'
          refine .both (.function ⟨(shift_of_lt hnumber).symm, rfl, rfl, ?_, ?_, ?_⟩) (ih h' hbelow)
          · exact movedBody_below (Nat.lt_succ_of_lt hnumber) _ _ _ _
          · rw [bodyIndent?_functionAt, bodyIndent?_functionAt]
          · rw [block_functionAt, block_functionAt]
            exact docstringIssue?_below hnumber _ _ _

/-! ## The outline above the place -/

/-- The headers that have a docstring, with the lines below them: functions, and classes at module
level. -/
inductive Documented (steps : List Step) : Line → List Line → Prop
  | function {f : Function} : .function f ∈ steps → Documented steps f.header f.below
  | module_class {item : Item} {name : String} {scan : LineScan} : .line item ∈ steps →
      item.role = .code (some name) scan → Documented steps item.text item.below

/-- A comment fits in front of lines: it spares the blocks of functions, of classes at module level
and of loops in functions, and it is in no docstring. -/
structure Fits (c : Line) (back : List Line) (steps : List Step) : Prop where
  blocks : ∀ header below, Documented steps header below → Spares c back header below
  loops : ∀ f, .function f ∈ steps → ∀ item ∈ f.body, item.isLoop = true →
    Spares c back item.text item.below
  docstrings : ∀ header below, Documented steps header below → ∀ between,
    below = between ++ back → AllInBlock (indentWidth header) between → ¬DocstringOpen between

theorem Documented.cons {steps : List Step} {header : Line} {below : List Line}
    (h : Documented steps header below) (step : Step) :
    Documented (step :: steps) header below := by
  cases h with
  | function hf => exact .function (List.mem_cons_of_mem _ hf)
  | module_class hitem hrole => exact .module_class (List.mem_cons_of_mem _ hitem) hrole

section Comment

variable {c : Line} {back : List Line} {place : Nat}

theorem Fits.tail {step : Step} {steps : List Step} (h : Fits c back (step :: steps)) :
    Fits c back steps where
  blocks header below hdocumented := h.blocks header below (hdocumented.cons step)
  loops f hf := h.loops f (List.mem_cons_of_mem _ hf)
  docstrings header below hdocumented := h.docstrings header below (hdocumented.cons step)

theorem Outlined.upTo_comment (hc : isCommentLine c = true) {depth number : Nat}
    {steps steps' : List Step} (h : Outlined none depth number back steps)
    (h' : Outlined none depth number (c :: back) steps') (hnumber : place < number) :
    UpTo (Step.Moved place) Step.IsIdle steps steps' := by
  have hcontent : ∀ line ∈ [c], hasContent line = false :=
    List.forall_mem_singleton.2 (hasContent_of_isCommentLine hc)
  obtain ⟨idle, others, rfl, hidle, hrest⟩ := Outlined.idle_append h' hcontent
  exact (UpTo.of_idle_right hidle).append (h.upTo_below hrest hnumber)

theorem docstringIssue?_class (hc : isCommentLine c = true) {number : Nat} {header : Line}
    {role : Role} {front : List Line} {steps : List Step} {name : String} {scan : LineScan}
    (hfits : Fits c back (.line ⟨number, header, role, front ++ back⟩ :: steps))
    (hclass : role = .code (some name) scan) (hplace : number + front.length = place) :
    docstringIssue? "Class" name number (blockUnder header (front ++ c :: back)) =
      (docstringIssue? "Class" name number (blockUnder header (front ++ back))).map
        (LineIssue.moved place) := by
  have hdocumented : Documented (.line ⟨number, header, role, front ++ back⟩ :: steps) header
      (front ++ back) := .module_class List.mem_cons_self hclass
  have hchange := blockChange_blockUnder hc (hfits.blocks _ _ hdocumented)
  exact hchange.docstringIssue?_eq (hasContent_of_isCommentLine hc)
    (fun hall => hfits.docstrings _ _ hdocumented front rfl hall) hplace "Class" name

theorem moved_functionAt_of_fits (hc : isCommentLine c = true) {number : Nat} {header : Line}
    {name : String} {parameters : List String} {front : List Line} {steps : List Step}
    (hfits : Fits c back
      (.function (functionAt number header name parameters (front ++ back)) :: steps))
    (hplace : number + front.length = place) {strings : StringState} {depth : Nat}
    (houtside : ((ScanState.mk strings depth (some ⟨indentWidth header, none, 0⟩)).after
      front).stringsAt c = none) :
    (functionAt number header name parameters (front ++ back)).Moved place
      (functionAt number header name parameters (front ++ c :: back)) := by
  have hmem : .function (functionAt number header name parameters (front ++ back)) ∈
      .function (functionAt number header name parameters (front ++ back)) :: steps :=
    List.mem_cons_self
  refine moved_functionAt hc hplace (hfits.blocks _ _ (.function hmem)) (hfits.loops _ hmem)
    (fun hall => hfits.docstrings _ _ (.function hmem) front rfl hall) ?_
  -- the comment is in the block of the function
  intro hall hdeeper
  rw [ScanState.after_block hall, ScanState.stringsAt, ScanState.blockOf?_of_inBlock] at houtside
  · exact houtside
  · rw [OpenBlock.indent_after, inBlock, decide_eq_true hdeeper, Bool.or_true]

/-- Behind the block of a header above the place: the block ends above the place, and the scan goes
on to it; or the comment is in the block; or it cuts off the end of the block. -/
theorem Outlined.upTo_behind (hc : isCommentLine c = true) {header : Line}
    {front block block' : List Line} (hchange : BlockChange header c front back block block')
    {number : Nat} (hplace : number + front.length = place) {strings : StringState}
    {steps steps' : List Step}
    (h : Outlined strings 0 (number + 1 + block.length) ((front ++ back).drop block.length) steps)
    (h' : Outlined strings 0 (number + 1 + block'.length)
      ((front ++ c :: back).drop block'.length) steps')
    (houtside : ((ScanState.mk strings 0 (some ⟨indentWidth header, none, 0⟩)).after
      front).stringsAt c = none)
    (hrest : ∀ block others, front = block ++ others →
      Outlined strings 0 (number + 1 + block.length) (others ++ back) steps →
      Outlined strings 0 (number + 1 + block.length) (others ++ c :: back) steps' →
      ((ScanState.mk strings 0 none).after others).stringsAt c = none →
      UpTo (Step.Moved place) Step.IsIdle steps steps') :
    UpTo (Step.Moved place) Step.IsIdle steps steps' := by
  cases hchange with
  | @above block others hfront hne hblock hleaves =>
      subst hfront
      rw [List.append_assoc, List.drop_left] at h h'
      refine hrest block others rfl h h' ?_
      rw [ScanState.after_append, ScanState.after_block hblock, ScanState.after_leaving ?_ hne]
        at houtside
      · exact houtside
      · rw [OpenBlock.indent_after]
        exact hleaves
  | within _ _ =>
      rw [List.length_append, List.drop_length_add_append] at h
      rw [List.length_append, List.length_cons, List.drop_length_add_append, List.drop_succ_cons,
        ← Nat.add_assoc, ← Nat.add_assoc] at h'
      rw [← Nat.add_assoc] at h
      exact h.upTo_below h' (by omega)
  | cut hall hout hbehind =>
      -- outside the block, the comment is read at module level, and so is what it cuts off
      rw [ScanState.after_block hall, ScanState.stringsAt, ScanState.blockOf?_of_not_inBlock]
        at houtside
      · have hstrings : strings = none := houtside
        subst hstrings
        rw [List.length_append, List.drop_length_add_append] at h
        rw [List.drop_left] at h'
        have hsplit : c :: back =
            (c :: blockUnder header back) ++ back.drop (blockUnder header back).length := by
          rw [List.cons_append]
          exact congrArg (c :: ·) (blockUnder_append_drop header back).symm
        have htail : ∀ line ∈ c :: blockUnder header back, hasContent line = false :=
          List.forall_mem_cons.2 ⟨hasContent_of_isCommentLine hc, hbehind⟩
        rw [hsplit] at h'
        obtain ⟨idle, others, rfl, hidle, hothers⟩ := h'.idle_append htail
        rw [List.length_cons, ← Nat.add_assoc] at hothers
        rw [← Nat.add_assoc] at h
        exact (UpTo.of_idle_right hidle).append (h.upTo_below hothers (by omega))
      · rw [OpenBlock.indent_after]
        exact hout

/-- **The outline with a comment put in.** -/
theorem Outlined.upTo (hc : isCommentLine c = true) {strings : StringState} {depth number : Nat}
    {front : List Line} {steps steps' : List Step}
    (h : Outlined strings depth number (front ++ back) steps)
    (h' : Outlined strings depth number (front ++ c :: back) steps')
    (hplace : number + front.length = place + 1)
    (houtside : ((ScanState.mk strings depth none).after front).stringsAt c = none)
    (hfits : Fits c back steps) :
    UpTo (Step.Moved place) Step.IsIdle steps steps' := by
  -- a function takes its block along, so the induction is on the number of lines
  generalize hlength : front.length = length at hplace
  induction length using Nat.strongRecOn generalizing strings depth number front steps steps' with
  | ind length ih =>
      cases front with
      | nil =>
          have hstrings : strings = none := houtside
          subst hstrings
          exact Outlined.upTo_comment hc h h' (by rw [List.length_nil] at hlength; omega)
      | cons text front =>
          rw [List.length_cons] at hlength
          have hnumber : shift place number = number := shift_of_le (by omega)
          have hplace' : number + front.length = place := by omega
          cases h with
          | quoted h =>
              cases h' with
              | quoted h' =>
                  refine .both (.line ⟨hnumber.symm, rfl, rfl⟩ ?_)
                    (ih front.length (by omega) h h' houtside hfits.tail rfl (by omega))
                  intro name scan hrole
                  cases hrole
          | line hrole h =>
              cases h' with
              | function hrole' _ => exact absurd hrole' (hrole _ _)
              | line _ h' =>
                  rw [ScanState.after_not_definition hrole] at houtside
                  refine .both (.line ⟨hnumber.symm, rfl, rfl⟩ ?_)
                    (ih front.length (by omega) h h' houtside hfits.tail rfl (by omega))
                  intro name scan hclass
                  exact docstringIssue?_class hc hfits hclass hplace'
          | @function _ _ _ name parameters _ steps hrole h =>
              cases h' with
              | line hrole' _ => exact absurd hrole (hrole' _ _)
              | @function _ _ _ name' parameters' _ steps' hrole' h' =>
                  obtain ⟨rfl, rfl⟩ := Role.definition.inj (hrole.symm.trans hrole')
                  rw [ScanState.after_definition hrole] at houtside
                  have hfunction := moved_functionAt_of_fits hc hfits hplace' houtside
                  refine .both (.function hfunction) ?_
                  have hchange : BlockChange text c front back (blockUnder text (front ++ back))
                      (blockUnder text (front ++ c :: back)) :=
                    blockChange_blockUnder hc (hfits.blocks _ _ (.function List.mem_cons_self))
                  refine Outlined.upTo_behind hc hchange hplace' h h' houtside ?_
                  intro block others hfront hothers hothers' hstrings
                  rw [hfront, List.length_append] at hlength hplace'
                  exact ih others.length (by omega) hothers hothers' hstrings hfits.tail rfl
                    (by omega)

end Comment

end CodeSurvey.Python
