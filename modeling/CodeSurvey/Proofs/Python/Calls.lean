/-
# What counts as a call

Call tokens are read in three places.  The names that a source calls leave keywords out, the counter
of a function does not, and a loop is reported if a call token stands on any line of its block, be
it code or not (`calls_iff`).  So the counter counts calls exactly if no keyword stands before a
parenthesis on the code lines of the function.
-/
import Mathlib.Data.List.Perm.Subperm
import Mathlib.Data.Prod.Basic
import CodeSurvey.Proofs.Python.Blocks
import CodeSurvey.Proofs.Python.CallTokens
import CodeSurvey.Proofs.Python.LeadingWords
import CodeSurvey.Proofs.Python.Numbering
import CodeSurvey.Proofs.Python.Uninitialized
import CodeSurvey.Proofs.Python.Uses

namespace CodeSurvey.Python

open Text Pattern

/-! ## Lines of a body -/

theorem below_bodyItems {strings : StringState} {depth number size : Nat} {below : List Line}
    {above rest : List Item} {item : Item}
    (h : bodyItems strings depth number size below = above ++ item :: rest) :
    item.below = rest.map Item.text ++ below.drop size := by
  induction size generalizing strings depth number below above with
  | zero => exact absurd h.symm (List.append_ne_nil_of_right_ne_nil _ (List.cons_ne_nil _ _))
  | succ size ih =>
      cases below with
      | nil => exact absurd h.symm (List.append_ne_nil_of_right_ne_nil _ (List.cons_ne_nil _ _))
      | cons text below =>
          rw [bodyItems] at h
          cases above with
          | nil =>
              obtain ⟨rfl, rfl⟩ := List.cons.inj h
              rw [bodyItems_text, List.drop_succ_cons, List.take_append_drop]
          | cons first above =>
              obtain ⟨-, hrest⟩ := List.cons.inj h
              rw [List.drop_succ_cons, ← ih hrest]

theorem hasContent_of_mem_bodyItems {strings : StringState} {depth number size : Nat}
    {below : List Line} {item : Item} (h : item ∈ bodyItems strings depth number size below)
    (hscan : item.scan?.isSome = true) : hasContent item.text = true := by
  induction size generalizing strings depth number below with
  | zero => cases h
  | succ size ih =>
      cases below with
      | nil => cases h
      | cons text below =>
          rw [bodyItems] at h
          rcases List.mem_cons.1 h with rfl | h
          · rw [Item.scan?_eq] at hscan
            dsimp only at hscan ⊢
            split at hscan
            · cases hscan
            · split at hscan
              · rename_i hcontent
                exact hcontent
              · cases hscan
          · exact ih h

/-- The part of a loop's block that is in the body of its function. -/
def Item.blockIn (loop : Item) (rest : List Item) : List Item :=
  rest.takeWhile (fun item => inBlock (indentWidth loop.text) item.text)

/-- **The block of a loop does not leave the body of its function.** -/
theorem blockUnder_loop {lines : List Line} {f : Function} (hf : f ∈ functionsIn lines)
    {above rest : List Item} {loop : Item} (hbody : f.body = above ++ loop :: rest)
    (hscan : loop.scan?.isSome = true) :
    blockUnder loop.text loop.below = (loop.blockIn rest).map Item.text := by
  obtain ⟨number, header, name, parameters, below, rfl⟩ :=
    (outlined_outline lines).exists_functionAt (mem_functionsIn.1 hf)
  have hmem : loop ∈ bodyItems none 0 (number + 1) (blockSize header below) below := by
    have hmem' : loop ∈ (functionAt number header name parameters below).body := by
      rw [hbody]
      exact List.mem_append_right above List.mem_cons_self
    exact hmem'
  have hbelow : loop.below = rest.map Item.text ++ below.drop (blockSize header below) :=
    below_bodyItems hbody
  -- the loop is deeper than the header, and what is behind the body is not
  have hdeeper : indentWidth header < indentWidth loop.text := by
    have htext : loop.text ∈ blockUnder header below := by
      rw [← take_blockSize, ← bodyItems_text none 0 (number + 1)]
      exact List.mem_map_of_mem hmem
    exact lt_indentWidth_of_inBlock (List.mem_takeWhile_imp htext)
      (hasContent_of_mem_bodyItems hmem hscan)
  have hleaves := (leavesBlock_drop header below).of_le (Nat.le_of_lt hdeeper)
  rw [hbelow, blockUnder_append_leaving hleaves, blockUnder, List.takeWhile_map]
  rfl

/-! ## Call tokens of a function -/

/-- A name that is no keyword. -/
def IsFree (name : List Char) : Prop := isKeyword (String.ofList name) = false

def IsCalledIn (lines : List Line) (word : String) : Prop :=
  ∃ code depth, CodeLine lines code depth ∧
    ∃ front name, CallAt code front name ∧ word = String.ofList name

/-- A line is scanned as code. -/
def Item.IsCode (item : Item) : Prop := item.scan?.isSome = true

/-- A call token stands on a code line of a function. -/
structure Function.CallsAt (f : Function) (item : Item) (front name : List Char) : Prop where
  mem : item ∈ f.body
  isCode : item.IsCode
  callAt : CallAt (maskLine .hash item.text) front name

/-- The number of call tokens on the code lines of a function whose names are of a kind. -/
def Function.Counts (f : Function) (kind : List Char → Prop) (n : Nat) : Prop :=
  ∃ places : List (Item × List Char × List Char), places.Nodup ∧
    (∀ item front name,
      (item, front, name) ∈ places ↔ f.CallsAt item front name ∧ kind name) ∧
    n = places.length

theorem callTokens_of_body {lines : List Line} {f : Function} (hf : f ∈ functionsIn lines)
    {item : Item} (hitem : item ∈ f.body) {scan : LineScan} (hscan : item.scan? = some scan) :
    scan.callTokens = callTokens (maskLine .hash item.text) := by
  obtain ⟨number, header, name, parameters, below, rfl⟩ :=
    (outlined_outline lines).exists_functionAt (mem_functionsIn.1 hf)
  obtain ⟨above, rest, hbody⟩ := List.append_of_mem hitem
  rw [scan?_bodyItems hbody hscan]
  rfl

theorem exists_places {items : List Item} (hnodup : items.Nodup)
    (hscan : ∀ item ∈ items, ∀ scan, item.scan? = some scan →
      scan.callTokens = callTokens (maskLine .hash item.text)) :
    ∃ places : List (Item × List Char × List Char), places.Nodup ∧
      (∀ item front name, (item, front, name) ∈ places ↔
        item ∈ items ∧ item.IsCode ∧ CallAt (maskLine .hash item.text) front name) ∧
      Count.total (items.map (fun item => (item.scan?.map (·.callTokens.length)).getD 0)) =
        places.length := by
  induction items with
  | nil => exact ⟨[], List.nodup_nil, by simp, rfl⟩
  | cons first items ih =>
      obtain ⟨hfirst, hitems⟩ := List.nodup_cons.1 hnodup
      obtain ⟨hfirstScan, hitemsScan⟩ := List.forall_mem_cons.1 hscan
      obtain ⟨places, hplaces, hmem, htotal⟩ := ih hitems hitemsScan
      rw [List.map_cons, Count.total_cons, htotal]
      cases hcode : first.scan? with
      | none =>
          refine ⟨places, hplaces, ?_, Nat.zero_add _⟩
          intro item front name
          rw [hmem, List.mem_cons, or_and_right]
          refine (or_iff_right ?_).symm
          rintro ⟨rfl, hisCode, -⟩
          rw [Item.IsCode, hcode] at hisCode
          cases hisCode
      | some scan =>
          obtain ⟨line, hordered, hline, hcalls⟩ :=
            isCalling_callTokens (maskLine .hash first.text)
          have hisCode : first.IsCode := by rw [Item.IsCode, hcode]; rfl
          have hnodupLine : line.Nodup := hordered.imp (fun hlt heq => by rw [heq] at hlt; omega)
          refine ⟨line.map (first, ·) ++ places, ?_, ?_, ?_⟩
          · have hnodupFirst := hnodupLine.map (Prod.mk_right_injective first)
            refine List.nodup_append.2 ⟨hnodupFirst, hplaces, ?_⟩
            rintro _ hleft ⟨item, front, name⟩ hright rfl
            obtain ⟨_, -, heq⟩ := List.mem_map.1 hleft
            obtain rfl := congrArg Prod.fst heq
            exact hfirst ((hmem _ _ _).1 hright).1
          · intro item front name
            rw [List.mem_append, hmem, List.mem_cons, or_and_right]
            refine or_congr ?_ Iff.rfl
            rw [List.mem_map]
            constructor
            · rintro ⟨place, hplace, heq⟩
              obtain ⟨rfl, rfl⟩ := Prod.mk.inj heq
              exact ⟨rfl, hisCode, (hline _ _).1 hplace⟩
            · rintro ⟨rfl, -, hcall⟩
              exact ⟨(front, name), (hline _ _).2 hcall, rfl⟩
          · rw [List.length_append, List.length_map, Option.map_some, Option.getD_some,
              hfirstScan scan hcode, hcalls, List.length_map]

/-- **The counter counts every call token**, whatever the name is. -/
theorem counts_calls {lines : List Line} {f : Function} (hf : f ∈ functionsIn lines) :
    f.Counts (fun _ => True) f.complexity.calls := by
  obtain ⟨places, hnodup, hmem, htotal⟩ := exists_places (nodup_body hf)
    (fun item hitem scan hscan => callTokens_of_body hf hitem hscan)
  refine ⟨places, hnodup, fun item front name => ?_, htotal⟩
  rw [hmem, and_true]
  exact ⟨fun h => ⟨h.1, h.2.1, h.2.2⟩, fun h => ⟨h.mem, h.isCode, h.callAt⟩⟩

theorem counts_calls_iff {lines : List Line} {f : Function} (hf : f ∈ functionsIn lines)
    (kind : List Char → Prop) :
    f.Counts kind f.complexity.calls ↔
      ∀ item front name, f.CallsAt item front name → kind name := by
  obtain ⟨places, hnodup, hmem, hlength⟩ := counts_calls hf
  constructor
  · rintro ⟨kept, hkept, hkeptMem, hkeptLength⟩ item front name hcalls
    have hsub : kept ⊆ places := fun ⟨item, front, name⟩ h =>
      (hmem item front name).2 ⟨((hkeptMem item front name).1 h).1, trivial⟩
    -- as many as there are, so all of them
    have hperm := (List.subperm_of_subset hkept hsub).perm_of_length_le (by omega)
    exact ((hkeptMem item front name).1
      (hperm.mem_iff.2 ((hmem item front name).2 ⟨hcalls, trivial⟩))).2
  · intro hkind
    refine ⟨places, hnodup, fun item front name => ?_, hlength⟩
    rw [hmem, and_true]
    exact ⟨fun h => ⟨h, hkind item front name h⟩, And.left⟩

/-! ## Names that are called -/

theorem mem_calledFunctions_iff {lines : List Line} {word : String} :
    word ∈ (analyzeLines lines).calledFunctions ↔
      isKeyword word = false ∧ IsCalledIn lines word := by
  have hitems : word ∈ ((outline lines).flatMap Step.items).flatMap Item.calledFunctions ↔
      isKeyword word = false ∧ word ∈ ((outline lines).flatMap Step.items).flatMap
        (fun item => (item.scan?.map LineScan.callTokens).getD []) := by
    simp only [List.mem_flatMap, Item.calledFunctions, List.mem_filter, Bool.not_eq_true']
    constructor
    · rintro ⟨item, hitem, hmem, hkeyword⟩
      exact ⟨hkeyword, item, hitem, hmem⟩
    · rintro ⟨hkeyword, item, hitem, hmem⟩
      exact ⟨item, hitem, hmem, hkeyword⟩
  refine (NameSet.mem_ofList.trans hitems).trans (and_congr Iff.rfl ?_)
  refine (mem_scans_iff ?_).trans ?_
  · intro text depth hmem
    obtain ⟨front, name, hcall, -⟩ := mem_callTokens_iff.1 hmem
    exact hcall.nameAt.hasContent
  · refine exists_congr (fun code => exists_congr (fun depth => ?_))
    exact and_congr Iff.rfl mem_callTokens_iff

/-! ## Loops that call -/

/-- A code line that begins with the keyword of a loop. -/
structure Item.IsLoopHeader (item : Item) : Prop where
  isCode : item.IsCode
  begins : BeginsWith "for" (trim item.text) ∨ BeginsWith "while" (trim item.text)

/-- A call token with a name of a kind stands on a line, if the line is taken for code. -/
def Item.HasCall (item : Item) (kind : List Char → Prop) : Prop :=
  ∃ front name, CallAt (maskLine .hash item.text) front name ∧ kind name

def loopIssue (number : Nat) : LineIssue := ⟨number, "Function call inside loop."⟩

theorem isLoop_iff {item : Item} : item.isLoop = true ↔ item.IsLoopHeader := by
  rw [Item.isLoop, Bool.and_eq_true, occurs_loopPattern_iff]
  exact ⟨fun h => ⟨h.1, h.2⟩, fun h => ⟨h.isCode, h.begins⟩⟩

theorem mem_performanceIssues_iff {lines : List Line} {number : Nat} :
    loopIssue number ∈ (analyzeLines lines).performanceIssues ↔
      ∃ f ∈ functionsIn lines, ∃ loop ∈ f.body, loop.number = number ∧ loop.isLoop = true ∧
        loop.loopHasCall = true := by
  show loopIssue number ∈ ((functionsIn lines).flatMap _).eraseDups ↔ _
  rw [List.mem_eraseDups, List.mem_flatMap]
  refine exists_congr (fun f => and_congr Iff.rfl ?_)
  rw [List.mem_filterMap]
  refine exists_congr (fun loop => and_congr Iff.rfl ?_)
  rw [Item.loopIssue?, ← Bool.and_eq_true]
  split
  · rename_i hreported
    rw [and_iff_left hreported, Option.some_inj]
    exact ⟨congrArg LineIssue.line, fun h => by rw [loopIssue, h]⟩
  · rename_i hreported
    exact iff_of_false nofun (fun h => hreported h.2)

/-- **Which loops are reported**: those with a call token on some line of their block, whatever the
name and the line are. -/
theorem loop_reported_iff {lines : List Line} {f : Function} (hf : f ∈ functionsIn lines)
    {above rest : List Item} {loop : Item} (hbody : f.body = above ++ loop :: rest) :
    loopIssue loop.number ∈ (analyzeLines lines).performanceIssues ↔
      loop.IsLoopHeader ∧ ∃ item ∈ loop.blockIn rest, item.HasCall (fun _ => True) := by
  have hmem : loop ∈ f.body := by
    rw [hbody]
    exact List.mem_append_right above List.mem_cons_self
  have hcall : loop.IsLoopHeader → (loop.loopHasCall = true ↔
      ∃ item ∈ loop.blockIn rest, item.HasCall (fun _ => True)) := by
    intro hloop
    rw [Item.loopHasCall, blockUnder_loop hf hbody hloop.isCode, List.any_eq_true]
    simp only [List.mem_map, exists_exists_and_eq_and, occurs_callPattern_iff, Item.HasCall,
      and_true]
  rw [mem_performanceIssues_iff]
  constructor
  · rintro ⟨g, hg, other, hother, hnumber, hloop, hreported⟩
    obtain ⟨rfl, rfl⟩ := eq_of_number_eq hg hf hother hmem hnumber
    have hheader := isLoop_iff.1 hloop
    exact ⟨hheader, (hcall hheader).1 hreported⟩
  · rintro ⟨hheader, hreported⟩
    exact ⟨f, hf, loop, hmem, rfl, isLoop_iff.2 hheader, (hcall hheader).2 hreported⟩

/-- **What counts as a call.**  A name is called in a source if a call token of it stands on a code
line and it is no keyword.  The counter of a function counts all call tokens on its code lines, so
it counts the calls if and only if none of them is of a keyword.  A loop is reported if any line of
its block has a call token, so the report tells of a call, which is a token on a code line with a
name that is no keyword, if and only if the block has such a call or no token at all. -/
theorem calls_iff (source : String) :
    (∀ word, word ∈ (analyze source).calledFunctions ↔
      isKeyword word = false ∧ IsCalledIn (linesOf source) word) ∧
    ∀ f ∈ functionsIn (linesOf source),
      (f.complexity ∈ (analyze source).functionComplexity ∧
        f.Counts (fun _ => True) f.complexity.calls ∧
        (f.Counts IsFree f.complexity.calls ↔
          ∀ item front name, f.CallsAt item front name → IsFree name)) ∧
      ∀ above loop rest, f.body = above ++ loop :: rest → loop.IsLoopHeader →
        (loopIssue loop.number ∈ (analyze source).performanceIssues ↔
          ∃ item ∈ loop.blockIn rest, item.HasCall (fun _ => True)) ∧
        ((loopIssue loop.number ∈ (analyze source).performanceIssues ↔
            ∃ item ∈ loop.blockIn rest, item.IsCode ∧ item.HasCall IsFree) ↔
          ((∃ item ∈ loop.blockIn rest, item.HasCall (fun _ => True)) →
            ∃ item ∈ loop.blockIn rest, item.IsCode ∧ item.HasCall IsFree)) := by
  refine ⟨fun word => mem_calledFunctions_iff, fun f hf => ⟨⟨?_, counts_calls hf, ?_⟩, ?_⟩⟩
  · exact List.mem_map_of_mem hf
  · exact counts_calls_iff hf IsFree
  · intro above loop rest hbody hloop
    have hreported : loopIssue loop.number ∈ (analyze source).performanceIssues ↔
        ∃ item ∈ loop.blockIn rest, item.HasCall (fun _ => True) := by
      rw [analyze, loop_reported_iff hf hbody, and_iff_right hloop]
    refine ⟨hreported, ?_⟩
    rw [hreported]
    refine ⟨Iff.mp, fun hreal => ⟨hreal, ?_⟩⟩
    rintro ⟨item, hitem, -, front, name, hcall, -⟩
    exact ⟨item, hitem, front, name, hcall, trivial⟩

def callInLoop : String := "def f(xs):\n    for x in xs:\n        print(x)"

def callInLoopFunction : Function :=
  functionAt 1 "def f(xs):".toList "f" ["xs"]
    ["    for x in xs:".toList, "        print(x)".toList]

/-- The call is counted, and the loop is reported. -/
theorem counted_callInLoop :
    "print" ∈ (analyze callInLoop).calledFunctions ∧
      callInLoopFunction.Counts (fun _ => True) 1 ∧
      loopIssue 2 ∈ (analyze callInLoop).performanceIssues := by
  have hbegins : (stateBehind []).BeginsFunction "def f(xs):".toList "f" ["xs"] :=
    ⟨rfl, rfl, by decide⟩
  have hf : callInLoopFunction ∈ functionsIn (linesOf callInLoop) :=
    mem_functionsIn.2 (functionAt_mem_outline hbegins)
  obtain ⟨-, hfunctions⟩ := calls_iff callInLoop
  obtain ⟨⟨-, hcounts, -⟩, hloops⟩ := hfunctions callInLoopFunction hf
  have hcalls : callInLoopFunction.complexity.calls = 1 := by decide
  have hitems : ∃ loop item, callInLoopFunction.body = [] ++ loop :: [item] ∧ loop.number = 2 ∧
      loop.isLoop = true ∧ item ∈ loop.blockIn [item] ∧
      callPattern.occurs (maskLine .hash item.text) = true :=
    ⟨_, _, rfl, rfl, by decide, by decide, by decide⟩
  obtain ⟨loop, item, hbody, hnumber, hloop, hitem, hcall⟩ := hitems
  obtain ⟨hreported, -⟩ := hloops [] loop [item] hbody (isLoop_iff.1 hloop)
  rw [hnumber] at hreported
  rw [hcalls] at hcounts
  obtain ⟨front, name, hat⟩ := occurs_callPattern_iff.1 hcall
  exact ⟨by decide, hcounts, hreported.2 ⟨item, hitem, front, name, hat, trivial⟩⟩

def keywordInLoop : String := "def f(xs):\n    for x in xs:\n        if (x):\n            pass"

def keywordInLoopFunction : Function :=
  functionAt 1 "def f(xs):".toList "f" ["xs"]
    ["    for x in xs:".toList, "        if (x):".toList, "            pass".toList]

/-- Nothing is called, and yet the function counts a call and the loop is reported. -/
theorem counted_keywordInLoop :
    keywordInLoopFunction ∈ functionsIn (linesOf keywordInLoop) ∧
      (∀ item ∈ keywordInLoopFunction.body, ¬item.HasCall IsFree) ∧
      (analyze keywordInLoop).calledFunctions = [] ∧
      (analyze keywordInLoop).functionComplexity.map (·.calls) = [1] ∧
      loopIssue 2 ∈ (analyze keywordInLoop).performanceIssues := by
  have hbegins : (stateBehind []).BeginsFunction "def f(xs):".toList "f" ["xs"] :=
    ⟨rfl, rfl, by decide⟩
  have hkeywords : ∀ item ∈ keywordInLoopFunction.body,
      ∀ word ∈ callTokens (maskLine .hash item.text), isKeyword word = true := by decide
  refine ⟨mem_functionsIn.2 (functionAt_mem_outline hbegins), ?_, by decide, by decide, by decide⟩
  rintro item hitem ⟨front, name, hcall, hfree⟩
  have hkeyword := hkeywords item hitem _ (mem_callTokens_iff.2 ⟨front, name, hcall, rfl⟩)
  rw [IsFree, hkeyword] at hfree
  cases hfree

end CodeSurvey.Python
