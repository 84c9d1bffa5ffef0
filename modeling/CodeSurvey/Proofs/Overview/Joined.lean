/-
# The overview of lines is put together from parts

An overview reads every line on its own: nothing is carried from a line to the next.  So lines that
are followed by others have the overview that both parts give together (`Overview.Joined`).  Lines
and comments add up, the functions of the second part stand behind those of the first unless they
are there already, and a notice is given if both parts give it.
-/
import CodeSurvey.Proofs.NameSet
import CodeSurvey.Proofs.Text.Endings
import CodeSurvey.Scan.Overview

namespace CodeSurvey

open Text

/-- The overview `r` of some lines followed by others, put together from the overviews of both. -/
structure Overview.Joined (r a b : Overview) : Prop where
  lines : r.lines = a.lines + b.lines
  comments : r.comments = a.comments + b.comments
  functions : r.functions = a.functions ++ b.functions.filter (· ∉ a.functions)
  info : r.info =
    (if a.functions = [] ∧ b.functions = [] then [Overview.noFunctionsNotice] else []) ++
      (if a.comments = 0 ∧ b.comments = 0 then [Overview.noCommentsNotice] else [])

namespace Overview

variable (rules : Option Rules) (front back : List Line)

theorem functionsOf_append :
    functionsOf rules (front ++ back) =
      functionsOf rules front ++
        (functionsOf rules back).filter (· ∉ functionsOf rules front) := by
  cases rules with
  | none => rfl
  | some r =>
      show (NameSet.ofList ((front ++ back).flatMap r.functionsOf)).toList = _
      rw [List.flatMap_append, NameSet.toList_ofList_append]
      rfl

theorem functionsOf_append_eq_nil_iff :
    functionsOf rules (front ++ back) = [] ↔
      functionsOf rules front = [] ∧ functionsOf rules back = [] := by
  rw [functionsOf_append, List.append_eq_nil_iff]
  refine and_congr_right (fun hfront => ?_)
  rw [hfront]
  simp

theorem commentsOf_append :
    commentsOf rules (front ++ back) = commentsOf rules front + commentsOf rules back := by
  cases rules with
  | none => rfl
  | some r => exact List.countP_append

theorem commentsOf_le_length (lines : List Line) : commentsOf rules lines ≤ lines.length := by
  cases rules with
  | none => exact Nat.zero_le _
  | some r => exact List.countP_le_length

theorem nodup_functionsOf (lines : List Line) : (functionsOf rules lines).Nodup := by
  cases rules with
  | none => exact List.nodup_nil
  | some r => exact (NameSet.ofList _).nodup

theorem joined_ofLines (language : Language) :
    (ofLines language (front ++ back)).Joined (ofLines language front)
      (ofLines language back) where
  lines := List.length_append
  comments := commentsOf_append (rules? language) front back
  functions := functionsOf_append (rules? language) front back
  info := by
    have hfunctions := functionsOf_append_eq_nil_iff (rules? language) front back
    have hcomments := commentsOf_append (rules? language) front back
    show notices _ _ = _
    simp only [notices, List.isEmpty_iff, hfunctions, hcomments, Nat.add_eq_zero_iff]
    rfl

/-- **The overview is put together from parts.**  For two lists of lines, neither empty and none
with a line break in it, the overview of the source that has the first lines and then the others is
put together from the overviews of the two sources.  In no overview are there more comments than
lines, and none names a function twice. -/
theorem overview_of_parts (language : Language) (front back : List Line) (hfront : front ≠ [])
    (hback : back ≠ []) (hplain : ∀ line ∈ front ++ back, IsPlain line) :
    (analyze language (sourceOf (front ++ back))).Joined (analyze language (sourceOf front))
        (analyze language (sourceOf back)) ∧
      ∀ source, (analyze language source).comments ≤ (analyze language source).lines ∧
        (analyze language source).functions.Nodup := by
  constructor
  · obtain ⟨hplainFront, hplainBack⟩ := List.forall_mem_append.1 hplain
    have hboth : front ++ back ≠ [] := List.append_ne_nil_of_left_ne_nil hfront back
    rw [analyze, analyze, analyze, linesOf_sourceOf hfront hplainFront,
      linesOf_sourceOf hback hplainBack, linesOf_sourceOf hboth hplain]
    exact joined_ofLines front back language
  · intro source
    exact ⟨commentsOf_le_length (rules? language) (linesOf source),
      nodup_functionsOf (rules? language) (linesOf source)⟩

/-- Lines that declare two functions, without a comment. -/
def greeterLines : List Line := ["def greet", "end", "def hello?", "end"].map String.toList

/-- Lines that declare one of them again behind another one, with a comment. -/
def partingLines : List Line := ["def bye!", "end # done", "def greet"].map String.toList

theorem greeter_and_parting :
    greeterLines ≠ [] ∧ partingLines ≠ [] ∧ (∀ line ∈ greeterLines ++ partingLines, IsPlain line) ∧
      (analyze .ruby (sourceOf (greeterLines ++ partingLines))).Joined
        (analyze .ruby (sourceOf greeterLines)) (analyze .ruby (sourceOf partingLines)) ∧
      (analyze .ruby (sourceOf greeterLines)).functions = ["greet", "hello?"] ∧
      (analyze .ruby (sourceOf partingLines)).functions = ["bye!", "greet"] ∧
      analyze .ruby (sourceOf (greeterLines ++ partingLines)) =
        ⟨.ruby, 7, ["greet", "hello?", "bye!"], 1, []⟩ := by
  have hgreeter : greeterLines ≠ [] := List.cons_ne_nil _ _
  have hparting : partingLines ≠ [] := List.cons_ne_nil _ _
  have hplain : ∀ line ∈ greeterLines ++ partingLines, IsPlain line := by decide
  obtain ⟨hjoined, -⟩ := overview_of_parts .ruby greeterLines partingLines hgreeter hparting hplain
  refine ⟨hgreeter, hparting, hplain, hjoined, ?_, ?_, ?_⟩
  all_goals decide +kernel

end Overview

end CodeSurvey
