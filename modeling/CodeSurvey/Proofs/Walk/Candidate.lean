/-
# What the candidates of a tree have in common

A candidate is made of its path: its language is that of the extension (`language_of_mem`), so two
candidates of one path are the same.  And they come sorted by path.

Both are what the order of a walk rests on.  Files are worked on in any order and put in order in
the end by their paths, so a candidate that was not told by its path could come out in two places.
A tree is gone through by two functions that call each other, one for a directory and one for an
entry, and what holds of what they collect is shown for both at once.
-/
import CodeSurvey.Proofs.PathOrder
import CodeSurvey.Walk.Candidate

namespace CodeSurvey

theorem candidatesOf_pairwise (excluded : String → Bool) (rootPath : String) (tree : FileTree) :
    (candidatesOf excluded rootPath tree).Pairwise (fun a b => a.path ≤ b.path) := by
  cases tree with
  | file bytes =>
      simp only [candidatesOf]
      cases Language.ofPath? rootPath.toList with
      | none => exact .nil
      | some language => exact List.pairwise_singleton _ _
  | link target => exact .nil
  | directory entries => exact pairwise_mergeSort_path Candidate.path _

theorem language_of_mem_ofFile? {path : String} {c : Candidate}
    (h : c ∈ (Candidate.ofFile? path).toList) :
    Language.ofPath? c.path.toList = some c.language := by
  rw [Option.mem_toList, Candidate.ofFile?, Option.map_eq_some_iff] at h
  obtain ⟨language, hlanguage, rfl⟩ := h
  exact hlanguage

mutual

theorem language_of_mem_candidatesIn (excluded : String → Bool) (stem : String) :
    ∀ (entries : List (String × FileTree)) (c : Candidate),
      c ∈ candidatesIn excluded stem entries → Language.ofPath? c.path.toList = some c.language
  | [], _, h => absurd h (by simp [candidatesIn])
  | (name, tree) :: rest, c, h => by
      rw [candidatesIn, List.mem_append] at h
      rcases h with h | h
      · split at h
        · exact absurd h List.not_mem_nil
        · exact language_of_mem_candidatesAt excluded stem name tree c h
      · exact language_of_mem_candidatesIn excluded stem rest c h

theorem language_of_mem_candidatesAt (excluded : String → Bool) (stem name : String) :
    ∀ (tree : FileTree) (c : Candidate),
      c ∈ candidatesAt excluded stem name tree → Language.ofPath? c.path.toList = some c.language
  | .file _, _, h => language_of_mem_ofFile? (by simpa only [candidatesAt] using h)
  | .link _, _, h => absurd h (by simp [candidatesAt])
  | .directory entries, c, h => by
      rw [candidatesAt] at h
      split at h
      · exact absurd h List.not_mem_nil
      · exact language_of_mem_candidatesIn excluded (stem ++ name ++ "/") entries c h

end

theorem language_of_mem {excluded : String → Bool} {tree : FileTree} {c : Candidate}
    (h : c ∈ candidatesOf excluded "" tree) :
    Language.ofPath? c.path.toList = some c.language := by
  cases tree with
  | file bytes =>
      rw [candidatesOf] at h
      exact language_of_mem_ofFile? h
  | link target => exact absurd h List.not_mem_nil
  | directory entries =>
      rw [candidatesOf, List.mem_mergeSort] at h
      exact language_of_mem_candidatesIn excluded "" entries c h

theorem eq_of_path_eq {excluded : String → Bool} {tree : FileTree} {c d : Candidate}
    (hc : c ∈ candidatesOf excluded "" tree) (hd : d ∈ candidatesOf excluded "" tree)
    (h : c.path = d.path) : c = d := by
  have hlanguage := language_of_mem hd
  rw [← h, language_of_mem hc, Option.some.injEq] at hlanguage
  cases c
  cases d
  cases h
  cases hlanguage
  rfl

end CodeSurvey
