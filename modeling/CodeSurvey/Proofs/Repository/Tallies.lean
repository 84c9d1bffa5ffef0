/-
# Tallies by language

Counting a file adds it to the tally of its language and to no other (`Tallied.countFile`), so after
any number of files each tally holds what there is of its language so far (`tallied_foldl`).  Every
file has one language, and every language has one tally: added up, the tallies give back the files
and the issues of the whole repository (`total_by_language`).
-/
import Mathlib.Data.List.Nodup
import CodeSurvey.Proofs.Repository.Analysis
import CodeSurvey.Proofs.SortedMap
import CodeSurvey.Proofs.PathOrder

namespace CodeSurvey

/-! ## Totals -/

namespace Count

theorem total_le_of_sublist {numbers others : List Nat} (h : numbers.Sublist others) :
    total numbers ≤ total others := by
  induction h with
  | slnil => exact le_rfl
  | cons n _ ih => exact ih.trans (Nat.le_add_left _ _)
  | cons_cons n _ ih => exact Nat.add_le_add_left ih n

theorem total_map_const {α : Type} (n : Nat) (things : List α) :
    total (things.map (fun _ => n)) = n * things.length := by
  induction things with
  | nil => rfl
  | cons thing things ih =>
      rw [List.map_cons, total_cons, ih, List.length_cons, Nat.mul_succ, Nat.add_comm]

theorem total_add_at {κ : Type} [DecidableEq κ] (number : κ → Nat) (more : Nat) {key : κ}
    {keys : List κ} (hnodup : keys.Nodup) (h : key ∈ keys) :
    total (keys.map (fun k => if k = key then more + number k else number k)) =
      more + total (keys.map number) := by
  induction keys with
  | nil => exact absurd h List.not_mem_nil
  | cons k keys ih =>
      obtain ⟨hk, hkeys⟩ := List.nodup_cons.1 hnodup
      rw [List.map_cons, List.map_cons, total_cons, total_cons]
      rcases List.mem_cons.1 h with rfl | h
      · have hothers : ∀ k' ∈ keys, (if k' = key then more + number k' else number k') =
            number k' := by
          intro k' hk'
          exact if_neg (fun heq : k' = key => hk (heq ▸ hk'))
        rw [if_pos rfl, List.map_congr_left hothers, Nat.add_assoc]
      · have hne : k ≠ key := fun heq => hk (heq ▸ h)
        rw [if_neg hne, ih hkeys h, Nat.add_left_comm]

theorem total_by_key {κ α : Type} [DecidableEq κ] (keyOf : α → κ) (weight : α → Nat)
    {keys : List κ} (hnodup : keys.Nodup) {things : List α} (h : ∀ x ∈ things, keyOf x ∈ keys) :
    total (keys.map (fun k => total ((things.filter (keyOf · = k)).map weight))) =
      total (things.map weight) := by
  induction things with
  | nil => exact (total_map_const 0 keys).trans (Nat.zero_mul _)
  | cons x things ih =>
      obtain ⟨hx, hthings⟩ := List.forall_mem_cons.1 h
      have hgroup : ∀ k ∈ keys, total (((x :: things).filter (keyOf · = k)).map weight) =
          if k = keyOf x then weight x + total ((things.filter (keyOf · = k)).map weight)
          else total ((things.filter (keyOf · = k)).map weight) := by
        intro k _
        by_cases hkey : k = keyOf x
        · rw [if_pos hkey, List.filter_cons_of_pos (by simp [hkey])]
          rfl
        · rw [if_neg hkey, List.filter_cons_of_neg (by simp [Ne.symm hkey])]
      rw [List.map_congr_left hgroup, total_add_at _ _ hnodup hx, ih hthings, List.map_cons,
        total_cons]

end Count

/-! ## Languages -/

namespace Language

theorem mem_all (language : Language) : language ∈ all := by
  cases language <;> decide

theorem nodup_all : all.Nodup := by decide

theorem pairwise_all : all.Pairwise (fun a b => (compare a b).isLT) := by decide

theorem index_injective : Function.Injective index := by
  intro a b h
  cases a <;> cases b <;> first | rfl | cases h

instance : Std.LawfulEqOrd Language where
  eq_of_compare {a b} h := by
    rw [compare_eq] at h
    exact index_injective (Std.LawfulEqCmp.eq_of_compare h)

end Language

/-! ## One tally -/

namespace RepositoryAnalysis

def tallyOf (language : Language) (files : List FileAnalysis) : Tally :=
  let own := files.filter (·.language = language)
  ⟨own.length, Count.total (own.map (·.issuesCount))⟩

theorem tallyOf_concat (language : Language) (seen : List FileAnalysis) (f : FileAnalysis) :
    tallyOf language (seen ++ [f]) =
      if language = f.language then (tallyOf language seen).add f.issuesCount
      else tallyOf language seen := by
  simp only [tallyOf, List.filter_append]
  split_ifs with h
  · have hown : [f].filter (·.language = language) = [f] := by simp [h]
    rw [hown, List.length_append, List.map_append, Count.total_append]
    rfl
  · have hother : [f].filter (·.language = language) = [] := by simp [Ne.symm h]
    rw [hother, List.append_nil]

theorem tallyOf_eq_of_perm {files others : List FileAnalysis} (h : files.Perm others)
    (language : Language) : tallyOf language files = tallyOf language others := by
  have hown := h.filter (·.language = language)
  simp only [tallyOf, hown.length_eq, Count.total_eq_of_perm (hown.map _)]

theorem tallyOf_issues_le (language : Language) (files : List FileAnalysis) :
    (tallyOf language files).issues ≤ Count.total (files.map (·.issuesCount)) :=
  Count.total_le_of_sublist (List.filter_sublist.map _)

theorem total_by_language (files : List FileAnalysis) :
    Count.total (Language.all.map (fun l => (tallyOf l files).files)) = files.length ∧
      Count.total (Language.all.map (fun l => (tallyOf l files).issues)) =
        Count.total (files.map (·.issuesCount)) := by
  have hlanguage : ∀ f ∈ files, f.language ∈ Language.all := fun f _ => f.language.mem_all
  constructor
  · have hones := Count.total_by_key FileAnalysis.language (fun _ => 1) Language.nodup_all hlanguage
    simp only [Count.total_map_const, Nat.one_mul] at hones
    exact hones
  · exact Count.total_by_key _ FileAnalysis.issuesCount Language.nodup_all hlanguage

/-! ## The table of tallies -/

def Tallied (files : List FileAnalysis) (tallies : SortedMap Language Tally) : Prop :=
  tallies.entries = Language.all.map (fun l => (l, tallyOf l files))

theorem tallied_noTallies : Tallied [] noTallies := by
  have h := SortedMap.ofEntries_entries
    (⟨Language.all.map (·, ⟨0, 0⟩), by decide⟩ : SortedMap Language Tally)
  exact congrArg SortedMap.entries h

/-- **Step.** A file is counted under its language. -/
theorem Tallied.countFile {seen : List FileAnalysis} {tallies : SortedMap Language Tally}
    (h : Tallied seen tallies) (f : FileAnalysis) :
    Tallied (seen ++ [f]) (countFile tallies f) := by
  have hentries : (RepositoryAnalysis.countFile tallies f).entries =
      SortedMap.alterEntries f.language (fun t => (t.getD ⟨0, 0⟩).add f.issuesCount)
        (Language.all.map (fun l => (l, tallyOf l seen))) := congrArg _ h
  rw [Tallied, hentries,
    SortedMap.alterEntries_table _ _ Language.pairwise_all f.language.mem_all]
  simp only [tallyOf_concat, Option.getD_some]

/-- **Run.** After any files each language has the tally of its own. -/
theorem Tallied.foldl_countFile {seen : List FileAnalysis} {tallies : SortedMap Language Tally}
    (h : Tallied seen tallies) (files : List FileAnalysis) :
    Tallied (seen ++ files) (files.foldl RepositoryAnalysis.countFile tallies) := by
  induction files generalizing seen tallies with
  | nil => rwa [List.append_nil]
  | cons f files ih =>
      have hrun := ih (h.countFile f)
      rwa [List.append_assoc, List.singleton_append] at hrun

theorem tallied_foldl (files : List FileAnalysis) :
    Tallied files (files.foldl countFile noTallies) :=
  tallied_noTallies.foldl_countFile files

/-! ## The analysis -/

theorem sortedByPath_perm (files : List FileAnalysis) : (sortedByPath files).Perm files :=
  List.mergeSort_perm _ _

theorem sortedByPath_pairwise (files : List FileAnalysis) :
    (sortedByPath files).Pairwise (fun f g => Text.utf8Bytes f.path ≤ Text.utf8Bytes g.path) := by
  refine (pairwise_mergeSort_path FileAnalysis.path files).imp ?_
  intro f g hle
  exact List.not_lt.1 (fun hlt => not_lt_of_ge hle (Text.utf8Bytes_lt_iff.1 hlt))

theorem tallied_ofFiles (context : Context) (files : List FileAnalysis) :
    Tallied files (ofFiles context files).byLanguage := by
  have hsorted : Tallied (sortedByPath files) (ofFiles context files).byLanguage :=
    tallied_foldl (sortedByPath files)
  rw [Tallied] at hsorted ⊢
  simpa only [tallyOf_eq_of_perm (sortedByPath_perm files)] using hsorted

theorem totalIssues_ofFiles (context : Context) (files : List FileAnalysis) :
    (ofFiles context files).totalIssues = Count.total (files.map (·.issuesCount)) :=
  Count.total_eq_of_perm ((sortedByPath_perm files).map _)

/-- Along the way no number of issues, of one language or of all, gets above that of all files. -/
theorem issues_take_le (context : Context) (files : List FileAnalysis) (n : Nat) :
    Count.total (((ofFiles context files).files.take n).map (·.issuesCount)) ≤
        Count.total (files.map (·.issuesCount)) ∧
      ∀ e ∈ (((ofFiles context files).files.take n).foldl countFile noTallies).entries,
        e.2.issues ≤ Count.total (files.map (·.issuesCount)) := by
  have htake : Count.total (((ofFiles context files).files.take n).map (·.issuesCount)) ≤
      Count.total (files.map (·.issuesCount)) := by
    rw [← totalIssues_ofFiles context files]
    exact Count.total_le_of_sublist ((List.take_sublist _ _).map _)
  refine ⟨htake, ?_⟩
  intro e he
  rw [tallied_foldl] at he
  obtain ⟨language, -, rfl⟩ := List.mem_map.1 he
  exact (tallyOf_issues_le language _).trans htake

theorem eq_of_path_eq {files : List FileAnalysis} (h : (files.map (·.path)).Nodup) :
    ∀ f ∈ files, ∀ g ∈ files, f.path = g.path → f = g :=
  fun _ hf _ hg => List.inj_on_of_nodup_map h hf hg

/-- **Aggregation conserves counts and forgets the order.**  The files are those given, in the order
of the bytes of their paths; each of the languages has one tally, of exactly its own files; the
files and the issues of all tallies together are those of the repository; where the issues fit a
machine word, so does every number of issues on the way there.  The same files in another order,
if no two have one path, give the same analysis but for the time. -/
theorem aggregation_conserves_counts (context : Context) (files : List FileAnalysis) :
    let analysis := ofFiles context files
    let tallies := analysis.byLanguage.entries.map (·.2)
    let issues := Count.total (files.map (·.issuesCount))
    (analysis.files.Perm files ∧
      analysis.files.Pairwise (fun f g => Text.utf8Bytes f.path ≤ Text.utf8Bytes g.path)) ∧
    (analysis.byLanguage.keys = Language.all ∧ (∀ l : Language, l ∈ Language.all) ∧
      analysis.byLanguage.entries = Language.all.map (fun l => (l, tallyOf l files))) ∧
    (analysis.filesAnalyzed = files.length ∧
      Count.total (tallies.map (·.files)) = files.length) ∧
    (analysis.totalIssues = issues ∧ Count.total (tallies.map (·.issues)) = issues) ∧
    (issues < Count.limit → ∀ n,
      Count.total ((analysis.files.take n).map (·.issuesCount)) < Count.limit ∧
      ∀ e ∈ ((analysis.files.take n).foldl countFile noTallies).entries,
        e.2.issues < Count.limit) ∧
    ∀ (others : List FileAnalysis) (time : String), files.Perm others →
      (files.map (·.path)).Nodup →
      ofFiles { context with generatedAt := time } others =
        { analysis with generatedAt := time } := by
  intro analysis tallies issues
  have hentries : analysis.byLanguage.entries = Language.all.map (fun l => (l, tallyOf l files)) :=
    tallied_ofFiles context files
  have htallies : tallies = Language.all.map (tallyOf · files) := by
    simp only [tallies, hentries, List.map_map, Function.comp_def]
  have hkeys : analysis.byLanguage.keys = Language.all := by
    rw [SortedMap.keys, hentries, List.map_map]
    rfl
  obtain ⟨hfiles, hissues⟩ := total_by_language files
  refine ⟨⟨sortedByPath_perm files, sortedByPath_pairwise files⟩,
    ⟨hkeys, Language.mem_all, hentries⟩, ⟨(sortedByPath_perm files).length_eq, ?_⟩,
    ⟨totalIssues_ofFiles context files, ?_⟩, ?_, ?_⟩
  · rw [htallies, List.map_map]
    exact hfiles
  · rw [htallies, List.map_map]
    exact hissues
  · intro hlimit n
    obtain ⟨htotal, htally⟩ := issues_take_le context files n
    exact ⟨htotal.trans_lt hlimit, fun e he => (htally e he).trans_lt hlimit⟩
  · intro others time hperm hnodup
    have hothers := ofFiles_eq_of_perm { context with generatedAt := time } hperm
      (eq_of_path_eq hnodup)
    exact hothers.symm

/-- Two files of one language around one of another. -/
def threeFiles : List FileAnalysis :=
  let summary : StampedSummary := (Summary.ofSections []).stamped ""
  [⟨"b.py", .python, summary, 2⟩, ⟨"a.js", .javaScript, summary, 1⟩, ⟨"c.py", .python, summary, 0⟩]

theorem threeFiles_aggregated :
    let context : Context := ⟨"u", none, 3, false, "early"⟩
    let analysis := ofFiles context threeFiles
    (threeFiles.map (·.path)).Nodup ∧ Count.total (threeFiles.map (·.issuesCount)) < Count.limit ∧
    analysis.filesAnalyzed = 3 ∧ analysis.totalIssues = 3 ∧
    (.python, ⟨2, 2⟩) ∈ analysis.byLanguage.entries ∧
    (.go, ⟨0, 0⟩) ∈ analysis.byLanguage.entries ∧
    (∀ e ∈ ((analysis.files.take 2).foldl countFile noTallies).entries,
      e.2.issues < Count.limit) ∧
    ofFiles { context with generatedAt := "late" } threeFiles.reverse =
      { analysis with generatedAt := "late" } := by
  intro context analysis
  have hnodup : (threeFiles.map (·.path)).Nodup := by decide
  have hlimit : Count.total (threeFiles.map (·.issuesCount)) < Count.limit := by decide
  obtain ⟨-, ⟨-, -, hentries⟩, ⟨hfiles, -⟩, ⟨hissues, -⟩, hfits, hsame⟩ :=
    aggregation_conserves_counts context threeFiles
  refine ⟨hnodup, hlimit, hfiles, hissues, ?_, ?_, (hfits hlimit 2).2,
    hsame threeFiles.reverse "late" (List.reverse_perm _).symm hnodup⟩
  · rw [hentries]
    decide
  · rw [hentries]
    decide

end RepositoryAnalysis

end CodeSurvey
