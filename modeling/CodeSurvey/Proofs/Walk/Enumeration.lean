/-
# Which files of a tree are candidates

Enumeration goes down a tree and turns back at a directory that is left out.  Seen from a file, that
is a condition on every directory above it (`IsCandidate`): the two meet in `mem_candidatesAt_iff`,
by induction on the tree, with what stands above given as the components so far.

Components of a proper tree can be read off the path, so each candidate is listed once, and the
order by paths is strict.  It is the order of the bytes of the paths, in which the files below a
directory need not stand together.
-/
import CodeSurvey.Proofs.FileTree
import CodeSurvey.Proofs.PathOrder
import CodeSurvey.Proofs.Walk.Candidate

namespace CodeSurvey

variable {excluded : String → Bool}

/-! ## What enumeration is to find -/

def Language.ofName? (name : String) : Option Language :=
  (extensionOf? name.toList).bind ofExtension?

/-- The components lead to a file worth analyzing: a regular file with the extension of a language,
not left out, and below no directory that is left out or holds a repository's history. -/
structure IsCandidate (excluded : String → Bool) (tree : FileTree) (names : List String)
    (language : Language) : Prop where
  hasFile : tree.HasFile names
  language_eq : ∃ name, names.getLast? = some name ∧ Language.ofName? name = some language
  included : excluded (pathOf names) = false
  above : ∀ front name back, names = front ++ name :: back → back ≠ [] →
    name ≠ historyName ∧ excluded (pathOf (front ++ [name])) = false

/-! ## Paths on the way down -/

/-- What stands in front of the names in a directory. -/
def stemOf (above : List String) : String :=
  above.foldl (fun stem name => stem ++ name ++ "/") ""

theorem stemOf_concat (above : List String) (name : String) :
    stemOf (above ++ [name]) = stemOf above ++ name ++ "/" :=
  List.foldl_concat _ _ _ _

theorem stemOf_append_name (above : List String) (name : String) :
    stemOf above ++ name = pathOf (above ++ [name]) := by
  have hfrom : ∀ stem : String, above.foldl (fun stem name => stem ++ name ++ "/") stem ++ name =
      stem ++ pathOf (above ++ [name]) := by
    induction above with
    | nil => exact fun _ => rfl
    | cons first above ih =>
        intro stem
        rw [List.foldl_cons, ih, List.cons_append, pathOf_cons first (by simp)]
        simp only [String.append_assoc]
  rw [stemOf, hfrom, String.empty_append]

theorem toList_ne_of_ne {name other : String} (h : name ≠ other) : name.toList ≠ other.toList :=
  fun e => h (String.toList_inj.1 e)

theorem ofPath?_pathOf {front : List String} {name : String}
    (h : ∀ n ∈ front ++ [name], IsEntryName n) :
    Language.ofPath? (pathOf (front ++ [name])).toList = Language.ofName? name := by
  obtain ⟨hempty, hhere, houtward, -⟩ := h name (by simp)
  have hparts : (Text.splitAt '/' (pathOf (front ++ [name])).toList).reverse =
      name.toList :: (front.map String.toList).reverse := by
    rw [splitAt_pathOf (by simp) (fun n hn => (h n hn).2.2.2), List.map_append, List.reverse_append]
    rfl
  have hnil : name.toList ≠ [] := toList_ne_of_ne hempty
  have hdot : name.toList ≠ ['.'] := toList_ne_of_ne hhere
  have hdots : name.toList ≠ ['.', '.'] := toList_ne_of_ne houtward
  have hfile : Language.fileName? (pathOf (front ++ [name])).toList = some name.toList := by
    simp [Language.fileName?, hparts, hnil, hdot, hdots]
  rw [Language.ofPath?, hfile]
  rfl

/-! ## Candidates by their components -/

/-- On the way down, no component is left out and only the last may be called like a directory that
holds a repository's history. -/
def Reached (excluded : String → Bool) (above names : List String) : Prop :=
  ∀ front name back, names = front ++ name :: back →
    excluded (pathOf (above ++ front ++ [name])) = false ∧ (back ≠ [] → name ≠ historyName)

theorem reached_nil (above : List String) : Reached excluded above [] :=
  fun _ _ _ h => absurd h.symm (by simp)

theorem reached_cons {above : List String} {name : String} {names : List String} :
    Reached excluded above (name :: names) ↔
      excluded (pathOf (above ++ [name])) = false ∧ (names ≠ [] → name ≠ historyName) ∧
        Reached excluded (above ++ [name]) names := by
  have hassoc : ∀ front other, above ++ (name :: front) ++ [other] =
      above ++ [name] ++ front ++ [other] := by simp
  constructor
  · intro h
    have hfirst := h [] name names rfl
    rw [List.append_nil] at hfirst
    refine ⟨hfirst.1, hfirst.2, ?_⟩
    rintro front other back rfl
    rw [← hassoc]
    exact h (name :: front) other back rfl
  · rintro ⟨hexcluded, hhistory, hrest⟩ front other back heq
    cases front with
    | nil =>
        cases heq
        rw [List.append_nil]
        exact ⟨hexcluded, hhistory⟩
    | cons first front =>
        cases heq
        rw [hassoc]
        exact hrest front other back rfl

/-- A candidate stands for a file in a tree, reached below the components so far. -/
def FoundIn (excluded : String → Bool) (above : List String) (tree : FileTree) (c : Candidate) :
    Prop :=
  ∃ names, tree.HasFile names ∧ c.path = pathOf (above ++ names) ∧
    Language.ofPath? c.path.toList = some c.language ∧ Reached excluded above names

/-- A candidate stands for a file at or below an entry of a directory. -/
def FoundAt (excluded : String → Bool) (above : List String) (name : String) (tree : FileTree)
    (c : Candidate) : Prop :=
  ∃ names, tree.HasFile names ∧ c.path = pathOf (above ++ name :: names) ∧
    Language.ofPath? c.path.toList = some c.language ∧ Reached excluded above (name :: names)

section

variable {above : List String} {c : Candidate} {entries : List (String × FileTree)}

theorem foundIn_directory_iff (h : (FileTree.directory entries).Proper) :
    FoundIn excluded above (.directory entries) c ↔
      ∃ e ∈ entries, FoundAt excluded above e.1 e.2 c := by
  constructor
  · rintro ⟨names, hfile, hfound⟩
    cases names with
    | nil => exact absurd rfl (FileTree.ne_nil_of_hasFile_directory hfile)
    | cons name names =>
        obtain ⟨tree, hmem, htree⟩ := (FileTree.hasFile_directory_cons h).1 hfile
        exact ⟨(name, tree), hmem, names, htree, hfound⟩
  · rintro ⟨e, hmem, names, hfile, hfound⟩
    exact ⟨e.1 :: names, (FileTree.hasFile_directory_cons h).2 ⟨e.2, hmem, hfile⟩, hfound⟩

/-- At a directory, what is found is below it, and so it may not hold a repository's history. -/
theorem foundAt_directory_iff {name : String} :
    FoundAt excluded above name (.directory entries) c ↔
      excluded (pathOf (above ++ [name])) = false ∧ name ≠ historyName ∧
        FoundIn excluded (above ++ [name]) (.directory entries) c := by
  have hassoc : ∀ names, above ++ name :: names = above ++ [name] ++ names := by simp
  constructor
  · rintro ⟨names, hfile, hpath, hlanguage, hreached⟩
    obtain ⟨hexcluded, hhistory, hrest⟩ := reached_cons.1 hreached
    have hnil : names ≠ [] := FileTree.ne_nil_of_hasFile_directory hfile
    exact ⟨hexcluded, hhistory hnil, names, hfile, hassoc names ▸ hpath, hlanguage, hrest⟩
  · rintro ⟨hexcluded, hhistory, names, hfile, hpath, hlanguage, hrest⟩
    exact ⟨names, hfile, hassoc names ▸ hpath, hlanguage,
      reached_cons.2 ⟨hexcluded, fun _ => hhistory, hrest⟩⟩

theorem mem_candidatesIn_iff {stem : String} :
    c ∈ candidatesIn excluded stem entries ↔
      ∃ e ∈ entries, excluded (stem ++ e.1) = false ∧ c ∈ candidatesAt excluded stem e.1 e.2 := by
  induction entries with
  | nil => simp [candidatesIn]
  | cons e entries ih =>
      rw [candidatesIn, List.mem_append, ih, List.exists_mem_cons_iff]
      cases excluded (stem ++ e.1) <;> simp

theorem mem_candidatesIn_iff_foundIn (h : (FileTree.directory entries).Proper)
    (hentries : ∀ e ∈ entries, excluded (stemOf above ++ e.1) = false ∧
      c ∈ candidatesAt excluded (stemOf above) e.1 e.2 ↔ FoundAt excluded above e.1 e.2 c) :
    c ∈ candidatesIn excluded (stemOf above) entries ↔
      FoundIn excluded above (.directory entries) c := by
  rw [mem_candidatesIn_iff, foundIn_directory_iff h]
  exact exists_congr (fun e => and_congr_right (hentries e))

end

/-- **The candidates at an entry are those found there**, in a tree of any shape. -/
theorem mem_candidatesAt_iff {tree : FileTree} (h : tree.Proper) (above : List String)
    (name : String) (c : Candidate) :
    excluded (stemOf above ++ name) = false ∧ c ∈ candidatesAt excluded (stemOf above) name tree ↔
      FoundAt excluded above name tree c := by
  induction h generalizing above name with
  | file bytes =>
      rw [candidatesAt, Option.mem_toList, stemOf_append_name]
      constructor
      · rintro ⟨hexcluded, hfile⟩
        have hlanguage := language_of_mem_ofFile? (Option.mem_toList.2 hfile)
        obtain ⟨language, -, rfl⟩ := Option.map_eq_some_iff.1 hfile
        exact ⟨[], ⟨bytes, rfl⟩, rfl, hlanguage,
          reached_cons.2 ⟨hexcluded, fun hne => absurd rfl hne, reached_nil _⟩⟩
      · rintro ⟨names, hfile, hpath, hlanguage, hreached⟩
        obtain rfl : names = [] := by
          by_contra hne
          exact FileTree.not_hasFile_of_no_entries rfl hne hfile
        rw [← hpath]
        exact ⟨hpath ▸ (reached_cons.1 hreached).1, Option.map_eq_some_iff.2 ⟨_, hlanguage, rfl⟩⟩
  | link target =>
      rw [candidatesAt]
      constructor
      · exact fun hmem => absurd hmem.2 List.not_mem_nil
      · rintro ⟨names, hfile, -⟩
        cases names with
        | nil => obtain ⟨bytes, hat⟩ := hfile; cases hat
        | cons => exact absurd hfile (FileTree.not_hasFile_of_no_entries rfl (List.cons_ne_nil _ _))
  | @directory entries hnames hnodup htrees ih =>
      have hproper : (FileTree.directory entries).Proper := .directory hnames hnodup htrees
      have hbelow : c ∈ candidatesIn excluded (stemOf (above ++ [name])) entries ↔
          FoundIn excluded (above ++ [name]) (.directory entries) c :=
        mem_candidatesIn_iff_foundIn hproper (fun e he => ih e he (above ++ [name]) e.1)
      rw [candidatesAt, ← stemOf_concat, stemOf_append_name, foundAt_directory_iff]
      refine and_congr_right (fun _ => ?_)
      split
      · rename_i hhistory
        exact ⟨fun hmem => absurd hmem List.not_mem_nil, fun hfound => absurd hhistory hfound.1⟩
      · rename_i hhistory
        rw [hbelow]
        exact (and_iff_right hhistory).symm

theorem mem_candidatesIn_stemOf_iff {entries : List (String × FileTree)}
    (h : (FileTree.directory entries).Proper) (above : List String) (c : Candidate) :
    c ∈ candidatesIn excluded (stemOf above) entries ↔
      FoundIn excluded above (.directory entries) c := by
  refine mem_candidatesIn_iff_foundIn h (fun e he => ?_)
  cases h with
  | directory hnames hnodup htrees => exact mem_candidatesAt_iff (htrees e he) above e.1 c

/-! ## Each candidate once -/

theorem component_of_foundAt {above : List String} {name : String} {tree : FileTree}
    {c : Candidate} (habove : ∀ n ∈ above, IsEntryName n) (hname : IsEntryName name)
    (htree : tree.Proper) (h : FoundAt excluded above name tree c) :
    (pathComponents c.path)[above.length]? = some name := by
  obtain ⟨names, hfile, hpath, -⟩ := h
  have hall : ∀ n ∈ above ++ name :: names, IsEntryName n :=
    List.forall_mem_append.2
      ⟨habove, List.forall_mem_cons.2 ⟨hname, htree.isEntryName hfile⟩⟩
  rw [hpath, pathComponents_pathOf (by simp) (fun n hn => (hall n hn).2.2.2),
    List.getElem?_append_right (Nat.le_refl _), Nat.sub_self]
  rfl

theorem nodup_candidatesIn {above : List String} (habove : ∀ n ∈ above, IsEntryName n)
    {entries : List (String × FileTree)} (hnames : ∀ e ∈ entries, IsEntryName e.1)
    (hnodup : (entries.map (·.1)).Nodup) (htrees : ∀ e ∈ entries, e.2.Proper)
    (hentries : ∀ e ∈ entries, (candidatesAt excluded (stemOf above) e.1 e.2).Nodup) :
    (candidatesIn excluded (stemOf above) entries).Nodup := by
  induction entries with
  | nil => rw [candidatesIn]; exact .nil
  | cons e entries ih =>
      obtain ⟨hname, hnames'⟩ := List.forall_mem_cons.1 hnames
      obtain ⟨htree, htrees'⟩ := List.forall_mem_cons.1 htrees
      obtain ⟨hentry, hentries'⟩ := List.forall_mem_cons.1 hentries
      obtain ⟨hfresh, hnodup'⟩ := List.nodup_cons.1 hnodup
      have hrest := ih hnames' hnodup' htrees' hentries'
      rw [candidatesIn]
      split
      · exact hrest
      · rename_i hexcluded
        refine List.nodup_append.2 ⟨hentry, hrest, ?_⟩
        rintro c hc d hd rfl
        rw [Bool.not_eq_true] at hexcluded
        have hcomponent := component_of_foundAt habove hname htree
          ((mem_candidatesAt_iff htree above e.1 c).1 ⟨hexcluded, hc⟩)
        obtain ⟨other, hother, hmem⟩ := mem_candidatesIn_iff.1 hd
        have htree' := htrees' other hother
        have hcomponent' := component_of_foundAt habove (hnames' other hother) htree'
          ((mem_candidatesAt_iff htree' above other.1 c).1 hmem)
        obtain hsame : e.1 = other.1 := Option.some.inj (hcomponent.symm.trans hcomponent')
        exact hfresh (List.mem_map.2 ⟨other, hother, hsame.symm⟩)

theorem nodup_candidatesAt {tree : FileTree} (h : tree.Proper) {above : List String}
    (habove : ∀ n ∈ above, IsEntryName n) {name : String} (hname : IsEntryName name) :
    (candidatesAt excluded (stemOf above) name tree).Nodup := by
  induction h generalizing above name with
  | file bytes =>
      rw [candidatesAt]
      cases Candidate.ofFile? (stemOf above ++ name) with
      | none => exact .nil
      | some c => exact List.pairwise_singleton _ c
  | link target => rw [candidatesAt]; exact .nil
  | directory hnames hnodup htrees ih =>
      have hdown : ∀ n ∈ above ++ [name], IsEntryName n :=
        List.forall_mem_append.2 ⟨habove, List.forall_mem_singleton.2 hname⟩
      rw [candidatesAt, ← stemOf_concat]
      split
      · exact .nil
      · exact nodup_candidatesIn hdown hnames hnodup htrees
          (fun e he => ih e he hdown (hnames e he))

/-! ## The candidates of a tree -/

section

variable {entries : List (String × FileTree)} (h : (FileTree.directory entries).Proper)

include h

theorem isCandidate_iff {names : List String} {language : Language} :
    IsCandidate excluded (.directory entries) names language ↔
      (FileTree.directory entries).HasFile names ∧
        Language.ofPath? (pathOf names).toList = some language ∧ Reached excluded [] names := by
  constructor
  · rintro ⟨hfile, ⟨last, hlast, hlanguage⟩, hincluded, habove⟩
    obtain ⟨front, rfl⟩ := List.getLast?_eq_some_iff.1 hlast
    refine ⟨hfile, (ofPath?_pathOf (h.isEntryName hfile)).trans hlanguage, ?_⟩
    intro before name back heq
    rw [List.nil_append]
    by_cases hback : back = []
    · rw [hback] at heq
      rw [← heq]
      exact ⟨hincluded, fun hne => absurd hback hne⟩
    · obtain ⟨hhistory, hexcluded⟩ := habove before name back heq hback
      exact ⟨hexcluded, fun _ => hhistory⟩
  · rintro ⟨hfile, hlanguage, hreached⟩
    rcases List.eq_nil_or_concat' names with rfl | ⟨front, last, rfl⟩
    · exact absurd rfl (FileTree.ne_nil_of_hasFile_directory hfile)
    · rw [ofPath?_pathOf (h.isEntryName hfile)] at hlanguage
      refine ⟨hfile, ⟨last, List.getLast?_concat, hlanguage⟩, (hreached front last [] rfl).1, ?_⟩
      intro before name back heq hback
      have hname := hreached before name back heq
      exact ⟨hname.2 hback, hname.1⟩

theorem mem_candidatesOf_iff {rootPath : String} {c : Candidate} :
    c ∈ candidatesOf excluded rootPath (.directory entries) ↔
      ∃ names, c.path = pathOf names ∧
        IsCandidate excluded (.directory entries) names c.language := by
  have hstem : stemOf [] = "" := rfl
  rw [candidatesOf, List.mem_mergeSort, ← hstem, mem_candidatesIn_stemOf_iff h]
  constructor
  · rintro ⟨names, hfile, hpath, hlanguage, hreached⟩
    rw [hpath] at hlanguage
    exact ⟨names, hpath, (isCandidate_iff h).2 ⟨hfile, hlanguage, hreached⟩⟩
  · rintro ⟨names, hpath, hcandidate⟩
    obtain ⟨hfile, hlanguage, hreached⟩ := (isCandidate_iff h).1 hcandidate
    rw [← hpath] at hlanguage
    exact ⟨names, hfile, hpath, hlanguage, hreached⟩

theorem candidatesOf_pairwise_lt (rootPath : String) :
    (candidatesOf excluded rootPath (.directory entries)).Pairwise
      (fun a b => Text.utf8Bytes a.path < Text.utf8Bytes b.path) := by
  have hnodup : (candidatesOf excluded rootPath (.directory entries)).Nodup := by
    rw [candidatesOf, (List.mergeSort_perm _ _).nodup_iff]
    cases h with
    | directory hnames hnodup htrees =>
        have habove : ∀ n ∈ ([] : List String), IsEntryName n :=
          fun n hn => absurd hn List.not_mem_nil
        exact nodup_candidatesIn habove hnames hnodup htrees
          (fun e he => nodup_candidatesAt (htrees e he) habove (hnames e he))
  refine ((candidatesOf_pairwise excluded rootPath _).and hnodup).imp_of_mem ?_
  rintro a b ha hb ⟨hle, hne⟩
  -- The path of the root plays no part where the root is a directory.
  have ha' : a ∈ candidatesOf excluded "" (.directory entries) := ha
  have hb' : b ∈ candidatesOf excluded "" (.directory entries) := hb
  rw [Text.utf8Bytes_lt_iff]
  exact lt_of_le_of_ne hle (fun hpath => hne (eq_of_path_eq ha' hb' hpath))

end

def FileTree.under (tree : FileTree) (path : String) : Except FileError FileTree :=
  if path = "" then .ok tree else tree.lookUp path

/-- **Enumeration is exact.**  Under a directory it finds the regular files with the extension of a
language that are neither left out nor below a directory that is left out or holds a repository's
history, and nothing else: each once, with its language, in the order of the bytes of the paths. -/
theorem enumeration_is_exact (excluded : String → Bool) (tree : FileTree) (path : String)
    (entries : List (String × FileTree)) (hroot : tree.under path = .ok (.directory entries))
    (hproper : (FileTree.directory entries).Proper) :
    ∃ found, candidatesUnder excluded tree path = .ok found ∧
      found.Pairwise (fun a b => Text.utf8Bytes a.path < Text.utf8Bytes b.path) ∧
      ∀ c, c ∈ found ↔
        ∃ names, c.path = pathOf names ∧
          IsCandidate excluded (.directory entries) names c.language := by
  refine ⟨candidatesOf excluded path (.directory entries), ?_,
    candidatesOf_pairwise_lt hproper path, fun c => mem_candidatesOf_iff hproper⟩
  rw [FileTree.under] at hroot
  rw [candidatesUnder]
  split
  · rename_i hpath
    rw [if_pos hpath, Except.ok.injEq] at hroot
    rw [hroot]
  · rename_i hpath
    rw [if_neg hpath] at hroot
    rw [hroot]

/-- A directory whose files stand on both sides of a file beside it, with a repository's history, a
directory to be left out and a link to a file. -/
def branchingTree : FileTree :=
  .directory [("a", .directory [("b.py", .file []), (".git", .directory [("c.py", .file [])]),
    ("old", .directory [("d.js", .file [])])]), ("a-b.JS", .file []), ("link.py", .link "a/b.py")]

theorem proper_branchingTree : branchingTree.Proper := by
  have hsingle : ∀ name, IsEntryName name → (FileTree.directory [(name, .file [])]).Proper := by
    intro name hname
    exact .directory (List.forall_mem_singleton.2 hname) (List.pairwise_singleton _ _)
      (List.forall_mem_singleton.2 (.file []))
  refine .directory (by decide) (by decide) ?_
  simp only [List.forall_mem_cons, List.not_mem_nil, false_implies, implies_true, and_true]
  refine ⟨.directory (by decide) (by decide) ?_, .file [], .link _⟩
  simp only [List.forall_mem_cons, List.not_mem_nil, false_implies, implies_true, and_true]
  exact ⟨.file [], hsingle _ (by decide), hsingle _ (by decide)⟩

theorem branchingTree_enumerated :
    branchingTree.under "" = .ok branchingTree ∧ branchingTree.Proper ∧
    ∃ found, candidatesUnder (· == "a/old") branchingTree "" = .ok found ∧
      found.Pairwise (fun a b => Text.utf8Bytes a.path < Text.utf8Bytes b.path) ∧
      ⟨"a/b.py", .python⟩ ∈ found ∧ ⟨"a-b.JS", .javaScript⟩ ∈ found := by
  obtain ⟨found, hfound, hsorted, hmem⟩ := enumeration_is_exact (· == "a/old") branchingTree ""
    _ rfl proper_branchingTree
  refine ⟨rfl, proper_branchingTree, found, hfound, hsorted, (hmem _).2 ⟨["a", "b.py"], rfl, ?_⟩,
    (hmem _).2 ⟨["a-b.JS"], rfl, ?_⟩⟩
  · exact (isCandidate_iff proper_branchingTree).2 ⟨⟨[], rfl⟩, by decide,
      reached_cons.2 ⟨rfl, by decide, reached_cons.2 ⟨rfl, by decide, reached_nil _⟩⟩⟩
  · exact (isCandidate_iff proper_branchingTree).2 ⟨⟨[], rfl⟩, by decide,
      reached_cons.2 ⟨rfl, by decide, reached_nil _⟩⟩

end CodeSurvey
