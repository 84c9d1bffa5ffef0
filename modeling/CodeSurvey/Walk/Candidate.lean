/-
The files of a tree that are worth analyzing.

A candidate is a regular file with the extension of a supported language.  Links are neither
candidates nor followed.  What matches an exclusion is left out with all below it, and so are the
directories that hold a repository's history.

A directory is left out as it is met and not file by file in the end, so an exclusion need not name
what is below.  Paths are relative to the root and joined by slashes.  They are sorted once, when
all have been found: the order of a tree, directory after directory, is another one, since a slash
comes behind a hyphen and a full stop.
-/
import CodeSurvey.FileTree
import CodeSurvey.Glob.Matching
import CodeSurvey.Language

namespace CodeSurvey

/-- A file worth analyzing. -/
structure Candidate where
  /-- Relative to the root, with slashes. -/
  path : String
  language : Language
deriving DecidableEq, Repr

/-- The name of a directory that holds a repository's history. -/
def historyName : String := ".git"

def Candidate.ofFile? (path : String) : Option Candidate :=
  (Language.ofPath? path.toList).map (⟨path, ·⟩)

mutual

/-- The candidates in a directory, in the order of its entries; `stem` is put in front of the
names. -/
def candidatesIn (excluded : String → Bool) (stem : String) :
    List (String × FileTree) → List Candidate
  | [] => []
  | (name, tree) :: rest =>
    (if excluded (stem ++ name) then [] else candidatesAt excluded stem name tree) ++
      candidatesIn excluded stem rest

def candidatesAt (excluded : String → Bool) (stem name : String) : FileTree → List Candidate
  | .file _ => (Candidate.ofFile? (stem ++ name)).toList
  | .link _ => []
  | .directory entries =>
    if name = historyName then [] else candidatesIn excluded (stem ++ name ++ "/") entries

end

/-- The candidates of a tree under a path, in ascending order of their paths.  A file is the only
candidate of itself, under the empty path. -/
def candidatesOf (excluded : String → Bool) (rootPath : String) : FileTree → List Candidate
  | .file _ => ((Language.ofPath? rootPath.toList).map (⟨"", ·⟩)).toList
  | .link _ => []
  | .directory entries =>
    (candidatesIn excluded "" entries).mergeSort (fun a b => decide (a.path ≤ b.path))

/-- The candidates of a tree under the path of one of its directories or files; the empty path is
that of the tree itself.  A link leads to a directory, but stands for no file. -/
def candidatesUnder (excluded : String → Bool) (tree : FileTree) (path : String) :
    Except FileError (List Candidate) :=
  if path = "" then .ok (candidatesOf excluded path tree)
  else
    match tree.lookUp path with
    | .error e => .error e
    | .ok (.file bytes) =>
      .ok (if tree.isLink path then [] else candidatesOf excluded path (.file bytes))
    | .ok found => .ok (candidatesOf excluded path found)

def matchesAny (globs : List Glob) (path : String) : Bool := globs.any (·.isMatch path)

end CodeSurvey
