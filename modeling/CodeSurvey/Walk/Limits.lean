/-
The limits of a walk through a repository.

There are four numbers and a list of patterns, and the numbers bound different things.  The number
of files bounds how many candidates are looked at, skipped ones included.  The two sizes bound
bytes: of one file, and of all files together, where a file that would go beyond is skipped and a
smaller one behind it may still fit.  The last number bounds how many files are worked on at a time,
and has no say in which of them are analyzed unless room runs out.
-/
import CodeSurvey.Glob

namespace CodeSurvey

/-- What a walk may take in. -/
structure WalkLimits where
  /-- How many files are looked at, in the order of their paths. -/
  maxFiles : Nat
  /-- Larger files are skipped. -/
  maxFileSize : UInt64
  /-- Files are skipped that would bring the bytes read above this. -/
  maxTotalSize : UInt64
  /-- How many files are worked on at a time. -/
  concurrency : Nat
  /-- Paths that match are left out. -/
  excluded : List Glob
deriving Repr, Inhabited

end CodeSurvey
