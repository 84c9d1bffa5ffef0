/-
Shell scripts.

A script is made of commands, a command of words, and a word of parts that are expanded when the
command runs.  Parts may hold scripts again, whose output they stand for.
-/

namespace CodeSurvey.Shell

/-- What a redirection does to a descriptor. -/
inductive Direction where
  | input
  | output
  | append
  /-- Take the stream of another descriptor. -/
  | copy
deriving DecidableEq, Repr

mutual

/-- A part of a word. -/
inductive Part where
  /-- Characters that stand for themselves; quoted ones make a word even when there are none. -/
  | text (quoted : Bool) (chars : List Char)
  /-- The value of a variable or parameter. -/
  | variable (quoted : Bool) (name : String)
  /-- What a script writes. -/
  | output (quoted : Bool) (script : Script)

/-- A redirection. -/
inductive Redirection where
  | mk (descriptor : Nat) (direction : Direction) (target : List Part)

/-- A script. -/
inductive Script where
  | nothing
  /-- Assignments, words and redirections; the first word names the command. -/
  | command (assignments : List (String × List Part)) (words : List (List Part))
      (redirections : List Redirection)
  | sequence (first second : Script)
  /-- The second script runs only if the first succeeds. -/
  | both (first second : Script)
  /-- The second script runs only if the first fails. -/
  | either (first second : Script)
  /-- The second script reads what the first writes. -/
  | pipe (first second : Script)
  | negation (script : Script)
  /-- Scripts between brackets; between round ones, nothing that they set lasts. -/
  | group (isolated : Bool) (script : Script) (redirections : List Redirection)
  | choice (condition positive negative : Script)

end

instance : Inhabited Script := ⟨.nothing⟩

end CodeSurvey.Shell
