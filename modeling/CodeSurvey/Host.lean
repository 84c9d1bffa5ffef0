/-
# What a command asks of the system

A command does not hold the files it works on.  It asks for them when it comes to them, and for
outside programs to be run; `Host` is the list of what can be asked.  A command is written for any
monad in which the answers come, and is used in two.

In `IO` a question goes to the real system at the moment it comes up, so nothing is read that the
command does not get to.  In `Traced` the answers are given in advance, and every file that is read
and every program that is run is put down in order: what a command did to come to its outcome is
part of what it comes to.  It is the same text that is run in both, so a fact about the effects of
a traced run is a fact about the program.

Only reading and running are put down.  Whether a path leads to anything, what a variable is set to
and what time it is are asked without a trace.
-/
import CodeSurvey.Shell.Session

namespace CodeSurvey

/-- What a file is read for. -/
inductive FileUse where
  | settings
  /-- The document that style sheets are checked against. -/
  | document
  /-- A file to be analyzed. -/
  | source
deriving DecidableEq, Repr

/-- What a command does to the world before it comes to its outcome. -/
inductive HostEffect where
  | read (use : FileUse) (path : String)
  | run (program : String) (arguments : List String)
deriving DecidableEq, Repr

/-- What can be asked, and the monad in which the answers come. -/
structure Host (m : Type → Type) where
  /-- Whether a path leads to anything. -/
  has : String → m Bool
  /-- The bytes of the file at a path. -/
  read : FileUse → String → m (Except FileError (List UInt8))
  /-- The settings file of the user, by its path and its bytes, if there is one. -/
  ofUser : m (Option (String × Except FileError (List UInt8)))
  /-- The values of environment variables. -/
  environment : m (String → Option String)
  /-- Run a program with arguments and input, if there is such a program. -/
  runTool : String → List String → List UInt8 → m (Option Shell.Outcome)
  time : m String

/-- A value with all that was done to come to it, in order. -/
structure Traced (α : Type) where
  effects : List HostEffect
  value : α
deriving DecidableEq, Repr

namespace Traced

variable {α β : Type}

instance : Monad Traced where
  pure a := ⟨[], a⟩
  bind x f := ⟨x.effects ++ (f x.value).effects, (f x.value).value⟩

@[simp] theorem effects_pure (a : α) : (pure a : Traced α).effects = [] := rfl

@[simp] theorem value_pure (a : α) : (pure a : Traced α).value = a := rfl

@[simp] theorem effects_bind (x : Traced α) (f : α → Traced β) :
    (x >>= f).effects = x.effects ++ (f x.value).effects := rfl

@[simp] theorem value_bind (x : Traced α) (f : α → Traced β) :
    (x >>= f).value = (f x.value).value := rfl

@[simp] theorem effects_map (f : α → β) (x : Traced α) : (f <$> x).effects = x.effects :=
  List.append_nil x.effects

@[simp] theorem value_map (f : α → β) (x : Traced α) : (f <$> x).value = f x.value := rfl

@[ext] theorem ext {x y : Traced α} (heffects : x.effects = y.effects)
    (hvalue : x.value = y.value) : x = y := by
  cases x
  cases y
  cases heffects
  cases hvalue
  rfl

instance : LawfulMonad Traced :=
  LawfulMonad.mk' Traced
    (fun x => ext (List.append_nil x.effects) rfl)
    (fun a f => ext (List.nil_append (f a).effects) rfl)
    (fun x f g => ext (List.append_assoc x.effects (f x.value).effects _) rfl)

@[simp] theorem value_mapM (f : α → Traced β) (xs : List α) :
    (xs.mapM f).value = xs.map (fun x => (f x).value) := by
  induction xs with
  | nil => rfl
  | cons x xs ih => simp [List.mapM_cons, ih]

@[simp] theorem effects_mapM (f : α → Traced β) (xs : List α) :
    (xs.mapM f).effects = xs.flatMap (fun x => (f x).effects) := by
  induction xs with
  | nil => rfl
  | cons x xs ih => simp [List.mapM_cons, ih]

end Traced

end CodeSurvey
