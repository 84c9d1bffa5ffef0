/-
# The gate that settings pass

A budget is what its variable says, if that is a number of 64 bits in decimal digits, and what it
was otherwise; the rest of the settings stays (`settingsOverridden_override`).  So an environment
that is applied again changes nothing more.

Three places look at settings: the check, the limits that are made of them, and the walk.  The check
asks for all that the other two ask for (`check_eq_ok_iff`).  So settings that pass it make limits
of the same budgets, and a walk with these gets past its own look at them: if it fails, then with an
error that the surroundings answered it with (`error_of_walk`).  A pattern that is none is all that
keeps settings from making limits, and it keeps them from passing the check.
-/
import Mathlib.Data.List.Induction
import Mathlib.Data.Nat.Digits.Defs
import CodeSurvey.CommandLine.Run
import CodeSurvey.Proofs.Walk.Protocol

namespace CodeSurvey

open Text

/-! ## Numbers in decimal digits -/

def digitValue (c : Char) : Nat := c.toNat - '0'.toNat

/-- A text is a number in decimal digits, with or without a plus sign. -/
def IsDecimal (text : List Char) (n : Nat) : Prop :=
  ∃ sign digits, text = sign ++ digits ∧ (sign = [] ∨ sign = ['+']) ∧ digits ≠ [] ∧
    (∀ c ∈ digits, c.isDigit = true) ∧ n = Nat.ofDigits 10 (digits.reverse.map digitValue)

/-- A text without a plus sign in front. -/
def unsigned : List Char → List Char
  | '+' :: rest => rest
  | rest => rest

section Decimals

variable {text : List Char} {n : Nat}

/-- **Digits are worth their place.** -/
theorem decimalOf_eq_ofDigits (digits : List Char) :
    decimalOf digits = Nat.ofDigits 10 (digits.reverse.map digitValue) := by
  induction digits using List.reverseRecOn with
  | nil => rfl
  | append_singleton digits c ih =>
      have hlast : decimalOf (digits ++ [c]) = 10 * decimalOf digits + digitValue c :=
        List.foldl_append
      rw [hlast, ih, List.reverse_append, List.reverse_singleton, List.singleton_append,
        List.map_cons, Nat.ofDigits_cons, Nat.add_comm]

theorem budget?_eq (text : List Char) :
    budget? text = if (!(unsigned text).isEmpty && (unsigned text).all Char.isDigit &&
      decimalOf (unsigned text) < Count.limit) = true then some (decimalOf (unsigned text))
      else none := rfl

theorem unsigned_digits (hdigits : ∀ c ∈ text, c.isDigit = true) : unsigned text = text := by
  unfold unsigned
  split
  · exact absurd (hdigits '+' List.mem_cons_self) (by decide)
  · rfl

theorem isDecimal_iff : IsDecimal text n ↔ unsigned text ≠ [] ∧
    (∀ c ∈ unsigned text, c.isDigit = true) ∧ decimalOf (unsigned text) = n := by
  constructor
  · rintro ⟨sign, digits, rfl, hsign, hne, hdigits, rfl⟩
    have hunsigned : unsigned (sign ++ digits) = digits := by
      rcases hsign with rfl | rfl
      · exact unsigned_digits hdigits
      · rfl
    rw [hunsigned]
    exact ⟨hne, hdigits, decimalOf_eq_ofDigits digits⟩
  · rintro ⟨hne, hdigits, rfl⟩
    have hsign : ∃ sign, text = sign ++ unsigned text ∧ (sign = [] ∨ sign = ['+']) := by
      unfold unsigned
      split
      · exact ⟨['+'], rfl, .inr rfl⟩
      · exact ⟨[], rfl, .inl rfl⟩
    obtain ⟨sign, htext, hplus⟩ := hsign
    exact ⟨sign, unsigned text, htext, hplus, hne, hdigits, decimalOf_eq_ofDigits _⟩

/-- **A budget is a decimal number of 64 bits.** -/
theorem budget?_eq_some_iff : budget? text = some n ↔ IsDecimal text n ∧ n < Count.limit := by
  rw [budget?_eq, Option.ite_none_right_eq_some, isDecimal_iff]
  simp only [Bool.and_eq_true, Bool.not_eq_true', List.isEmpty_eq_false_iff, List.all_eq_true,
    decide_eq_true_eq, Option.some.injEq]
  constructor
  · rintro ⟨⟨⟨hne, hdigits⟩, hlt⟩, rfl⟩
    exact ⟨⟨hne, hdigits, rfl⟩, hlt⟩
  · rintro ⟨⟨hne, hdigits, rfl⟩, hlt⟩
    exact ⟨⟨⟨hne, hdigits⟩, hlt⟩, rfl⟩

end Decimals

/-! ## Overriding -/

/-- What a variable makes of a budget: its number, or else the old budget. -/
inductive Overrides (value : Option String) (old : Nat) : Nat → Prop
  | number {text : String} {n : Nat} : value = some text → IsDecimal (trim text.toList) n →
      n < Count.limit → Overrides value old n
  | kept : (∀ text n, value = some text → IsDecimal (trim text.toList) n → Count.limit ≤ n) →
      Overrides value old old

/-- What an environment makes of settings: it overrides four budgets, and nothing else. -/
structure SettingsOverridden (s t : Settings) (environment : String → Option String) :
    Prop where
  maxFiles : Overrides (environment maxFilesVariable) s.walk.maxFiles t.walk.maxFiles
  maxFileSize : Overrides (environment maxFileSizeVariable) s.walk.maxFileSize.toNat
    t.walk.maxFileSize.toNat
  maxTotalSize : Overrides (environment maxTotalSizeVariable) s.walk.maxTotalSize.toNat
    t.walk.maxTotalSize.toNat
  concurrency : Overrides (environment concurrencyVariable) s.walk.concurrency t.walk.concurrency
  excludedPaths : t.walk.excludedPaths = s.walk.excludedPaths
  lint : t.lint = s.lint

section Overriding

variable (value : Option String) (old : Nat)

theorem overrides_overridden : Overrides value old (overridden value old) := by
  rw [overridden]
  cases hbudget : value.bind (fun text => budget? (trim text.toList)) with
  | some n =>
      obtain ⟨text, hvalue, hn⟩ := Option.bind_eq_some_iff.1 hbudget
      obtain ⟨hdecimal, hlt⟩ := budget?_eq_some_iff.1 hn
      exact .number hvalue hdecimal hlt
  | none =>
      refine .kept (fun text n hvalue hdecimal => Nat.le_of_not_lt (fun hlt => ?_))
      rw [hvalue, Option.bind_some, budget?_eq_some_iff.2 ⟨hdecimal, hlt⟩] at hbudget
      cases hbudget

theorem overridden_overridden : overridden value (overridden value old) = overridden value old := by
  simp only [overridden]
  cases value.bind (fun text => budget? (trim text.toList)) with
  | some n => rfl
  | none => rfl

/-- A budget of 64 bits stays one. -/
theorem toNat_overridden (old : UInt64) :
    (overridden value old.toNat).toUInt64.toNat = overridden value old.toNat := by
  have hlt : overridden value old.toNat < 2 ^ 64 := by
    have hspec := overrides_overridden value old.toNat
    generalize overridden value old.toNat = new at hspec
    cases hspec with
    | number _ _ hn => exact hn
    | kept _ => exact old.toNat_lt
  exact UInt64.toNat_ofNat_of_lt' hlt

theorem settingsOverridden_override (s : Settings) (environment : String → Option String) :
    SettingsOverridden s (s.override environment) environment where
  maxFiles := overrides_overridden _ _
  maxFileSize := by
    rw [Settings.override, toNat_overridden]
    exact overrides_overridden _ _
  maxTotalSize := by
    rw [Settings.override, toNat_overridden]
    exact overrides_overridden _ _
  concurrency := overrides_overridden _ _
  excludedPaths := rfl
  lint := rfl

/-- **An environment that is applied again changes nothing more.** -/
theorem override_override (s : Settings) (environment : String → Option String) :
    (s.override environment).override environment = s.override environment := by
  simp only [Settings.override, toNat_overridden, overridden_overridden]

end Overriding

/-! ## Patterns and limits -/

def FirstBad (patterns : List String) (e : SettingsError) : Prop :=
  ∃ front pattern back reason, patterns = front ++ pattern :: back ∧
    (∀ p ∈ front, ∃ glob, Glob.parse p = .ok glob) ∧ Glob.parse pattern = .error reason ∧
      e = .badPattern pattern reason

section Patterns

variable {patterns : List String} {globs : List Glob} {e : SettingsError}

theorem compilePatterns_cons_ok {pattern : String} {glob : Glob}
    (h : Glob.parse pattern = .ok glob) (rest : List String) :
    compilePatterns (pattern :: rest) = (compilePatterns rest).map (glob :: ·) := by
  rw [compilePatterns, h]

theorem compilePatterns_cons_error {pattern : String} {reason : GlobError}
    (h : Glob.parse pattern = .error reason) (rest : List String) :
    compilePatterns (pattern :: rest) = .error (.badPattern pattern reason) := by
  rw [compilePatterns, h]

theorem forall₂_of_compilePatterns (h : compilePatterns patterns = .ok globs) :
    List.Forall₂ (fun pattern glob => Glob.parse pattern = .ok glob) patterns globs := by
  induction patterns generalizing globs with
  | nil =>
      cases h
      exact .nil
  | cons pattern rest ih =>
      cases hpattern : Glob.parse pattern with
      | error reason =>
          rw [compilePatterns_cons_error hpattern] at h
          cases h
      | ok glob =>
          rw [compilePatterns_cons_ok hpattern] at h
          cases hrest : compilePatterns rest with
          | error e =>
              rw [hrest] at h
              cases h
          | ok others =>
              rw [hrest] at h
              cases h
              exact .cons hpattern (ih hrest)

theorem firstBad_of_compilePatterns (h : compilePatterns patterns = .error e) :
    FirstBad patterns e := by
  induction patterns with
  | nil => cases h
  | cons pattern rest ih =>
      cases hpattern : Glob.parse pattern with
      | error reason =>
          rw [compilePatterns_cons_error hpattern] at h
          cases h
          exact ⟨[], pattern, rest, reason, rfl, List.forall_mem_nil _, hpattern, rfl⟩
      | ok glob =>
          rw [compilePatterns_cons_ok hpattern] at h
          cases hrest : compilePatterns rest with
          | ok others =>
              rw [hrest] at h
              cases h
          | error e' =>
              rw [hrest] at h
              cases h
              obtain ⟨front, bad, back, reason, rfl, hfront, hbad, he⟩ := ih hrest
              exact ⟨pattern :: front, bad, back, reason, rfl,
                List.forall_mem_cons.2 ⟨⟨glob, hpattern⟩, hfront⟩, hbad, he⟩

end Patterns

/-- Limits carry over what settings say. -/
structure WalkSettings.CarriedTo (s : WalkSettings) (limits : WalkLimits) : Prop where
  maxFiles : limits.maxFiles = s.maxFiles
  maxFileSize : limits.maxFileSize = s.maxFileSize
  maxTotalSize : limits.maxTotalSize = s.maxTotalSize
  concurrency : limits.concurrency = s.concurrency
  excluded : List.Forall₂ (fun pattern glob => Glob.parse pattern = .ok glob) s.excludedPaths
    limits.excluded

section Limits

variable {s : Settings} {limits : WalkLimits} {e : SettingsError}

theorem carriedTo_of_limits {s : WalkSettings} (h : s.limits = .ok limits) :
    s.CarriedTo limits := by
  rw [WalkSettings.limits] at h
  cases hglobs : compilePatterns s.excludedPaths with
  | error e =>
      rw [hglobs] at h
      cases h
  | ok globs =>
      rw [hglobs] at h
      cases h
      exact ⟨rfl, rfl, rfl, rfl, forall₂_of_compilePatterns hglobs⟩

theorem limits_eq_error_iff {s : WalkSettings} :
    s.limits = .error e ↔ compilePatterns s.excludedPaths = .error e := by
  rw [WalkSettings.limits]
  cases compilePatterns s.excludedPaths with
  | error e' => rw [Except.map, Except.error.injEq, Except.error.injEq]
  | ok globs => exact ⟨nofun, nofun⟩

/-- **The check asks for budgets that are not zero, patterns that make limits, and a lint command
that is not empty.** -/
theorem check_eq_ok_iff :
    s.check = .ok () ↔ s.walk.maxFiles ≠ 0 ∧ s.walk.concurrency ≠ 0 ∧
      (s.walk.maxFileSize ≠ 0 ∧ s.walk.maxTotalSize ≠ 0) ∧
      (∃ limits, s.walk.limits = .ok limits) ∧ s.lint.command ≠ some [] := by
  have hlimits : (∃ limits, s.walk.limits = .ok limits) ↔
      ∃ globs, compilePatterns s.walk.excludedPaths = .ok globs := by
    rw [WalkSettings.limits]
    cases compilePatterns s.walk.excludedPaths with
    | error e => exact ⟨nofun, nofun⟩
    | ok globs => exact iff_of_true ⟨_, rfl⟩ ⟨globs, rfl⟩
  rw [hlimits, Settings.check]
  constructor
  · intro h
    split at h
    · cases h
    · rename_i hfiles
      split at h
      · cases h
      · rename_i hconcurrency
        split at h
        · cases h
        · rename_i hsizes
          split at h
          · cases h
          · rename_i globs hglobs
            split at h
            · cases h
            · rename_i hcommand
              exact ⟨hfiles, hconcurrency, not_or.1 hsizes, ⟨globs, hglobs⟩, hcommand⟩
  · rintro ⟨hfiles, hconcurrency, hsizes, ⟨globs, hglobs⟩, hcommand⟩
    rw [if_neg hfiles, if_neg hconcurrency, if_neg (not_or.2 hsizes), hglobs]
    exact if_neg hcommand

end Limits

/-! ## Walks with such limits -/

/-- Errors for limits that leave nothing to do. -/
def WalkError.isOfLimits : WalkError → Bool
  | noConcurrency | noFiles => true
  | cloneFailure _ _ | fileTrouble _ | unreadableRoot _ _ => false

/-- The surroundings answer a walk with an error: in making the directory, in fetching, or in
listing what was fetched. -/
def Surroundings.AnswersWith (around : Surroundings) (limits : WalkLimits) (e : WalkError) : Prop :=
  around.makeDirectory = .error e ∨ around.fetch = .error e ∨
    ∃ checkout, around.fetch = .ok checkout ∧
      checkout.candidates (matchesAny limits.excluded) = .error e

/-- **Limits that leave something to do are no reason to fail.** -/
theorem error_of_walk {request : WalkRequest} {around : Surroundings} {e : WalkError}
    (hconcurrency : request.limits.concurrency ≠ 0) (hfiles : request.limits.maxFiles ≠ 0)
    (h : (walk request around).result = .error e) : around.AnswersWith request.limits e := by
  have hexit := walk_exit request around
  generalize walk request around = o at hexit h
  cases hexit with
  | refused hnone => exact (hnone.elim hconcurrency hfiles).elim
  | noDirectory hmake =>
      cases h
      exact .inl hmake
  | notFetched _ _ hfetch =>
      cases h
      exact .inr (.inl hfetch)
  | @notListed checkout _ _ _ hfetch hlisted =>
      cases h
      exact .inr (.inr ⟨checkout, hfetch, hlisted⟩)
  | finished _ _ _ _ => cases h

/-! ## The gate -/

/-- What settings that pass the check are good for. -/
structure SettingsUsable (s : Settings) (limits : WalkLimits) : Prop where
  /-- They make limits. -/
  compiled : s.walk.limits = .ok limits
  /-- The limits say the same. -/
  carried : s.walk.CarriedTo limits
  /-- A walk with these limits fails only with what the surroundings answer. -/
  answered : ∀ request around e, request.limits = limits →
    (walk request around).result = .error e → around.AnswersWith limits e
  /-- So where these do not complain about limits, the walk does not. -/
  neverOfLimits : ∀ request around, request.limits = limits →
    (∀ e, around.AnswersWith limits e → e.isOfLimits = false) →
      ∀ e, (walk request around).result = .error e → e.isOfLimits = false

/-- Cloning gives a tree or fails as a clone; of limits it does not speak. -/
theorem isOfLimits_of_clone {around : Surroundings} {versionControl : CommandLine.VersionControl}
    {url : String} {branch : Option String} {limits : WalkLimits} {e : WalkError}
    (hmake : around.makeDirectory = .ok ())
    (hfetch : around.fetch = CommandLine.clone versionControl url branch)
    (h : around.AnswersWith limits e) : e.isOfLimits = false := by
  have hclone : (∃ tree, around.fetch = .ok (Checkout.ofTree tree)) ∨
      ∃ reason, around.fetch = .error (.cloneFailure url reason) := by
    rw [hfetch]
    cases versionControl with
    | none => exact .inr ⟨_, rfl⟩
    | some run =>
        dsimp only [CommandLine.clone]
        cases run (CommandLine.cloneArguments url branch CommandLine.destinationMark) with
        | error complaint => exact .inr ⟨_, rfl⟩
        | ok tree => exact .inl ⟨tree, rfl⟩
  rcases h with hno | hno | ⟨checkout, hcheckout, hno⟩
  · rw [hmake] at hno
    cases hno
  · rcases hclone with ⟨tree, htree⟩ | ⟨reason, hreason⟩
    · rw [htree] at hno
      cases hno
    · rw [hreason] at hno
      cases hno
      rfl
  · rcases hclone with ⟨tree, htree⟩ | ⟨reason, hreason⟩
    · -- a tree can always be listed
      rw [htree] at hcheckout
      cases hcheckout
      cases hno
    · rw [hreason] at hcheckout
      cases hcheckout

theorem SettingsUsable.walkOver_isOfLimits {s : Settings} {limits : WalkLimits}
    (h : SettingsUsable s limits) {versionControl : CommandLine.VersionControl} {time : String}
    {o : CommandLine.RepositoryOptions} {e : WalkError}
    (hfails : (CommandLine.walkOver versionControl time o limits).result = .error e) :
    e.isOfLimits = false :=
  h.neverOfLimits _ _ rfl (fun _ => isOfLimits_of_clone rfl rfl) e hfails

/-- The check lets through just what can be used. -/
structure SettingsGated (s : Settings) : Prop where
  accepted : s.check = .ok () → ∃ limits, SettingsUsable s limits
  /-- Settings make no limits for one reason only, and then do not pass. -/
  rejected : ∀ e, s.walk.limits = .error e → FirstBad s.walk.excludedPaths e ∧
    ∃ reason, s.check = .error reason

theorem settingsGated (s : Settings) : SettingsGated s where
  accepted := by
    intro hcheck
    obtain ⟨hfiles, hconcurrency, -, ⟨limits, hlimits⟩, -⟩ := check_eq_ok_iff.1 hcheck
    have hcarried := carriedTo_of_limits hlimits
    have hanswered : ∀ request around e, request.limits = limits →
        (walk request around).result = .error e → around.AnswersWith limits e := by
      rintro request around e rfl h
      rw [← hcarried.maxFiles] at hfiles
      rw [← hcarried.concurrency] at hconcurrency
      exact error_of_walk hconcurrency hfiles h
    refine ⟨limits, hlimits, hcarried, hanswered, ?_⟩
    exact fun request around hsame hnone e h => hnone e (hanswered request around e hsame h)
  rejected := by
    intro e hlimits
    refine ⟨firstBad_of_compilePatterns (limits_eq_error_iff.1 hlimits), ?_⟩
    cases hcheck : s.check with
    | error reason => exact ⟨reason, rfl⟩
    | ok _ =>
        obtain ⟨-, -, -, ⟨limits, hok⟩, -⟩ := check_eq_ok_iff.1 hcheck
        rw [hlimits] at hok
        cases hok

/-- **The gate is tight.**  An environment overrides four budgets by its numbers and changes nothing
else, nor anything more when it is applied again.  Of the settings that come of it, those that pass
the check make limits of their budgets, and a walk with these never fails for its limits; those that
make none have a pattern that is none, and do not pass. -/
theorem overridden_settings_gated (s : Settings) (environment : String → Option String) :
    SettingsOverridden s (s.override environment) environment ∧
      (s.override environment).override environment = s.override environment ∧
      SettingsGated (s.override environment) :=
  ⟨settingsOverridden_override s environment, override_override s environment, settingsGated _⟩

example : Settings.default.override (fun name => if name = maxFilesVariable then some " +012 "
      else some "18446744073709551616") =
    ⟨{ WalkSettings.default with maxFiles := 12 }, .default⟩ := by
  decide +kernel

end CodeSurvey
