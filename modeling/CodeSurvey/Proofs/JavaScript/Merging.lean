/-
# Merged declarations

Declarations are merged one by one, and what comes out is said here at once: an entry for each name,
in the order in which the names are first declared, and each entry is the last declaration of its
name (`lastDeclarations`, `merge_eq`).  So merging may be done in parts
(`lastDeclarations_append`), and the numbers of the lines may be shifted before or after.
-/
import CodeSurvey.Proofs.FirstSeen
import CodeSurvey.Scan.JavaScript

namespace CodeSurvey

/-- A location further down. -/
def NamedLocation.moved (n : Nat) (l : NamedLocation) : NamedLocation :=
  { l with line := l.line + n }

namespace JavaScript

/-! ## The last declaration of each name -/

def lastOf (declarations : List NamedLocation) (name : String) : Option NamedLocation :=
  (declarations.filter (·.name == name)).getLast?

/-- One entry for each name: it stands where the name is first declared, and holds the line of the
last declaration. -/
def lastDeclarations (declarations : List NamedLocation) : List NamedLocation :=
  (declarations.map (·.name)).eraseDups.filterMap (lastOf declarations)

variable {declarations front back : List NamedLocation} {d e : NamedLocation} {name : String}

theorem name_of_lastOf (h : lastOf declarations name = some d) : d.name = name :=
  beq_iff_eq.1 (List.mem_filter.1 (List.mem_of_getLast? h)).2

theorem mem_of_lastOf (h : lastOf declarations name = some d) : d ∈ declarations :=
  (List.mem_filter.1 (List.mem_of_getLast? h)).1

theorem exists_lastOf (h : name ∈ declarations.map (·.name)) :
    ∃ d, lastOf declarations name = some d := by
  obtain ⟨d, hd, rfl⟩ := List.mem_map.1 h
  have hmem : d ∈ declarations.filter (·.name == d.name) :=
    List.mem_filter.2 ⟨hd, beq_self_eq_true _⟩
  exact ⟨_, List.getLast?_eq_some_getLast (List.ne_nil_of_mem hmem)⟩

theorem lastOf_eq_none (h : name ∉ declarations.map (·.name)) :
    lastOf declarations name = none := by
  cases hlast : lastOf declarations name with
  | none => rfl
  | some d =>
      have hmem := List.mem_map_of_mem (f := NamedLocation.name) (mem_of_lastOf hlast)
      rw [name_of_lastOf hlast] at hmem
      exact absurd hmem h

theorem lastOf_append :
    lastOf (front ++ back) name = (lastOf back name).or (lastOf front name) := by
  rw [lastOf, List.filter_append, List.getLast?_append]
  rfl

theorem lastOf_concat : lastOf (declarations ++ [d]) name =
    if d.name = name then some d else lastOf declarations name := by
  rw [lastOf_append]
  split
  · rename_i hname
    have hlast : lastOf [d] name = some d := by simp [lastOf, hname]
    rw [hlast, Option.some_or]
  · rename_i hname
    have hlast : lastOf [d] name = none := by simp [lastOf, hname]
    rw [hlast, Option.none_or]

theorem names_lastDeclarations (declarations : List NamedLocation) :
    (lastDeclarations declarations).map (·.name) = (declarations.map (·.name)).eraseDups := by
  rw [lastDeclarations, List.map_filterMap]
  refine (List.filterMap_congr (fun name hname => ?_)).trans List.filterMap_some
  obtain ⟨d, hd⟩ := exists_lastOf (List.mem_eraseDups.1 hname)
  rw [hd, Option.map_some, name_of_lastOf hd]

theorem mem_lastDeclarations :
    d ∈ lastDeclarations declarations ↔ lastOf declarations d.name = some d := by
  rw [lastDeclarations, List.mem_filterMap]
  constructor
  · rintro ⟨name, -, hlast⟩
    rw [name_of_lastOf hlast]
    exact hlast
  · intro hlast
    exact ⟨d.name, List.mem_eraseDups.2 (List.mem_map_of_mem (mem_of_lastOf hlast)), hlast⟩

/-! ## Merging -/

theorem noteDeclaration_lastDeclarations (declarations : List NamedLocation) (d : NamedLocation) :
    noteDeclaration (lastDeclarations declarations) d = lastDeclarations (declarations ++ [d]) := by
  have hlast : ∀ name, lastOf (declarations ++ [d]) name =
      if d.name = name then some d else lastOf declarations name := fun _ => lastOf_concat
  have hany : (lastDeclarations declarations).any (·.name == d.name) =
      decide (d.name ∈ declarations.map (·.name)) := by
    rw [Bool.eq_iff_iff, decide_eq_true_iff, ← List.mem_eraseDups, ← names_lastDeclarations,
      List.any_eq_true, List.mem_map]
    exact exists_congr (fun e => and_congr_right (fun _ => beq_iff_eq))
  rw [noteDeclaration, hany]
  by_cases hmem : d.name ∈ declarations.map (·.name)
  · rw [decide_eq_true hmem, if_pos rfl, lastDeclarations, lastDeclarations, List.map_append,
      List.map_singleton, eraseDups_concat_of_mem hmem, List.map_filterMap]
    refine List.filterMap_congr (fun name hname => ?_)
    obtain ⟨e, he⟩ := exists_lastOf (List.mem_eraseDups.1 hname)
    have hname' := name_of_lastOf he
    rw [hlast, he, Option.map_some, hname']
    by_cases hd : d.name = name
    · rw [if_pos hd, if_pos (beq_iff_eq.2 hd.symm), ← hd]
    · rw [if_neg hd, if_neg (fun h => hd (beq_iff_eq.1 h).symm)]
  · rw [decide_eq_false hmem, if_neg Bool.false_ne_true, lastDeclarations, lastDeclarations,
      List.map_append, List.map_singleton, eraseDups_concat_of_not_mem hmem, List.filterMap_append]
    have hnew : [d.name].filterMap (lastOf (declarations ++ [d])) = [d] := by
      simp [hlast]
    rw [hnew]
    refine congrArg (· ++ [d]) (List.filterMap_congr (fun name hname => ?_))
    rw [hlast, if_neg]
    rintro rfl
    exact hmem (List.mem_eraseDups.1 hname)

/-- **Merging keeps the place of the first declaration and the line of the last.** -/
theorem merge_eq (declarations : List NamedLocation) :
    merge declarations = lastDeclarations declarations := by
  induction declarations using List.reverseRecOn with
  | nil => rfl
  | append_singleton declarations d ih =>
      rw [merge, List.foldl_append, ← noteDeclaration_lastDeclarations, ← ih]
      rfl

/-! ## Merging in parts -/

theorem lastOf_lastDeclarations (declarations : List NamedLocation) (name : String) :
    lastOf (lastDeclarations declarations) name = lastOf declarations name := by
  by_cases hname : name ∈ declarations.map (·.name)
  · have hentry : name ∈ (lastDeclarations declarations).map (·.name) := by
      rw [names_lastDeclarations]
      exact List.mem_eraseDups.2 hname
    obtain ⟨d, hd⟩ := exists_lastOf hentry
    have hlast := mem_lastDeclarations.1 (mem_of_lastOf hd)
    rw [name_of_lastOf hd] at hlast
    rw [hd, hlast]
  · have hentry : name ∉ (lastDeclarations declarations).map (·.name) := by
      rw [names_lastDeclarations]
      exact fun h => hname (List.mem_eraseDups.1 h)
    rw [lastOf_eq_none hname, lastOf_eq_none hentry]

/-- **Parts that are merged may be merged again.** -/
theorem lastDeclarations_append (front back : List NamedLocation) :
    lastDeclarations (lastDeclarations front ++ lastDeclarations back) =
      lastDeclarations (front ++ back) := by
  have hnames : ((lastDeclarations front ++ lastDeclarations back).map (·.name)).eraseDups =
      ((front ++ back).map (·.name)).eraseDups := by
    rw [List.map_append, names_lastDeclarations, names_lastDeclarations,
      eraseDups_append_eraseDups, ← List.map_append]
  refine (congrArg (List.filterMap _) hnames).trans (List.filterMap_congr (fun name _ => ?_))
  rw [lastOf_append, lastOf_append, lastOf_lastDeclarations, lastOf_lastDeclarations]

theorem lastOf_map_moved (n : Nat) (declarations : List NamedLocation) (name : String) :
    lastOf (declarations.map (·.moved n)) name = (lastOf declarations name).map (·.moved n) := by
  rw [lastOf, List.filter_map, List.getLast?_map]
  rfl

theorem lastDeclarations_map_moved (n : Nat) (declarations : List NamedLocation) :
    lastDeclarations (declarations.map (·.moved n)) =
      (lastDeclarations declarations).map (·.moved n) := by
  have hnames : (declarations.map (·.moved n)).map (·.name) = declarations.map (·.name) := by
    rw [List.map_map]
    rfl
  rw [lastDeclarations, hnames, lastDeclarations, List.map_filterMap]
  exact List.filterMap_congr (fun name _ => lastOf_map_moved n declarations name)

end JavaScript

end CodeSurvey
