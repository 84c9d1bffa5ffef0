/-
# Sets of names and their lists

A set of names keeps the order of first insertion.  So testing the names of a set is testing them
as they come in (`filter_insertAll`), and the set of a list is that list without its repeats
(`toList_ofList`).

With these two no finding needs to be followed through the insertions that make it: a scan that
fills a set as it goes has the names of a list, in the order of the list, and what it drops in the
end it might have dropped at once.
-/
import CodeSurvey.NameSet
import CodeSurvey.Proofs.FirstSeen

namespace CodeSurvey.NameSet

theorem eq_of_toList {s t : NameSet} (h : s.toList = t.toList) : s = t := by
  obtain ⟨names, hs⟩ := s
  obtain ⟨others, ht⟩ := t
  have hnames : names = others := h
  subst hnames
  rfl

theorem insert_of_mem {s : NameSet} {name : String} (h : name ∈ s) : s.insert name = s :=
  dif_pos h

theorem toList_insert_of_not_mem {s : NameSet} {name : String} (h : name ∉ s) :
    (s.insert name).toList = s.toList ++ [name] := by
  have hnew : name ∉ s.toList := h
  rw [insert, dif_neg hnew]

theorem insertAll_cons (s : NameSet) (name : String) (names : List String) :
    s.insertAll (name :: names) = (s.insert name).insertAll names := rfl

theorem insertAll_append (s : NameSet) (front back : List String) :
    s.insertAll (front ++ back) = (s.insertAll front).insertAll back :=
  List.foldl_append

/-! ## The set of a list -/

theorem toList_insert_ofList {front : List String} {name : String}
    (h : (ofList front).toList = front.eraseDups) :
    ((ofList front).insert name).toList = (front ++ [name]).eraseDups := by
  by_cases hname : name ∈ front
  · rw [insert_of_mem (mem_ofList.2 hname), eraseDups_concat_of_mem hname, h]
  · rw [toList_insert_of_not_mem (fun hmem => hname (mem_ofList.1 hmem)),
      eraseDups_concat_of_not_mem hname, h]

/-- **The set of a list is the list without its repeats.** -/
theorem toList_ofList (names : List String) : (ofList names).toList = names.eraseDups := by
  have hgrow : ∀ front, (ofList front).toList = front.eraseDups →
      ((ofList front).insertAll names).toList = (front ++ names).eraseDups := by
    induction names with
    | nil =>
        intro front hfront
        rw [List.append_nil]
        exact hfront
    | cons name names ih =>
        intro front hfront
        have hnext : ofList (front ++ [name]) = (ofList front).insert name :=
          insertAll_append empty front [name]
        have hfront' : (ofList (front ++ [name])).toList = (front ++ [name]).eraseDups := by
          rw [hnext]
          exact toList_insert_ofList hfront
        have hall := ih (front ++ [name]) hfront'
        rw [hnext, List.append_assoc] at hall
        exact hall
  exact hgrow [] rfl

theorem insertAll_toList_insertAll (s t : NameSet) (names : List String) :
    s.insertAll (t.insertAll names).toList = (s.insertAll t.toList).insertAll names := by
  induction names generalizing t with
  | nil => rfl
  | cons name names ih =>
      rw [insertAll_cons, ih, insertAll_cons]
      by_cases hname : name ∈ t
      · have hthere : name ∈ s.insertAll t.toList := mem_insertAll.2 (Or.inr hname)
        rw [insert_of_mem hname, insert_of_mem hthere]
      · rw [toList_insert_of_not_mem hname, insertAll_append]
        rfl

/-! ## Testing the names -/

/-- The names of a set that pass a test. -/
def filter (p : String → Bool) (s : NameSet) : NameSet :=
  ⟨s.toList.filter p, s.nodup.filter p⟩

theorem toList_filter (p : String → Bool) (s : NameSet) :
    (s.filter p).toList = s.toList.filter p := rfl

theorem mem_filter {p : String → Bool} {s : NameSet} {name : String} :
    name ∈ s.filter p ↔ name ∈ s ∧ p name = true :=
  List.mem_filter

theorem filter_insert_of_pos {p : String → Bool} {name : String} (hname : p name = true)
    (s : NameSet) : (s.insert name).filter p = (s.filter p).insert name := by
  by_cases hmem : name ∈ s
  · rw [insert_of_mem hmem, insert_of_mem (mem_filter.2 ⟨hmem, hname⟩)]
  · have hfiltered : name ∉ s.filter p := fun h => hmem (mem_filter.1 h).1
    refine eq_of_toList ?_
    rw [toList_insert_of_not_mem hfiltered, toList_filter, toList_filter,
      toList_insert_of_not_mem hmem, List.filter_append, List.filter_cons_of_pos hname,
      List.filter_nil]

theorem filter_insert_of_neg {p : String → Bool} {name : String} (hname : p name = false)
    (s : NameSet) : (s.insert name).filter p = s.filter p := by
  by_cases hmem : name ∈ s
  · rw [insert_of_mem hmem]
  · refine eq_of_toList ?_
    rw [toList_filter, toList_filter, toList_insert_of_not_mem hmem, List.filter_append,
      List.filter_cons_of_neg (Bool.eq_false_iff.1 hname), List.filter_nil, List.append_nil]

/-- **A set is tested name by name.** -/
theorem filter_insertAll (p : String → Bool) (s : NameSet) (names : List String) :
    (s.insertAll names).filter p = (s.filter p).insertAll (names.filter p) := by
  induction names generalizing s with
  | nil => rfl
  | cons name names ih =>
      rw [insertAll_cons, ih]
      cases hname : p name with
      | true => rw [filter_insert_of_pos hname, List.filter_cons_of_pos hname, insertAll_cons]
      | false =>
          rw [filter_insert_of_neg hname, List.filter_cons_of_neg (Bool.eq_false_iff.1 hname)]

theorem toList_ofList_filter (p : String → Bool) (names : List String) :
    (ofList (names.filter p)).toList = names.eraseDups.filter p := by
  have htested : (ofList names).filter p = ofList (names.filter p) :=
    filter_insertAll p empty names
  rw [← htested, toList_filter, toList_ofList]

theorem toList_ofList_append (front back : List String) :
    (ofList (front ++ back)).toList =
      (ofList front).toList ++ (ofList back).toList.filter (· ∉ (ofList front).toList) := by
  have hnew : back.removeAll front = back.filter (· ∉ (ofList front).toList) := by
    refine List.filter_congr (fun name _ => ?_)
    have hmem : name ∈ (ofList front).toList ↔ name ∈ front := mem_ofList
    simp [hmem]
  rw [toList_ofList (front ++ back), List.eraseDups_append, hnew, ← toList_ofList front,
    ← toList_ofList (back.filter _), toList_ofList_filter, toList_ofList back]

end CodeSurvey.NameSet
