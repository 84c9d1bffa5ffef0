/-
# The order of paths

Texts are compared character by character, files on a disk byte by byte.  UTF-8 is made so that the
two agree: a greater character has a greater byte in the first place where the bytes differ
(`utf8EncodeChar_lt`), and no character's bytes begin with those of another.

Candidates and analyses are both sorted by their paths, with the same merge sort.  The sort is
stable, so in general its result still shows the order that it was given.  It does not where things
of one path are equal: then two arrangements of the same things have one sorted form
(`mergeSort_path_eq`).
-/
import Mathlib.Data.String.Basic
import CodeSurvey.Text.Utf8

namespace CodeSurvey.Text

/-! ## Bytes of a text -/

theorem toList_loop_eq (bytes : ByteArray) (i : Nat) (done : List UInt8) :
    ByteArray.toList.loop bytes i done = done.reverse ++ bytes.data.toList.drop i := by
  induction i, done using ByteArray.toList.loop.induct bytes with
  | case1 i done h ih =>
      have hi : i < bytes.data.toList.length := by simpa using h
      rw [ByteArray.toList.loop, if_pos h, ih, List.drop_eq_getElem_cons hi, List.reverse_cons,
        List.append_assoc, List.singleton_append]
      simp [ByteArray.get!, h]
  | case2 i done h =>
      rw [ByteArray.toList.loop, if_neg h,
        List.drop_eq_nil_of_le (by simpa using Nat.le_of_not_lt h), List.append_nil]

theorem utf8Bytes_eq (text : String) :
    utf8Bytes text = text.toList.flatMap String.utf8EncodeChar := by
  have htext : text.toByteArray = (text.toList.flatMap String.utf8EncodeChar).toByteArray := by
    conv_lhs => rw [← String.ofList_toList (s := text)]
    rfl
  rw [utf8Bytes, String.toUTF8_eq_toByteArray, ByteArray.toList, toList_loop_eq, htext,
    List.toList_data_toByteArray]
  rfl

/-! ## Bytes of a character -/

/-- The bytes of a greater character are greater, whatever follows either. -/
theorem utf8EncodeChar_lt {c d : Char} (h : c < d) (s t : List UInt8) :
    String.utf8EncodeChar c ++ s < String.utf8EncodeChar d ++ t := by
  have hlt : c.val.toNat < d.val.toNat := h
  have hd : d.val.toNat < 0x110000 := by
    rcases d.valid with hvalid | hvalid
    · omega
    · exact hvalid.2
  -- One case for each pair of lengths; the digits of a code point fit in a byte, so no sum wraps.
  simp only [String.utf8EncodeChar]
  split_ifs <;>
    simp only [List.cons_append, List.nil_append, List.cons_lt_cons_iff, UInt8.lt_iff_toNat_lt,
      ← UInt8.toNat_inj, UInt8.toNat_ofNat'] <;>
    simp (disch := omega) only [Nat.mod_eq_of_lt] <;>
    omega

/-! ## The order -/

theorem append_lt_append (front : List UInt8) {s t : List UInt8} (h : s < t) :
    front ++ s < front ++ t := by
  induction front with
  | nil => exact h
  | cons b front ih => exact List.cons_lt_cons_iff.2 (.inr ⟨rfl, ih⟩)

theorem utf8EncodeChar_ne_nil (c : Char) : String.utf8EncodeChar c ≠ [] := by
  rw [String.utf8EncodeChar]
  split_ifs <;> exact List.cons_ne_nil _ _

theorem flatMap_utf8EncodeChar_lt {a b : List Char} (h : a < b) :
    a.flatMap String.utf8EncodeChar < b.flatMap String.utf8EncodeChar := by
  induction a generalizing b with
  | nil =>
      cases b with
      | nil => exact absurd h (lt_irrefl _)
      | cons d b =>
          obtain ⟨first, others, hbytes⟩ := List.exists_cons_of_ne_nil (utf8EncodeChar_ne_nil d)
          rw [List.flatMap_nil, List.flatMap_cons, hbytes]
          exact List.nil_lt_cons _ _
  | cons c a ih =>
      cases b with
      | nil => exact absurd h (List.not_lt_nil _)
      | cons d b =>
          rw [List.flatMap_cons, List.flatMap_cons]
          rcases List.cons_lt_cons_iff.1 h with hlt | ⟨rfl, hlt⟩
          · exact utf8EncodeChar_lt hlt _ _
          · exact append_lt_append _ (ih hlt)

/-- **Texts are ordered as their bytes are.** -/
theorem utf8Bytes_lt_iff {a b : String} : utf8Bytes a < utf8Bytes b ↔ a < b := by
  have hmono : ∀ {a b : String}, a < b → utf8Bytes a < utf8Bytes b := by
    intro a b h
    rw [utf8Bytes_eq, utf8Bytes_eq]
    exact flatMap_utf8EncodeChar_lt (String.lt_iff_toList_lt.1 h)
  refine ⟨fun h => ?_, hmono⟩
  rcases lt_trichotomy a b with hlt | rfl | hgt
  · exact hlt
  · exact absurd h (List.lt_irrefl _)
  · exact absurd h (List.lt_asymm (hmono hgt))

end CodeSurvey.Text

namespace CodeSurvey

/-! ## Things sorted by a path -/

section Sorted

variable {α : Type} (path : α → String)

theorem pairwise_mergeSort_path (things : List α) :
    (things.mergeSort (fun a b => decide (path a ≤ path b))).Pairwise
      (fun a b => path a ≤ path b) := by
  have h : (things.mergeSort (fun a b => decide (path a ≤ path b))).Pairwise
      (fun a b => decide (path a ≤ path b) = true) := by
    refine List.pairwise_mergeSort ?_ ?_ things
    · intro a b c hab hbc
      rw [decide_eq_true_eq] at hab hbc ⊢
      exact le_trans hab hbc
    · intro a b
      rw [Bool.or_eq_true, decide_eq_true_eq, decide_eq_true_eq]
      exact le_total (path a) (path b)
  exact h.imp of_decide_eq_true

theorem mergeSort_path_eq {things others : List α} (hperm : things.Perm others)
    (hinj : ∀ a ∈ things, ∀ b ∈ things, path a = path b → a = b) :
    things.mergeSort (fun a b => decide (path a ≤ path b)) =
      others.mergeSort (fun a b => decide (path a ≤ path b)) := by
  have hsort := List.mergeSort_perm things (fun a b => decide (path a ≤ path b))
  have hsort' := List.mergeSort_perm others (fun a b => decide (path a ≤ path b))
  refine List.Perm.eq_of_pairwise ?_ (pairwise_mergeSort_path path things)
    (pairwise_mergeSort_path path others) (hsort.trans (hperm.trans hsort'.symm))
  intro a b ha hb hab hba
  have hb' : b ∈ things := hperm.mem_iff.2 (hsort'.mem_iff.1 hb)
  exact hinj a (hsort.mem_iff.1 ha) b hb' (le_antisymm hab hba)

end Sorted

end CodeSurvey
