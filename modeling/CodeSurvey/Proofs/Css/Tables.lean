/-
# The tables of a source agree

What is found in a CSS source is found block by block.  A block is cut into fragments at the
newlines and semicolons of its body (`fragments_text`); a fragment without a colon is remarked on as
it is, and of the declarations, those with a colon, each that comes again in its block and each with
an unknown name (`repeated_eq`, `unknown_eq`).  So a block has as many declarations as distinct
names and remarks on repeated ones.

The table of selectors has a key for each selector and a line for each block, from top to bottom
(`pairwise_line_blocks`), as blocks stand in the text one behind the other.
-/
import CodeSurvey.Proofs.Css.Located
import CodeSurvey.Proofs.NameSet

namespace CodeSurvey.Css

open Text Pattern

/-! ## Fragments and declarations -/

/-- What is between the newlines and the semicolons of a body, without the blanks around it, unless
it is blank. -/
def piecesOf (body : List Char) : List (List Char) :=
  ((splitWhere (fun c => c == '\n' || c == ';') body).map trim).filter (fun piece => !piece.isEmpty)

/-- The name in front of the first colon. -/
def Fragment.name (f : Fragment) : String := String.ofList (trim (before (· == ':') f.text))

namespace Block

/-- The fragments of a block without a colon. -/
def colonless (b : Block) : List Fragment := b.fragments.filter (fun f => !f.text.contains ':')

def declarations (b : Block) : List Fragment := b.fragments.filter (fun f => f.text.contains ':')

def remark (b : Block) (f : Fragment) (property : String) : PropertyIssue :=
  ⟨b.selector, f.line, property⟩

end Block

def isUnknown (name : String) : Bool := !isCustom name && !knownProperties.contains name

theorem Fragment.property?_eq (f : Fragment) :
    f.property? = if f.text.contains ':' then some f.name else none := rfl

section Fragments

variable {b : Block}

theorem map_text_eachLine (number : Nat) (lines : List Line) :
    (eachLine lineFragments number lines).map (·.text) =
      ((lines.flatMap (splitAt ';')).map trim).filter (fun piece => !piece.isEmpty) := by
  induction lines generalizing number with
  | nil => rfl
  | cons line lines ih =>
      have hline : (lineFragments number line).map (·.text) =
          ((splitAt ';' line).map trim).filter (fun piece => !piece.isEmpty) := by
        rw [lineFragments, List.map_map]
        exact List.map_id _
      rw [eachLine, List.map_append, hline, ih, List.flatMap_cons, List.map_append,
        List.filter_append]

/-- **A body is cut at newlines and semicolons.** -/
theorem Block.fragments_text (b : Block) : b.fragments.map (·.text) = piecesOf b.body := by
  have hcut : (splitLines b.body).flatMap (splitAt ';') =
      splitWhere (fun c => c == '\n' || c == ';') b.body := flatMap_splitWhere _ _ _
  rw [Block.fragments, map_text_eachLine, hcut, piecesOf]

theorem Block.length_fragments (b : Block) :
    b.fragments.length = b.declarations.length + b.colonless.length := by
  rw [declarations, colonless]
  exact List.length_eq_length_filter_add _

theorem Block.filterMap_invalid? (b : Block) :
    b.fragments.filterMap b.invalid? =
      b.colonless.map (fun f => b.remark f (String.ofList f.text)) := by
  rw [colonless, ← List.filterMap_eq_map, List.filterMap_filter]
  refine List.filterMap_congr (fun f _ => ?_)
  rw [invalid?, Fragment.property?_eq]
  cases f.text.contains ':' with
  | true => rfl
  | false => rfl

theorem Block.filterMap_unknown? (b : Block) :
    b.fragments.filterMap b.unknown? =
      (b.declarations.filter (fun f => isUnknown f.name)).map (fun f => b.remark f f.name) := by
  rw [declarations, List.filter_filter, ← List.filterMap_eq_map, List.filterMap_filter]
  refine List.filterMap_congr (fun f _ => ?_)
  rw [unknown?, Fragment.property?_eq, isUnknown, ← Bool.not_or]
  cases f.text.contains ':' with
  | false =>
      rw [Bool.and_false]
      rfl
  | true =>
      rw [Bool.and_true, if_pos rfl]
      dsimp only
      cases isCustom f.name || knownProperties.contains f.name with
      | true => rfl
      | false => rfl

theorem Block.repeatedFrom_eq (b : Block) {seen : List String} {front : List Fragment}
    (hseen : ∀ name, name ∈ seen ↔ name ∈ front.map Fragment.name) (rest : List Fragment) :
    (again Fragment.name front).map (fun f => b.remark f f.name) ++ b.repeatedFrom seen rest =
      (again Fragment.name (front ++ rest.filter (fun f => f.text.contains ':'))).map
        (fun f => b.remark f f.name) := by
  induction rest generalizing seen front with
  | nil => rw [repeatedFrom, List.filter_nil, List.append_nil, List.append_nil]
  | cons f rest ih =>
      rw [repeatedFrom, Fragment.property?_eq]
      cases hcolon : f.text.contains ':' with
      | false =>
          rw [List.filter_cons_of_neg (by rw [hcolon]; exact Bool.false_ne_true)]
          exact ih hseen
      | true =>
          have hsame : seen.contains f.name = (front.map Fragment.name).contains f.name := by
            rw [Bool.eq_iff_iff, List.contains_iff_mem, List.contains_iff_mem]
            exact hseen f.name
          have hnames : (front ++ [f]).map Fragment.name = front.map Fragment.name ++ [f.name] :=
            List.map_append
          have hmore := again_concat Fragment.name front f
          have hfilter : (f :: rest).filter (fun f => f.text.contains ':') =
              f :: rest.filter (fun f => f.text.contains ':') := List.filter_cons_of_pos hcolon
          rw [hfilter, List.append_cons front f, if_pos rfl]
          dsimp only
          rw [← hsame] at hmore
          split
          · rename_i hold
            have hseen' : ∀ name, name ∈ seen ↔ name ∈ (front ++ [f]).map Fragment.name := by
              intro name
              rw [hnames, List.mem_append, List.mem_singleton, ← hseen]
              refine ⟨Or.inl, fun h => h.elim id (fun heq => ?_)⟩
              rw [heq]
              exact List.contains_iff_mem.1 hold
            have hnext := ih hseen'
            rw [hmore, if_pos hold, List.map_append, List.append_assoc] at hnext
            exact hnext
          · rename_i hnew
            have hseen' : ∀ name, name ∈ f.name :: seen ↔
                name ∈ (front ++ [f]).map Fragment.name := by
              intro name
              rw [hnames, List.mem_append, List.mem_singleton, List.mem_cons, ← hseen]
              exact or_comm
            have hnext := ih hseen'
            rw [hmore, if_neg hnew, List.append_nil] at hnext
            exact hnext

theorem Block.repeated_eq (b : Block) :
    b.repeated = (again Fragment.name b.declarations).map (fun f => b.remark f f.name) := by
  have hempty : ∀ name, name ∈ [] ↔ name ∈ ([] : List Fragment).map Fragment.name :=
    fun _ => Iff.rfl
  exact b.repeatedFrom_eq hempty b.fragments

end Fragments

/-! ## The table of selectors -/

section Selectors

variable {bs : List Block}

theorem mem_keys_selectorLines {selector : String} :
    selector ∈ (selectorLines bs).keys ↔ selector ∈ bs.map (·.selector) := by
  constructor
  · induction bs using List.reverseRecOn with
    | nil => exact fun h => absurd h List.not_mem_nil
    | append_singleton bs b ih =>
        intro h
        rw [selectorLines_concat] at h
        obtain ⟨e, he, rfl⟩ := List.mem_map.1 h
        rw [List.map_append, List.mem_append]
        rcases SortedMap.mem_alterEntries he with hkey | ⟨old, hold, hkey⟩
        · exact .inr (List.mem_singleton.2 hkey)
        · exact .inl (ih (List.mem_map.2 ⟨old, hold, hkey⟩))
  · intro h
    obtain ⟨b, hb, rfl⟩ := List.mem_map.1 h
    exact selector_mem_keys b hb

theorem nodup_keys_selectorLines (bs : List Block) : (selectorLines bs).keys.Nodup := by
  have hsorted := (selectorLines bs).sorted
  rw [SortedMap.keys, List.Nodup, List.pairwise_map]
  exact hsorted.imp (fun hlt => SortedMap.ne_of_isLT hlt)

/-- **A selector has a line for each of its blocks.** -/
theorem length_of_mem_selectorLines {e : String × List Nat} (he : e ∈ (selectorLines bs).entries) :
    e.2.length = (bs.map (·.selector)).count e.1 := by
  rw [lines_of_mem_selectorLines e he, List.length_map, List.count, List.countP_map,
    List.countP_eq_length_filter]
  rfl

theorem Block.StandsBehind.line_eq_lineOf {text front : List Char} {b : Block}
    (h : b.StandsBehind text front) : b.line = lineOf text front.length := by
  obtain ⟨gap, back, htext, -, -⟩ := h.text_eq
  rw [h.line_eq, htext, List.append_assoc, List.append_assoc, List.append_assoc, lineOf_append]

theorem lineOf_mono (text : List Char) {n m : Nat} (h : n ≤ m) : lineOf text n ≤ lineOf text m :=
  Nat.add_le_add_right ((List.take_sublist_take_left h).count_le '\n') 1

/-- **Blocks come from top to bottom.** -/
theorem pairwise_line_blocks (text : List Char) :
    (blocks text).Pairwise (fun b c => b.line ≤ c.line) := by
  obtain ⟨fronts, hordered, hstand⟩ := blocks_stand text
  have hlines : fronts.map (fun front => lineOf text front.length) =
      (blocks text).map (·.line) := by
    generalize blocks text = bs at hstand
    clear hordered
    induction hstand with
    | nil => rfl
    | cons hb _ ih => rw [List.map_cons, List.map_cons, ih, hb.line_eq_lineOf]
  have hmono : ((blocks text).map (·.line)).Pairwise (· ≤ ·) := by
    rw [← hlines, List.pairwise_map]
    exact hordered.imp (fun hlt => lineOf_mono text (Nat.le_of_lt hlt))
  exact List.pairwise_map.1 hmono

theorem pairwise_of_mem_selectorLines {e : String × List Nat} (text : List Char)
    (he : e ∈ (selectorLines (blocks text)).entries) : e.2.Pairwise (· ≤ ·) := by
  rw [lines_of_mem_selectorLines e he, List.pairwise_map]
  exact (pairwise_line_blocks text).filter _

end Selectors

/-! ## The tables -/

/-- The tables of selectors agree: each selector is a key once, with a line for each of its blocks
from top to bottom, and those of several blocks are the duplicated ones. -/
structure SelectorsAgree (r : CssFindings) : Prop where
  nodup_keys : r.selectorLines.keys.Nodup
  mem_keys : ∀ selector, selector ∈ r.selectorLines.keys ↔ selector ∈ r.selectors
  lines : ∀ e ∈ r.selectorLines.entries,
    e.2.length = r.selectors.count e.1 ∧ e.2.Pairwise (· ≤ ·)
  duplicated : r.duplicatedSelectors =
    r.selectors.eraseDups.filter (fun selector => 2 ≤ r.selectors.count selector)

/-- The declarations of a block whose name comes again in the block. -/
def Block.repeats (b : Block) : List Fragment := again Fragment.name b.declarations

/-- Selectors are listed and fragments remarked on block by block, whatever the other blocks are. -/
structure BlockByBlock (bs : List Block) (r : CssFindings) : Prop where
  selectors : r.selectors = bs.map (·.selector)
  invalid : r.invalidProperties =
    bs.flatMap (fun b => b.colonless.map (fun f => b.remark f (String.ofList f.text)))
  repeated : r.repeatedProperties =
    bs.flatMap (fun b => b.repeats.map (fun f => b.remark f f.name))
  unknown : r.unknownProperties = bs.flatMap (fun b =>
    (b.declarations.filter (fun f => isUnknown f.name)).map (fun f => b.remark f f.name))

/-- The counts of a block: its fragments are the pieces of its body, with a colon or without, and
its declarations are as many as their names and those that come again, each name once less than it
comes. -/
structure Block.CountsAgree (b : Block) : Prop where
  fragments : b.fragments.map (·.text) = piecesOf b.body
  colon : b.fragments.length = b.declarations.length + b.colonless.length
  names : b.declarations.length =
    (b.declarations.map Fragment.name).eraseDups.length + b.repeats.length
  again : ∀ name, (b.repeats.map Fragment.name).count name =
    (b.declarations.map Fragment.name).count name - 1

theorem selectorsAgree (text : List Char) (html : Option String) :
    SelectorsAgree (findingsOf (blocks text) html) := by
  constructor
  case nodup_keys => exact nodup_keys_selectorLines _
  case mem_keys => exact fun selector => mem_keys_selectorLines
  case lines =>
    exact fun e he => ⟨length_of_mem_selectorLines he, pairwise_of_mem_selectorLines text he⟩
  case duplicated => exact NameSet.toList_ofList_filter _ _

theorem blockByBlock (bs : List Block) (html : Option String) :
    BlockByBlock bs (findingsOf bs html) := by
  constructor
  case selectors => rfl
  case invalid => exact congrArg (bs.flatMap ·) (funext Block.filterMap_invalid?)
  case repeated => exact congrArg (bs.flatMap ·) (funext Block.repeated_eq)
  case unknown => exact congrArg (bs.flatMap ·) (funext Block.filterMap_unknown?)

theorem Block.countsAgree (b : Block) : b.CountsAgree where
  fragments := b.fragments_text
  colon := b.length_fragments
  names := length_again Fragment.name b.declarations
  again := count_again Fragment.name b.declarations

/-- **The tables of a source agree**, with its blocks and with each other. -/
theorem tables_agree (source : String) (html : Option String) :
    SelectorsAgree (analyzeWith source html) ∧
      BlockByBlock (blocks (blankComments (unifyEndings source.toList)))
        (analyzeWith source html) ∧
      ∀ b : Block, b.CountsAgree :=
  ⟨selectorsAgree _ html, blockByBlock _ html, Block.countsAgree⟩

end CodeSurvey.Css
