/-
# Blocks are pairs of braces

A scan over the text takes each opening brace whose next brace closes, with its head, the text from
the brace before on, and its body, the text up to the closing brace (`bracePairs`).  It finds just
these pairs, from left to right (`mem_bracePairs_iff`, `pairwise_bracePairs`).

The search for blocks finds the same pairs but for those without a head (`filterMap_findBehind`): a
match takes all characters since the brace before, for it begins at the first of them if it begins
at any, and where an opening brace has another one next, or a closing brace comes first, no match
begins up to that brace.  A pair without a head has no selector, so the blocks are the same.
-/
import CodeSurvey.Proofs.Css.Located
import CodeSurvey.Proofs.Pattern.Searching

namespace CodeSurvey.Css

open Text Pattern

/-! ## Pairs of braces -/

/-- An opening brace whose next brace closes: what stands in front of its head, the head, and the
body between the braces. -/
structure BracePair where
  front : List Char
  head : List Char
  body : List Char
deriving DecidableEq, Repr

/-- Whether a text begins with an opening brace whose next brace closes. -/
def opensPair : List Char → Bool
  | '{' :: rest => (rest.dropWhile notBrace).head? == some '}'
  | _ => false

/-- The pairs of braces from a place on, where `front` ends with the last brace behind and `head` has
come since. -/
def bracePairsFrom (front head : List Char) : List Char → List BracePair
  | [] => []
  | c :: rest =>
    if notBrace c then bracePairsFrom front (head ++ [c]) rest
    else
      (if opensPair (c :: rest) then [⟨front, head, rest.takeWhile notBrace⟩] else []) ++
        bracePairsFrom (front ++ (head ++ [c])) [] rest

def bracePairs (text : List Char) : List BracePair := bracePairsFrom [] [] text

namespace BracePair

/-- A pair stands in a text behind its front: the front ends with a brace or is empty, and neither the
head nor the body has one. -/
structure StandsIn (text : List Char) (pair : BracePair) : Prop where
  text_eq : ∃ back, text = pair.front ++ (pair.head ++ '{' :: (pair.body ++ '}' :: back))
  edge : pair.front.getLast?.any notBrace = false
  head_free : ∀ c ∈ pair.head, notBrace c = true
  body_free : ∀ c ∈ pair.body, notBrace c = true

/-- The part of the head in front of the selector: statements, and blanks. -/
def beforeSelector (pair : BracePair) : List Char :=
  pair.head.take (pair.head.length - (trimStartOf isBlank (afterSemicolon pair.head)).length)

/-- The block of a pair, unless what is behind the last semicolon of its head is blank. -/
def block? (pair : BracePair) : Option Block :=
  let selector := trim (afterSemicolon pair.head)
  if selector.isEmpty then none
  else
    some ⟨String.ofList selector, (splitLines (pair.front ++ pair.beforeSelector)).length,
      pair.body, (splitLines (pair.front ++ (pair.head ++ ['{']))).length⟩

end BracePair

/-! ## The scan -/

section Scan

variable {front head : List Char} {pair : BracePair}

theorem opensPair_iff {text : List Char} :
    opensPair text = true ↔ ∃ body back, text = '{' :: (body ++ '}' :: back) ∧
      ∀ c ∈ body, notBrace c = true := by
  constructor
  · intro h
    unfold opensPair at h
    split at h
    · rename_i rest
      obtain ⟨back, hback⟩ := List.head?_eq_some_iff.1 (beq_iff_eq.1 h)
      refine ⟨rest.takeWhile notBrace, back, ?_, fun c hc => List.mem_takeWhile_imp hc⟩
      rw [← hback, List.takeWhile_append_dropWhile]
    · cases h
  · rintro ⟨body, back, rfl, hbody⟩
    rw [opensPair, List.dropWhile_append_of_pos hbody]
    rfl

theorem bracePairsFrom_free {more : List Char} (hmore : ∀ c ∈ more, notBrace c = true)
    (front head rest : List Char) :
    bracePairsFrom front head (more ++ rest) = bracePairsFrom front (head ++ more) rest := by
  induction more generalizing head with
  | nil => rw [List.nil_append, List.append_nil]
  | cons c more ih =>
      obtain ⟨hc, hothers⟩ := List.forall_mem_cons.1 hmore
      rw [List.cons_append, bracePairsFrom, if_pos hc, ih hothers, List.append_assoc]
      rfl

theorem bracePairsFrom_brace {c : Char} (hc : notBrace c = false) (front head rest : List Char) :
    bracePairsFrom front head (c :: rest) =
      (if opensPair (c :: rest) then [⟨front, head, rest.takeWhile notBrace⟩] else []) ++
        bracePairsFrom (front ++ (head ++ [c])) [] rest := by
  rw [bracePairsFrom, if_neg (Bool.eq_false_iff.1 hc)]

theorem takeWhile_body {body : List Char} (hbody : ∀ c ∈ body, notBrace c = true)
    (back : List Char) : (body ++ '}' :: back).takeWhile notBrace = body := by
  rw [List.takeWhile_append_of_pos hbody, List.takeWhile_cons_of_neg (p := notBrace) (by decide),
    List.append_nil]

theorem bracePairsFrom_pair {body : List Char} (hbody : ∀ c ∈ body, notBrace c = true)
    (front head back : List Char) :
    bracePairsFrom front head ('{' :: (body ++ '}' :: back)) =
      ⟨front, head, body⟩ :: bracePairsFrom (front ++ (head ++ '{' :: (body ++ ['}']))) [] back := by
  have hopens : opensPair ('{' :: (body ++ '}' :: back)) = true :=
    opensPair_iff.2 ⟨body, back, rfl, hbody⟩
  have hclosing : ¬opensPair ('}' :: back) = true := Bool.false_ne_true
  have hbehind : front ++ (head ++ ['{']) ++ (body ++ ['}']) =
      front ++ (head ++ '{' :: (body ++ ['}'])) := by
    simp only [List.append_assoc, List.singleton_append]
  rw [bracePairsFrom_brace rfl, if_pos hopens, takeWhile_body hbody, bracePairsFrom_free hbody,
    bracePairsFrom_brace rfl, if_neg hclosing, List.nil_append, List.nil_append, hbehind]
  rfl

theorem le_front_of_mem_bracePairsFrom {rest : List Char}
    (h : pair ∈ bracePairsFrom front head rest) : front.length ≤ pair.front.length := by
  induction rest generalizing front head with
  | nil => cases h
  | cons c rest ih =>
      rw [bracePairsFrom] at h
      split at h
      · exact ih h
      · rcases List.mem_append.1 h with h | h
        · split at h
          · rw [List.mem_singleton.1 h]
          · cases h
        · have hle := ih h
          rw [List.length_append] at hle
          omega

/-- **Pairs come from left to right**, each once. -/
theorem pairwise_bracePairsFrom (front head rest : List Char) :
    (bracePairsFrom front head rest).Pairwise (fun p q => p.front.length < q.front.length) := by
  induction rest generalizing front head with
  | nil => exact .nil
  | cons c rest ih =>
      rw [bracePairsFrom]
      split
      · exact ih _ _
      · refine List.pairwise_append.2 ⟨?_, ih _ _, ?_⟩
        · split
          · exact List.pairwise_singleton _ _
          · exact .nil
        · intro p hp q hq
          have hle := le_front_of_mem_bracePairsFrom hq
          rw [List.length_append, List.length_append, List.length_singleton] at hle
          split at hp
          · rw [List.mem_singleton.1 hp]
            dsimp only
            omega
          · cases hp

theorem eq_of_standsIn {rest : List Char} {c : Char} (hhead : ∀ c ∈ head, notBrace c = true)
    (hc : notBrace c = false) (h : pair.StandsIn (front ++ (head ++ c :: rest)))
    (hle : front.length ≤ pair.front.length)
    (hlt : pair.front.length < (front ++ (head ++ [c])).length) :
    opensPair (c :: rest) = true ∧ pair = ⟨front, head, rest.takeWhile notBrace⟩ := by
  obtain ⟨⟨back, htext⟩, hedge, hfree, hbody⟩ := h
  obtain ⟨pfront, phead, pbody⟩ := pair
  dsimp only at *
  obtain ⟨more, rfl⟩ : front <+: pfront :=
    List.prefix_of_prefix_length_le ⟨_, rfl⟩ ⟨_, htext.symm⟩ hle
  rw [List.append_assoc] at htext
  have hrest := List.append_cancel_left htext
  have hmore : more <+: head := by
    refine List.prefix_of_prefix_length_le ⟨_, hrest.symm⟩ ⟨_, rfl⟩ ?_
    simp only [List.length_append, List.length_singleton] at hlt
    omega
  have hnil : more = [] := by
    by_contra hne
    have hlast := hhead _ (hmore.subset (List.getLast_mem hne))
    rw [List.getLast?_append, List.getLast?_eq_some_getLast hne, Option.some_or, Option.any_some,
      hlast] at hedge
    cases hedge
  subst hnil
  obtain ⟨rfl, rfl, rfl⟩ := free_append_inj hhead hfree hc (by decide) hrest
  refine ⟨opensPair_iff.2 ⟨pbody, back, rfl, hbody⟩, ?_⟩
  rw [List.append_nil, takeWhile_body hbody]

/-- **The scan finds just the pairs that stand in the text.** -/
theorem mem_bracePairsFrom_iff {rest : List Char} (hfront : front.getLast?.any notBrace = false)
    (hhead : ∀ c ∈ head, notBrace c = true) :
    pair ∈ bracePairsFrom front head rest ↔
      pair.StandsIn (front ++ (head ++ rest)) ∧ front.length ≤ pair.front.length := by
  induction rest generalizing front head with
  | nil =>
      refine iff_of_false List.not_mem_nil ?_
      rintro ⟨⟨⟨back, htext⟩, -, -, -⟩, hle⟩
      -- the opening brace would be in the head
      obtain ⟨more, hmore⟩ : front <+: pair.front :=
        List.prefix_of_prefix_length_le ⟨_, rfl⟩ ⟨_, htext.symm⟩ hle
      rw [← hmore, List.append_nil, List.append_assoc] at htext
      have hbrace := hhead '{' (by rw [List.append_cancel_left htext]; simp)
      exact absurd hbrace (by decide)
  | cons c rest ih =>
      cases hc : notBrace c with
      | true =>
          have hnext : pair ∈ bracePairsFrom front (head ++ [c]) rest ↔ _ :=
            ih hfront (List.forall_mem_append.2 ⟨hhead, List.forall_mem_singleton.2 hc⟩)
          rw [bracePairsFrom, if_pos hc, hnext, List.append_assoc, List.singleton_append]
      | false =>
          have hedge : (front ++ (head ++ [c])).getLast?.any notBrace = false := by
            rw [← List.append_assoc, List.getLast?_concat]
            exact hc
          have hnext : pair ∈ bracePairsFrom (front ++ (head ++ [c])) [] rest ↔ _ :=
            ih hedge (fun _ h => absurd h List.not_mem_nil)
          have htext : front ++ (head ++ [c]) ++ ([] ++ rest) = front ++ (head ++ c :: rest) := by
            simp only [List.append_assoc, List.nil_append, List.singleton_append]
          rw [htext] at hnext
          rw [bracePairsFrom_brace hc, List.mem_append, hnext]
          constructor
          · rintro (hpair | ⟨hstands, hle⟩)
            · split at hpair
              · rename_i hopens
                obtain ⟨body, back, htext, hbody⟩ := opensPair_iff.1 hopens
                obtain ⟨rfl, rfl⟩ := List.cons.inj htext
                rw [takeWhile_body hbody] at hpair
                rw [List.mem_singleton.1 hpair]
                exact ⟨⟨⟨back, rfl⟩, hfront, hhead, hbody⟩, Nat.le_refl _⟩
              · cases hpair
            · rw [List.length_append] at hle
              exact ⟨hstands, by omega⟩
          · rintro ⟨hstands, hle⟩
            by_cases hlt : pair.front.length < (front ++ (head ++ [c])).length
            · obtain ⟨hopens, rfl⟩ := eq_of_standsIn hhead hc hstands hle hlt
              rw [if_pos hopens]
              exact .inl List.mem_cons_self
            · exact .inr ⟨hstands, Nat.le_of_not_lt hlt⟩

theorem mem_bracePairs_iff {text : List Char} :
    pair ∈ bracePairs text ↔ pair.StandsIn text := by
  have hpairs : pair ∈ bracePairsFrom [] [] text ↔ _ :=
    mem_bracePairsFrom_iff rfl (fun _ h => absurd h List.not_mem_nil)
  rw [bracePairs, hpairs]
  exact and_iff_left (Nat.zero_le _)

end Scan

/-! ## The search -/

section Search

variable {front head body back : List Char}

/-- A match begins with a character that is no brace, and behind all such characters there is an
opening brace whose next brace closes. -/
theorem requires_blockPattern :
    Requires (fun place => place.rest.head?.any notBrace = true ∧
      opensPair (place.rest.dropWhile notBrace) = true) blockPattern := by
  intro here out hout
  obtain ⟨head, body, headEnd, bodyStart, bodyEnd, hblock⟩ := blockRun_of_mem_runs hout
  have hbehind : headEnd.rest = '{' :: (body ++ '}' :: out.1.rest) := by
    rw [hblock.open_takes.rest, hblock.body_takes.rest, hblock.close_takes.rest]
    rfl
  rw [hblock.head_takes.rest, hbehind]
  constructor
  · obtain ⟨c, more, rfl⟩ := List.exists_cons_of_ne_nil hblock.head_ne_nil
    exact hblock.head_free c List.mem_cons_self
  · rw [List.dropWhile_append_of_pos hblock.head_free]
    exact opensPair_iff.2 ⟨body, out.1.rest, rfl, hblock.body_free⟩

theorem findBehind_brace {c : Char} (hc : notBrace c = false) (front rest : List Char) :
    blockPattern.findBehind front (c :: rest) = blockPattern.findBehind (front ++ [c]) rest := by
  refine findBehind_cons (matchAt?_eq_none_of_requires requires_blockPattern ?_)
  exact fun h => Bool.false_ne_true (hc.symm.trans h.1)

theorem findBehind_head {rest : List Char} (hhead : ∀ c ∈ head, notBrace c = true)
    (hrest : rest.head?.any notBrace = false) (hopens : opensPair rest = false)
    (front : List Char) :
    blockPattern.findBehind front (head ++ rest) =
      blockPattern.findBehind (front ++ head) rest := by
  have hstop : rest.dropWhile notBrace = rest := by
    cases rest with
    | nil => rfl
    | cons c rest => exact List.dropWhile_cons_of_neg (Bool.eq_false_iff.1 hrest)
  refine findBehind_stretch requires_blockPattern ?_
  rintro done c more rfl ⟨-, h⟩
  have hmore : ∀ d ∈ c :: more, notBrace d = true :=
    fun d hd => hhead d (List.mem_append_right _ hd)
  have h : opensPair ((c :: more ++ rest).dropWhile notBrace) = true := h
  rw [List.dropWhile_append_of_pos hmore, hstop, hopens] at h
  cases h

theorem BracePair.head_eq (pair : BracePair) :
    ∃ gap, pair.head = pair.beforeSelector ++ (trim (afterSemicolon pair.head) ++ gap) ∧
      pair.head.length =
        pair.beforeSelector.length + (trimStartOf isBlank (afterSemicolon pair.head)).length := by
  obtain ⟨before, gap, hhead, -, hlength⟩ := exists_selector_in_head pair.head
  have hbefore : pair.beforeSelector = before := by
    have hsub : pair.head.length - (trimStartOf isBlank (afterSemicolon pair.head)).length =
        before.length := by omega
    rw [beforeSelector, hsub]
    conv_lhs => rw [hhead]
    rw [List.append_assoc, List.take_left]
  rw [hbefore]
  exact ⟨gap, by rw [← List.append_assoc]; exact hhead, hlength⟩

theorem blockOf?_eq {text : List Char} {m : Match} {head body : Span}
    (hhead : m.group? 1 = some head) (hbody : m.group? 2 = some body) :
    blockOf? text m =
      if (trim (afterSemicolon head.text)).isEmpty then none
      else
        some ⟨String.ofList (trim (afterSemicolon head.text)),
          lineOf text (head.stop.offset -
            (trimStartOf isBlank (afterSemicolon head.text)).length),
          body.text, lineOf text body.start.offset⟩ := by
  rw [blockOf?, hhead, hbody]

theorem matchAt?_pair (hhead : ∀ c ∈ head, notBrace c = true) (hne : head ≠ [])
    (hbody : ∀ c ∈ body, notBrace c = true) (front back : List Char) :
    ∃ m, blockPattern.matchAt? (Place.between front (head ++ '{' :: (body ++ '}' :: back))) =
        some m ∧
      m.stop = (front ++ head ++ ['{'] ++ body ++ ['}']).length ∧
      blockOf? (front ++ (head ++ '{' :: (body ++ '}' :: back))) m =
        BracePair.block? ⟨front, head, body⟩ := by
  have hopening : ('{' :: (body ++ '}' :: back)).head?.any notBrace = false := rfl
  have hclosing : ('}' :: back).head?.any notBrace = false := rfl
  have hheadRun := First.group 1 (first_some1 hhead hne hopening front [])
  have hopen := first_char '{' (front ++ head) (body ++ '}' :: back)
  have hbodyRun := fun groups =>
    First.group 2 (first_many hbody hclosing (front ++ head ++ ['{']) groups)
  have hclose := first_char '}' (front ++ head ++ ['{'] ++ body) back
  have hm := (((hheadRun.append (hopen _)).append (hbodyRun _)).append (hclose _)).matchAt?_eq
  refine ⟨_, hm, rfl, ?_⟩
  have hheadText := Span.text_between front head ('{' :: (body ++ '}' :: back))
  have hbodyText := Span.text_between (front ++ head ++ ['{']) body ('}' :: back)
  obtain ⟨gap, hsplit, hlength⟩ := BracePair.head_eq ⟨front, head, body⟩
  generalize hbefore : (BracePair.mk front head body).beforeSelector = before at hsplit hlength
  dsimp only at hsplit hlength
  have hstart : (front ++ head).length - (trimStartOf isBlank (afterSemicolon head)).length =
      (front ++ before).length := by
    rw [List.length_append, List.length_append]
    omega
  have hselector : lineOf (front ++ (head ++ '{' :: (body ++ '}' :: back)))
      (front ++ before).length = (splitLines (front ++ before)).length := by
    conv_lhs => rw [hsplit, List.append_assoc, ← List.append_assoc front]
    exact lineOf_append _ _
  have hbodyLine : lineOf (front ++ (head ++ '{' :: (body ++ '}' :: back)))
      (front ++ head ++ ['{']).length = (splitLines (front ++ (head ++ ['{']))).length := by
    have htext : front ++ (head ++ '{' :: (body ++ '}' :: back)) =
        (front ++ head ++ ['{']) ++ (body ++ '}' :: back) := by
      simp only [List.append_assoc, List.cons_append, List.nil_append]
    rw [htext, lineOf_append, List.append_assoc]
  rw [blockOf?_eq rfl rfl, BracePair.block?, hbefore, ← hselector, ← hbodyLine, ← hstart,
    hheadText, hbodyText]
  rfl

theorem findBehind_pair (hhead : ∀ c ∈ head, notBrace c = true) (hne : head ≠ [])
    (hbody : ∀ c ∈ body, notBrace c = true) (front back : List Char) :
    ∃ m, blockPattern.findBehind front (head ++ '{' :: (body ++ '}' :: back)) =
        m :: blockPattern.findBehind (front ++ (head ++ '{' :: (body ++ ['}']))) back ∧
      blockOf? (front ++ (head ++ '{' :: (body ++ '}' :: back))) m =
        BracePair.block? ⟨front, head, body⟩ := by
  obtain ⟨m, hm, hstop, hblock⟩ := matchAt?_pair hhead hne hbody front back
  obtain ⟨c, others, rfl⟩ := List.exists_cons_of_ne_nil hne
  have htaken : c :: others ++ '{' :: (body ++ '}' :: back) =
      c :: ((others ++ '{' :: (body ++ ['}'])) ++ back) := by
    simp only [List.append_assoc, List.cons_append, List.nil_append]
  refine ⟨m, ?_, hblock⟩
  rw [htaken] at hm ⊢
  refine findBehind_match hm ?_
  rw [hstop]
  simp only [List.length_append, List.length_cons, List.length_nil]
  omega

theorem filterMap_findBehind_pair {text : List Char} (hhead : ∀ c ∈ head, notBrace c = true)
    (hne : head ≠ []) (hbody : ∀ c ∈ body, notBrace c = true)
    (htext : text = front ++ (head ++ '{' :: (body ++ '}' :: back))) :
    (blockPattern.findBehind front (head ++ '{' :: (body ++ '}' :: back))).filterMap
        (blockOf? text) =
      [BracePair.mk front head body].filterMap BracePair.block? ++
        (blockPattern.findBehind (front ++ (head ++ '{' :: (body ++ ['}']))) back).filterMap
          (blockOf? text) := by
  obtain ⟨m, hfound, hblock⟩ := findBehind_pair hhead hne hbody front back
  have hone : [m].filterMap (blockOf? text) =
      [BracePair.mk front head body].filterMap BracePair.block? := by
    simp only [List.filterMap_cons, htext, hblock, List.filterMap_nil]
  rw [hfound, ← hone, ← List.filterMap_append]
  rfl

theorem block?_of_head_nil (front body : List Char) :
    BracePair.block? ⟨front, [], body⟩ = none := rfl

/-- **The search finds the blocks of the pairs.** -/
theorem filterMap_findBehind (front rest : List Char) :
    (blockPattern.findBehind front rest).filterMap (blockOf? (front ++ rest)) =
      (bracePairsFrom front [] rest).filterMap BracePair.block? := by
  obtain ⟨head, after, hrest, hhead, hafter⟩ : ∃ head after, rest = head ++ after ∧
      (∀ c ∈ head, notBrace c = true) ∧ after.head?.any notBrace = false :=
    ⟨rest.takeWhile notBrace, rest.dropWhile notBrace, List.takeWhile_append_dropWhile.symm,
      fun c hc => List.mem_takeWhile_imp hc, head?_dropWhile_any notBrace rest⟩
  rw [hrest, bracePairsFrom_free hhead, List.nil_append]
  cases after with
  | nil =>
      rw [findBehind_head hhead rfl rfl]
      rfl
  | cons c back =>
      have hc : notBrace c = false := hafter
      cases hopens : opensPair (c :: back) with
      | false =>
          have hnext := filterMap_findBehind (front ++ (head ++ [c])) back
          have htext : front ++ (head ++ c :: back) = (front ++ (head ++ [c])) ++ back := by
            simp only [List.append_assoc, List.singleton_append]
          rw [findBehind_head hhead hafter hopens, findBehind_brace hc, List.append_assoc, htext,
            hnext, bracePairsFrom_brace hc, hopens]
          rfl
      | true =>
          obtain ⟨body, behind, hpair, hbody⟩ := opensPair_iff.1 hopens
          obtain ⟨rfl, rfl⟩ := List.cons.inj hpair
          by_cases hne : head = []
          · -- no match begins with the brace, and the pair has no selector
            have hnext := filterMap_findBehind (front ++ ['{']) (body ++ '}' :: behind)
            rw [List.append_assoc] at hnext
            rw [hne, List.nil_append, findBehind_brace hc, bracePairsFrom_brace hc, if_pos hopens,
              takeWhile_body hbody, List.filterMap_append, List.nil_append, ← hnext,
              List.filterMap_cons, block?_of_head_nil]
            rfl
          · have hnext := filterMap_findBehind (front ++ (head ++ '{' :: (body ++ ['}']))) behind
            have htext : front ++ (head ++ '{' :: (body ++ ['}'])) ++ behind =
                front ++ (head ++ '{' :: (body ++ '}' :: behind)) := by
              simp only [List.append_assoc, List.cons_append, List.nil_append]
            rw [htext] at hnext
            rw [filterMap_findBehind_pair hhead hne hbody rfl, hnext, bracePairsFrom_pair hbody,
              ← List.filterMap_append]
            rfl
termination_by rest.length
decreasing_by
  all_goals
    rw [hrest]
    simp only [List.length_append, List.length_cons]
    omega

end Search

/-! ## Blocks -/

/-- A text is what is behind the last semicolon of a head, or the head if it has none. -/
structure IsTail (head tail : List Char) : Prop where
  free : ';' ∉ tail
  head_eq : ∃ statements, head = statements ++ tail ∧ statements.getLast?.all (· == ';') = true

theorem isTail_afterSemicolon (head : List Char) : IsTail head (afterSemicolon head) := by
  have hsplit : head =
      (head.reverse.dropWhile (· != ';')).reverse ++ afterSemicolon head := by
    rw [afterSemicolon, ← List.reverse_append, List.takeWhile_append_dropWhile,
      List.reverse_reverse]
  refine ⟨fun h => ?_, _, hsplit, ?_⟩
  · have hfree := List.mem_takeWhile_imp (List.mem_reverse.1 h)
    exact absurd hfree (by decide)
  · rw [List.getLast?_reverse]
    have hstop := head?_dropWhile_any (· != ';') head.reverse
    cases hhead : (head.reverse.dropWhile (· != ';')).head? with
    | none => rfl
    | some c =>
        rw [hhead] at hstop
        simpa using hstop

theorem eq_nil_of_statements {front more tail : List Char}
    (h : (front ++ more).getLast?.all (· == ';') = true) (hfree : ';' ∉ more ++ tail) :
    more = [] := by
  by_contra hne
  have hlast := List.getLast?_eq_some_getLast hne
  rw [List.getLast?_append, hlast, Option.some_or, Option.all_some, beq_iff_eq] at h
  exact hfree (List.mem_append_left _ (h ▸ List.getLast_mem hne))

/-- Only one text is behind the last semicolon. -/
theorem IsTail.unique {head tail other : List Char} (h : IsTail head tail)
    (h' : IsTail head other) : tail = other := by
  obtain ⟨front, rfl, hfront⟩ := h.head_eq
  obtain ⟨front', hhead, hfront'⟩ := h'.head_eq
  rcases List.append_eq_append_iff.1 hhead with ⟨more, rfl, rfl⟩ | ⟨more, rfl, rfl⟩
  · rw [eq_nil_of_statements hfront' h.free, List.nil_append]
  · rw [eq_nil_of_statements hfront h'.free, List.nil_append]

theorem BracePair.block?_eq (pair : BracePair) :
    pair.block?.map (fun b => (b.selector.toList, b.body)) =
      if isBlankText (afterSemicolon pair.head) then none
      else some (trim (afterSemicolon pair.head), pair.body) := by
  have hblank : (trim (afterSemicolon pair.head)).isEmpty =
      isBlankText (afterSemicolon pair.head) := isEmpty_trim _
  unfold block?
  dsimp only
  rw [hblank]
  split
  · rfl
  · rw [Option.map_some, String.toList_ofList]

/-- **Blocks are the pairs of braces that have a selector**, in order and each once: the search for
blocks finds those pairs of the scan whose head has more than blanks behind its last semicolon, and
the scan finds each opening brace whose next brace closes. -/
theorem blocks_are_brace_pairs :
    (∀ text, blocks text = (bracePairs text).filterMap BracePair.block? ∧
      (bracePairs text).Pairwise (fun p q => p.front.length < q.front.length) ∧
      ∀ pair, pair ∈ bracePairs text ↔ pair.StandsIn text) ∧
    (∀ pair : BracePair, ∃ tail, (∀ other, IsTail pair.head other ↔ other = tail) ∧
      pair.block?.map (fun b => (b.selector.toList, b.body)) =
        if isBlankText tail then none else some (trim tail, pair.body)) ∧
    ∀ source html, analyzeWith source html =
      findingsOf ((bracePairs (blankComments (unifyEndings source.toList))).filterMap
        BracePair.block?) html := by
  have hblocks : ∀ text, blocks text = (bracePairs text).filterMap BracePair.block? :=
    fun text => filterMap_findBehind [] text
  refine ⟨fun text => ⟨hblocks text, pairwise_bracePairsFrom [] [] text, fun pair => ?_⟩,
    fun pair => ⟨_, fun other => ?_, pair.block?_eq⟩, fun source html => ?_⟩
  · exact mem_bracePairs_iff
  · have htail := isTail_afterSemicolon pair.head
    constructor
    · intro hother
      exact hother.unique htail
    · rintro rfl
      exact htail
  · rw [analyzeWith, hblocks]

end CodeSurvey.Css
