/-
# A written value is read back

The reader takes the tokens of a value to the value, whatever containers are open around it, so a
value within others is read like one that stands alone (`Kept.readsBack`).  With the lexer this
gives back every value that has a text of its own, from every text that spells its tokens
(`parse?_of_spells`), so from either layout (`IsLayout.parse?`).

The induction is on the value, and the stack of open containers is general in it: reading an array
needs it for each item with the array on the stack.  What is not `Kept` has no text of its own, as a
string with half a surrogate pair, or is no number that a record holds: a fraction, one below zero,
or one beyond 64 bits.
-/
import CodeSurvey.Proofs.Json.Lexing

namespace CodeSurvey.Json

theorem mapM_map_eq_some {α β : Type} {write : α → β} {read : β → Option α} {list : List α}
    (h : ∀ a ∈ list, read (write a) = some a) : (list.map write).mapM read = some list := by
  induction list with
  | nil => rfl
  | cons a list ih =>
      rw [List.map_cons, List.mapM_cons, h a List.mem_cons_self,
        ih (fun b hb => h b (List.mem_cons_of_mem _ hb))]
      rfl

theorem readTokens_cons {state state' : ReadState} {token : Token}
    (h : readStep state token = some state') (rest : List Token) :
    readTokens state (token :: rest) = readTokens state' rest := by
  rw [readTokens, h]

/-- A value is read in front of any tokens and within any open containers. -/
def ReadsBack (value : Json) : Prop :=
  ∀ frames rest, readTokens ⟨frames, .value⟩ (tokensOf value ++ rest) =
    readTokens ⟨frames, .more value⟩ rest

theorem readTokens_valueOrClose (frames : List Frame) (value : Json) (rest : List Token) :
    readTokens ⟨frames, .valueOrClose⟩ (tokensOf value ++ rest) =
      readTokens ⟨frames, .value⟩ (tokensOf value ++ rest) := by
  cases value with
  | array items => cases items <;> rfl
  | object members => cases members <;> rfl
  | _ => rfl

theorem readTokens_itemTokens {items : List Json} (h : ∀ item ∈ items, ReadsBack item)
    (frames : List Frame) (done : List Json) (value : Json) (rest : List Token) :
    readTokens ⟨.array done :: frames, .more value⟩ (itemTokens items ++ rest) =
      readTokens ⟨frames, .more (.array (done.reverse ++ value :: items))⟩ rest := by
  induction items generalizing done value with
  | nil =>
      have hclose : readStep ⟨.array done :: frames, .more value⟩ .closeBracket =
          some ⟨frames, .more (.array (value :: done).reverse)⟩ := rfl
      rw [itemTokens, List.singleton_append, readTokens_cons hclose, List.reverse_cons]
  | cons item items ih =>
      have hcomma : readStep ⟨.array done :: frames, .more value⟩ .comma =
          some ⟨.array (value :: done) :: frames, .value⟩ := rfl
      rw [itemTokens, List.cons_append, List.cons_append, List.append_assoc,
        readTokens_cons hcomma, h item List.mem_cons_self,
        ih (fun other hother => h other (List.mem_cons_of_mem _ hother)), List.reverse_cons,
        List.append_assoc]
      rfl

/-- Members whose keys are texts, as an open object holds them. -/
def held (members : List (String × Json)) : List Member :=
  (members.map (fun m => (some m.1, m.2))).reverse

theorem held_snoc (members : List (String × Json)) (key : String) (value : Json) :
    held (members ++ [(key, value)]) = (some key, value) :: held members := by
  rw [held, held, List.map_append, List.reverse_append]
  rfl

theorem objectOf_held (members : List (String × Json)) :
    objectOf (held members) = .object members := by
  have hread : (members.map (fun m => (some m.1, m.2))).mapM
      (fun (key, value) => key.map (·, value)) = some members := mapM_map_eq_some (fun _ _ => rfl)
  rw [objectOf, held, List.reverse_reverse, hread]

theorem readTokens_memberTokens {members : List (String × Json)}
    (h : ∀ m ∈ members, ReadsBack m.2) (frames : List Frame) (done : List (String × Json))
    (key : String) (value : Json) (rest : List Token) :
    readTokens ⟨.object (held done) (some key) :: frames, .more value⟩
        (memberTokens members ++ rest) =
      readTokens ⟨frames, .more (.object (done ++ (key, value) :: members))⟩ rest := by
  induction members generalizing done key value with
  | nil =>
      have hclose : readStep ⟨.object (held done) (some key) :: frames, .more value⟩ .closeBrace =
          some ⟨frames, .more (objectOf ((some key, value) :: held done))⟩ := rfl
      rw [memberTokens, List.singleton_append, readTokens_cons hclose, ← held_snoc, objectOf_held]
  | cons member members ih =>
      obtain ⟨next, nextValue⟩ := member
      have hcomma : readStep ⟨.object (held done) (some key) :: frames, .more value⟩ .comma =
          some ⟨frames, .key ((some key, value) :: held done)⟩ := rfl
      have hkey : ∀ read, readStep ⟨frames, .key read⟩ (.scalar (.string next)) =
          some ⟨.object read (some next) :: frames, .colon⟩ := fun _ => rfl
      have hcolon : ∀ read, readStep ⟨.object read (some next) :: frames, .colon⟩ .colon =
          some ⟨.object read (some next) :: frames, .value⟩ := fun _ => rfl
      rw [memberTokens, List.append_assoc, List.cons_append, List.cons_append, List.cons_append,
        readTokens_cons hcomma, readTokens_cons (hkey _), readTokens_cons (hcolon _),
        h (next, nextValue) List.mem_cons_self, ← held_snoc,
        ih (fun other hother => h other (List.mem_cons_of_mem _ hother)), List.append_assoc]
      rfl

theorem Kept.readsBack {value : Json} (h : Kept value) : ReadsBack value := by
  intro frames rest
  induction h generalizing frames rest with
  | null => rfl
  | bool b => rfl
  | nat _ => rfl
  | string text => rfl
  | @array items _ ih =>
      cases items with
      | nil => rfl
      | cons item items =>
          have hopen : readStep ⟨frames, .value⟩ .openBracket =
              some ⟨.array [] :: frames, .valueOrClose⟩ := rfl
          rw [tokensOf, List.cons_append, List.cons_append, List.append_assoc,
            readTokens_cons hopen, readTokens_valueOrClose, ih item List.mem_cons_self,
            readTokens_itemTokens (fun other hother => ih other (List.mem_cons_of_mem _ hother))]
          rfl
  | @object members _ ih =>
      cases members with
      | nil => rfl
      | cons member members =>
          obtain ⟨key, value⟩ := member
          have hopen : readStep ⟨frames, .value⟩ .openBrace =
              some ⟨frames, .keyOrClose []⟩ := rfl
          have hkey : readStep ⟨frames, .keyOrClose []⟩ (.scalar (.string key)) =
              some ⟨.object [] (some key) :: frames, .colon⟩ := rfl
          have hcolon : readStep ⟨.object [] (some key) :: frames, .colon⟩ .colon =
              some ⟨.object [] (some key) :: frames, .value⟩ := rfl
          have hmembers := readTokens_memberTokens
            (fun other hother => ih other (List.mem_cons_of_mem _ hother)) frames [] key value rest
          rw [tokensOf, List.append_assoc, List.cons_append, List.cons_append, List.cons_append,
            readTokens_cons hopen, readTokens_cons hkey,
            readTokens_cons hcolon, ih (key, value) List.mem_cons_self]
          exact hmembers

theorem parse?_of_spells {text : List Char} {value : Json} (h : Spells text (tokensOf value))
    (hkept : Kept value) : parse? text = some value := by
  have htokens : tokens? text = some (tokensOf value) := by
    have hspelled := h [] (fun c hc => by cases hc)
    rw [List.append_nil] at hspelled
    rw [tokens?, hspelled]
    exact congrArg some (List.append_nil _)
  have hread := hkept.readsBack [] []
  rw [List.append_nil] at hread
  rw [parse?, htokens]
  simp only [hread]
  rfl

/-- A layout: the text of a value spells its tokens. -/
def IsLayout (layout : Json → String) : Prop :=
  ∀ value, Kept value → Spells (layout value).toList (tokensOf value)

theorem isLayout_pretty : IsLayout pretty := by
  intro value hkept
  rw [pretty, String.toList_ofList]
  exact spells_pretty hkept 0

theorem isLayout_compact : IsLayout compact := by
  intro value hkept
  rw [compact, String.toList_ofList]
  exact spells_compact hkept

/-- **A value is read back from its text**, in either layout. -/
theorem IsLayout.parse? {layout : Json → String} (h : IsLayout layout) {value : Json}
    (hkept : Kept value) : parse? (layout value).toList = some value :=
  parse?_of_spells (h value hkept) hkept

end CodeSurvey.Json
