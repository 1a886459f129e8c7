import BuilderCalls.Proofs.Json.Lexing
import BuilderCalls.Proofs.Json.Reader

/-!
# Nesting

The depth of a value is the number of containers around its innermost part.  The reader keeps
one frame for each open container, so it goes through the tokens of a value exactly when the
frames that are open before it and the depth of the value together stay within the limit.
Hence a printed value is read back if its depth does, and is refused if it does not.
-/

namespace BuilderCalls.Json

mutual

def depth : Json → Nat
  | .array items => depthOfItems items + 1
  | .object members => depthOfMembers members + 1
  | _ => 0
termination_by structural value => value

def depthOfItems : List Json → Nat
  | [] => 0
  | item :: items => max (depth item) (depthOfItems items)
termination_by structural items => items

def depthOfMembers : Members → Nat
  | [] => 0
  | (_, value) :: members => max (depth value) (depthOfMembers members)
termination_by structural members => members

end

theorem Members.insert_of_fresh {members : Members} {key : String} (hfresh : key ∉ members.keys)
    (value : Json) : members.insert key value = members ++ [(key, value)] := by
  induction members with
  | nil => rfl
  | cons member rest ih =>
      obtain ⟨hne, hrest⟩ := not_or.mp fun hmem => hfresh (List.mem_cons.mpr hmem)
      rw [Members.insert, if_neg (Ne.symm hne), ih hrest]
      rfl

theorem Distinct.items {items : List Json} (hdistinct : Distinct (.array items)) :
    ∀ item ∈ items, item.Distinct := by
  cases hdistinct
  assumption

theorem Distinct.members {members : Members} (hdistinct : Distinct (.object members)) :
    ∀ member ∈ members, member.2.Distinct := by
  cases hdistinct
  assumption

namespace Reading

variable {frames : List Frame}

/-- A value begins with a token that can end no array. -/
theorem run?_firstItem (value : Json) (rest : List Token) :
    run? (.firstItem frames) (value.tokens ++ rest) =
      run? (.valueDue (.array [] :: frames)) (value.tokens ++ rest) := by
  cases value with
  | array items => cases items <;> rfl
  | object members => cases members <;> rfl
  | _ => rfl

theorem run?_openArray (rest : List Token) :
    run? (.valueDue frames) (.openArray :: rest) =
      if frames.length < nestingLimit then run? (.firstItem frames) rest else none := by
  by_cases hframes : frames.length < nestingLimit <;> simp [run?, step?, begin?, hframes]

theorem run?_openObject (rest : List Token) :
    run? (.valueDue frames) (.openObject :: rest) =
      if frames.length < nestingLimit then run? (.keyDue [] true frames) rest else none := by
  by_cases hframes : frames.length < nestingLimit <;> simp [run?, step?, begin?, hframes]

mutual

theorem run?_tokens : (value : Json) → value.Distinct → (frames : List Frame) →
    frames.length ≤ nestingLimit → (rest : List Token) →
    run? (.valueDue frames) (value.tokens ++ rest) =
      if frames.length + value.depth ≤ nestingLimit then run? (deliver value frames) rest else none
  | .null, _, _, hframes, _ => (if_pos hframes).symm
  | .bool _, _, _, hframes, _ => (if_pos hframes).symm
  | .number _, _, _, hframes, _ => (if_pos hframes).symm
  | .string _, _, _, hframes, _ => (if_pos hframes).symm
  | .array [], _, _, _, rest => run?_openArray (.closeArray :: rest)
  | .array (item :: items), hdistinct, frames, _, rest => by
      obtain ⟨hitem, hitems⟩ := List.forall_mem_cons.mp hdistinct.items
      simp only [tokens, List.cons_append, List.append_assoc]
      rw [run?_openArray, depth, depthOfItems]
      by_cases hopen : frames.length < nestingLimit
      · rw [if_pos hopen, run?_firstItem, run?_tokens item hitem (.array [] :: frames) hopen,
          List.length_cons]
        by_cases hdepth : frames.length + 1 + item.depth ≤ nestingLimit
        · rw [if_pos hdepth, deliver, run?_tokensOfItems items hitems [item] frames hopen rest]
          exact if_congr (by omega) rfl rfl
        · rw [if_neg hdepth, if_neg (by omega)]
      · rw [if_neg hopen, if_neg (by omega)]
  | .object [], _, _, _, rest => run?_openObject (.closeObject :: rest)
  | .object ((key, value) :: members), hdistinct, frames, _, rest => by
      obtain ⟨hvalue, hmembers⟩ := List.forall_mem_cons.mp hdistinct.members
      have hkeys : (Members.keys ([(key, value)] ++ members)).Nodup := hdistinct.keys_nodup
      have hfirst : run? (.keyDue [] true frames) (.string key :: .colon ::
          (value.tokens ++ (tokensOfMembers members ++ rest))) =
          run? (.valueDue (.object [] key :: frames))
            (value.tokens ++ (tokensOfMembers members ++ rest)) := rfl
      simp only [tokens, List.cons_append, List.append_assoc]
      rw [run?_openObject, depth, depthOfMembers]
      by_cases hopen : frames.length < nestingLimit
      · rw [if_pos hopen, hfirst, run?_tokens value hvalue (.object [] key :: frames) hopen,
          List.length_cons]
        by_cases hdepth : frames.length + 1 + value.depth ≤ nestingLimit
        · rw [if_pos hdepth, deliver, Members.insert,
            run?_tokensOfMembers members hmembers _ hkeys frames hopen rest]
          exact if_congr (by omega) rfl rfl
        · rw [if_neg hdepth, if_neg (by omega)]
      · rw [if_neg hopen, if_neg (by omega)]
termination_by structural value => value

/-- The rest of an array of which some items, in reverse, have been read. -/
theorem run?_tokensOfItems : (items : List Json) → (∀ item ∈ items, item.Distinct) →
    (done : List Json) → (frames : List Frame) → frames.length < nestingLimit →
    (rest : List Token) →
    run? (.moreItems done frames) (tokensOfItems items ++ rest) =
      if frames.length + 1 + depthOfItems items ≤ nestingLimit then
        run? (deliver (.array (done.reverse ++ items)) frames) rest
      else none
  | [], _, done, frames, hframes, rest => by
      rw [depthOfItems, if_pos (by omega), List.append_nil]
      rfl
  | item :: items, hdistinct, done, frames, hframes, rest => by
      obtain ⟨hitem, hitems⟩ := List.forall_mem_cons.mp hdistinct
      have hnext : run? (.moreItems done frames) (tokensOfItems (item :: items) ++ rest) =
          run? (.valueDue (.array done :: frames))
            (item.tokens ++ (tokensOfItems items ++ rest)) := by
        simp only [tokensOfItems, List.cons_append, List.append_assoc]
        rfl
      rw [hnext, run?_tokens item hitem _ (by simp; omega), depthOfItems, List.length_cons]
      by_cases hdepth : frames.length + 1 + item.depth ≤ nestingLimit
      · rw [if_pos hdepth, deliver,
          run?_tokensOfItems items hitems (item :: done) frames hframes rest, List.reverse_cons,
          List.append_assoc, List.singleton_append]
        exact if_congr (by omega) rfl rfl
      · rw [if_neg hdepth, if_neg (by omega)]
termination_by structural items => items

/-- The rest of an object of which some members have been read. -/
theorem run?_tokensOfMembers : (members : Members) → (∀ member ∈ members, member.2.Distinct) →
    (done : Members) → (done ++ members).keys.Nodup → (frames : List Frame) →
    frames.length < nestingLimit → (rest : List Token) →
    run? (.moreMembers done frames) (tokensOfMembers members ++ rest) =
      if frames.length + 1 + depthOfMembers members ≤ nestingLimit then
        run? (deliver (.object (done ++ members)) frames) rest
      else none
  | [], _, done, _, frames, hframes, rest => by
      rw [depthOfMembers, if_pos (by omega), List.append_nil]
      rfl
  | (key, value) :: members, hdistinct, done, hkeys, frames, hframes, rest => by
      obtain ⟨hvalue, hmembers⟩ := List.forall_mem_cons.mp hdistinct
      have hdone : done ++ (key, value) :: members = (done ++ [(key, value)]) ++ members := by simp
      have hnext : run? (.moreMembers done frames)
          (tokensOfMembers ((key, value) :: members) ++ rest) =
          run? (.valueDue (.object done key :: frames))
            (value.tokens ++ (tokensOfMembers members ++ rest)) := by
        simp only [tokensOfMembers, List.cons_append, List.append_assoc]
        rfl
      have hfresh : key ∉ done.keys := by
        rw [Members.keys_append] at hkeys
        exact fun hmem => List.disjoint_of_nodup_append hkeys hmem (.head _)
      rw [hnext, run?_tokens value hvalue _ (by simp; omega), depthOfMembers, List.length_cons]
      by_cases hdepth : frames.length + 1 + value.depth ≤ nestingLimit
      · rw [hdone] at hkeys ⊢
        rw [if_pos hdepth, deliver, Members.insert_of_fresh hfresh,
          run?_tokensOfMembers members hmembers _ hkeys frames hframes rest]
        exact if_congr (by omega) rfl rfl
      · rw [if_neg hdepth, if_neg (by omega)]
termination_by structural members => members

end

end Reading

theorem ofTokens?_tokens {value : Json} (hdistinct : value.Distinct) :
    ofTokens? value.tokens = if value.depth ≤ nestingLimit then some value else none := by
  have hrun := Reading.run?_tokens value hdistinct [] (Nat.zero_le _) []
  rw [List.append_nil, List.length_nil, Nat.zero_add] at hrun
  rw [ofTokens?, hrun]
  split <;> rfl

/-- A text that scans as a printed value is read back exactly when the value is shallow enough. -/
theorem ofText?_of_tokens {value : Json} (hdistinct : value.Distinct) {text : List Char}
    (htokens : tokens? text = some value.tokens) :
    ofText? (String.ofList text) = if value.depth ≤ nestingLimit then some value else none := by
  rw [ofText?, String.toList_ofList, htokens, Option.bind_some, ofTokens?_tokens hdistinct]

theorem ofText?_compactText {value : Json} (hdistinct : value.Distinct) :
    ofText? value.compactText = if value.depth ≤ nestingLimit then some value else none :=
  ofText?_of_tokens hdistinct (tokens?_compact value)

theorem ofText?_pretty {value : Json} (hdistinct : value.Distinct) {blanks : List Char}
    (hblanks : ∀ char ∈ blanks, isBlank char = true) :
    ofText? (String.ofList (value.pretty ++ blanks)) =
      if value.depth ≤ nestingLimit then some value else none :=
  ofText?_of_tokens hdistinct (tokens?_pretty value hblanks)

end BuilderCalls.Json
