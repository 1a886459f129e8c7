import BuilderCalls.Proofs.Fitting
import BuilderCalls.Proofs.Rendering.Literal

/-!
# Reading calls

The text of a call determines the call and shows where it ends.  What the builder's name
announces fixes the slots, and a slot fixes which arguments may stand in it, so that two
arguments of one slot need only be told from each other: `Alike` lists the pairs.  In an
optional slot and in a list, a call and `null` are told apart by what follows the word,
since a namespace may be `null` as well.
-/

namespace BuilderCalls

/-! ## Names of builders -/

/-- The characters of a namespace, its points and the name of a builder. -/
def isHeadChar (char : Char) : Bool :=
  char = '.' || Namespace.isPartChar char

theorem Namespace.isHeadChar_of_scan {inside : Bool} {text : List Char}
    (hscan : scan inside text = true) : ∀ char ∈ text, isHeadChar char = true := by
  induction text generalizing inside with
  | nil => nofun
  | cons char rest ih =>
      have hfirst : isHeadChar char = true ∧ ∃ inside, scan inside rest = true := by
        cases inside with
        | false =>
            rw [scan, Bool.and_eq_true] at hscan
            refine ⟨?_, true, hscan.2⟩
            have hstart := hscan.1
            simp only [isPartStart, Bool.or_eq_true, decide_eq_true_eq] at hstart
            simp only [isHeadChar, isPartChar, Char.isAlphanum, Bool.or_eq_true,
              decide_eq_true_eq]
            tauto
        | true =>
            rw [scan] at hscan
            split at hscan
            next hpoint => exact ⟨by simp [isHeadChar, hpoint], false, hscan⟩
            next =>
              rw [Bool.and_eq_true] at hscan
              exact ⟨by simp [isHeadChar, hscan.1], true, hscan.2⟩
      obtain ⟨hchar, inside', hrest⟩ := hfirst
      exact List.forall_mem_cons.mpr ⟨hchar, ih hrest⟩

private theorem all_builder_chars : ∀ nodeType ∈ NodeType.all,
    (nodeType.tag.toList.modifyHead Char.toLower).all isHeadChar = true := by
  decide +kernel

namespace Renderer

variable {renderer : Renderer}

/-- What stands before the arguments of a call. -/
def head (renderer : Renderer) (nodeType : NodeType) : List Char :=
  renderer.namespaceName.toList ++ '.' :: nodeType.builder.toList

theorem isHeadChar_of_mem_head {nodeType : NodeType} :
    ∀ char ∈ renderer.head nodeType, isHeadChar char = true := by
  intro char hchar
  rcases List.mem_append.mp hchar with hchar | hchar
  · exact Namespace.isHeadChar_of_scan renderer.dotted char hchar
  · rcases List.mem_cons.mp hchar with rfl | hchar
    · rfl
    · rw [NodeType.toList_builder] at hchar
      exact List.all_eq_true.mp (all_builder_chars nodeType nodeType.mem_all) char hchar

theorem head_append_inj {nodeType nodeType' : NodeType} {rest rest' : List Char}
    (hsame : renderer.head nodeType ++ '(' :: rest = renderer.head nodeType' ++ '(' :: rest') :
    nodeType = nodeType' ∧ rest = rest' := by
  obtain ⟨hhead, hrest⟩ := Stops.append_inj isHeadChar_of_mem_head isHeadChar_of_mem_head
    (stops_cons rfl _) (stops_cons rfl _) hsame
  have hbuilder := (List.cons.inj (List.append_cancel_left hhead)).2
  exact ⟨NodeType.builder_injective (String.toList_inj.mp hbuilder), (List.cons.inj hrest).2⟩

/-- A call is not taken for `null`, even where the namespace is. -/
theorem null_ne_head {nodeType : NodeType} {rest rest' : List Char} (hrest : Delimited rest) :
    "null".toList ++ rest ≠ renderer.head nodeType ++ '(' :: rest' := by
  intro hsame
  have hnull : "null".toList.all isHeadChar = true := by
    decide +kernel
  obtain ⟨hword, -⟩ := Stops.append_inj (List.all_eq_true.mp hnull) isHeadChar_of_mem_head
    (hrest.stops rfl) (stops_cons rfl _) hsame
  have hpoint : '.' ∈ renderer.head nodeType := List.mem_append_right _ (.head _)
  rw [← hword] at hpoint
  exact absurd hpoint (by decide)

/-! ## Texts of calls and arguments -/

section Texts

variable {owner : NodeType} {args : List (Arg Call)} {texts : List (List Char)}

/-- Each argument is written as the text at its place. -/
def ArgsWritten (renderer : Renderer) (owner : NodeType) :
    List (Arg Call) → List (List Char) → Prop :=
  List.Forall₂ fun arg text => renderer.argChars owner arg = .ok text

theorem argTexts_eq_ok_iff :
    renderer.argTexts owner args = .ok texts ↔ renderer.ArgsWritten owner args texts := by
  unfold ArgsWritten
  induction args generalizing texts with
  | nil => cases texts <;> simp [argTexts]
  | cons arg args ih =>
      rw [argTexts.eq_def]
      cases texts <;> simp [ih]

theorem callChars_eq_ok {call : Call} {text : List Char}
    (htext : renderer.callChars call = .ok text) :
    List.Forall₂ (fun slot arg => Fitting slot.kind arg) call.nodeType.slots call.args ∧
      ∃ texts, renderer.ArgsWritten call.nodeType call.args texts ∧
        text = renderer.head call.nodeType ++ '(' :: separated texts ++ [')'] := by
  obtain ⟨nodeType, args⟩ := call
  rw [callChars.eq_def] at htext
  simp only [bind_eq_ok_iff, pure_eq_ok_iff, NodeType.check_eq_ok_iff, argTexts_eq_ok_iff]
    at htext
  obtain ⟨-, hfitting, texts, hwritten, rfl⟩ := htext
  exact ⟨hfitting, texts, hwritten, by simp [head, Call.nodeType]⟩

theorem argChars_list_eq_ok {items : List (Arg Call)} {text : List Char}
    (htext : renderer.argChars owner (.list items) = .ok text) :
    ∃ texts, renderer.ArgsWritten owner items texts ∧ text = '[' :: separated texts ++ [']'] := by
  rw [argChars.eq_def] at htext
  simp only [bind_eq_ok_iff, pure_eq_ok_iff, argTexts_eq_ok_iff] at htext
  obtain ⟨texts, hwritten, rfl⟩ := htext
  exact ⟨texts, hwritten, rfl⟩

end Texts

/-! ## Sequences -/

section Sequences

variable {owner : NodeType} {left right : List (Arg Call)} {texts texts' : List (List Char)}
  {close : Char} {rest rest' : List Char}

/--
Where texts of the two arguments begin alike, with delimiters after them, the arguments are
the same and so is what follows.
-/
def ToldApart (renderer : Renderer) (owner : NodeType) (left right : Arg Call) : Prop :=
  ∀ ⦃text text' rest rest' : List Char⦄, renderer.argChars owner left = .ok text →
    renderer.argChars owner right = .ok text' → Delimited rest → Delimited rest' →
      text ++ rest = text' ++ rest' → left = right ∧ rest = rest'

/-- The items of two lists are told apart place by place. -/
def ItemsToldApart (renderer : Renderer) (owner : NodeType) (left right : List (Arg Call)) :
    Prop :=
  ∀ (place : Nat) item item', left[place]? = some item → right[place]? = some item' →
    renderer.ToldApart owner item item'

/-- The texts after the first of a sequence. -/
def following (texts : List (List Char)) : List Char :=
  texts.flatMap (", ".toList ++ ·)

theorem separated_cons (text : List Char) (texts : List (List Char)) :
    separated (text :: texts) = text ++ following texts := by
  induction texts generalizing text with
  | nil => simp [separated, following, List.intercalate]
  | cons next texts ih =>
      rw [separated, List.intercalate_cons_cons, ← separated, ih]
      simp [following]

theorem delimited_following (texts : List (List Char)) (hclose : isDelimiter close = true) :
    Delimited (following texts ++ close :: rest) := by
  cases texts with
  | nil => exact ⟨close, rest, hclose, rfl⟩
  | cons text texts => exact ⟨',', _, by decide, rfl⟩

theorem following_append_inj (hleft : renderer.ArgsWritten owner left texts)
    (hright : renderer.ArgsWritten owner right texts') (hclose : isDelimiter close = true)
    (hcomma : close ≠ ',')
    (hitems : renderer.ItemsToldApart owner left right)
    (hsame : following texts ++ close :: rest = following texts' ++ close :: rest') :
    left = right ∧ rest = rest' := by
  induction hleft generalizing right texts' with
  | nil =>
      cases hright with
      | nil => exact ⟨rfl, (List.cons.inj hsame).2⟩
      | cons => exact absurd (List.cons.inj hsame).1 hcomma
  | @cons item text left texts htext _ ih =>
      cases hright with
      | nil => exact absurd (List.cons.inj hsame).1.symm hcomma
      | @cons item' text' right texts' htext' hright =>
          have hafter : text ++ (following texts ++ close :: rest) =
              text' ++ (following texts' ++ close :: rest') := by
            simpa [following] using hsame
          obtain ⟨rfl, hafter⟩ := hitems 0 item item' rfl rfl htext htext'
            (delimited_following texts hclose) (delimited_following texts' hclose) hafter
          obtain ⟨rfl, hrest⟩ := ih hright (fun place => hitems (place + 1)) hafter
          exact ⟨rfl, hrest⟩

/-- Sequences are told apart item by item, unless one of them is empty. -/
theorem separated_append_inj (hleft : renderer.ArgsWritten owner left texts)
    (hright : renderer.ArgsWritten owner right texts') (hclose : isDelimiter close = true)
    (hcomma : close ≠ ',') (hempty : left = [] ↔ right = [])
    (hitems : renderer.ItemsToldApart owner left right)
    (hsame : separated texts ++ close :: rest = separated texts' ++ close :: rest') :
    left = right ∧ rest = rest' := by
  cases hleft with
  | nil =>
      obtain rfl := hempty.mp rfl
      cases hright
      exact ⟨rfl, (List.cons.inj hsame).2⟩
  | @cons item text left texts htext hleft =>
      cases hright with
      | nil => cases hempty.mpr rfl
      | @cons item' text' right texts' htext' hright =>
          rw [separated_cons, separated_cons, List.append_assoc, List.append_assoc] at hsame
          obtain ⟨rfl, hafter⟩ := hitems 0 item item' rfl rfl htext htext'
            (delimited_following texts hclose) (delimited_following texts' hclose) hsame
          obtain ⟨rfl, hrest⟩ := following_append_inj hleft hright hclose hcomma
            (fun place => hitems (place + 1)) hafter
          exact ⟨rfl, hrest⟩

end Sequences

/-! ## Arguments of one slot -/

/-- The pairs of arguments that may stand in the same slot. -/
inductive Alike {ν : Type} : Arg ν → Arg ν → Prop
  | string (value value' : String) : Alike (.string value) (.string value')
  | bool (value value' : Bool) : Alike (.bool value) (.bool value')
  | literal (literal literal' : Literal) : Alike (.literal literal) (.literal literal')
  | template (cooked cooked' : Option String) (raw raw' : String) :
      Alike (.template cooked raw) (.template cooked' raw')
  | nodes {left right : Arg ν} (hleft : left.isNodeOrNull = true)
      (hright : right.isNodeOrNull = true) : Alike left right
  | lists {items items' : List (Arg ν)} (hitems : ∀ item ∈ items, item.isNodeOrNull = true)
      (hitems' : ∀ item ∈ items', item.isNodeOrNull = true) : Alike (.list items) (.list items')

theorem isNodeOrNull_of_fittingItem {ν : Type} {kind : SlotKind} {item : Arg ν}
    (hitem : FittingItem kind item) : item.isNodeOrNull = true := by
  cases hitem <;> rfl

theorem alike_of_fitting {ν : Type} {kind : SlotKind} {left right : Arg ν}
    (hleft : Fitting kind left) (hright : Fitting kind right) : Alike left right := by
  cases hleft with
  | name text =>
      cases hright with
      | name text' => exact .string text text'
      | child hkind => cases hkind.holdsNodes
      | absent hkind | list hkind => cases hkind
  | keyword hword =>
      cases hright with
      | keyword hword' => exact .string _ _
      | child hkind => cases hkind.holdsNodes
      | absent hkind | list hkind => cases hkind
  | flag value =>
      cases hright with
      | flag value' => exact .bool value value'
      | child hkind => cases hkind.holdsNodes
      | absent hkind | list hkind => cases hkind
  | literal literal =>
      cases hright with
      | literal literal' => exact .literal literal literal'
      | child hkind => cases hkind.holdsNodes
      | absent hkind | list hkind => cases hkind
  | template cooked raw =>
      cases hright with
      | template cooked' raw' => exact .template cooked cooked' raw raw'
      | child hkind => cases hkind.holdsNodes
      | absent hkind | list hkind => cases hkind
  | child hkind node =>
      cases hright with
      | child | absent => exact .nodes rfl rfl
      | list hlist => simp [hkind.isList_eq_false] at hlist
      | name | keyword | flag | literal | template => cases hkind.holdsNodes
  | absent hkind =>
      cases hright with
      | child | absent => exact .nodes rfl rfl
      | list hlist => simp [SlotKind.isList_eq_false_of_isOptional hkind] at hlist
      | name | keyword | flag | literal | template => cases hkind
  | list hkind hitems =>
      cases hright with
      | list hkind' hitems' =>
          exact .lists (fun item hitem => isNodeOrNull_of_fittingItem (hitems item hitem))
            fun item hitem => isNodeOrNull_of_fittingItem (hitems' item hitem)
      | child hchild => simp [hchild.isList_eq_false] at hkind
      | absent hoptional => simp [SlotKind.isList_eq_false_of_isOptional hoptional] at hkind
      | name | keyword | flag | literal | template => cases hkind

end Renderer

/-! ## Lexable calls -/

/-- Each pattern in the call, at any depth, is the body of a regular expression. -/
def Call.Lexable (call : Call) : Prop :=
  ∀ inner, call.Contains inner → ∀ literal, .literal literal ∈ inner.args → literal.Lexable

structure Arg.Lexable (arg : Arg Call) : Prop where
  literal : ∀ literal, arg = .literal literal → literal.Lexable
  children : ∀ child ∈ arg.children, child.Lexable

theorem Call.lexable_iff {call : Call} : call.Lexable ↔ ∀ arg ∈ call.args, arg.Lexable := by
  obtain ⟨nodeType, args⟩ := call
  constructor
  · refine fun hcall arg harg => ⟨fun literal hliteral => ?_, fun child hchild inner hinner => ?_⟩
    · exact hcall _ (.self _) literal (hliteral ▸ harg)
    · exact hcall inner (.child (mem_children_iff.mpr ⟨arg, harg, hchild⟩) hinner)
  · intro hargs inner hinner literal hliteral
    cases hinner with
    | self => exact (hargs _ hliteral).literal literal rfl
    | child hchild hinner =>
        obtain ⟨arg, harg, hchild⟩ := mem_children_iff.mp hchild
        exact (hargs arg harg).children _ hchild inner hinner literal hliteral

theorem Arg.Lexable.item {items : List (Arg Call)} (hlist : (Arg.list items).Lexable)
    {item : Arg Call} (hitem : item ∈ items) (hnode : item.isNodeOrNull = true) :
    item.Lexable := by
  refine ⟨?_, fun child hchild => hlist.children child (mem_children_of_item hitem hnode hchild)⟩
  rintro literal rfl
  cases hnode

namespace Renderer

variable {renderer : Renderer}

/-! ## Telling calls apart -/

/-- A text of the call, with any text after it, is no text of another call. -/
def Determined (renderer : Renderer) (call : Call) : Prop :=
  ∀ ⦃other : Call⦄ ⦃text text' rest rest' : List Char⦄, other.Lexable →
    renderer.callChars call = .ok text → renderer.callChars other = .ok text' →
      text ++ rest = text' ++ rest' → call = other ∧ rest = rest'

section Arguments

variable {owner : NodeType} {left right : Arg Call}

theorem callChars_append {call : Call} {text : List Char}
    (htext : renderer.callChars call = .ok text) (rest : List Char) :
    ∃ rest', text ++ rest = renderer.head call.nodeType ++ '(' :: rest' := by
  obtain ⟨-, texts, -, rfl⟩ := callChars_eq_ok htext
  exact ⟨separated texts ++ [')'] ++ rest, by simp⟩

theorem toldApart_nodes (hleft : left.isNodeOrNull = true) (hright : right.isNodeOrNull = true)
    (hdetermined : ∀ child ∈ left.children, renderer.Determined child)
    (hlexable : right.Lexable) : renderer.ToldApart owner left right := by
  intro text text' rest rest' htext htext' hrest hrest' hsame
  cases left with
  | null =>
      cases htext
      cases right with
      | null =>
          cases htext'
          exact ⟨rfl, List.append_cancel_left hsame⟩
      | node call =>
          obtain ⟨after, hcall⟩ := callChars_append htext' rest'
          exact absurd (hsame.trans hcall) (null_ne_head hrest)
      | _ => cases hright
  | node call =>
      cases right with
      | null =>
          cases htext'
          obtain ⟨after, hcall⟩ := callChars_append htext rest
          exact absurd (hsame.symm.trans hcall) (null_ne_head hrest')
      | node other =>
          have hother := hlexable.children other (.head _)
          obtain ⟨rfl, hrest⟩ := hdetermined call (.head _) hother htext htext' hsame
          exact ⟨rfl, hrest⟩
      | _ => cases hright
  | _ => cases hleft

/-- The text of an item begins like the name of a builder, so it does not end the list. -/
theorem item_ne_close {item : Arg Call} {text rest rest' : List Char}
    (hitem : item.isNodeOrNull = true) (htext : renderer.argChars owner item = .ok text) :
    text ++ rest ≠ ']' :: rest' := by
  intro hsame
  cases item with
  | null =>
      cases htext
      cases (List.cons.inj hsame).1
  | node call =>
      obtain ⟨after, hcall⟩ := callChars_append htext rest
      have hnonempty : renderer.head call.nodeType ≠ [] :=
        List.append_ne_nil_of_right_ne_nil _ (List.cons_ne_nil _ _)
      obtain ⟨first, tail, hhead⟩ := List.exists_cons_of_ne_nil hnonempty
      rw [hcall, hhead] at hsame
      have hmem : first ∈ renderer.head call.nodeType := by simp [hhead]
      have hfirst := isHeadChar_of_mem_head first hmem
      rw [(List.cons.inj hsame).1] at hfirst
      exact absurd hfirst (by decide)
  | _ => cases hitem

theorem eq_nil_of_close {items : List (Arg Call)} {texts : List (List Char)}
    {rest rest' : List Char} (hwritten : renderer.ArgsWritten owner items texts)
    (hitems : ∀ item ∈ items, item.isNodeOrNull = true)
    (hclose : separated texts ++ rest = ']' :: rest') : items = [] := by
  cases hwritten with
  | nil => rfl
  | @cons item text items texts htext _ =>
      rw [separated_cons, List.append_assoc] at hclose
      exact absurd hclose (item_ne_close (hitems item (.head _)) htext)

theorem toldApart_lists {items items' : List (Arg Call)}
    (hitems : ∀ item ∈ items, item.isNodeOrNull = true)
    (hitems' : ∀ item ∈ items', item.isNodeOrNull = true)
    (hlexable : (Arg.list items').Lexable)
    (hdetermined : ∀ child ∈ (Arg.list items).children, renderer.Determined child) :
    renderer.ToldApart owner (.list items) (.list items') := by
  intro text text' rest rest' htext htext' _ _ hsame
  obtain ⟨texts, hwritten, rfl⟩ := argChars_list_eq_ok htext
  obtain ⟨texts', hwritten', rfl⟩ := argChars_list_eq_ok htext'
  simp only [List.cons_append, List.append_assoc, List.cons.injEq, true_and,
    List.nil_append] at hsame
  have hempty : items = [] ↔ items' = [] := by
    constructor
    · rintro rfl
      cases hwritten
      exact eq_nil_of_close hwritten' hitems' hsame.symm
    · rintro rfl
      cases hwritten'
      exact eq_nil_of_close hwritten hitems hsame
  have hapart : renderer.ItemsToldApart owner items items' := by
    intro place item item' hitem hitem'
    have hmem := List.mem_of_getElem? hitem
    have hmem' := List.mem_of_getElem? hitem'
    exact toldApart_nodes (hitems item hmem) (hitems' item' hmem')
      (fun child hchild => hdetermined child
        (Arg.mem_children_of_item hmem (hitems item hmem) hchild))
      (hlexable.item hmem' (hitems' item' hmem'))
  obtain ⟨rfl, hrest⟩ := separated_append_inj hwritten hwritten' (by decide) (by decide) hempty
    hapart hsame
  exact ⟨rfl, hrest⟩

theorem toldApart_of_alike (halike : Alike left right) (hlexable : left.Lexable)
    (hlexable' : right.Lexable)
    (hdetermined : ∀ child ∈ left.children, renderer.Determined child) :
    renderer.ToldApart owner left right := by
  cases halike with
  | nodes hleft hright => exact toldApart_nodes hleft hright hdetermined hlexable'
  | string value value' =>
      rintro _ _ rest rest' ⟨⟩ ⟨⟩ - - hsame
      obtain ⟨rfl, hrest⟩ := Quote.quoted_append_inj hsame
      exact ⟨rfl, hrest⟩
  | bool value value' =>
      rintro _ _ rest rest' ⟨⟩ ⟨⟩ - - hsame
      obtain ⟨rfl, hrest⟩ := Literal.boolText_append_inj hsame
      exact ⟨rfl, hrest⟩
  | literal literal literal' =>
      intro text text' rest rest' htext htext' hrest hrest' hsame
      obtain ⟨rfl, hrest⟩ := (Literal.written_of_render htext).append_inj
        (Literal.written_of_render htext') (hlexable.literal _ rfl) (hlexable'.literal _ rfl)
        hrest hrest' hsame
      exact ⟨rfl, hrest⟩
  | template cooked cooked' raw raw' =>
      rintro _ _ rest rest' ⟨⟩ ⟨⟩ - - hsame
      obtain ⟨rfl, rfl, hrest⟩ := renderTemplate_append_inj hsame
      exact ⟨rfl, hrest⟩
  | lists hitems hitems' => exact toldApart_lists hitems hitems' hlexable' hdetermined

end Arguments

theorem determined_of_lexable {call : Call} (hlexable : call.Lexable) :
    renderer.Determined call := by
  induction call using Call.childInduction with
  | step call ih =>
      intro other text text' rest rest' hlexable' htext htext' hsame
      obtain ⟨hfitting, texts, hwritten, rfl⟩ := callChars_eq_ok htext
      obtain ⟨hfitting', texts', hwritten', rfl⟩ := callChars_eq_ok htext'
      obtain ⟨nodeType, args⟩ := call
      obtain ⟨nodeType', args'⟩ := other
      simp only [List.cons_append, List.append_assoc, List.nil_append] at hsame
      obtain ⟨hsameType, hargs⟩ := head_append_inj hsame
      obtain rfl : nodeType = nodeType' := hsameType
      have hlength : args.length = args'.length := hfitting.length_eq.symm.trans hfitting'.length_eq
      have harglexable := Call.lexable_iff.mp hlexable
      have hempty : args = [] ↔ args' = [] := by
        rw [← List.length_eq_zero_iff, hlength, List.length_eq_zero_iff]
      have hapart : renderer.ItemsToldApart nodeType args args' := by
        intro place arg arg' harg harg'
        obtain ⟨slot, hslot, hfits⟩ := exists_getElem?_of_forall₂ hfitting harg
        obtain ⟨slot', hslot', hfits'⟩ := exists_getElem?_of_forall₂ hfitting' harg'
        cases hslot.symm.trans hslot'
        have hmem := List.mem_of_getElem? harg
        refine toldApart_of_alike (alike_of_fitting hfits hfits') (harglexable arg hmem)
          (Call.lexable_iff.mp hlexable' arg' (List.mem_of_getElem? harg')) fun child hchild => ?_
        exact ih child (Call.mem_children_iff.mpr ⟨arg, hmem, hchild⟩)
          ((harglexable arg hmem).children child hchild)
      obtain ⟨rfl, hrest⟩ := separated_append_inj hwritten hwritten' (by decide) (by decide)
        hempty hapart hargs
      exact ⟨rfl, hrest⟩

/--
Rendering is uniquely readable: under the same options, texts of calls that begin alike are
texts of one call, and what follows them is the same.
-/
theorem rendered_calls_are_uniquely_readable (renderer : Renderer) {left right : Call}
    {text text' rest rest' : String} (hleft : left.Lexable) (hright : right.Lexable)
    (htext : renderer.render left = .ok text) (htext' : renderer.render right = .ok text')
    (hsame : text ++ rest = text' ++ rest') : left = right ∧ rest = rest' := by
  simp only [render, map_eq_ok_iff] at htext htext'
  obtain ⟨chars, hchars, rfl⟩ := htext
  obtain ⟨chars', hchars', rfl⟩ := htext'
  have hlists := congrArg String.toList hsame
  rw [String.toList_append, String.toList_append, String.toList_ofList, String.toList_ofList]
    at hlists
  obtain ⟨hcalls, hrest⟩ := determined_of_lexable hleft hright hchars hchars' hlists
  exact ⟨hcalls, String.toList_inj.mp hrest⟩

def nullRenderer : Renderer :=
  ⟨"null", .double, by decide⟩

def literalCall (literal : Literal) : Call :=
  .mk .literal [.literal literal]

theorem lexable_literalCall {literal : Literal} (hliteral : literal.Lexable) :
    (literalCall literal).Lexable := by
  refine Call.lexable_iff.mpr fun arg harg => ?_
  obtain rfl := List.mem_singleton.mp harg
  refine ⟨?_, nofun⟩
  rintro _ ⟨⟩
  exact hliteral

/-- `[, /[/]/g, null]`. -/
def nullItems : Call :=
  .mk .arrayExpression [.list [.null, .node (literalCall (.regexp "[/]" "g")),
    .node (literalCall .null)]]

theorem rendered_calls_are_uniquely_readable_null_items :
    nullItems.Lexable ∧
      nullRenderer.render nullItems =
        .ok "null.arrayExpression([null, null.literal(/[/]/g), null.literal(null)])" ∧
          nullItems = nullItems ∧ "; null" = "; null" := by
  have hpattern : (Literal.regexp "[/]" "g").Lexable := ⟨by decide, by decide, by decide⟩
  have hlexable : nullItems.Lexable := by
    refine Call.lexable_iff.mpr fun arg harg => ?_
    obtain rfl := List.mem_singleton.mp harg
    refine ⟨nofun, fun child hchild => ?_⟩
    simp only [Arg.children, Arg.node?, List.filterMap, List.mem_cons, List.not_mem_nil,
      or_false] at hchild
    rcases hchild with rfl | rfl
    · exact lexable_literalCall hpattern
    · exact lexable_literalCall trivial
  have htext : nullRenderer.render nullItems =
      .ok "null.arrayExpression([null, null.literal(/[/]/g), null.literal(null)])" := by
    rfl
  exact ⟨hlexable, htext,
    rendered_calls_are_uniquely_readable nullRenderer hlexable hlexable htext htext rfl⟩

end Renderer

end BuilderCalls
