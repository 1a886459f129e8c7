import BuilderCalls.Builder
import BuilderCalls.Proofs.Fitting

/-!
# Calls made by hand

`Builder.Made` lists the builders with what each is given, by the fields it stands
for.  It is taken apart once: the calls are those with a value of the right shape in
each slot and nothing in a slot that has become obsolete (`Made.values`, `made_of_values`).
Everything else about builders goes by the slots.
-/

namespace BuilderCalls.Builder

/-- A call of a builder, with the values passed to it under the fields that should carry them. -/
inductive Made : Call → List (String × Arg Call) → Prop
  | identifier (name : String) : Made (identifier name) [("name", .string name)]
  | literal (value : Literal) : Made (literal value) [("value", .literal value)]
  | stringLiteral (value : String) :
      Made (stringLiteral value) [("value", .literal (.string value))]
  | numberLiteral (value : Double) :
      Made (numberLiteral value) [("value", .literal (.number value))]
  | thisExpression : Made thisExpression []
  | super : Made super []
  | arrayExpression (elements : List (Option Call)) :
      Made (arrayExpression elements) [("elements", .sparse elements)]
  | objectExpression (properties : List Call) :
      Made (objectExpression properties) [("properties", .nodes properties)]
  | property (kind : String) (key value : Call) (method shorthand computed : Bool) :
      Made (property kind key value method shorthand computed)
        [("kind", .string kind), ("key", .node key), ("value", .node value),
         ("method", .bool method), ("shorthand", .bool shorthand), ("computed", .bool computed)]
  | spreadElement (argument : Call) :
      Made (spreadElement argument) [("argument", .node argument)]
  | functionExpression (id : Option Call) (params : List Call) (body : Call)
      (generator expression isAsync : Bool) :
      Made (functionExpression id params body generator expression isAsync)
        [("id", .optional id), ("params", .nodes params), ("body", .node body),
         ("generator", .bool generator), ("expression", .bool expression),
         ("async", .bool isAsync)]
  | arrowFunctionExpression (params : List Call) (body : Call) (expression isAsync : Bool) :
      Made (arrowFunctionExpression params body expression isAsync)
        [("params", .nodes params), ("body", .node body), ("expression", .bool expression),
         ("async", .bool isAsync)]
  | classExpression (id : Option Call) (body : Call) (superClass : Option Call) :
      Made (classExpression id body superClass)
        [("id", .optional id), ("body", .node body), ("superClass", .optional superClass)]
  | callExpression (callee : Call) (arguments : List Call) (optional : Bool) :
      Made (callExpression callee arguments optional)
        [("callee", .node callee), ("arguments", .nodes arguments), ("optional", .bool optional)]
  | newExpression (callee : Call) (arguments : List Call) :
      Made (newExpression callee arguments)
        [("callee", .node callee), ("arguments", .nodes arguments)]
  | memberExpression (object property : Call) (computed optional : Bool) :
      Made (memberExpression object property computed optional)
        [("object", .node object), ("property", .node property), ("computed", .bool computed),
         ("optional", .bool optional)]
  | chainExpression (expression : Call) :
      Made (chainExpression expression) [("expression", .node expression)]
  | assignmentExpression (operator : String) (left right : Call) :
      Made (assignmentExpression operator left right)
        [("operator", .string operator), ("left", .node left), ("right", .node right)]
  | logicalExpression (operator : String) (left right : Call) :
      Made (logicalExpression operator left right)
        [("operator", .string operator), ("left", .node left), ("right", .node right)]
  | binaryExpression (operator : String) (left right : Call) :
      Made (binaryExpression operator left right)
        [("operator", .string operator), ("left", .node left), ("right", .node right)]
  | conditionalExpression (test consequent alternate : Call) :
      Made (conditionalExpression test consequent alternate)
        [("test", .node test), ("consequent", .node consequent), ("alternate", .node alternate)]
  | unaryExpression (operator : String) (argument : Call) (isPrefix : Bool) :
      Made (unaryExpression operator argument isPrefix)
        [("operator", .string operator), ("argument", .node argument), ("prefix", .bool isPrefix)]
  | updateExpression (operator : String) (argument : Call) (isPrefix : Bool) :
      Made (updateExpression operator argument isPrefix)
        [("operator", .string operator), ("argument", .node argument), ("prefix", .bool isPrefix)]
  | sequenceExpression (expressions : List Call) :
      Made (sequenceExpression expressions) [("expressions", .nodes expressions)]
  | yieldExpression (argument : Option Call) (delegate : Bool) :
      Made (yieldExpression argument delegate)
        [("argument", .optional argument), ("delegate", .bool delegate)]
  | awaitExpression (argument : Call) :
      Made (awaitExpression argument) [("argument", .node argument)]
  | templateLiteral (quasis expressions : List Call) :
      Made (templateLiteral quasis expressions)
        [("quasis", .nodes quasis), ("expressions", .nodes expressions)]
  | templateElement (cooked : Option String) (raw : String) (tail : Bool) :
      Made (templateElement cooked raw tail)
        [("value", .template cooked raw), ("tail", .bool tail)]
  | taggedTemplateExpression (tag quasi : Call) :
      Made (taggedTemplateExpression tag quasi) [("tag", .node tag), ("quasi", .node quasi)]
  | metaProperty (metaName property : Call) :
      Made (metaProperty metaName property) [("meta", .node metaName), ("property", .node property)]
  | importExpression (source : Call) :
      Made (importExpression source) [("source", .node source)]
  | restElement (argument : Call) : Made (restElement argument) [("argument", .node argument)]
  | arrayPattern (elements : List (Option Call)) :
      Made (arrayPattern elements) [("elements", .sparse elements)]
  | objectPattern (properties : List Call) :
      Made (objectPattern properties) [("properties", .nodes properties)]
  | assignmentPattern (left right : Call) :
      Made (assignmentPattern left right) [("left", .node left), ("right", .node right)]
  | functionDeclaration (id : Option Call) (params : List Call) (body : Call)
      (generator expression isAsync : Bool) :
      Made (functionDeclaration id params body generator expression isAsync)
        [("id", .optional id), ("params", .nodes params), ("body", .node body),
         ("generator", .bool generator), ("expression", .bool expression),
         ("async", .bool isAsync)]
  | classDeclaration (id : Option Call) (body : Call) (superClass : Option Call) :
      Made (classDeclaration id body superClass)
        [("id", .optional id), ("body", .node body), ("superClass", .optional superClass)]
  | classBody (body : List Call) : Made (classBody body) [("body", .nodes body)]
  | methodDefinition (kind : String) (key value : Call) (isStatic computed : Bool) :
      Made (methodDefinition kind key value isStatic computed)
        [("kind", .string kind), ("key", .node key), ("value", .node value),
         ("static", .bool isStatic), ("computed", .bool computed)]
  | propertyDefinition (key : Call) (value : Option Call) (computed isStatic : Bool) :
      Made (propertyDefinition key value computed isStatic)
        [("key", .node key), ("value", .optional value), ("computed", .bool computed),
         ("static", .bool isStatic)]
  | staticBlock (body : List Call) : Made (staticBlock body) [("body", .nodes body)]
  | variableDeclaration (kind : String) (declarations : List Call) :
      Made (variableDeclaration kind declarations)
        [("kind", .string kind), ("declarations", .nodes declarations)]
  | variableDeclarator (id : Call) (init : Option Call) :
      Made (variableDeclarator id init) [("id", .node id), ("init", .optional init)]
  | importDeclaration (specifiers : List Call) (source : Call) :
      Made (importDeclaration specifiers source)
        [("specifiers", .nodes specifiers), ("source", .node source)]
  | importSpecifier (imported localName : Call) :
      Made (importSpecifier imported localName)
        [("imported", .node imported), ("local", .node localName)]
  | importDefaultSpecifier (localName : Call) :
      Made (importDefaultSpecifier localName) [("local", .node localName)]
  | importNamespaceSpecifier (localName : Call) :
      Made (importNamespaceSpecifier localName) [("local", .node localName)]
  | exportDefaultDeclaration (declaration : Call) :
      Made (exportDefaultDeclaration declaration) [("declaration", .node declaration)]
  | exportNamedDeclaration (declaration : Option Call) (specifiers : List Call)
      (source : Option Call) :
      Made (exportNamedDeclaration declaration specifiers source)
        [("declaration", .optional declaration), ("specifiers", .nodes specifiers),
         ("source", .optional source)]
  | exportSpecifier (localName exported : Call) :
      Made (exportSpecifier localName exported)
        [("local", .node localName), ("exported", .node exported)]
  | exportAllDeclaration (source : Call) (exported : Option Call) :
      Made (exportAllDeclaration source exported)
        [("source", .node source), ("exported", .optional exported)]
  | expressionStatement (expression : Call) :
      Made (expressionStatement expression) [("expression", .node expression)]
  | blockStatement (body : List Call) : Made (blockStatement body) [("body", .nodes body)]
  | emptyStatement : Made emptyStatement []
  | debuggerStatement : Made debuggerStatement []
  | returnStatement (argument : Option Call) :
      Made (returnStatement argument) [("argument", .optional argument)]
  | throwStatement (argument : Call) :
      Made (throwStatement argument) [("argument", .node argument)]
  | breakStatement (label : Option Call) : Made (breakStatement label) [("label", .optional label)]
  | continueStatement (label : Option Call) :
      Made (continueStatement label) [("label", .optional label)]
  | labeledStatement (label body : Call) :
      Made (labeledStatement label body) [("label", .node label), ("body", .node body)]
  | withStatement (object body : Call) :
      Made (withStatement object body) [("object", .node object), ("body", .node body)]
  | ifStatement (test consequent : Call) (alternate : Option Call) :
      Made (ifStatement test consequent alternate)
        [("test", .node test), ("consequent", .node consequent),
         ("alternate", .optional alternate)]
  | switchStatement (discriminant : Call) (cases : List Call) :
      Made (switchStatement discriminant cases)
        [("discriminant", .node discriminant), ("cases", .nodes cases)]
  | switchCase (test : Option Call) (consequent : List Call) :
      Made (switchCase test consequent)
        [("test", .optional test), ("consequent", .nodes consequent)]
  | forStatement (init test update : Option Call) (body : Call) :
      Made (forStatement init test update body)
        [("init", .optional init), ("test", .optional test), ("update", .optional update),
         ("body", .node body)]
  | forInStatement (left right body : Call) :
      Made (forInStatement left right body)
        [("left", .node left), ("right", .node right), ("body", .node body)]
  | forOfStatement (left right body : Call) (isAwait : Bool) :
      Made (forOfStatement left right body isAwait)
        [("left", .node left), ("right", .node right), ("body", .node body),
         ("await", .bool isAwait)]
  | whileStatement (test body : Call) :
      Made (whileStatement test body) [("test", .node test), ("body", .node body)]
  | doWhileStatement (body test : Call) :
      Made (doWhileStatement body test) [("body", .node body), ("test", .node test)]
  | tryStatement (block : Call) (handler finalizer : Option Call) :
      Made (tryStatement block handler finalizer)
        [("block", .node block), ("handler", .optional handler),
         ("finalizer", .optional finalizer)]
  | catchClause (param : Option Call) (body : Call) :
      Made (catchClause param body) [("param", .optional param), ("body", .node body)]

/-- The words among the values are words of the slots that they are passed for. -/
def WordsKnown (nodeType : NodeType) (given : List (String × Arg Call)) : Prop :=
  ∀ field words word, Slot.keyword field words ∈ nodeType.slots →
    (field, .string word) ∈ given → word ∈ words

/-- The least set of calls closed under the builders. -/
inductive Generated : Call → Prop
  | made {call : Call} {given : List (String × Arg Call)} (hmade : Made call given)
      (hwords : WordsKnown call.nodeType given)
      (hnodes : ∀ passed ∈ given, ∀ child ∈ passed.2.children, Generated child) : Generated call

/-- A call that fits its signature and has no guard if it is a catch clause. -/
def WellFormed (call : Call) : Prop :=
  call.check = .ok () ∧ (call.nodeType = .catchClause → call.arg? "guard" = some .null)

/-! ## Values by slots -/

/-- What a builder can pass for a slot of the kind; words are not looked up. -/
inductive Value : SlotKind → Arg Call → Prop
  | name (text : String) : Value .name (.string text)
  | keyword (words : List String) (word : String) : Value (.keyword words) (.string word)
  | flag (value : Bool) : Value .flag (.bool value)
  | child (child : Call) : Value .child (.node child)
  | optional (child : Option Call) : Value .optionalChild (.optional child)
  | nodes (children : List Call) : Value .childList (.nodes children)
  | sparse (children : List (Option Call)) : Value .sparseList (.sparse children)
  | literal (literal : Literal) : Value .literalValue (.literal literal)
  | template (cooked : Option String) (raw : String) :
      Value .templateValue (.template cooked raw)

/-- Arguments for slots, and which of them were passed. -/
inductive Values : List Slot → List (Arg Call) → List (String × Arg Call) → Prop
  | nil : Values [] [] []
  | obsolete {field : String} {slots : List Slot} {args : List (Arg Call)}
      {given : List (String × Arg Call)} (hrest : Values slots args given) :
      Values (.legacyChild field :: slots) (.null :: args) given
  | passed {slot : Slot} {slots : List Slot} {arg : Arg Call} {args : List (Arg Call)}
      {given : List (String × Arg Call)} (hvalue : Value slot.kind arg)
      (hrest : Values slots args given) :
      Values (slot :: slots) (arg :: args) ((slot.field, arg) :: given)

theorem Made.values {call : Call} {given : List (String × Arg Call)} (hmade : Made call given) :
    Values call.nodeType.slots call.args given := by
  cases hmade <;> repeat constructor

/-- For each node type, the values of its slots are the parameters of its builder. -/
theorem made_of_values {nodeType : NodeType} {args : List (Arg Call)}
    {given : List (String × Arg Call)} (hvalues : Values nodeType.slots args given) :
    Made (.mk nodeType args) given := by
  -- The slots of the node type fix the shapes of the values one after the other.
  cases nodeType <;>
    (repeat' (first | cases ‹Values _ _ _› | cases ‹Value _ _›)) <;> constructor

/-! ## Values and arguments that fit -/

namespace Value

theorem kind_ne_legacyChild {kind : SlotKind} {arg : Arg Call} (hvalue : Value kind arg) :
    kind ≠ .legacyChild := by
  cases hvalue <;> nofun

theorem fitting {kind : SlotKind} {arg : Arg Call} (hvalue : Value kind arg)
    (hword : ∀ words word, kind = .keyword words → arg = .string word → word ∈ words) :
    Fitting kind arg := by
  cases hvalue with
  | name text => exact .name text
  | keyword words word => exact .keyword (hword words word rfl rfl)
  | flag value => exact .flag value
  | child child => exact .child (.inl rfl) child
  | optional child =>
      cases child with
      | none => exact .absent rfl
      | some child => exact .child (.inr rfl) child
  | nodes children =>
      apply Fitting.list rfl
      simp only [List.forall_mem_map]
      exact fun child _ => .node child
  | sparse children =>
      apply Fitting.list rfl
      simp only [List.forall_mem_map]
      intro child _
      cases child with
      | none => exact .hole rfl
      | some child => exact .node child
  | literal literal => exact .literal literal
  | template cooked raw => exact .template cooked raw

end Value

theorem exists_nodes {items : List (Arg Call)}
    (hitems : ∀ item ∈ items, FittingItem .childList item) :
    ∃ children : List Call, Arg.list items = .nodes children := by
  induction items with
  | nil => exact ⟨[], rfl⟩
  | cons item items ih =>
      obtain ⟨hitem, hitems⟩ := List.forall_mem_cons.mp hitems
      obtain ⟨children, hchildren⟩ := ih hitems
      cases hitem with
      | hole hkind => cases hkind
      | node child =>
          refine ⟨child :: children, ?_⟩
          simpa [Arg.nodes] using hchildren

theorem exists_sparse {items : List (Arg Call)}
    (hitems : ∀ item ∈ items, FittingItem .sparseList item) :
    ∃ children : List (Option Call), Arg.list items = .sparse children := by
  induction items with
  | nil => exact ⟨[], rfl⟩
  | cons item items ih =>
      obtain ⟨hitem, hitems⟩ := List.forall_mem_cons.mp hitems
      obtain ⟨children, hchildren⟩ := ih hitems
      cases hitem with
      | hole =>
          refine ⟨none :: children, ?_⟩
          simpa [Arg.sparse, Arg.optional] using hchildren
      | node child =>
          refine ⟨some child :: children, ?_⟩
          simpa [Arg.sparse, Arg.optional] using hchildren

theorem value_of_fitting {kind : SlotKind} {arg : Arg Call} (hfitting : Fitting kind arg)
    (hkind : kind ≠ .legacyChild) : Value kind arg := by
  cases hfitting with
  | name text => exact .name text
  | keyword => exact .keyword _ _
  | flag value => exact .flag value
  | child hholds child =>
      cases kind with
      | child => exact .child child
      | optionalChild => exact .optional (some child)
      | legacyChild => exact absurd rfl hkind
      | _ => simp [SlotKind.HoldsNode, SlotKind.isOptional] at hholds
  | absent hoptional =>
      cases kind with
      | optionalChild => exact .optional none
      | legacyChild => exact absurd rfl hkind
      | _ => cases hoptional
  | list hlist hitems =>
      cases kind with
      | childList =>
          obtain ⟨children, hchildren⟩ := exists_nodes hitems
          exact hchildren ▸ .nodes children
      | sparseList =>
          obtain ⟨children, hchildren⟩ := exists_sparse hitems
          exact hchildren ▸ .sparse children
      | _ => cases hlist
  | literal literal => exact .literal literal
  | template cooked raw => exact .template cooked raw

section Values

variable {slots : List Slot} {args : List (Arg Call)} {given : List (String × Arg Call)}

theorem Values.fields (hvalues : Values slots args given) :
    given.map Prod.fst =
      (slots.filter fun slot => slot.kind ≠ .legacyChild).map Slot.field := by
  induction hvalues with
  | nil => rfl
  | obsolete hrest ih => simpa [Slot.legacyChild] using ih
  | passed hvalue hrest ih => simpa [hvalue.kind_ne_legacyChild] using ih

theorem Values.length_eq (hvalues : Values slots args given) : slots.length = args.length := by
  induction hvalues with
  | nil => rfl
  | obsolete hrest ih | passed hvalue hrest ih => simpa using ih

/-- Each value stands in the slot of its field. -/
theorem Values.exists_slot (hvalues : Values slots args given) {field : String} {arg : Arg Call}
    (hpassed : (field, arg) ∈ given) :
    ∃ slot, (slot, arg) ∈ slots.zip args ∧ slot.field = field := by
  induction hvalues with
  | nil => cases hpassed
  | obsolete hrest ih =>
      obtain ⟨slot, hzip, hfield⟩ := ih hpassed
      exact ⟨slot, .tail _ hzip, hfield⟩
  | passed hvalue hrest ih =>
      cases hpassed with
      | head => exact ⟨_, .head _, rfl⟩
      | tail _ hpassed =>
          obtain ⟨slot, hzip, hfield⟩ := ih hpassed
          exact ⟨slot, .tail _ hzip, hfield⟩

/-- Each argument was passed under the field of its slot, unless the slot is obsolete. -/
theorem Values.null_or_passed (hvalues : Values slots args given) {slot : Slot} {arg : Arg Call}
    (hzip : (slot, arg) ∈ slots.zip args) :
    slot.kind = .legacyChild ∧ arg = .null ∨
      Value slot.kind arg ∧ (slot.field, arg) ∈ given := by
  induction hvalues with
  | nil => cases hzip
  | obsolete hrest ih =>
      cases hzip with
      | head => exact .inl ⟨rfl, rfl⟩
      | tail _ hzip => exact ih hzip
  | passed hvalue hrest ih =>
      cases hzip with
      | head => exact .inr ⟨hvalue, .head _⟩
      | tail _ hzip =>
          apply (ih hzip).imp_right
          exact fun ⟨hvalue, hpassed⟩ => ⟨hvalue, .tail _ hpassed⟩

theorem Values.null_or_mem (hvalues : Values slots args given) {arg : Arg Call}
    (harg : arg ∈ args) : arg = .null ∨ ∃ field, (field, arg) ∈ given := by
  induction hvalues with
  | nil => cases harg
  | obsolete hrest ih =>
      cases harg with
      | head => exact .inl rfl
      | tail _ harg => exact ih harg
  | passed hvalue hrest ih =>
      cases harg with
      | head => exact .inr ⟨_, .head _⟩
      | tail _ harg =>
          apply (ih harg).imp_right
          exact fun ⟨field, hpassed⟩ => ⟨field, .tail _ hpassed⟩

theorem exists_values (hfitting : List.Forall₂ (fun slot arg => Fitting slot.kind arg) slots args)
    (hobsolete : ∀ slot arg, (slot, arg) ∈ slots.zip args → slot.kind = .legacyChild →
      arg = .null) : ∃ given, Values slots args given := by
  induction hfitting with
  | nil => exact ⟨[], .nil⟩
  | @cons slot arg slots args hfitting _ ih =>
      obtain ⟨given, hrest⟩ := ih fun slot arg hzip => hobsolete slot arg (.tail _ hzip)
      by_cases hkind : slot.kind = .legacyChild
      · obtain rfl : arg = .null := hobsolete slot arg (.head _) hkind
        obtain ⟨field, kind⟩ := slot
        cases hkind
        exact ⟨given, .obsolete hrest⟩
      · exact ⟨_, .passed (value_of_fitting hfitting hkind) hrest⟩

end Values

/-! ## Fields -/

/-- The argument in the slot of a field is the one that the field names. -/
theorem arg?_of_mem_zip {call : Call} {slot : Slot} {arg : Arg Call}
    (hzip : (slot, arg) ∈ call.nodeType.slots.zip call.args) :
    call.arg? slot.field = some arg := by
  obtain ⟨place, hplace, hpair⟩ := List.mem_iff_getElem.mp hzip
  rw [List.length_zip, Nat.lt_min] at hplace
  obtain ⟨hslot, harg⟩ := Prod.mk.inj ((List.getElem_zip ..).symm.trans hpair)
  have hfind : (call.nodeType.slots.findIdx? fun other => other.field == slot.field) =
      some place := by
    rw [List.findIdx?_eq_some_iff_getElem]
    refine ⟨hplace.1, by simp [hslot], ?_⟩
    intro earlier hearlier hsame
    have hearlier' := Nat.lt_trans hearlier hplace.1
    have hfields : call.nodeType.fields[earlier]? = call.nodeType.fields[place]? := by
      simpa [NodeType.fields, hslot, hplace.1, hearlier'] using hsame
    have hindex := (List.getElem?_inj (by simpa [NodeType.fields] using hearlier')
      call.nodeType.fields_nodup).mp hfields
    omega
  simp [Call.arg?, hfind, hplace.2, harg]

variable {call : Call} {given : List (String × Arg Call)}

theorem Made.arg? (hmade : Made call given) {field : String} {arg : Arg Call}
    (hpassed : (field, arg) ∈ given) : call.arg? field = some arg := by
  obtain ⟨slot, hzip, rfl⟩ := hmade.values.exists_slot hpassed
  exact arg?_of_mem_zip hzip

theorem Made.guard (hmade : Made call given) (hclause : call.nodeType = .catchClause) :
    call.arg? "guard" = some .null := by
  cases hmade <;> cases hclause
  rfl

theorem Made.check (hmade : Made call given) (hwords : WordsKnown call.nodeType given) :
    call.check = .ok () := by
  have hvalues := hmade.values
  refine NodeType.check_eq_ok_iff.mpr (List.forall₂_iff_zip.mpr ⟨hvalues.length_eq, ?_⟩)
  intro slot arg hzip
  rcases hvalues.null_or_passed hzip with ⟨hkind, rfl⟩ | ⟨hvalue, hpassed⟩
  · exact .absent (by rw [hkind]; rfl)
  · apply hvalue.fitting
    rintro words word hkind rfl
    apply hwords slot.field words word ?_ hpassed
    have hslot := (List.of_mem_zip hzip).1
    rwa [show slot = .keyword slot.field words by rw [Slot.keyword, ← hkind]] at hslot

/-- The nested calls of a made call are among the values it was given. -/
theorem Made.exists_passed (hmade : Made call given) {child : Call}
    (hchild : child ∈ call.children) : ∃ passed ∈ given, child ∈ passed.2.children := by
  obtain ⟨nodeType, args⟩ := call
  obtain ⟨arg, harg, hchild⟩ := Call.mem_children_iff.mp hchild
  rcases hmade.values.null_or_mem harg with rfl | ⟨field, hpassed⟩
  · cases hchild
  · exact ⟨_, hpassed, hchild⟩

/-! ## Well-formed calls -/

theorem exists_made (hwell : WellFormed call) :
    ∃ given, Made call given ∧ WordsKnown call.nodeType given ∧
      ∀ passed ∈ given, ∀ child ∈ passed.2.children, child ∈ call.children := by
  obtain ⟨nodeType, args⟩ := call
  obtain ⟨hcheck, hguard⟩ := hwell
  have hfitting := NodeType.check_eq_ok_iff.mp hcheck
  have hobsolete : ∀ slot arg, (slot, arg) ∈ nodeType.slots.zip args →
      slot.kind = .legacyChild → arg = .null := by
    intro slot arg hzip hkind
    have hslot := (List.of_mem_zip hzip).1
    obtain ⟨hclause, hfield⟩ := NodeType.eq_catchClause_of_legacyChild hslot hkind
    have harg : (Call.mk nodeType args).arg? slot.field = some arg := arg?_of_mem_zip hzip
    rw [hfield, hguard hclause] at harg
    exact (Option.some.inj harg).symm
  obtain ⟨given, hvalues⟩ := exists_values hfitting hobsolete
  refine ⟨given, made_of_values hvalues, ?_, ?_⟩
  · intro field words word hslot hpassed
    obtain ⟨slot, hzip, hfield⟩ := hvalues.exists_slot hpassed
    obtain rfl : slot = .keyword field words :=
      NodeType.slot_eq_of_field (List.of_mem_zip hzip).1 hslot hfield
    cases (List.forall₂_iff_zip.mp hfitting).2 hzip with
    | keyword hword => exact hword
  · intro passed hpassed child hchild
    obtain ⟨slot, hzip, -⟩ := hvalues.exists_slot hpassed
    exact Call.mem_children_iff.mpr ⟨passed.2, (List.of_mem_zip hzip).2, hchild⟩

theorem Generated.wellFormed {call inner : Call} (hgenerated : Generated call)
    (hinner : call.Contains inner) : WellFormed inner := by
  induction hgenerated with
  | made hmade hwords hnodes ih =>
      cases hinner with
      | self => exact ⟨hmade.check hwords, hmade.guard⟩
      | child hchild hinner =>
          obtain ⟨passed, hpassed, hchild⟩ := hmade.exists_passed hchild
          exact ih passed hpassed _ hchild hinner

theorem generated_of_wellFormed {call : Call}
    (hwell : ∀ inner, call.Contains inner → WellFormed inner) : Generated call := by
  induction call using Call.childInduction with
  | step call ih =>
      obtain ⟨given, hmade, hwords, hchildren⟩ := exists_made (hwell call (.self call))
      refine .made hmade hwords fun passed hpassed child hchild => ?_
      have hchild := hchildren passed hpassed child hchild
      exact ih child hchild fun inner hinner => hwell inner (.child hchild hinner)

/--
What the builders generate is exactly what is well-formed at every depth; and what a builder
is given, which is a value for each field but an obsolete one, comes back from the call.
-/
theorem builders_generate_exactly_the_well_formed_calls :
    (∀ call, Generated call ↔ ∀ inner, call.Contains inner → WellFormed inner) ∧
      ∀ call given, Made call given →
        given.map Prod.fst =
            (call.nodeType.slots.filter fun slot => slot.kind ≠ .legacyChild).map Slot.field ∧
          ∀ field arg, (field, arg) ∈ given → call.arg? field = some arg := by
  constructor
  · intro call
    exact ⟨fun hgenerated _ => hgenerated.wellFormed, generated_of_wellFormed⟩
  · intro call given hmade
    exact ⟨hmade.values.fields, fun _ _ => hmade.arg?⟩

/-- A piece of a tagged template whose escape sequence is not valid. -/
def uncookedPiece : Call :=
  templateElement none "\\u" true

theorem builders_generate_exactly_the_well_formed_calls_uncooked :
    Made uncookedPiece [("value", .template none "\\u"), ("tail", .bool true)] ∧
      Generated uncookedPiece ∧ uncookedPiece.arg? "value" = some (.template none "\\u") ∧
        uncookedPiece.arg? "tail" = some (.bool true) := by
  have hmade : Made uncookedPiece _ := .templateElement none "\\u" true
  obtain ⟨hgenerated, hgiven⟩ := builders_generate_exactly_the_well_formed_calls
  obtain ⟨-, hargs⟩ := hgiven uncookedPiece _ hmade
  refine ⟨hmade, (hgenerated uncookedPiece).mpr ?_, hargs _ _ (.head _),
    hargs _ _ (.tail _ (.head _))⟩
  intro inner hinner
  cases hinner with
  | self => exact ⟨rfl, nofun⟩
  | child hchild => cases hchild

end BuilderCalls.Builder
