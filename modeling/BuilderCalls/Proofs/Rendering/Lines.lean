import BuilderCalls.Proofs.Rendering.Reading

/-!
# One line for each call

Nothing that a call is written as contains the end of a line: strings are escaped, patterns
with line ends are refused, and everything else is written with characters of closed sets.
So the printed lines are found again by splitting the output.
-/

namespace BuilderCalls

/-! ## Texts without line ends -/

def LineFree (text : List Char) : Prop :=
  ∀ char ∈ text, isLineEnd char = false

theorem lineFree_append_iff {left right : List Char} :
    LineFree (left ++ right) ↔ LineFree left ∧ LineFree right :=
  List.forall_mem_append

theorem lineFree_cons_iff {char : Char} {text : List Char} :
    LineFree (char :: text) ↔ isLineEnd char = false ∧ LineFree text :=
  List.forall_mem_cons

theorem isLineEnd_iff {char : Char} :
    isLineEnd char = true ↔ char ∈ ['\n', '\r', lineSeparator, paragraphSeparator] := by
  simp [isLineEnd, or_assoc]

theorem LineFree.newline_not_mem {text : List Char} (htext : LineFree text) : '\n' ∉ text := by
  intro hmem
  cases htext '\n' hmem

/-- Line ends need only be looked for among the characters that a text is made of. -/
theorem lineFree_of_class (class? : Char → Bool) {text : List Char}
    (hclass : (['\n', '\r', lineSeparator, paragraphSeparator].any class?) = false)
    (htext : ∀ char ∈ text, class? char = true) : LineFree text := by
  intro char hchar
  by_contra hend
  rw [Bool.not_eq_false, isLineEnd_iff] at hend
  have hany := List.any_eq_true.mpr ⟨char, hend, htext char hchar⟩
  cases hclass.symm.trans hany

theorem lineFree_of_all {text : List Char}
    (htext : text.all (fun char => !isLineEnd char) = true) : LineFree text := by
  simpa [LineFree] using htext

theorem lineFree_separated {texts : List (List Char)} (htexts : ∀ text ∈ texts, LineFree text) :
    LineFree (separated texts) := by
  have hseparator : LineFree ", ".toList := lineFree_of_all (by decide)
  intro char hchar
  cases texts with
  | nil => cases hchar
  | cons text texts =>
      obtain ⟨htext, htexts⟩ := List.forall_mem_cons.mp htexts
      rw [Renderer.separated_cons, List.mem_append] at hchar
      rcases hchar with hchar | hchar
      · exact htext char hchar
      · obtain ⟨following, hfollowing, hchar⟩ := List.mem_flatMap.mp hchar
        rcases List.mem_append.mp hchar with hcomma | hchar
        · exact hseparator char hcomma
        · exact htexts following hfollowing char hchar

/-! ## Strings and literals -/

theorem hexDigit?_isSome_of_foldlM {digits : List Char} {start value : Nat}
    (hvalue : digits.foldlM (fun value digit => (hexDigit? digit).map (16 * value + ·)) start =
      some value) : ∀ digit ∈ digits, (hexDigit? digit).isSome = true := by
  induction digits generalizing start with
  | nil => exact List.forall_mem_nil _
  | cons digit digits ih =>
      rw [List.foldlM_cons, Option.bind_eq_bind, Option.bind_eq_some_iff] at hvalue
      obtain ⟨next, hnext, hrest⟩ := hvalue
      obtain ⟨found, hfound, -⟩ := Option.map_eq_some_iff.mp hnext
      exact List.forall_mem_cons.mpr ⟨Option.isSome_iff_exists.mpr ⟨found, hfound⟩, ih hrest⟩

theorem lineFree_hexText (width value : Nat) : LineFree (hexText width value) :=
  lineFree_of_class (fun char => (hexDigit? char).isSome) (by decide)
    (hexDigit?_isSome_of_foldlM (hexValue?_hexText width value))

namespace Quote

variable {quote : Quote}

theorem isLineEnd_char (quote : Quote) : isLineEnd quote.char = false := by
  cases quote <;> decide

theorem isLineEnd_of_escapeMeaning? {mark meant : Char}
    (hmeant : escapeMeaning? quote.char mark = some meant) : isLineEnd mark = false := by
  by_contra hend
  rw [Bool.not_eq_false, isLineEnd_iff] at hend
  have hnone : ['\n', '\r', lineSeparator, paragraphSeparator].all
      (fun char => (escapeMeaning? quote.char char).isNone) = true := by
    cases quote <;> decide
  have hmark := List.all_eq_true.mp hnone mark hend
  rw [hmeant] at hmark
  cases hmark

theorem Escaped.lineFree {char : Char} {escaped : List Char}
    (hescaped : quote.Escaped char escaped) : LineFree escaped := by
  cases hescaped with
  | mark _ hmeant =>
      have hmark := isLineEnd_of_escapeMeaning? hmeant
      exact lineFree_cons_iff.mpr ⟨by decide, List.forall_mem_singleton.mpr hmark⟩
  | unit =>
      have hdigits := lineFree_hexText 4 char.toNat
      exact lineFree_cons_iff.mpr ⟨by decide, lineFree_cons_iff.mpr ⟨by decide, hdigits⟩⟩
  | plain _ _ hline => exact List.forall_mem_singleton.mpr hline

theorem lineFree_quoted (quote : Quote) (text : String) : LineFree (quote.quoted text) := by
  have hclose : LineFree [quote.char] := List.forall_mem_singleton.mpr quote.isLineEnd_char
  refine lineFree_append_iff.mpr ⟨lineFree_cons_iff.mpr ⟨quote.isLineEnd_char, ?_⟩, hclose⟩
  intro char hchar
  obtain ⟨original, -, hchar⟩ := List.mem_flatMap.mp hchar
  exact (quote.escaped_escapeChar original).lineFree char hchar

end Quote

theorem lineFree_boolText (value : Bool) : LineFree (Json.boolText value) := by
  apply lineFree_of_all
  cases value <;> decide

theorem lineFree_null : LineFree "null".toList :=
  lineFree_of_all (by decide)

/-- A pattern with a line end is not written. -/
theorem Literal.lineFree_pattern {quote : Quote} {owner : NodeType} {pattern flags : String}
    {text : List Char} (htext : (Literal.regexp pattern flags).render quote owner = .ok text) :
    LineFree pattern.toList := by
  unfold render at htext
  split at htext
  next => cases htext
  next hfault =>
    simp only [writeFault?] at hfault
    split_ifs at hfault with hpattern
    simp only [Bool.or_eq_true, not_or, Bool.not_eq_true, List.any_eq_false] at hpattern
    exact hpattern.2

theorem Literal.lineFree_of_render {quote : Quote} {owner : NodeType} {literal : Literal}
    {text : List Char} (htext : literal.render quote owner = .ok text) : LineFree text := by
  cases written_of_render htext with
  | string value => exact quote.lineFree_quoted value
  | number hfinite =>
      exact lineFree_of_class isPlainChar (by decide) fun _ => Double.isPlainChar_of_mem hfinite
  | boolean value => exact lineFree_boolText value
  | null => exact lineFree_null
  | @regexp pattern flags hflags =>
      have hpattern := lineFree_pattern htext
      have hflags := lineFree_of_class patternFlags.contains (by decide) hflags
      refine lineFree_append_iff.mpr ⟨lineFree_cons_iff.mpr ⟨by decide, hpattern⟩, ?_⟩
      exact lineFree_cons_iff.mpr ⟨by decide, hflags⟩
  | bigint _ hdigits =>
      have hdigits := lineFree_of_class Char.isDigit (by decide) hdigits
      exact lineFree_append_iff.mpr ⟨hdigits, List.forall_mem_singleton.mpr (by decide)⟩

theorem lineFree_renderTemplate (quote : Quote) (cooked : Option String) (raw : String) :
    LineFree (renderTemplate quote cooked raw) := by
  have hopen : LineFree "\x7b cooked: ".toList := lineFree_of_all (by decide)
  have hbetween : LineFree ", raw: ".toList := lineFree_of_all (by decide)
  have hclose : LineFree " \x7d".toList := lineFree_of_all (by decide)
  have hcooked : LineFree (cookedChars quote cooked) := by
    cases cooked with
    | none => exact lineFree_null
    | some text => exact quote.lineFree_quoted text
  have hraw := quote.lineFree_quoted raw
  have htemplate := renderTemplate_append quote cooked raw []
  rw [List.append_nil, List.append_nil] at htemplate
  rw [htemplate]
  simp only [lineFree_append_iff]
  exact ⟨hopen, hcooked, hbetween, hraw, hclose⟩

/-! ## Calls -/

namespace Renderer

variable (renderer : Renderer)

theorem lineFree_head (nodeType : NodeType) : LineFree (renderer.head nodeType) :=
  lineFree_of_class isHeadChar (by decide) isHeadChar_of_mem_head

mutual

theorem lineFree_callChars : (call : Call) → ∀ text, renderer.callChars call = .ok text →
    LineFree text
  | .mk nodeType args => by
      intro text htext
      obtain ⟨-, texts, hwritten, rfl⟩ := callChars_eq_ok htext
      have htexts := lineFree_argTexts nodeType args texts hwritten
      refine lineFree_append_iff.mpr ⟨?_, List.forall_mem_singleton.mpr (by decide)⟩
      refine lineFree_append_iff.mpr ⟨renderer.lineFree_head nodeType, ?_⟩
      exact lineFree_cons_iff.mpr ⟨by decide, lineFree_separated htexts⟩

theorem lineFree_argChars (owner : NodeType) : (arg : Arg Call) →
    ∀ text, renderer.argChars owner arg = .ok text → LineFree text
  | .null => fun
    | _, rfl => lineFree_null
  | .bool value => fun
    | _, rfl => lineFree_boolText value
  | .string value => fun
    | _, rfl => renderer.quote.lineFree_quoted value
  | .literal literal => fun _ htext => literal.lineFree_of_render htext
  | .node call => lineFree_callChars call
  | .list items => by
      intro text htext
      obtain ⟨texts, hwritten, rfl⟩ := argChars_list_eq_ok htext
      have htexts := lineFree_argTexts owner items texts hwritten
      refine lineFree_append_iff.mpr ⟨?_, List.forall_mem_singleton.mpr (by decide)⟩
      exact lineFree_cons_iff.mpr ⟨by decide, lineFree_separated htexts⟩
  | .template cooked raw => fun
    | _, rfl => lineFree_renderTemplate renderer.quote cooked raw

theorem lineFree_argTexts (owner : NodeType) : (args : List (Arg Call)) →
    ∀ texts, renderer.ArgsWritten owner args texts → ∀ text ∈ texts, LineFree text
  | [], _, .nil => List.forall_mem_nil _
  | arg :: args, _, .cons htext htexts =>
      List.forall_mem_cons.mpr
        ⟨lineFree_argChars owner arg _ htext, lineFree_argTexts owner args _ htexts⟩

end

theorem lineFree_render {call : Call} {line : String} (hline : renderer.render call = .ok line) :
    LineFree line.toList := by
  obtain ⟨text, htext, rfl⟩ := map_eq_ok_iff.mp hline
  rw [String.toList_ofList]
  exact renderer.lineFree_callChars call text htext

end Renderer

end BuilderCalls
