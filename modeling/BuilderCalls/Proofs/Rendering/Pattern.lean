import BuilderCalls.Proofs.Rendering.Lines

/-!
# Patterns as tokens

A pattern is written between two slashes as it stands.  JavaScript takes the text for one
token when the pattern is a body by its grammar, `PatternBody`: nothing that begins a
comment, no slash outside a class unless a backslash stands before it, every class closed
and nothing left to escape at the end.

The renderer refuses no more than empty patterns, line ends and unknown flags.  So what it
writes is the token that was meant exactly for the patterns of the grammar; of every other
pattern that it writes, the token ends at a slash of the pattern, or there is none.
-/

namespace BuilderCalls

/-! ## The grammar -/

/-- What stands between the brackets of a class. -/
inductive ClassChars : List Char → Prop
  | nil : ClassChars []
  | char {char : Char} {rest : List Char} (hchar : char ∉ ['\\', ']'])
      (hline : isLineEnd char = false) (hrest : ClassChars rest) : ClassChars (char :: rest)
  | escape {char : Char} {rest : List Char} (hline : isLineEnd char = false)
      (hrest : ClassChars rest) : ClassChars ('\\' :: char :: rest)

inductive PatternChars : List Char → Prop
  | nil : PatternChars []
  | char {char : Char} {rest : List Char} (hchar : char ∉ ['\\', '/', '['])
      (hline : isLineEnd char = false) (hrest : PatternChars rest) : PatternChars (char :: rest)
  | escape {char : Char} {rest : List Char} (hline : isLineEnd char = false)
      (hrest : PatternChars rest) : PatternChars ('\\' :: char :: rest)
  | inClass {inner rest : List Char} (hinner : ClassChars inner) (hrest : PatternChars rest) :
      PatternChars ('[' :: inner ++ ']' :: rest)

/-- A pattern that may stand between two slashes; `//` and `/*` begin comments. -/
structure PatternBody (pattern : List Char) : Prop where
  ne_nil : pattern ≠ []
  star : pattern.head? ≠ some '*'
  chars : PatternChars pattern

theorem ClassChars.lineFree {inner : List Char} (hinner : ClassChars inner) : LineFree inner := by
  induction hinner with
  | nil => exact List.forall_mem_nil _
  | char _ hline _ ih => exact lineFree_cons_iff.mpr ⟨hline, ih⟩
  | escape hline _ ih =>
      exact lineFree_cons_iff.mpr ⟨by decide, lineFree_cons_iff.mpr ⟨hline, ih⟩⟩

theorem PatternChars.lineFree {pattern : List Char} (hpattern : PatternChars pattern) :
    LineFree pattern := by
  induction hpattern with
  | nil => exact List.forall_mem_nil _
  | char _ hline _ ih => exact lineFree_cons_iff.mpr ⟨hline, ih⟩
  | escape hline _ ih =>
      exact lineFree_cons_iff.mpr ⟨by decide, lineFree_cons_iff.mpr ⟨hline, ih⟩⟩
  | inClass hinner _ ih =>
      refine lineFree_cons_iff.mpr ⟨by decide, lineFree_append_iff.mpr ⟨hinner.lineFree, ?_⟩⟩
      exact lineFree_cons_iff.mpr ⟨by decide, ih⟩

/-! ## Closing by the grammar -/

/-- What may follow inside a class, up to its end and on, or outside of one. -/
def GoesOn : (inClass : Bool) → List Char → Prop
  | false, pattern => PatternChars pattern
  | true, pattern => ∃ inner rest, ClassChars inner ∧ PatternChars rest ∧
      pattern = inner ++ ']' :: rest

theorem goesOn_escape {inClass : Bool} {char : Char} {rest : List Char}
    (hline : isLineEnd char = false) (hrest : GoesOn inClass rest) :
    GoesOn inClass ('\\' :: char :: rest) := by
  cases inClass with
  | false => exact .escape hline hrest
  | true =>
      obtain ⟨inner, after, hinner, hafter, rfl⟩ := hrest
      exact ⟨'\\' :: char :: inner, after, .escape hline hinner, hafter, rfl⟩

theorem goesOn_char {inClass : Bool} {char : Char} {rest : List Char} (hescape : char ≠ '\\')
    (hslash : ¬(char = '/' && !inClass) = true) (hline : isLineEnd char = false)
    (hrest : GoesOn (classAfter inClass char) rest) : GoesOn inClass (char :: rest) := by
  unfold classAfter at hrest
  cases inClass with
  | false =>
      have hslash : char ≠ '/' := by simpa using hslash
      split_ifs at hrest with hopen hclose
      · obtain ⟨inner, after, hinner, hafter, rfl⟩ := hrest
        subst hopen
        exact .inClass hinner hafter
      · exact .char (by simp [hescape, hslash, hopen]) hline hrest
      · exact .char (by simp [hescape, hslash, hopen]) hline hrest
  | true =>
      split_ifs at hrest with hopen hclose
      · obtain ⟨inner, after, hinner, hafter, rfl⟩ := hrest
        subst hopen
        exact ⟨'[' :: inner, after, .char (by decide) hline hinner, hafter, rfl⟩
      · subst hclose
        exact ⟨[], rest, .nil, hrest, rfl⟩
      · obtain ⟨inner, after, hinner, hafter, rfl⟩ := hrest
        exact ⟨char :: inner, after, .char (by simp [hescape, hclose]) hline hinner, hafter, rfl⟩

theorem goesOn_of_closes {inClass : Bool} {pattern : List Char} (hfree : LineFree pattern)
    (hcloses : closes inClass pattern = true) : GoesOn inClass pattern := by
  fun_induction closes inClass pattern with
  | case1 inClass =>
      cases inClass with
      | false => exact .nil
      | true => cases hcloses
  | case2 inClass => cases hcloses
  | case3 inClass escaped pattern ih =>
      obtain ⟨-, hfree⟩ := lineFree_cons_iff.mp hfree
      obtain ⟨hline, hfree⟩ := lineFree_cons_iff.mp hfree
      exact goesOn_escape hline (ih hfree hcloses)
  | case4 inClass char pattern hescape hend => cases hcloses
  | case5 inClass char pattern hescape hend ih =>
      obtain ⟨hline, hfree⟩ := lineFree_cons_iff.mp hfree
      exact goesOn_char hescape hend hline (ih hfree hcloses)

theorem closes_escape (inClass : Bool) (char : Char) (rest : List Char) :
    closes inClass ('\\' :: char :: rest) = closes inClass rest := by
  rw [closes.eq_def]
  rfl

theorem closes_char {inClass : Bool} {char : Char} (hescape : char ≠ '\\')
    (hslash : ¬(char = '/' && !inClass) = true) (rest : List Char) :
    closes inClass (char :: rest) = closes (classAfter inClass char) rest := by
  rw [closes.eq_def]
  dsimp only
  rw [if_neg hescape, if_neg hslash]

theorem ClassChars.closes_append {inner : List Char} (hinner : ClassChars inner)
    (rest : List Char) : closes true (inner ++ ']' :: rest) = closes false rest := by
  induction hinner with
  | nil => exact closes_char (by decide) (by decide) rest
  | @char char inner hchar _ _ ih =>
      have hkept : classAfter true char = true := by
        simp_all [classAfter]
      rw [List.cons_append, closes_char (by simp_all) (by simp), hkept, ih]
  | escape _ _ ih => rw [List.cons_append, List.cons_append, closes_escape, ih]

theorem PatternChars.closes {pattern : List Char} (hpattern : PatternChars pattern) :
    closes false pattern = true := by
  induction hpattern with
  | nil => rfl
  | @char char rest hchar _ _ ih =>
      have hkept : classAfter false char = false := by
        simp_all [classAfter]
      rw [closes_char (by simp_all) (by simp_all), hkept, ih]
  | escape _ _ ih => rw [closes_escape, ih]
  | inClass hinner _ ih =>
      rw [List.cons_append, closes_char (by decide) (by decide)]
      exact (hinner.closes_append _).trans ih

/-- The patterns that may be read back are those of the grammar. -/
theorem patternBody_iff {pattern : List Char} :
    PatternBody pattern ↔ LexableBody pattern ∧ LineFree pattern := by
  constructor
  · intro hbody
    exact ⟨⟨hbody.ne_nil, hbody.star, hbody.chars.closes⟩, hbody.chars.lineFree⟩
  · rintro ⟨hbody, hfree⟩
    exact ⟨hbody.ne_nil, hbody.star, goesOn_of_closes hfree hbody.closes⟩

/-! ## Tokens -/

/-- The pattern, its flags and the text after them, where source text begins with a pattern. -/
def readPattern? : List Char → Option (List Char × List Char × List Char)
  | '/' :: text =>
      (readBody? false text).bind fun found =>
        if found.1 = [] ∨ found.1.head? = some '*' ∨ found.1.any isLineEnd = true then none
        else some (found.1, found.2.takeWhile Namespace.isPartChar,
          found.2.dropWhile Namespace.isPartChar)
  | _ => none

theorem stops_dropWhile (class? : Char → Bool) (text : List Char) :
    Stops class? (text.dropWhile class?) := by
  intro char hchar
  have hhead := List.head?_dropWhile_not class? text
  rw [hchar] at hhead
  exact hhead

theorem Stops.dropWhile {class? : Char → Bool} {run text : List Char}
    (hrun : ∀ char ∈ run, class? char = true) (htext : Stops class? text) :
    (run ++ text).dropWhile class? = text := by
  have hsplit := List.takeWhile_append_dropWhile (p := class?) (l := run ++ text)
  rw [htext.takeWhile hrun] at hsplit
  exact List.append_cancel_left hsplit

theorem closes_of_readBody? {inClass : Bool} {text body after : List Char}
    (hread : readBody? inClass text = some (body, after)) :
    text = body ++ '/' :: after ∧ closes inClass body = true := by
  fun_induction readBody? inClass text generalizing body after with
  | case1 => cases hread
  | case2 => cases hread
  | case3 inClass escaped text ih =>
      obtain ⟨⟨inner, rest⟩, hinner, hfound⟩ := Option.map_eq_some_iff.mp hread
      cases hfound
      obtain ⟨rfl, hcloses⟩ := ih hinner
      exact ⟨rfl, (closes_escape inClass escaped inner).trans hcloses⟩
  | case4 inClass char text hescape hend =>
      cases hread
      simp only [Bool.and_eq_true, decide_eq_true_eq, Bool.not_eq_true'] at hend
      obtain ⟨rfl, rfl⟩ := hend
      exact ⟨rfl, rfl⟩
  | case5 inClass char text hescape hend ih =>
      obtain ⟨⟨inner, rest⟩, hinner, hfound⟩ := Option.map_eq_some_iff.mp hread
      cases hfound
      obtain ⟨rfl, hcloses⟩ := ih hinner
      exact ⟨rfl, (closes_char hescape hend inner).trans hcloses⟩

/-- A token is a body of the grammar between slashes, with all flags that can follow it. -/
theorem readPattern?_eq_some_iff {text body flags rest : List Char} :
    readPattern? text = some (body, flags, rest) ↔
      PatternBody body ∧ (∀ flag ∈ flags, Namespace.isPartChar flag = true) ∧
        Stops Namespace.isPartChar rest ∧ text = '/' :: body ++ '/' :: (flags ++ rest) := by
  constructor
  · intro hread
    unfold readPattern? at hread
    split at hread
    · next text =>
        obtain ⟨⟨inner, after⟩, hinner, hfound⟩ := Option.bind_eq_some_iff.mp hread
        obtain ⟨rfl, hcloses⟩ := closes_of_readBody? hinner
        split_ifs at hfound with hrefused
        cases hfound
        simp only [not_or, Bool.not_eq_true, List.any_eq_false] at hrefused
        refine ⟨patternBody_iff.mpr ⟨⟨hrefused.1, hrefused.2.1, hcloses⟩, ?_⟩, ?_, ?_, ?_⟩
        · simpa [LineFree] using hrefused.2.2
        · exact fun flag hflag => List.mem_takeWhile_imp hflag
        · exact stops_dropWhile _ after
        · rw [List.takeWhile_append_dropWhile]
          rfl
    · cases hread
  · rintro ⟨hbody, hflags, hrest, rfl⟩
    obtain ⟨hlexable, hfree⟩ := patternBody_iff.mp hbody
    have hread := readBody?_of_closes hlexable.closes (flags ++ rest)
    have hkept : ¬(body = [] ∨ body.head? = some '*' ∨ body.any isLineEnd = true) := by
      simpa [hbody.ne_nil, hbody.star, LineFree] using hfree
    rw [List.cons_append, readPattern?, hread, Option.bind_some, if_neg hkept,
      hrest.takeWhile hflags, hrest.dropWhile hflags]

/-! ## Written patterns -/

namespace Literal

variable {quote : Quote} {owner : NodeType} {pattern flags : String} {text : List Char}

/-- What is written of a pattern, and the flags that it is written with. -/
theorem regexp_render_eq_ok (htext : (regexp pattern flags).render quote owner = .ok text) :
    text = '/' :: pattern.toList ++ '/' :: flags.toList ∧
      ∀ flag ∈ flags.toList, patternFlags.contains flag = true := by
  cases written_of_render htext with
  | regexp hflags => exact ⟨rfl, hflags⟩

theorem isPartChar_of_flag {flag : Char} (hflag : patternFlags.contains flag = true) :
    Namespace.isPartChar flag = true := by
  have hall : patternFlags.all Namespace.isPartChar = true := by
    decide +kernel
  exact List.all_eq_true.mp hall flag (List.contains_iff_mem.mp hflag)

theorem slash_not_mem_flags {flags : List Char}
    (hflags : ∀ flag ∈ flags, patternFlags.contains flag = true) : '/' ∉ flags := by
  intro hslash
  cases hflags '/' hslash

end Literal

/-- A token that begins as a written pattern does is that pattern or ends inside of it. -/
theorem readPattern?_ends_inside {pattern flags body found rest : List Char} (hflags : '/' ∉ flags)
    (hread : readPattern? ('/' :: pattern ++ '/' :: flags) = some (body, found, rest)) :
    body = pattern ∨ ∃ later, pattern = body ++ '/' :: later := by
  obtain ⟨-, -, -, hsame⟩ := readPattern?_eq_some_iff.mp hread
  rw [List.cons_append, List.cons_append, List.cons_inj_right] at hsame
  rcases List.append_eq_append_iff.mp hsame with ⟨extra, hbody, hflag⟩ | ⟨later, hpattern, hend⟩
  · cases extra with
    | nil => exact .inl (by rw [hbody, List.append_nil])
    | cons char extra =>
        rw [List.cons_append] at hflag
        have hslash : '/' ∈ flags := by
          rw [(List.cons.inj hflag).2]
          exact List.mem_append_right _ (.head _)
        exact absurd hslash hflags
  · cases later with
    | nil => exact .inl (by rw [hpattern, List.append_nil])
    | cons char later =>
        rw [List.cons_append] at hend
        rw [← (List.cons.inj hend).1] at hpattern
        exact .inr ⟨later, hpattern⟩

/--
A written pattern is read as one token, pattern and flags, exactly when it is a body by the
grammar.  Where it is not, the text that was written for it holds no token at its front, or one
that ends at a slash of the pattern.
-/
theorem written_patterns_are_tokens_exactly_by_the_grammar {quote : Quote} {owner : NodeType}
    {pattern flags : String} {text : List Char}
    (htext : (Literal.regexp pattern flags).render quote owner = .ok text) :
    (∀ rest, Stops Namespace.isPartChar rest →
      (readPattern? (text ++ rest) = some (pattern.toList, flags.toList, rest) ↔
        PatternBody pattern.toList)) ∧
      (¬PatternBody pattern.toList → readPattern? text = none ∨
        ∃ body found rest later, readPattern? text = some (body, found, rest) ∧
          pattern.toList = body ++ '/' :: later) := by
  obtain ⟨rfl, hflags⟩ := Literal.regexp_render_eq_ok htext
  constructor
  · intro rest hrest
    have hpart : ∀ flag ∈ flags.toList, Namespace.isPartChar flag = true :=
      fun flag hflag => Literal.isPartChar_of_flag (hflags flag hflag)
    rw [readPattern?_eq_some_iff, List.append_assoc]
    exact ⟨fun hbody => hbody.1, fun hbody => ⟨hbody, hpart, hrest, rfl⟩⟩
  · intro hbody
    cases hread : readPattern? ('/' :: pattern.toList ++ '/' :: flags.toList) with
    | none => exact .inl rfl
    | some token =>
        obtain ⟨body, found, rest⟩ := token
        refine .inr ⟨body, found, rest, ?_⟩
        rcases readPattern?_ends_inside (Literal.slash_not_mem_flags hflags) hread with
          rfl | ⟨later, hlater⟩
        · exact absurd (readPattern?_eq_some_iff.mp hread).1 hbody
        · exact ⟨later, rfl, hlater⟩

/--
A class that holds a slash, and a slash that a backslash stands before, end nothing.  A slash
that stands by itself ends the token, and what follows it is left to be read as code.
-/
theorem written_patterns_are_tokens_exactly_by_the_grammar_slashes :
    ((Literal.regexp "[/*]\\/" "gi").render .single .literal = .ok "/[/*]\\//gi".toList ∧
        PatternBody "[/*]\\/".toList) ∧
      (Literal.regexp "a/b" "g").render .single .literal = .ok "/a/b/g".toList ∧
        ¬PatternBody "a/b".toList ∧
          ∃ body found rest later, readPattern? "/a/b/g".toList = some (body, found, rest) ∧
            "a/b".toList = body ++ '/' :: later := by
  have hclosed : (Literal.regexp "[/*]\\/" "gi").render .single .literal =
      .ok "/[/*]\\//gi".toList := by
    decide +kernel
  have hopen : (Literal.regexp "a/b" "g").render .single .literal = .ok "/a/b/g".toList := by
    decide +kernel
  have hclosedRead : readPattern? ("/[/*]\\//gi".toList ++ [')']) =
      some ("[/*]\\/".toList, "gi".toList, [')']) := by
    decide +kernel
  have hopenRead : readPattern? ("/a/b/g".toList ++ []) = some (['a'], ['b'], "/g".toList) := by
    decide +kernel
  obtain ⟨hclosedExactly, -⟩ := written_patterns_are_tokens_exactly_by_the_grammar hclosed
  obtain ⟨hopenExactly, hends⟩ := written_patterns_are_tokens_exactly_by_the_grammar hopen
  have hbody : ¬PatternBody "a/b".toList := by
    intro hbody
    cases hopenRead.symm.trans ((hopenExactly [] nofun).mpr hbody)
  have hstops : Stops Namespace.isPartChar [')'] := stops_cons (by decide) []
  refine ⟨⟨hclosed, (hclosedExactly _ hstops).mp hclosedRead⟩, hopen, hbody, ?_⟩
  rcases hends hbody with hnone | hinside
  · cases hopenRead.symm.trans hnone
  · exact hinside

/-- A written pattern need not be the token that is read, or the only thing that is. -/
theorem slash_ends_a_written_pattern :
    ¬∀ (quote : Quote) (owner : NodeType) (pattern flags : String) (text : List Char),
      (Literal.regexp pattern flags).render quote owner = .ok text →
        readPattern? text = some (pattern.toList, flags.toList, []) := by
  intro htokens
  have htext : (Literal.regexp "a/b" "g").render .single .literal = .ok "/a/b/g".toList := by
    decide +kernel
  have hread : readPattern? "/a/b/g".toList = some (['a'], ['b'], "/g".toList) := by
    decide +kernel
  cases hread.symm.trans (htokens _ _ _ _ _ htext)

end BuilderCalls
