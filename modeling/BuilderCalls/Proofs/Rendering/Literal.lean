import BuilderCalls.Proofs.Number.PlainText
import BuilderCalls.Proofs.Rendering.Quoted

/-!
# Reading literals

The first character of a literal tells strings, patterns, words and numbers apart, and
the first character after its digits tells a bigint from a number.  Each kind shows where
it ends: a string and a pattern by their closing character, the flags of a pattern and a
number by the delimiter that follows them in a call.
-/

namespace BuilderCalls

/-! ## Delimiters -/

/-- What may follow an argument of a call or an item of a list. -/
def isDelimiter (char : Char) : Bool :=
  char = ',' || char = ')' || char = ']'

def Delimited (text : List Char) : Prop :=
  ∃ delimiter rest, isDelimiter delimiter = true ∧ text = delimiter :: rest

theorem Delimited.stops {class? : Char → Bool} {text : List Char} (htext : Delimited text)
    (hclass : [',', ')', ']'].any class? = false) : Stops class? text := by
  obtain ⟨delimiter, rest, hdelimiter, rfl⟩ := htext
  have hmem : delimiter ∈ [',', ')', ']'] := by
    simpa [isDelimiter, or_assoc] using hdelimiter
  rw [List.any_eq_false] at hclass
  exact stops_cons (Bool.eq_false_iff.mpr (hclass delimiter hmem)) rest

/-! ## Patterns -/

def classAfter (inClass : Bool) (char : Char) : Bool :=
  if char = '[' then true
  else if char = ']' then false
  else inClass

/-- No slash ends the pattern early, no class stays open and no backslash is the last character. -/
def closes : (inClass : Bool) → List Char → Bool
  | inClass, [] => !inClass
  | inClass, char :: rest =>
      if char = '\\' then
        match rest with
        | [] => false
        | _ :: rest => closes inClass rest
      else if char = '/' && !inClass then false
      else closes (classAfter inClass char) rest

/-- A pattern that may stand between two slashes, and is no comment there. -/
structure LexableBody (pattern : List Char) : Prop where
  ne_nil : pattern ≠ []
  star : pattern.head? ≠ some '*'
  closes : closes false pattern = true

/-- The characters up to the slash that ends a pattern and the text after it. -/
def readBody? : (inClass : Bool) → List Char → Option (List Char × List Char)
  | _, [] => none
  | inClass, char :: text =>
      if char = '\\' then
        match text with
        | [] => none
        | escaped :: text => (readBody? inClass text).map fun found =>
            precede char (precede escaped found)
      else if char = '/' && !inClass then some ([], text)
      else (readBody? (classAfter inClass char) text).map (precede char)

theorem readBody?_of_closes {inClass : Bool} {pattern : List Char}
    (hcloses : closes inClass pattern = true) (rest : List Char) :
    readBody? inClass (pattern ++ '/' :: rest) = some (pattern, rest) := by
  fun_induction closes inClass pattern with
  | case1 inClass =>
      rw [List.nil_append, readBody?.eq_def]
      simp_all
  | case2 inClass => cases hcloses
  | case3 inClass escaped pattern ih =>
      rw [List.cons_append, List.cons_append, readBody?.eq_def]
      dsimp only
      rw [if_pos rfl, ih hcloses]
      rfl
  | case4 inClass char pattern hescape hend => cases hcloses
  | case5 inClass char pattern hescape hend ih =>
      rw [List.cons_append, readBody?.eq_def]
      dsimp only
      rw [if_neg hescape, if_neg hend, ih hcloses]
      rfl

/-! ## Literals -/

namespace Literal

def Lexable : Literal → Prop
  | .regexp pattern _ => LexableBody pattern.toList
  | _ => True

/-- The kind that a first character announces; bigints begin as numbers do. -/
def announced (quote : Quote) (char : Char) : Kind :=
  if char = quote.char then .string
  else if char = '/' then .regexp
  else if char = 'n' then .null
  else if char = 't' || char = 'f' then .boolean
  else .number

variable {quote : Quote}

theorem announced_of_isPlainChar {char : Char} (hchar : isPlainChar char = true) :
    announced quote char = .number := by
  have hother : ∀ other, isPlainChar other = false → char ≠ other := by
    rintro other hother rfl
    cases hother.symm.trans hchar
  have hquote : isPlainChar quote.char = false := by
    cases quote <;> decide
  unfold announced
  rw [if_neg (hother _ hquote), if_neg (hother _ (by decide)), if_neg (hother _ (by decide)),
    if_neg (by simp [hother 't' (by decide), hother 'f' (by decide)])]

/-- The kinds with the same first characters. -/
def Kind.family : Kind → Kind
  | .bigint => .number
  | kind => kind

/-- The texts of the literals that are written at all. -/
inductive Written (quote : Quote) : Literal → List Char → Prop
  | string (value : String) : Written quote (.string value) (quote.quoted value)
  | number {value : Double} (hfinite : value.isFinite = true) :
      Written quote (.number value) value.plainText
  | boolean (value : Bool) : Written quote (.boolean value) (Json.boolText value)
  | null : Written quote .null "null".toList
  | regexp {pattern flags : String}
      (hflags : ∀ flag ∈ flags.toList, patternFlags.contains flag = true) :
      Written quote (.regexp pattern flags) ('/' :: pattern.toList ++ '/' :: flags.toList)
  | bigint {digits : String} (hnonempty : digits.toList ≠ [])
      (hdigits : ∀ digit ∈ digits.toList, digit.isDigit = true) :
      Written quote (.bigint digits) (digits.toList ++ ['n'])

theorem written_of_render {owner : NodeType} {literal : Literal} {text : List Char}
    (htext : literal.render quote owner = .ok text) : Written quote literal text := by
  unfold render at htext
  split at htext
  next => cases htext
  next hfault =>
    cases htext
    cases literal with
    | string value => exact .string value
    | number value => exact .number (by simpa [writeFault?] using hfault)
    | boolean value => exact .boolean value
    | null => exact .null
    | regexp pattern flags =>
        refine .regexp ?_
        simp only [writeFault?] at hfault
        split_ifs at hfault with hpattern hflags
        exact List.all_eq_true.mp hflags
    | bigint digits =>
        simp only [writeFault?] at hfault
        split_ifs at hfault with hdigits
        simp only [Bool.or_eq_true, Bool.not_eq_true', not_or, Bool.not_eq_false,
          List.isEmpty_iff] at hdigits
        exact .bigint hdigits.1 (List.all_eq_true.mp hdigits.2)

theorem Written.announced {literal : Literal} {text : List Char}
    (hwritten : Written quote literal text) : ∃ char rest, text = char :: rest ∧
      announced quote char = literal.kind.family := by
  cases hwritten with
  | string value => exact ⟨_, _, rfl, if_pos rfl⟩
  | @number value hfinite =>
      obtain ⟨char, rest, hcons⟩ := List.exists_cons_of_ne_nil (Double.plainText_ne_nil hfinite)
      have hmem : char ∈ value.plainText := hcons ▸ .head _
      refine ⟨char, rest, hcons, ?_⟩
      exact announced_of_isPlainChar (Double.isPlainChar_of_mem hfinite hmem)
  | boolean value => cases value <;> exact ⟨_, _, rfl, by cases quote <;> decide⟩
  | null => exact ⟨_, _, rfl, by cases quote <;> decide⟩
  | regexp hflags => exact ⟨_, _, rfl, by cases quote <;> rfl⟩
  | bigint hnonempty hdigits =>
      obtain ⟨digit, rest, hcons⟩ := List.exists_cons_of_ne_nil hnonempty
      have hdigit := hdigits digit (hcons ▸ .head _)
      refine ⟨digit, rest ++ ['n'], by rw [hcons, List.cons_append], ?_⟩
      exact announced_of_isPlainChar (by simp [isPlainChar, hdigit])

theorem Written.family_eq {left right : Literal} {text text' rest rest' : List Char}
    (hleft : Written quote left text) (hright : Written quote right text')
    (hsame : text ++ rest = text' ++ rest') : left.kind.family = right.kind.family := by
  obtain ⟨char, tail, rfl, hchar⟩ := hleft.announced
  obtain ⟨char', tail', rfl, hchar'⟩ := hright.announced
  rw [← hchar, ← hchar', (List.cons.inj hsame).1]

section Kinds

variable {rest rest' : List Char}

theorem boolText_append_inj {left right : Bool}
    (hsame : Json.boolText left ++ rest = Json.boolText right ++ rest') :
    left = right ∧ rest = rest' := by
  cases left <;> cases right
  case false.false | true.true => exact ⟨rfl, List.append_cancel_left hsame⟩
  case false.true | true.false => cases (List.cons.inj hsame).1

theorem regexp_append_inj {pattern pattern' flags flags' : String}
    (hbody : LexableBody pattern.toList) (hbody' : LexableBody pattern'.toList)
    (hflags : ∀ flag ∈ flags.toList, patternFlags.contains flag = true)
    (hflags' : ∀ flag ∈ flags'.toList, patternFlags.contains flag = true)
    (hrest : Delimited rest) (hrest' : Delimited rest')
    (hsame : '/' :: pattern.toList ++ '/' :: flags.toList ++ rest =
      '/' :: pattern'.toList ++ '/' :: flags'.toList ++ rest') :
    pattern = pattern' ∧ flags = flags' ∧ rest = rest' := by
  simp only [List.cons_append, List.append_assoc, List.cons.injEq, true_and] at hsame
  have hread := congrArg (readBody? false) hsame
  rw [readBody?_of_closes hbody.closes, readBody?_of_closes hbody'.closes, Option.some.injEq,
    Prod.mk.injEq, String.toList_inj] at hread
  obtain ⟨hpattern, hsame⟩ := hread
  have hclass : [',', ')', ']'].any patternFlags.contains = false := by
    decide +kernel
  obtain ⟨hflags, hrest⟩ := Stops.append_inj hflags hflags' (hrest.stops hclass)
    (hrest'.stops hclass) hsame
  exact ⟨hpattern, String.toList_inj.mp hflags, hrest⟩

/-- The digits of a bigint go on to an `n`, which no delimiter is. -/
theorem number_ne_bigint {value : Double} {digits : List Char}
    (hfinite : value.isFinite = true) (hdigits : ∀ digit ∈ digits, digit.isDigit = true)
    (hrest : Delimited rest) : value.plainText ++ rest ≠ digits ++ ['n'] ++ rest' := by
  intro hsame
  have hplain : ∀ digit ∈ digits, isPlainChar digit = true := by
    intro digit hmem
    simp [isPlainChar, hdigits digit hmem]
  rw [List.append_assoc] at hsame
  obtain ⟨-, rfl⟩ := Stops.append_inj (fun _ => Double.isPlainChar_of_mem hfinite) hplain
    (hrest.stops rfl) (stops_cons rfl _) hsame
  obtain ⟨delimiter, tail, hdelimiter, hcons⟩ := hrest
  cases (List.cons.inj hcons).1
  cases hdelimiter

theorem bigint_append_inj {digits digits' : String}
    (hdigits : ∀ digit ∈ digits.toList, digit.isDigit = true)
    (hdigits' : ∀ digit ∈ digits'.toList, digit.isDigit = true)
    (hsame : digits.toList ++ ['n'] ++ rest = digits'.toList ++ ['n'] ++ rest') :
    digits = digits' ∧ rest = rest' := by
  rw [List.append_assoc, List.append_assoc] at hsame
  obtain ⟨hdigits, hrest⟩ := Stops.append_inj hdigits hdigits' (stops_cons rfl _)
    (stops_cons rfl _) hsame
  exact ⟨String.toList_inj.mp hdigits, (List.cons.inj hrest).2⟩

end Kinds

/-- What is written of a literal determines it and shows where it ends. -/
theorem Written.append_inj {left right : Literal} {text text' rest rest' : List Char}
    (hleft : Written quote left text) (hright : Written quote right text')
    (hlexable : left.Lexable) (hlexable' : right.Lexable) (hrest : Delimited rest)
    (hrest' : Delimited rest') (hsame : text ++ rest = text' ++ rest') :
    left = right ∧ rest = rest' := by
  have hfamily := hleft.family_eq hright hsame
  cases hleft <;> cases hright <;> try cases hfamily
  case string.string value value' =>
    obtain ⟨rfl, rfl⟩ := Quote.quoted_append_inj hsame
    exact ⟨rfl, rfl⟩
  case number.number value hfinite value' hfinite' =>
    obtain ⟨rfl, rfl⟩ := Double.plainText_append_inj hfinite hfinite'
      (hrest.stops rfl) (hrest'.stops rfl) hsame
    exact ⟨rfl, rfl⟩
  case number.bigint value hfinite digits hnonempty hdigits =>
    exact absurd hsame (number_ne_bigint hfinite hdigits hrest)
  case bigint.number digits hnonempty hdigits value hfinite =>
    exact absurd hsame.symm (number_ne_bigint hfinite hdigits hrest')
  case bigint.bigint digits hnonempty hdigits digits' hnonempty' hdigits' =>
    obtain ⟨rfl, rfl⟩ := bigint_append_inj hdigits hdigits' hsame
    exact ⟨rfl, rfl⟩
  case boolean.boolean value value' =>
    obtain ⟨rfl, rfl⟩ := boolText_append_inj hsame
    exact ⟨rfl, rfl⟩
  case null.null => exact ⟨rfl, List.append_cancel_left hsame⟩
  case regexp.regexp pattern flags hflags pattern' flags' hflags' =>
    obtain ⟨rfl, rfl, rfl⟩ :=
      regexp_append_inj hlexable hlexable' hflags hflags' hrest hrest' hsame
    exact ⟨rfl, rfl⟩

end Literal

/-! ## Templates -/

section Templates

variable {quote : Quote} {cooked cooked' : Option String} {raw raw' : String}
  {rest rest' : List Char}

def cookedChars (quote : Quote) : Option String → List Char
  | some text => quote.quoted text
  | none => "null".toList

theorem cookedChars_append_inj
    (hsame : cookedChars quote cooked ++ rest = cookedChars quote cooked' ++ rest') :
    cooked = cooked' ∧ rest = rest' := by
  have hquote : quote.char ≠ 'n' := by
    cases quote <;> decide
  cases cooked <;> cases cooked'
  case none.none => exact ⟨rfl, List.append_cancel_left hsame⟩
  case none.some => exact absurd (List.cons.inj hsame).1.symm hquote
  case some.none => exact absurd (List.cons.inj hsame).1 hquote
  case some.some =>
    obtain ⟨rfl, rfl⟩ := Quote.quoted_append_inj hsame
    exact ⟨rfl, rfl⟩

theorem renderTemplate_append (quote : Quote) (cooked : Option String) (raw : String)
    (rest : List Char) :
    renderTemplate quote cooked raw ++ rest =
      "\x7b cooked: ".toList ++ (cookedChars quote cooked ++
        (", raw: ".toList ++ (quote.quoted raw ++ (" \x7d".toList ++ rest)))) := by
  unfold renderTemplate
  cases cooked <;> simp only [cookedChars, List.append_assoc]

theorem renderTemplate_append_inj
    (hsame : renderTemplate quote cooked raw ++ rest =
      renderTemplate quote cooked' raw' ++ rest') :
    cooked = cooked' ∧ raw = raw' ∧ rest = rest' := by
  rw [renderTemplate_append, renderTemplate_append] at hsame
  obtain ⟨hcooked, htail⟩ := cookedChars_append_inj (List.append_cancel_left hsame)
  obtain ⟨hraw, hend⟩ := Quote.quoted_append_inj (List.append_cancel_left htail)
  exact ⟨hcooked, hraw, List.append_cancel_left hend⟩

end Templates

end BuilderCalls
