import BuilderCalls.Proofs.Number.JsonText
import BuilderCalls.Proofs.Rendering.Quoted

/-!
# Tokens of printed values

`Json.tokens` lists the tokens of a value.  Both printers write exactly these, the compact one
without blanks and the other with one item a line, and the scanner finds them again: a string
ends at its closing quote, and a number or a word where the next character is of no lexeme.
-/

namespace BuilderCalls.Json

/-! ## Scanning on -/

/-- The tokens once the rest of a text has been read, the latest first. -/
def Scan.read? (scan : Scan) (text : List Char) : Option (List Token) :=
  (scan.run? text).bind Scan.finish?

theorem tokens?_eq_read? (text : List Char) :
    tokens? text = (Scan.read? ⟨.none, []⟩ text).map List.reverse :=
  rfl

/-- A character that goes on with a number or with a word. -/
def isLexemeChar (char : Char) : Bool :=
  isNumberChar char || isWordChar char

namespace Scan

variable {tokens : List Token} {rest : List Char}

theorem read?_cons (scan : Scan) (char : Char) (text : List Char) :
    scan.read? (char :: text) = (scan.step? char).bind (read? · text) := by
  simp only [read?, run?, Option.bind_assoc]

theorem read?_blank {char : Char} (hblank : isBlank char = true) (text : List Char) :
    read? ⟨.none, tokens⟩ (char :: text) = read? ⟨.none, tokens⟩ text := by
  simp [read?_cons, step?, open?, hblank]

theorem read?_blanks {blanks : List Char} (hblanks : ∀ char ∈ blanks, isBlank char = true) :
    read? ⟨.none, tokens⟩ (blanks ++ rest) = read? ⟨.none, tokens⟩ rest := by
  induction blanks with
  | nil => rfl
  | cons char blanks ih =>
      obtain ⟨hchar, hblanks⟩ := List.forall_mem_cons.mp hblanks
      rw [List.cons_append, read?_blank hchar, ih hblanks]

/-! ## Words -/

/-- Where nothing goes on with a word it is judged, and the scanner opens the next lexeme. -/
theorem read?_word {chars : List Char} {token : Token}
    (hword : wordToken? chars.reverse = some token) (hrest : Stops isWordChar rest) :
    read? ⟨.word chars, tokens⟩ rest = read? ⟨.none, token :: tokens⟩ rest := by
  cases rest with
  | nil => simp [read?, run?, finish?, hword]
  | cons char rest =>
      have hchar : isWordChar char = false := hrest char rfl
      simp [read?_cons, step?, finish?, hword, hchar]

theorem read?_null (hrest : Stops isWordChar rest) :
    read? ⟨.none, tokens⟩ ("null".toList ++ rest) = read? ⟨.none, .null :: tokens⟩ rest :=
  read?_word (show wordToken? ['l', 'l', 'u', 'n'].reverse = some .null from rfl) hrest

theorem read?_boolText (value : Bool) (hrest : Stops isWordChar rest) :
    read? ⟨.none, tokens⟩ (boolText value ++ rest) =
      read? ⟨.none, .bool value :: tokens⟩ rest := by
  cases value with
  | true =>
      have hword : wordToken? ['e', 'u', 'r', 't'].reverse = some (.bool true) := rfl
      exact read?_word hword hrest
  | false =>
      have hword : wordToken? ['e', 's', 'l', 'a', 'f'].reverse = some (.bool false) := rfl
      exact read?_word hword hrest

/-! ## Numbers -/

theorem read?_number_append {run : List Char} (hrun : ∀ char ∈ run, isNumberChar char = true)
    (chars : List Char) :
    read? ⟨.number chars, tokens⟩ (run ++ rest) =
      read? ⟨.number (run.reverse ++ chars), tokens⟩ rest := by
  induction run generalizing chars with
  | nil => rfl
  | cons char run ih =>
      obtain ⟨hchar, hrun⟩ := List.forall_mem_cons.mp hrun
      rw [List.cons_append, read?_cons]
      simp [step?, hchar, ih hrun]

theorem read?_number {chars : List Char} {number : Number}
    (hnumber : numberOfText? chars.reverse = some number) (hrest : Stops isNumberChar rest) :
    read? ⟨.number chars, tokens⟩ rest = read? ⟨.none, .number number :: tokens⟩ rest := by
  cases rest with
  | nil => simp [read?, run?, finish?, hnumber]
  | cons char rest =>
      have hchar : isNumberChar char = false := hrest char rfl
      simp [read?_cons, step?, finish?, hnumber, hchar]

theorem not_isBlank_of_isNumberChar {char : Char} (hchar : isNumberChar char = true) :
    isBlank char = false ∧ char ≠ '"' := by
  constructor
  · rw [Bool.eq_false_iff]
    intro hblank
    simp only [isBlank, Bool.or_eq_true, decide_eq_true_eq] at hblank
    rcases hblank with ((rfl | rfl) | rfl) | rfl <;> cases hchar
  · rintro rfl
    cases hchar

theorem read?_numberText (number : Number) (hrest : Stops isNumberChar rest) :
    read? ⟨.none, tokens⟩ (numberText number ++ rest) =
      read? ⟨.none, .number number :: tokens⟩ rest := by
  obtain ⟨first, others, htext, hfirst, hothers⟩ := exists_numberText_cons number
  obtain ⟨hblank, hquote⟩ :=
    not_isBlank_of_isNumberChar (Bool.and_eq_true_iff.mp hfirst).1
  have hread : numberOfText? (others.reverse ++ [first]).reverse = some number := by
    rw [List.reverse_append, List.reverse_reverse, List.reverse_singleton, List.singleton_append,
      ← htext, numberOfText?_numberText]
  calc read? ⟨.none, tokens⟩ (numberText number ++ rest)
      = read? ⟨.number [first], tokens⟩ (others ++ rest) := by
        rw [htext, List.cons_append, read?_cons]
        simp only [step?, open?, hblank, hquote, hfirst, Bool.false_eq_true, if_false, if_true,
          Option.bind_some]
    _ = read? ⟨.number (others.reverse ++ [first]), tokens⟩ rest :=
        read?_number_append hothers [first]
    _ = _ := read?_number hread hrest

/-! ## Strings -/

/-- The scanner adds up the digits of an escape as their value is defined. -/
theorem read?_unit {first second third fourth : Char} {value : Nat}
    (hvalue : hexValue? [first, second, third, fourth] = some value) (chars : List Char) :
    read? ⟨.unit chars .none 0 0, tokens⟩ (first :: second :: third :: fourth :: rest) =
      (unitDone? chars .none value).bind fun lexeme => read? ⟨lexeme, tokens⟩ rest := by
  simp only [hexValue?, List.foldlM_cons, List.foldlM_nil, Option.bind_eq_bind,
    Option.bind_eq_some_iff, Option.map_eq_some_iff, Option.pure_def, Option.some.injEq] at hvalue
  obtain ⟨_, ⟨digit₁, hfirst, rfl⟩, _, ⟨digit₂, hsecond, rfl⟩, _, ⟨digit₃, hthird, rfl⟩, _,
    ⟨digit₄, hfourth, rfl⟩, rfl⟩ := hvalue
  simp [read?_cons, step?, hfirst, hsecond, hthird, hfourth, Option.bind_assoc]

theorem read?_hexText {char : Char} (hchar : char.toNat < 0x20) (chars : List Char) :
    read? ⟨.unit chars .none 0 0, tokens⟩ (hexText 4 char.toNat ++ rest) =
      read? ⟨.string (char :: chars), tokens⟩ rest := by
  have hlength : (hexText 4 char.toNat).length = 4 := length_hexText (by decide) (by omega)
  have hvalue := hexValue?_hexText 4 char.toNat
  have hhigh : isHighSurrogate char.toNat = false := by
    simp [isHighSurrogate]
    omega
  have hlow : isLowSurrogate char.toNat = false := by
    simp [isLowSurrogate]
    omega
  match hdigits : hexText 4 char.toNat, hlength with
  | [first, second, third, fourth], _ =>
    rw [hdigits] at hvalue
    simp only [List.cons_append, List.nil_append, read?_unit hvalue]
    simp [unitDone?, hhigh, hlow, Char.ofNat_toNat]

theorem read?_escapeChar (chars : List Char) (char : Char) :
    read? ⟨.string chars, tokens⟩ (escapeChar char ++ rest) =
      read? ⟨.string (char :: chars), tokens⟩ rest := by
  unfold escapeChar
  split_ifs with hquote hbackslash hnewline hreturn htab hbackspace hfeed hcontrol
  · subst hquote
    rfl
  · subst hbackslash
    rfl
  · subst hnewline
    rfl
  · subst hreturn
    rfl
  · subst htab
    rfl
  · subst hbackspace
    rfl
  · subst hfeed
    rfl
  · exact read?_hexText hcontrol chars
  · simp [read?_cons, step?, hquote, hbackslash, hcontrol]

theorem read?_escaped (text chars : List Char) :
    read? ⟨.string chars, tokens⟩ (text.flatMap escapeChar ++ rest) =
      read? ⟨.string (text.reverse ++ chars), tokens⟩ rest := by
  induction text generalizing chars with
  | nil => rfl
  | cons char text ih =>
      rw [List.flatMap_cons, List.append_assoc, read?_escapeChar, ih, List.reverse_cons,
        List.append_assoc, List.singleton_append]

theorem read?_quoted (text : String) :
    read? ⟨.none, tokens⟩ (quoted text ++ rest) =
      read? ⟨.none, .string text :: tokens⟩ rest := by
  have hopen : read? ⟨.none, tokens⟩ (quoted text ++ rest) =
      read? ⟨.string [], tokens⟩ (text.toList.flatMap escapeChar ++ '"' :: rest) := by
    simp [quoted, read?_cons, step?, open?, isBlank]
  rw [hopen, read?_escaped, List.append_nil, read?_cons]
  simp [step?]

end Scan

/-! ## Values -/

mutual

/-- The tokens of a value in the order of its text. -/
def tokens : Json → List Token
  | .null => [.null]
  | .bool value => [.bool value]
  | .number value => [.number value]
  | .string value => [.string value]
  | .array [] => [.openArray, .closeArray]
  | .array (item :: items) => .openArray :: tokens item ++ tokensOfItems items
  | .object [] => [.openObject, .closeObject]
  | .object ((key, value) :: members) =>
      .openObject :: .string key :: .colon :: tokens value ++ tokensOfMembers members
termination_by structural value => value

/-- What follows the first item of an array. -/
def tokensOfItems : List Json → List Token
  | [] => [.closeArray]
  | item :: items => .comma :: tokens item ++ tokensOfItems items
termination_by structural items => items

/-- What follows the first member of an object. -/
def tokensOfMembers : Members → List Token
  | [] => [.closeObject]
  | (key, value) :: members =>
      .comma :: .string key :: .colon :: tokens value ++ tokensOfMembers members
termination_by structural members => members

end

namespace Scan

variable {found : List Token} {rest : List Char}

theorem read?_open {char : Char} {next : Scan} (hopen : open? found char = some next)
    (text : List Char) : read? ⟨.none, found⟩ (char :: text) = next.read? text := by
  simp [read?_cons, step?, hopen]

/-- Text that no number and no word goes on into. -/
def Apart (text : List Char) : Prop :=
  Stops isLexemeChar text

theorem Apart.number {text : List Char} (htext : Apart text) : Stops isNumberChar text :=
  Stops.part htext fun char hchar => by simp [isLexemeChar, hchar]

theorem Apart.word {text : List Char} (htext : Apart text) : Stops isWordChar text :=
  Stops.part htext fun char hchar => by simp [isLexemeChar, hchar]

theorem read?_key (key : String) (text : List Char) :
    read? ⟨.none, found⟩ (quoted key ++ ':' :: text) =
      read? ⟨.none, .colon :: .string key :: found⟩ text := by
  rw [read?_quoted, read?_open rfl]

/-! ### Without blanks -/

theorem apart_compactItems (items : List Json) (rest : List Char) :
    Apart (compactItems items ++ rest) := by
  cases items <;> exact stops_cons rfl _

theorem apart_compactMembers (members : Members) (rest : List Char) :
    Apart (compactMembers members ++ rest) := by
  cases members <;> exact stops_cons rfl _

mutual

theorem read?_compact : (value : Json) → (found : List Token) → (rest : List Char) →
    Apart rest → read? ⟨.none, found⟩ (value.compact ++ rest) =
      read? ⟨.none, value.tokens.reverse ++ found⟩ rest
  | .null, _, _, hrest => read?_null hrest.word
  | .bool value, _, _, hrest => read?_boolText value hrest.word
  | .number value, _, _, hrest => read?_numberText value hrest.number
  | .string value, _, _, _ => read?_quoted value
  | .array [], _, _, _ => rfl
  | .array (item :: items), found, rest, hrest => by
      calc read? ⟨.none, found⟩ ('[' :: item.compact ++ compactItems items ++ rest)
          = read? ⟨.none, .openArray :: found⟩ (item.compact ++ (compactItems items ++ rest)) := by
            rw [List.cons_append, List.cons_append, read?_open rfl, List.append_assoc]
        _ = _ := by
            rw [read?_compact item _ _ (apart_compactItems items rest),
              read?_compactItems items _ _ hrest]
            simp [Json.tokens]
  | .object [], _, _, _ => rfl
  | .object ((key, value) :: members), found, rest, hrest => by
      calc read? ⟨.none, found⟩
            ('\x7b' :: quoted key ++ ':' :: value.compact ++ compactMembers members ++ rest)
          = read? ⟨.none, .openObject :: found⟩
              (quoted key ++ ':' :: (value.compact ++ (compactMembers members ++ rest))) := by
            simp only [List.cons_append, List.append_assoc]
            rw [read?_open rfl]
        _ = _ := by
            rw [read?_key, read?_compact value _ _ (apart_compactMembers members rest),
              read?_compactMembers members _ _ hrest]
            simp [Json.tokens]
termination_by structural value => value

theorem read?_compactItems : (items : List Json) → (found : List Token) → (rest : List Char) →
    Apart rest → read? ⟨.none, found⟩ (compactItems items ++ rest) =
      read? ⟨.none, (tokensOfItems items).reverse ++ found⟩ rest
  | [], _, _, _ => rfl
  | item :: items, found, rest, hrest => by
      calc read? ⟨.none, found⟩ (',' :: item.compact ++ compactItems items ++ rest)
          = read? ⟨.none, .comma :: found⟩ (item.compact ++ (compactItems items ++ rest)) := by
            rw [List.cons_append, List.cons_append, read?_open rfl, List.append_assoc]
        _ = _ := by
            rw [read?_compact item _ _ (apart_compactItems items rest),
              read?_compactItems items _ _ hrest]
            simp [tokensOfItems]
termination_by structural items => items

theorem read?_compactMembers : (members : Members) → (found : List Token) →
    (rest : List Char) → Apart rest →
    read? ⟨.none, found⟩ (compactMembers members ++ rest) =
      read? ⟨.none, (tokensOfMembers members).reverse ++ found⟩ rest
  | [], _, _, _ => rfl
  | (key, value) :: members, found, rest, hrest => by
      calc read? ⟨.none, found⟩
            (',' :: quoted key ++ ':' :: value.compact ++ compactMembers members ++ rest)
          = read? ⟨.none, .comma :: found⟩
              (quoted key ++ ':' :: (value.compact ++ (compactMembers members ++ rest))) := by
            simp only [List.cons_append, List.append_assoc]
            rw [read?_open rfl]
        _ = _ := by
            rw [read?_key, read?_compact value _ _ (apart_compactMembers members rest),
              read?_compactMembers members _ _ hrest]
            simp [tokensOfMembers]
termination_by structural members => members

end

/-! ### With one item a line -/

theorem read?_newline (level : Nat) (text : List Char) :
    read? ⟨.none, found⟩ (newline level ++ text) = read? ⟨.none, found⟩ text := by
  apply read?_blanks
  intro char hchar
  rcases List.mem_cons.mp hchar with rfl | hchar
  · rfl
  · rw [List.eq_of_mem_replicate hchar]
    rfl

theorem apart_indentedItems (level : Nat) (items : List Json) (rest : List Char) :
    Apart (indentedItems level items ++ rest) := by
  cases items <;> exact stops_cons rfl _

theorem apart_indentedMembers (level : Nat) (members : Members) (rest : List Char) :
    Apart (indentedMembers level members ++ rest) := by
  cases members <;> exact stops_cons rfl _

theorem read?_indented_key (key : String) (text : List Char) :
    read? ⟨.none, found⟩ (quoted key ++ ':' :: ' ' :: text) =
      read? ⟨.none, .colon :: .string key :: found⟩ text := by
  rw [read?_key, read?_blank rfl]

mutual

theorem read?_indented (level : Nat) : (value : Json) → (found : List Token) →
    (rest : List Char) → Apart rest → read? ⟨.none, found⟩ (indented level value ++ rest) =
      read? ⟨.none, value.tokens.reverse ++ found⟩ rest
  | .null, _, _, hrest => read?_null hrest.word
  | .bool value, _, _, hrest => read?_boolText value hrest.word
  | .number value, _, _, hrest => read?_numberText value hrest.number
  | .string value, _, _, _ => read?_quoted value
  | .array [], _, _, _ => rfl
  | .array (item :: items), found, rest, hrest => by
      calc read? ⟨.none, found⟩ ('[' :: newline (level + 1) ++ indented (level + 1) item ++
            indentedItems level items ++ rest)
          = read? ⟨.none, .openArray :: found⟩
              (indented (level + 1) item ++ (indentedItems level items ++ rest)) := by
            simp only [List.cons_append, List.append_assoc]
            rw [read?_open rfl, read?_newline]
        _ = _ := by
            rw [read?_indented (level + 1) item _ _ (apart_indentedItems level items rest),
              read?_indentedItems level items _ _ hrest]
            simp [Json.tokens]
  | .object [], _, _, _ => rfl
  | .object ((key, value) :: members), found, rest, hrest => by
      calc read? ⟨.none, found⟩ ('\x7b' :: newline (level + 1) ++ quoted key ++ ':' :: ' ' ::
            indented (level + 1) value ++ indentedMembers level members ++ rest)
          = read? ⟨.none, .openObject :: found⟩ (quoted key ++ ':' :: ' ' ::
              (indented (level + 1) value ++ (indentedMembers level members ++ rest))) := by
            simp only [List.cons_append, List.append_assoc]
            rw [read?_open rfl, read?_newline]
        _ = _ := by
            rw [read?_indented_key,
              read?_indented (level + 1) value _ _ (apart_indentedMembers level members rest),
              read?_indentedMembers level members _ _ hrest]
            simp [Json.tokens]
termination_by structural value => value

theorem read?_indentedItems (level : Nat) : (items : List Json) → (found : List Token) →
    (rest : List Char) → Apart rest → read? ⟨.none, found⟩ (indentedItems level items ++ rest) =
      read? ⟨.none, (tokensOfItems items).reverse ++ found⟩ rest
  | [], found, rest, _ => by
      rw [indentedItems, List.append_assoc, read?_newline]
      rfl
  | item :: items, found, rest, hrest => by
      calc read? ⟨.none, found⟩ (',' :: newline (level + 1) ++ indented (level + 1) item ++
            indentedItems level items ++ rest)
          = read? ⟨.none, .comma :: found⟩
              (indented (level + 1) item ++ (indentedItems level items ++ rest)) := by
            simp only [List.cons_append, List.append_assoc]
            rw [read?_open rfl, read?_newline]
        _ = _ := by
            rw [read?_indented (level + 1) item _ _ (apart_indentedItems level items rest),
              read?_indentedItems level items _ _ hrest]
            simp [tokensOfItems]
termination_by structural items => items

theorem read?_indentedMembers (level : Nat) : (members : Members) → (found : List Token) →
    (rest : List Char) → Apart rest →
    read? ⟨.none, found⟩ (indentedMembers level members ++ rest) =
      read? ⟨.none, (tokensOfMembers members).reverse ++ found⟩ rest
  | [], found, rest, _ => by
      rw [indentedMembers, List.append_assoc, read?_newline]
      rfl
  | (key, value) :: members, found, rest, hrest => by
      calc read? ⟨.none, found⟩ (',' :: newline (level + 1) ++ quoted key ++ ':' :: ' ' ::
            indented (level + 1) value ++ indentedMembers level members ++ rest)
          = read? ⟨.none, .comma :: found⟩ (quoted key ++ ':' :: ' ' ::
              (indented (level + 1) value ++ (indentedMembers level members ++ rest))) := by
            simp only [List.cons_append, List.append_assoc]
            rw [read?_open rfl, read?_newline]
        _ = _ := by
            rw [read?_indented_key,
              read?_indented (level + 1) value _ _ (apart_indentedMembers level members rest),
              read?_indentedMembers level members _ _ hrest]
            simp [tokensOfMembers]
termination_by structural members => members

end

end Scan

theorem Scan.read?_end {found : List Token} {blanks : List Char}
    (hblanks : ∀ char ∈ blanks, isBlank char = true) :
    Scan.read? ⟨.none, found⟩ blanks = some found := by
  rw [← List.append_nil blanks, Scan.read?_blanks hblanks]
  rfl

theorem not_isLexemeChar_of_isBlank {char : Char} (hblank : isBlank char = true) :
    isLexemeChar char = false := by
  simp only [isBlank, Bool.or_eq_true, decide_eq_true_eq] at hblank
  rcases hblank with ((rfl | rfl) | rfl) | rfl <;> rfl

theorem tokens?_compact (value : Json) : tokens? value.compact = some value.tokens := by
  have hread := Scan.read?_compact value [] [] nofun
  rw [List.append_nil, List.append_nil] at hread
  rw [tokens?_eq_read?, hread, Scan.read?_end (List.forall_mem_nil _), Option.map_some,
    List.reverse_reverse]

/-- A line break may end the text. -/
theorem tokens?_pretty (value : Json) {blanks : List Char}
    (hblanks : ∀ char ∈ blanks, isBlank char = true) :
    tokens? (value.pretty ++ blanks) = some value.tokens := by
  have hapart : Scan.Apart blanks := fun char hchar =>
    not_isLexemeChar_of_isBlank (hblanks char (List.mem_of_mem_head? hchar))
  rw [tokens?_eq_read?, pretty, Scan.read?_indented 0 value [] blanks hapart, List.append_nil,
    Scan.read?_end hblanks, Option.map_some, List.reverse_reverse]

end BuilderCalls.Json
