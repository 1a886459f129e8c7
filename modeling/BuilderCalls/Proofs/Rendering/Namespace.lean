import BuilderCalls.Rendering
import Mathlib.Computability.Language
import Mathlib.Data.List.Basic

/-!
# Namespaces as dotted identifiers

Three readings of a namespace agree: the scan that a renderer makes of it, the regular
expression of an identifier with any number of others after it, each behind a point, and the
split at every point into parts that are identifiers.
-/

namespace BuilderCalls

namespace Namespace

/-! ## Identifiers -/

def Between (first last char : Char) : Prop :=
  first.toNat ≤ char.toNat ∧ char.toNat ≤ last.toNat

/-- The class `[A-Za-z_$]`. -/
def MayStart (char : Char) : Prop :=
  Between 'A' 'Z' char ∨ Between 'a' 'z' char ∨ char = '_' ∨ char = '$'

/-- The class `[A-Za-z0-9_$]`. -/
def MayFollow (char : Char) : Prop :=
  MayStart char ∨ Between '0' '9' char

def Identifier : List Char → Prop
  | [] => False
  | first :: rest => MayStart first ∧ ∀ char ∈ rest, MayFollow char

instance (first last : Char) : DecidablePred (Between first last) :=
  fun _ => inferInstanceAs (Decidable (_ ∧ _))

instance : DecidablePred MayStart :=
  fun _ => inferInstanceAs (Decidable (_ ∨ _))

instance : DecidablePred MayFollow :=
  fun _ => inferInstanceAs (Decidable (_ ∨ _))

instance : DecidablePred Identifier
  | [] => inferInstanceAs (Decidable False)
  | first :: rest =>
      -- Of the characters only those of the list are to be tried.
      haveI := List.decidableBAll MayFollow rest
      inferInstanceAs (Decidable (MayStart first ∧ ∀ char ∈ rest, MayFollow char))

/-- Every part between two points, or between a point and an end, is an identifier. -/
def DottedIdentifiers (text : List Char) : Prop :=
  ∀ part ∈ text.splitOn '.', Identifier part

theorem isAlpha_iff {char : Char} :
    char.isAlpha = true ↔ Between 'A' 'Z' char ∨ Between 'a' 'z' char := by
  have hupper : char.isUpper = true ↔ Between 'A' 'Z' char := decide_eq_true_iff
  have hlower : char.isLower = true ↔ Between 'a' 'z' char :=
    Bool.and_eq_true_iff.trans (and_congr decide_eq_true_iff decide_eq_true_iff)
  rw [← hupper, ← hlower]
  exact Bool.or_eq_true_iff

theorem isPartStart_iff {char : Char} : isPartStart char = true ↔ MayStart char := by
  rw [isPartStart, Bool.or_eq_true, Bool.or_eq_true, isAlpha_iff, decide_eq_true_eq,
    decide_eq_true_eq, MayStart, or_assoc, or_assoc]

theorem isPartChar_iff {char : Char} : isPartChar char = true ↔ MayFollow char := by
  have hclasses : isPartChar char = (isPartStart char || char.isDigit) := by
    have halphanum : char.isAlphanum = (char.isAlpha || char.isDigit) := rfl
    rw [isPartChar, isPartStart, halphanum]
    ac_rfl
  rw [hclasses, Bool.or_eq_true, isPartStart_iff, Char.isDigit_iff_toNat]
  rfl

theorem Between.mono {first first' last last' char : Char} (hchar : Between first last char)
    (hfirst : first'.toNat ≤ first.toNat) (hlast : last.toNat ≤ last'.toNat) :
    Between first' last' char :=
  ⟨hfirst.trans hchar.1, hchar.2.trans hlast⟩

/-- All of these are visible characters of ASCII. -/
theorem MayFollow.between {char : Char} (hchar : MayFollow char) : Between '$' 'z' char := by
  rcases hchar with (hupper | hlower | rfl | rfl) | hdigit
  · exact hupper.mono (by decide) (by decide)
  · exact hlower.mono (by decide) (by decide)
  · decide
  · decide
  · exact hdigit.mono (by decide) (by decide)

theorem Identifier.forall_mayFollow {part : List Char} (hpart : Identifier part) :
    ∀ char ∈ part, MayFollow char := by
  cases part with
  | nil => cases hpart
  | cons first rest => exact List.forall_mem_cons.mpr ⟨.inl hpart.1, hpart.2⟩

theorem point_not_mayFollow : ¬MayFollow '.' := by
  rw [← isPartChar_iff]
  decide

theorem Identifier.point_not_mem {part : List Char} (hpart : Identifier part) : '.' ∉ part :=
  fun hpoint => point_not_mayFollow (hpart.forall_mayFollow _ hpoint)

/-! ## The scan -/

/-- What the scan accepts before the next point. -/
def Rest : (inside : Bool) → List Char → Prop
  | true, part => ∀ char ∈ part, MayFollow char
  | false, part => Identifier part

theorem scan_eq_true_iff {inside : Bool} {text first : List Char} {others : List (List Char)}
    (hsplit : text.splitOn '.' = first :: others) :
    scan inside text = true ↔ Rest inside first ∧ ∀ part ∈ others, Identifier part := by
  induction text generalizing inside first others with
  | nil =>
      cases hsplit
      cases inside <;> simp [scan, Rest, Identifier]
  | cons char text ih =>
      obtain ⟨next, later, hrest⟩ := List.exists_cons_of_ne_nil (List.splitOn_ne_nil '.' text)
      rw [List.splitOn_cons_eq_if_modifyHead, hrest] at hsplit
      by_cases hpoint : char = '.'
      · rw [if_pos (beq_iff_eq.mpr hpoint)] at hsplit
        cases hsplit
        cases inside with
        | false =>
            have hstart : isPartStart '.' = false := by decide
            simp [scan, hpoint, hstart, Rest, Identifier]
        | true =>
            rw [scan, if_pos hpoint, ih hrest, List.forall_mem_cons]
            simp [Rest]
      · rw [if_neg (by simpa using hpoint), List.modifyHead_cons] at hsplit
        cases hsplit
        cases inside with
        | false =>
            rw [scan, Bool.and_eq_true, isPartStart_iff, ih hrest, ← and_assoc]
            rfl
        | true =>
            rw [scan, if_neg hpoint, Bool.and_eq_true, isPartChar_iff, ih hrest, ← and_assoc]
            simp [Rest]

theorem isDotted_iff {text : String} : isDotted text = true ↔ DottedIdentifiers text.toList := by
  obtain ⟨first, others, hsplit⟩ :=
    List.exists_cons_of_ne_nil (List.splitOn_ne_nil '.' text.toList)
  rw [isDotted, scan_eq_true_iff hsplit, DottedIdentifiers, hsplit, List.forall_mem_cons]
  rfl

/-! ## The regular expression -/

section Expression

open scoped Computability

/-- The words of one character that belongs to the class. -/
def oneOf (class? : Char → Prop) : Language Char :=
  {word | ∃ char, class? char ∧ word = [char]}

def identifiers : Language Char :=
  oneOf MayStart * (oneOf MayFollow)∗

/-- The language of `[A-Za-z_$][A-Za-z0-9_$]*(\.[A-Za-z_$][A-Za-z0-9_$]*)*`. -/
def dotted : Language Char :=
  identifiers * (oneOf (· = '.') * identifiers)∗

theorem mem_kstar_oneOf_iff {class? : Char → Prop} {word : List Char} :
    word ∈ (oneOf class?)∗ ↔ ∀ char ∈ word, class? char := by
  rw [Language.mem_kstar]
  constructor
  · rintro ⟨words, rfl, hwords⟩ char hchar
    obtain ⟨word, hword, hchar⟩ := List.mem_flatten.mp hchar
    obtain ⟨only, honly, rfl⟩ := hwords word hword
    rw [List.mem_singleton.mp hchar]
    exact honly
  · intro hchars
    refine ⟨word.map ([·]), by rw [← List.flatMap_def, List.flatMap_singleton'], ?_⟩
    rw [List.forall_mem_map]
    exact fun char hchar => ⟨char, hchars char hchar, rfl⟩

theorem mem_identifiers_iff {word : List Char} : word ∈ identifiers ↔ Identifier word := by
  rw [identifiers, Language.mem_mul]
  constructor
  · rintro ⟨_, ⟨first, hfirst, rfl⟩, rest, hrest, rfl⟩
    exact ⟨hfirst, mem_kstar_oneOf_iff.mp hrest⟩
  · intro hword
    cases word with
    | nil => cases hword
    | cons first rest =>
        exact ⟨[first], ⟨first, hword.1, rfl⟩, rest, mem_kstar_oneOf_iff.mpr hword.2, rfl⟩

theorem mem_kstar_pointed_iff {text : List Char} :
    text ∈ (oneOf (· = '.') * identifiers)∗ ↔
      ∃ parts : List (List Char), (∀ part ∈ parts, Identifier part) ∧
        text = parts.flatMap ('.' :: ·) := by
  rw [Language.mem_kstar]
  constructor
  · rintro ⟨words, rfl, hwords⟩
    induction words with
    | nil => exact ⟨[], List.forall_mem_nil _, rfl⟩
    | cons word words ih =>
        obtain ⟨hword, hwords⟩ := List.forall_mem_cons.mp hwords
        obtain ⟨parts, hparts, hrest⟩ := ih hwords
        obtain ⟨_, ⟨_, rfl, rfl⟩, part, hpart, rfl⟩ := Language.mem_mul.mp hword
        refine ⟨part :: parts, List.forall_mem_cons.mpr ⟨mem_identifiers_iff.mp hpart, hparts⟩, ?_⟩
        rw [List.flatten_cons, hrest]
        rfl
  · rintro ⟨parts, hparts, rfl⟩
    refine ⟨parts.map ('.' :: ·), List.flatMap_def, ?_⟩
    rw [List.forall_mem_map]
    exact fun part hpart => Language.mem_mul.mpr
      ⟨['.'], ⟨'.', rfl, rfl⟩, part, mem_identifiers_iff.mpr (hparts part hpart), rfl⟩

theorem intercalate_point (first : List Char) (others : List (List Char)) :
    ['.'].intercalate (first :: others) = first ++ others.flatMap ('.' :: ·) := by
  induction others generalizing first with
  | nil => simp
  | cons next others ih => rw [List.intercalate_cons_cons, ih]; simp

theorem mem_dotted_iff_intercalate {text : List Char} :
    text ∈ dotted ↔ ∃ first others, (∀ part ∈ first :: others, Identifier part) ∧
      text = ['.'].intercalate (first :: others) := by
  simp only [dotted, Language.mem_mul, mem_identifiers_iff, mem_kstar_pointed_iff,
    intercalate_point, List.forall_mem_cons]
  constructor
  · rintro ⟨first, hfirst, _, ⟨others, hothers, rfl⟩, rfl⟩
    exact ⟨first, others, ⟨hfirst, hothers⟩, rfl⟩
  · rintro ⟨first, others, ⟨hfirst, hothers⟩, rfl⟩
    exact ⟨first, hfirst, _, ⟨others, hothers, rfl⟩, rfl⟩

theorem mem_dotted_iff {text : List Char} : text ∈ dotted ↔ DottedIdentifiers text := by
  rw [mem_dotted_iff_intercalate, DottedIdentifiers]
  constructor
  · rintro ⟨first, others, hparts, rfl⟩
    rw [List.splitOn_intercalate '.' (fun part hpart => (hparts part hpart).point_not_mem)
      (List.cons_ne_nil first others)]
    exact hparts
  · intro hparts
    obtain ⟨first, others, hsplit⟩ :=
      List.exists_cons_of_ne_nil (List.splitOn_ne_nil '.' text)
    refine ⟨first, others, hsplit ▸ hparts, ?_⟩
    rw [← hsplit, List.intercalate_splitOn]

end Expression

/-! ## What a namespace may hold -/

namespace DottedIdentifiers

variable {text before after : List Char}

theorem ne_nil (htext : DottedIdentifiers text) : text ≠ [] := by
  rintro rfl
  exact htext [] (List.mem_singleton.mpr rfl)

theorem append_iff : DottedIdentifiers (before ++ '.' :: after) ↔
    DottedIdentifiers before ∧ DottedIdentifiers after := by
  simp only [DottedIdentifiers, List.splitOn_append_cons_self, List.forall_mem_append]

theorem head_ne_point (htext : DottedIdentifiers text) : text.head? ≠ some '.' := by
  intro hhead
  obtain ⟨rest, rfl⟩ := List.head?_eq_some_iff.mp hhead
  have hempty : DottedIdentifiers ([] ++ '.' :: rest) := htext
  exact (append_iff.mp hempty).1.ne_nil rfl

theorem between (htext : DottedIdentifiers text) : ∀ char ∈ text, Between '$' 'z' char := by
  obtain ⟨first, others, hparts, rfl⟩ :=
    mem_dotted_iff_intercalate.mp (mem_dotted_iff.mpr htext)
  obtain ⟨hfirst, hothers⟩ := List.forall_mem_cons.mp hparts
  intro char hchar
  rw [intercalate_point] at hchar
  rcases List.mem_append.mp hchar with hchar | hchar
  · exact (hfirst.forall_mayFollow char hchar).between
  · obtain ⟨part, hpart, hchar⟩ := List.mem_flatMap.mp hchar
    rcases List.mem_cons.mp hchar with rfl | hchar
    · decide
    · exact ((hothers part hpart).forall_mayFollow char hchar).between

end DottedIdentifiers

/-! ## Renderers -/

theorem exists_renderer_iff {namespaceName : String} {quote : Quote} :
    (∃ renderer, Renderer.ofOptions ⟨namespaceName, quote⟩ = .ok renderer) ↔
      DottedIdentifiers namespaceName.toList := by
  rw [← isDotted_iff, Renderer.ofOptions]
  split
  next hdotted => simpa using hdotted
  next hdotted => simpa using hdotted

theorem options_of_renderer {options : RenderOptions} {renderer : Renderer}
    (hrenderer : Renderer.ofOptions options = .ok renderer) :
    renderer.namespaceName = options.namespaceName ∧ renderer.quote = options.quote := by
  unfold Renderer.ofOptions at hrenderer
  split at hrenderer
  next =>
    cases hrenderer
    exact ⟨rfl, rfl⟩
  next => cases hrenderer

theorem ofOptions_eq_error_iff {namespaceName : String} {quote : Quote} {failure : Failure} :
    Renderer.ofOptions ⟨namespaceName, quote⟩ = .error failure ↔
      ¬DottedIdentifiers namespaceName.toList ∧
        failure = .unwritable namespaceName .namespaceForm := by
  rw [← isDotted_iff, Renderer.ofOptions]
  split
  next hdotted => simp [hdotted]
  next hdotted => rw [Except.error.injEq, eq_comm, and_iff_right hdotted]

/--
A renderer is made for a namespace and either quote exactly when all parts between the points
are identifiers, which the regular expression of a dotted identifier says too.  Otherwise the
failure names the namespace.  A namespace that is accepted has a part on either side of every
point, and no characters but ASCII ones that are visible.
-/
theorem namespaces_are_dotted_identifiers (namespaceName : String) :
    (∀ quote, (∃ renderer, Renderer.ofOptions ⟨namespaceName, quote⟩ = .ok renderer) ↔
      ∀ part ∈ namespaceName.toList.splitOn '.', Identifier part) ∧
    (∀ quote renderer, Renderer.ofOptions ⟨namespaceName, quote⟩ = .ok renderer →
      renderer.namespaceName = namespaceName ∧ renderer.quote = quote) ∧
    (∀ quote failure, Renderer.ofOptions ⟨namespaceName, quote⟩ = .error failure ↔
      (∃ part ∈ namespaceName.toList.splitOn '.', ¬Identifier part) ∧
        failure = .unwritable namespaceName .namespaceForm) ∧
    (namespaceName.toList ∈ dotted ↔
      ∀ part ∈ namespaceName.toList.splitOn '.', Identifier part) ∧
    (namespaceName.toList ∈ dotted →
      (∀ char ∈ namespaceName.toList, Between '$' 'z' char) ∧
        ∀ before after, namespaceName.toList = before ++ '.' :: after →
          before ≠ [] ∧ after ≠ [] ∧ after.head? ≠ some '.') := by
  refine ⟨fun quote => exists_renderer_iff, fun quote renderer => options_of_renderer,
    fun quote failure => ?_, mem_dotted_iff, fun hdotted => ?_⟩
  · simp only [ofOptions_eq_error_iff, DottedIdentifiers, not_forall, exists_prop]
  · have hparts := mem_dotted_iff.mp hdotted
    refine ⟨hparts.between, fun before after hsplit => ?_⟩
    rw [hsplit, DottedIdentifiers.append_iff] at hparts
    exact ⟨hparts.1.ne_nil, hparts.2.ne_nil, hparts.2.head_ne_point⟩

theorem namespaces_are_dotted_identifiers_builders :
    (∀ part ∈ "$t.b_1".toList.splitOn '.', Identifier part) ∧
    (∃ renderer, Renderer.ofOptions ⟨"$t.b_1", .double⟩ = .ok renderer ∧
      renderer.namespaceName = "$t.b_1" ∧ renderer.quote = .double) ∧
    ("$t.b_1".toList = "$t".toList ++ '.' :: "b_1".toList ∧
      "b_1".toList.head? ≠ some '.') ∧
    (∃ part ∈ "j\n".toList.splitOn '.', ¬Identifier part) ∧
    ∀ quote, Renderer.ofOptions ⟨"j\n", quote⟩ = .error (.unwritable "j\n" .namespaceForm) := by
  obtain ⟨haccepted, hoptions, -, hexpression, hheld⟩ := namespaces_are_dotted_identifiers "$t.b_1"
  obtain ⟨-, -, hrefused, -, -⟩ := namespaces_are_dotted_identifiers "j\n"
  have hparts : ∀ part ∈ "$t.b_1".toList.splitOn '.', Identifier part := by
    decide +kernel
  have hsplit : "$t.b_1".toList = "$t".toList ++ '.' :: "b_1".toList := by
    decide +kernel
  have hpart : ∃ part ∈ "j\n".toList.splitOn '.', ¬Identifier part := by
    decide +kernel
  obtain ⟨renderer, hrenderer⟩ := (haccepted .double).mpr hparts
  refine ⟨hparts, ⟨renderer, hrenderer, hoptions .double renderer hrenderer⟩, ⟨hsplit, ?_⟩, hpart,
    fun quote => (hrefused quote _).mpr ⟨hpart, rfl⟩⟩
  exact ((hheld (hexpression.mpr hparts)).2 _ _ hsplit).2.2

end Namespace

end BuilderCalls
