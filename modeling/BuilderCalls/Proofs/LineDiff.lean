import BuilderCalls.CommandLine.Terminal
import Mathlib.Data.List.Basic

/-!
# Lines and their differences

Splitting at line breaks undoes joining with them.  The kept and the removed lines of an
alignment are those of the first list, the kept and the added ones those of the second,
along whatever third list the two are aligned.  So the runs of a difference, joined again,
are the two texts that were compared.
-/

namespace BuilderCalls

/-! ## Lines -/

theorem splitLines_eq_splitOn (text : List Char) : splitLines text = text.splitOn '\n' := by
  induction text with
  | nil => rfl
  | cons char text ih =>
      rw [List.splitOn_cons_eq_if_modifyHead, splitLines, ih]
      have hne := List.splitOn_ne_nil '\n' text
      cases hlines : text.splitOn '\n' with
      | nil => exact absurd hlines hne
      | cons line lines => simp

theorem splitLines_ne_nil (text : List Char) : splitLines text ≠ [] := by
  rw [splitLines_eq_splitOn]
  exact List.splitOn_ne_nil '\n' text

theorem splitLines_append (left right : List Char) :
    splitLines (left ++ '\n' :: right) = splitLines left ++ splitLines right := by
  simp only [splitLines_eq_splitOn, List.splitOn_append_cons_self]

theorem splitLines_of_not_mem {text : List Char} (htext : '\n' ∉ text) :
    splitLines text = [text] := by
  rw [splitLines_eq_splitOn]
  exact List.splitOn_eq_singleton htext

/-- Text without a break goes in front of the first line. -/
theorem splitLines_append_of_not_mem {text : List Char} (htext : '\n' ∉ text) (rest : List Char) :
    splitLines (text ++ rest) = (splitLines rest).modifyHead (text ++ ·) := by
  obtain ⟨line, lines, hrest⟩ := List.exists_cons_of_ne_nil (splitLines_ne_nil rest)
  rw [hrest]
  induction text with
  | nil => exact hrest
  | cons char text ih =>
      rw [List.mem_cons, not_or] at htext
      rw [List.cons_append, splitLines, if_neg (Ne.symm htext.1), ih htext.2]
      rfl

theorem newline_not_mem_of_mem_splitLines {text line : List Char} (hline : line ∈ splitLines text) :
    '\n' ∉ line := by
  induction text generalizing line with
  | nil =>
      cases List.mem_singleton.mp hline
      exact List.not_mem_nil
  | cons char text ih =>
      obtain ⟨first, lines, htext⟩ := List.exists_cons_of_ne_nil (splitLines_ne_nil text)
      rw [htext] at ih
      rw [splitLines, htext] at hline
      split_ifs at hline with hchar
      · rcases List.mem_cons.mp hline with rfl | hline
        · exact List.not_mem_nil
        · exact ih hline
      · rcases List.mem_cons.mp hline with rfl | hline
        · rw [List.mem_cons, not_or]
          exact ⟨Ne.symm hchar, ih (.head _)⟩
        · exact ih (.tail _ hline)

theorem newline_not_mem_of_mem_endedLines {text line : List Char} (hline : line ∈ endedLines text) :
    '\n' ∉ line := by
  obtain ⟨pieces, last, hsplit⟩ := (List.eq_nil_or_concat' (splitLines text)).resolve_left
    (splitLines_ne_nil text)
  have hpieces : ∀ piece ∈ pieces ++ [last], '\n' ∉ piece := by
    rw [← hsplit]
    exact fun piece => newline_not_mem_of_mem_splitLines
  have hline : line ∈ pieces.map dropReturn ++ if last = [] then [] else [last] := by
    simpa [endedLines, hsplit] using hline
  rcases List.mem_append.mp hline with hline | hline
  · obtain ⟨piece, hpiece, rfl⟩ := List.mem_map.mp hline
    have hsubset : dropReturn piece ⊆ piece := by
      unfold dropReturn
      split_ifs
      · exact List.dropLast_subset piece
      · exact List.Subset.refl piece
    exact fun hmem => hpieces piece (List.mem_append_left _ hpiece) (hsubset hmem)
  · split_ifs at hline
    · cases hline
    · exact hpieces line (List.mem_append_right _ hline)

theorem splitLines_line {text : List Char} (htext : '\n' ∉ text) (rest : List Char) :
    splitLines (Terminal.line text ++ rest) = text :: splitLines rest := by
  rw [Terminal.line, List.append_assoc, List.singleton_append, splitLines_append,
    splitLines_of_not_mem htext, List.singleton_append]

/-- Lines that were printed are found again, with nothing after the last. -/
theorem splitLines_unlines {texts : List (List Char)} (htexts : ∀ text ∈ texts, '\n' ∉ text) :
    splitLines (Terminal.unlines texts) = texts ++ [[]] := by
  induction texts with
  | nil => rfl
  | cons text texts ih =>
      obtain ⟨htext, htexts⟩ := List.forall_mem_cons.mp htexts
      rw [Terminal.unlines, List.flatMap_cons, splitLines_line htext, ← Terminal.unlines, ih htexts,
        List.cons_append]

def joinLines (texts : List (List Char)) : List Char :=
  ['\n'].intercalate texts

theorem joinLines_splitLines (text : List Char) : joinLines (splitLines text) = text := by
  rw [joinLines, splitLines_eq_splitOn, List.intercalate_splitOn]

/-- The texts that are joined need not be single lines. -/
theorem splitLines_joinLines {texts : List (List Char)} (htexts : texts ≠ []) :
    splitLines (joinLines texts) = texts.flatMap splitLines := by
  induction texts with
  | nil => exact absurd rfl htexts
  | cons text texts ih =>
      cases texts with
      | nil => simp [joinLines]
      | cons next others =>
          have hrest := ih (List.cons_ne_nil next others)
          rw [joinLines, List.intercalate_cons_cons, List.append_assoc, List.singleton_append,
            splitLines_append, ← joinLines, hrest, ← List.flatMap_cons]

theorem joinLines_eq_tail (texts : List (List Char)) :
    joinLines texts = (texts.flatMap ('\n' :: ·)).tail := by
  induction texts with
  | nil => rfl
  | cons text texts ih =>
      cases texts with
      | nil => simp [joinLines]
      | cons next others =>
          rw [joinLines, List.intercalate_cons_cons, ← joinLines, ih]
          simp

/-! ## Full lines -/

/-- A line that has characters, none of them a control character. -/
structure FullLine (line : Line) : Prop where
  nonempty : line ≠ []
  printable : ∀ char ∈ line, 0x20 ≤ char.toNat

theorem FullLine.not_mem {line : Line} (hline : FullLine line) {char : Char}
    (hchar : char.toNat < 0x20) : char ∉ line :=
  fun hmem => absurd (hline.printable char hmem) (Nat.not_le.mpr hchar)

theorem FullLine.dropReturn_eq {line : Line} (hline : FullLine line) : dropReturn line = line := by
  apply if_neg
  intro hreturn
  exact hline.not_mem (by decide) (List.mem_of_getLast? hreturn)

/-- Of a text of full lines nothing is swallowed. -/
theorem endedLines_eq_splitLines {text : List Char}
    (hlines : ∀ line ∈ splitLines text, FullLine line) : endedLines text = splitLines text := by
  obtain ⟨lines, last, hsplit⟩ := (List.eq_nil_or_concat' (splitLines text)).resolve_left
    (splitLines_ne_nil text)
  rw [hsplit] at hlines
  obtain ⟨hlines, hlast⟩ := List.forall_mem_append.mp hlines
  have hdropped : lines.map dropReturn = lines :=
    (List.map_congr_left fun line hline => (hlines line hline).dropReturn_eq).trans
      (List.map_id' lines)
  have hlast := (List.forall_mem_singleton.mp hlast).nonempty
  simp [endedLines, hsplit, hdropped, hlast]

namespace LineDiff

/-! ## Sides -/

def Change.inFirst : Change → Bool
  | .kept | .removed => true
  | .added => false

def Change.inSecond : Change → Bool
  | .kept | .added => true
  | .removed => false

def sideLines (holds : Change → Bool) (changes : List (Change × Line)) : List Line :=
  (changes.filter fun change => holds change.1).map Prod.snd

def side (holds : Change → Bool) (segments : List Segment) : List (List Char) :=
  (segments.filter fun segment => holds segment.change).map Segment.text

/-- The runs that a difference of two texts is handed on in: those of either side, joined
with line breaks, are the text of that side. -/
structure Splits (segments : List Segment) (first second : List Char) : Prop where
  first : joinLines (side Change.inFirst segments) = first
  second : joinLines (side Change.inSecond segments) = second

@[simp] theorem sideLines_nil (holds : Change → Bool) : sideLines holds [] = [] := rfl

@[simp] theorem sideLines_cons (holds : Change → Bool) (change : Change) (line : Line)
    (changes : List (Change × Line)) :
    sideLines holds ((change, line) :: changes) =
      (if holds change then [line] else []) ++ sideLines holds changes := by
  cases hholds : holds change <;> simp [sideLines, hholds]

@[simp] theorem side_cons (holds : Change → Bool) (segment : Segment) (segments : List Segment) :
    side holds (segment :: segments) =
      (if holds segment.change then [segment.text] else []) ++ side holds segments := by
  cases hholds : holds segment.change <;> simp [side, hholds]

theorem sideLines_align_first (expected actual shared : List Line) :
    sideLines Change.inFirst (align expected actual shared) = expected := by
  fun_induction align expected actual shared <;> simp_all [Change.inFirst]

theorem sideLines_align_second (expected actual shared : List Line) :
    sideLines Change.inSecond (align expected actual shared) = actual := by
  fun_induction align expected actual shared <;> simp_all [Change.inSecond]

/-- A run is its lines with a break between each and the next. -/
theorem side_segments (holds : Change → Bool) (changes : List (Change × Line)) :
    (side holds (segments changes)).flatMap ('\n' :: ·) =
      (sideLines holds changes).flatMap ('\n' :: ·) := by
  induction changes with
  | nil => rfl
  | cons change changes ih =>
      obtain ⟨change, line⟩ := change
      rw [sideLines_cons, List.flatMap_append, ← ih, segments]
      cases hrest : segments changes with
      | nil => simp
      | cons next others =>
          by_cases hsame : next.change = change
          · cases hholds : holds change <;> simp [hsame, hholds]
          · simp [hsame]

theorem joinLines_side_segments (holds : Change → Bool) (changes : List (Change × Line)) :
    joinLines (side holds (segments changes)) = joinLines (sideLines holds changes) := by
  rw [joinLines_eq_tail, side_segments, ← joinLines_eq_tail]

theorem splits_compare (first second : List Char) : Splits (compare first second) first second where
  first := by
    rw [compare, joinLines_side_segments, lines, sideLines_align_first, joinLines_splitLines]
  second := by
    rw [compare, joinLines_side_segments, lines, sideLines_align_second, joinLines_splitLines]

end LineDiff

end BuilderCalls
