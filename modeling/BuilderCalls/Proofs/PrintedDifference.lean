import BuilderCalls.Proofs.Json.Pretty

/-!
# Printed differences

The runs of a difference are split into lines again as they are printed, and that splitting
drops empty lines and carriage returns.  Indented texts have neither, so a printed difference
of two values shows both texts: the first in the lines marked as kept or removed, the second
in those marked as kept or added.
-/

namespace BuilderCalls.Terminal

/-! ## Output without colours -/

/-- What stands outside the escape sequences, each of which an `m` ends; the flag tells
whether the text starts inside one. -/
def outsideCodes : Bool → List Char → List Char
  | _, [] => []
  | true, char :: rest => outsideCodes (char ≠ 'm') rest
  | false, char :: rest =>
      if char = '\x1b' then outsideCodes true rest else char :: outsideCodes false rest

def withoutCodes (output : List Char) : List Char :=
  outsideCodes false output

theorem withoutCodes_append {text : List Char} (htext : '\x1b' ∉ text) (rest : List Char) :
    withoutCodes (text ++ rest) = text ++ withoutCodes rest := by
  induction text with
  | nil => rfl
  | cons char text ih =>
      rw [List.mem_cons, not_or] at htext
      rw [List.cons_append, withoutCodes, outsideCodes, if_neg (Ne.symm htext.1), ← withoutCodes,
        ih htext.2, List.cons_append]

theorem withoutCodes_sequence {codes : List Char} (hcodes : 'm' ∉ codes) (rest : List Char) :
    withoutCodes (sequence codes ++ rest) = withoutCodes rest := by
  have hinside : outsideCodes true (codes ++ 'm' :: rest) = withoutCodes rest := by
    induction codes with
    | nil => rfl
    | cons char codes ih =>
        rw [List.mem_cons, not_or] at hcodes
        rw [List.cons_append, outsideCodes, decide_eq_true (Ne.symm hcodes.1), ih hcodes.2]
  simpa [sequence, withoutCodes, outsideCodes] using hinside

theorem withoutCodes_reset (colored : Bool) (rest : List Char) :
    withoutCodes (reset colored ++ rest) = withoutCodes rest := by
  cases colored with
  | false => rfl
  | true => exact withoutCodes_sequence (by decide) rest

theorem withoutCodes_changeColor (colored : Bool) (change : LineDiff.Change) (rest : List Char) :
    withoutCodes (changeColor colored change ++ rest) = withoutCodes rest := by
  have hcolor (color : Color) :
      withoutCodes (setColor colored false color ++ rest) = withoutCodes rest := by
    cases colored with
    | false => rfl
    | true =>
        have hcode : 'm' ∉ ['3', color.code] := by cases color <;> decide
        have hset : setColor true false color ++ rest =
            reset true ++ (sequence ['3', color.code] ++ rest) := by
          simp [setColor]
        rw [hset, withoutCodes_reset, withoutCodes_sequence hcode]
  cases change with
  | kept => exact withoutCodes_reset colored rest
  | removed => exact hcolor .red
  | added => exact hcolor .green

/-! ## Marked lines -/

/-- The lines that start with one of the marks, without it. -/
def marked (marks : List Char) (lines : List Line) : List Line :=
  lines.filterMap fun
    | [] => none
    | mark :: line => if mark ∈ marks then some line else none

/-- The lines of the output, colours aside: those marked as kept or removed are the lines of
the first text, those marked as kept or added the lines of the second. -/
structure Shows (output first second : List Char) : Prop where
  first : marked [' ', '-'] (splitLines (withoutCodes output)) = splitLines first
  second : marked [' ', '+'] (splitLines (withoutCodes output)) = splitLines second

def printedLines (segment : LineDiff.Segment) : List Line :=
  (endedLines segment.text).map (changeMark segment.change :: ·)

variable {segments : List LineDiff.Segment}

theorem marked_printedLines {marks : List Char} {holds : LineDiff.Change → Bool}
    (hmarks : ∀ change, changeMark change ∈ marks ↔ holds change = true)
    (segments : List LineDiff.Segment) :
    marked marks (segments.flatMap printedLines) =
      (LineDiff.side holds segments).flatMap endedLines := by
  induction segments with
  | nil => rfl
  | cons segment segments ih =>
      rw [List.flatMap_cons, marked, List.filterMap_append, ← marked, ← marked, ih,
        LineDiff.side_cons, List.flatMap_append]
      congr 1
      by_cases hholds : holds segment.change = true
      · have hmark := (hmarks segment.change).mpr hholds
        simp [marked, printedLines, hmark, hholds, List.filterMap_map]
      · have hmark := mt (hmarks segment.change).mp hholds
        simp [marked, printedLines, hmark, hholds, List.filterMap_map]

theorem escape_not_mem_unlines {texts : List Line} (htexts : ∀ text ∈ texts, FullLine text) :
    '\x1b' ∉ unlines texts := by
  intro hmem
  obtain ⟨text, htext, hmem⟩ := List.mem_flatMap.mp hmem
  rcases List.mem_append.mp hmem with hmem | hmem
  · exact (htexts text htext).not_mem (by decide) hmem
  · cases List.eq_of_mem_singleton hmem

theorem fullLine_printedLines {segment : LineDiff.Segment}
    (hlines : ∀ line ∈ endedLines segment.text, FullLine line) :
    ∀ line ∈ printedLines segment, FullLine line := by
  have hmark : 0x20 ≤ (changeMark segment.change).toNat := by
    cases segment.change <;> decide
  intro line hline
  obtain ⟨text, htext, rfl⟩ := List.mem_map.mp hline
  exact ⟨List.cons_ne_nil _ text, List.forall_mem_cons.mpr ⟨hmark, (hlines text htext).printable⟩⟩

theorem segment_eq (colored : Bool) (run : LineDiff.Segment) :
    segment colored run = changeColor colored run.change ++ unlines (printedLines run) := by
  rw [segment, unlines, printedLines, List.flatMap_map]
  rfl

/-- Without its codes, the output is the marked lines of the runs. -/
theorem withoutCodes_changes (colored : Bool)
    (hlines : ∀ segment ∈ segments, ∀ line ∈ endedLines segment.text, FullLine line) :
    withoutCodes (changes colored segments) = unlines (segments.flatMap printedLines) := by
  induction segments with
  | nil =>
      have hreset := withoutCodes_reset colored []
      rwa [List.append_nil] at hreset
  | cons run segments ih =>
      obtain ⟨hrun, hlines⟩ := List.forall_mem_cons.mp hlines
      have hescape := escape_not_mem_unlines (fullLine_printedLines hrun)
      rw [changes, List.flatMap_cons, List.append_assoc, ← changes, segment_eq, List.append_assoc,
        withoutCodes_changeColor, withoutCodes_append hescape, ih hlines, List.flatMap_cons]
      exact List.flatMap_append.symm

/-! ## Both texts are shown -/

section Sides

variable {holds : LineDiff.Change → Bool} {text : List Char}

/-- The lines of the runs of either side are the lines of that side's text. -/
theorem flatMap_splitLines_side (hjoined : joinLines (LineDiff.side holds segments) = text)
    (htext : ∀ line ∈ splitLines text, FullLine line) :
    (LineDiff.side holds segments).flatMap splitLines = splitLines text := by
  have hne : LineDiff.side holds segments ≠ [] := by
    intro hnil
    rw [hnil] at hjoined
    subst hjoined
    exact (htext [] (List.mem_singleton_self [])).nonempty rfl
  rw [← hjoined, splitLines_joinLines hne]

theorem fullLine_of_holds (hjoined : joinLines (LineDiff.side holds segments) = text)
    (htext : ∀ line ∈ splitLines text, FullLine line) {run : LineDiff.Segment}
    (hrun : run ∈ segments) (hholds : holds run.change = true) :
    ∀ line ∈ splitLines run.text, FullLine line := by
  intro line hline
  have hside : run.text ∈ LineDiff.side holds segments :=
    List.mem_map_of_mem (List.mem_filter.mpr ⟨hrun, hholds⟩)
  apply htext
  rw [← flatMap_splitLines_side hjoined htext]
  exact List.mem_flatMap.mpr ⟨run.text, hside, hline⟩

/-- Nothing of a run is swallowed when it is split again, so the lines under the marks of a
side are that side's lines. -/
theorem marked_changes (colored : Bool) {marks : List Char}
    (hmarks : ∀ change, changeMark change ∈ marks ↔ holds change = true)
    (hruns : ∀ run ∈ segments, ∀ line ∈ splitLines run.text, FullLine line)
    (hjoined : joinLines (LineDiff.side holds segments) = text)
    (htext : ∀ line ∈ splitLines text, FullLine line) :
    marked marks (splitLines (withoutCodes (changes colored segments))) = splitLines text := by
  have hended (run : LineDiff.Segment) (hrun : run ∈ segments) :
      endedLines run.text = splitLines run.text :=
    endedLines_eq_splitLines (hruns run hrun)
  have hlines : ∀ run ∈ segments, ∀ line ∈ endedLines run.text, FullLine line := by
    intro run hrun
    rw [hended run hrun]
    exact hruns run hrun
  have hprinted : ∀ line ∈ segments.flatMap printedLines, '\n' ∉ line := by
    intro line hline
    obtain ⟨run, hrun, hline⟩ := List.mem_flatMap.mp hline
    exact (fullLine_printedLines (hlines run hrun) line hline).not_mem (by decide)
  have hside : (LineDiff.side holds segments).flatMap endedLines =
      (LineDiff.side holds segments).flatMap splitLines := by
    refine List.flatMap_congr fun text htext => ?_
    obtain ⟨run, hrun, rfl⟩ := List.mem_map.mp htext
    exact hended run (List.mem_of_mem_filter hrun)
  calc marked marks (splitLines (withoutCodes (changes colored segments)))
      = marked marks (segments.flatMap printedLines ++ [[]]) := by
        rw [withoutCodes_changes colored hlines, splitLines_unlines hprinted]
    _ = marked marks (segments.flatMap printedLines) := by
        simp [marked]
    _ = (LineDiff.side holds segments).flatMap endedLines := marked_printedLines hmarks segments
    _ = splitLines text := hside.trans (flatMap_splitLines_side hjoined htext)

end Sides

theorem shows_changes (colored : Bool) {first second : List Char}
    (hsplits : LineDiff.Splits segments first second)
    (hfirst : ∀ line ∈ splitLines first, FullLine line)
    (hsecond : ∀ line ∈ splitLines second, FullLine line) :
    Shows (changes colored segments) first second := by
  have hruns : ∀ run ∈ segments, ∀ line ∈ splitLines run.text, FullLine line := by
    intro run hrun
    cases hchange : run.change with
    | kept | removed =>
        exact fullLine_of_holds hsplits.first hfirst hrun (by rw [hchange]; rfl)
    | added =>
        exact fullLine_of_holds hsplits.second hsecond hrun (by rw [hchange]; rfl)
  have hmarksFirst (change : LineDiff.Change) :
      changeMark change ∈ [' ', '-'] ↔ change.inFirst = true := by
    cases change <;> decide
  have hmarksSecond (change : LineDiff.Change) :
      changeMark change ∈ [' ', '+'] ↔ change.inSecond = true := by
    cases change <;> decide
  constructor
  · exact marked_changes colored hmarksFirst hruns hsplits.first hfirst
  · exact marked_changes colored hmarksSecond hruns hsplits.second hsecond

/--
The printed difference of two values shows both of their indented texts, with or without
colours, and so it does for any runs that the comparison might hand on, as long as those of
either side make up its text.
-/
theorem printed_differences_show_both_texts (colored : Bool) (expected actual : Json) :
    Shows (difference colored expected.pretty actual.pretty) expected.pretty actual.pretty ∧
      ∀ segments, LineDiff.Splits segments expected.pretty actual.pretty →
        Shows (changes colored segments) expected.pretty actual.pretty := by
  have hshows (segments : List LineDiff.Segment)
      (hsplits : LineDiff.Splits segments expected.pretty actual.pretty) :
      Shows (changes colored segments) expected.pretty actual.pretty :=
    shows_changes colored hsplits expected.fullLine_pretty actual.fullLine_pretty
  exact ⟨hshows _ (LineDiff.splits_compare expected.pretty actual.pretty), hshows⟩

def mixedItems : Json :=
  .array [.string "a\r\n\nb", .bool true, .array []]

def fewerItems : Json :=
  .array [.string "", .array []]

/-- Other runs than those of `LineDiff.compare`: the last two lines apart. -/
def coarseRuns : List LineDiff.Segment :=
  [⟨.kept, ['[']⟩, ⟨.added, "  \"\",".toList⟩, ⟨.removed, "  \"a\\r\\n\\nb\",\n  true,".toList⟩,
    ⟨.kept, "  []".toList⟩, ⟨.kept, [']']⟩]

theorem printed_differences_show_both_texts_items :
    LineDiff.Splits coarseRuns mixedItems.pretty fewerItems.pretty ∧
      Shows (changes true coarseRuns) mixedItems.pretty fewerItems.pretty := by
  have hsplits : LineDiff.Splits coarseRuns mixedItems.pretty fewerItems.pretty :=
    ⟨by decide +kernel, by decide +kernel⟩
  have hshows := (printed_differences_show_both_texts true mixedItems fewerItems).2
  exact ⟨hsplits, hshows coarseRuns hsplits⟩

end BuilderCalls.Terminal
