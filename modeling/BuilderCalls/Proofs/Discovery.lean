import BuilderCalls.CommandLine.Run
import BuilderCalls.Proofs.Result
import Mathlib.Data.List.Nodup

/-!
# Programs below a directory

A walk that does not stop is searched for programs, which come in the order of their paths.
That order is total and strict on distinct paths, so the list of programs depends on what the
walk tells of and not on the order in which it does (`listed_eq_of_perm`).
-/

namespace BuilderCalls.CommandLine

/-! ## The order of paths -/

/-- Component by component, each by its characters; a path comes before those below it. -/
abbrev Before : List String → List String → Prop :=
  List.Lex fun left right => left < right

section Order

variable {left right : List String}

theorem pathLe_cons_iff {name name' : String} {names names' : List String} :
    pathLe (name :: names) (name' :: names') = true ↔
      name < name' ∨ name = name' ∧ pathLe names names' = true := by
  rw [pathLe]
  split
  · next hname =>
      subst hname
      constructor
      · exact fun hle => .inr ⟨rfl, hle⟩
      · rintro (hless | ⟨-, hle⟩)
        · exact absurd hless (String.lt_irrefl name)
        · exact hle
  · next hname => simp [hname]

theorem before_cons_iff {name name' : String} {names names' : List String} :
    Before (name :: names) (name' :: names') ↔
      name < name' ∨ name = name' ∧ Before names names' :=
  List.cons_lex_cons_iff

theorem Before.ne (hbefore : Before left right) : left ≠ right := by
  rintro rfl
  induction left with
  | nil => cases hbefore
  | cons name names ih =>
      rcases before_cons_iff.mp hbefore with hless | ⟨-, hbefore⟩
      · exact String.lt_irrefl name hless
      · exact ih hbefore

theorem pathLe_iff : pathLe left right = true ↔ left = right ∨ Before left right := by
  induction left generalizing right with
  | nil => cases right <;> simp [pathLe]
  | cons name names ih =>
      cases right with
      | nil => simp [pathLe]
      | cons name' names' =>
          rw [pathLe_cons_iff, ih, List.cons.injEq, before_cons_iff]
          tauto

theorem pathLe_total (left right : List String) :
    (pathLe left right || pathLe right left) = true := by
  rw [Bool.or_eq_true]
  induction left generalizing right with
  | nil => exact .inl rfl
  | cons name names ih =>
      cases right with
      | nil => exact .inr rfl
      | cons name' names' =>
          rw [pathLe_cons_iff, pathLe_cons_iff]
          by_cases hless : name < name'
          · exact .inl (.inl hless)
          · by_cases hless' : name' < name
            · exact .inr (.inl hless')
            · obtain rfl := String.le_antisymm (String.not_lt.mp hless') (String.not_lt.mp hless)
              exact (ih names').imp (.inr ⟨rfl, ·⟩) (.inr ⟨rfl, ·⟩)

theorem pathLe_trans (left middle right : List String) (hleft : pathLe left middle = true)
    (hright : pathLe middle right = true) : pathLe left right = true := by
  induction left generalizing middle right with
  | nil => rfl
  | cons name names ih =>
      cases middle with
      | nil => cases hleft
      | cons name' names' =>
          cases right with
          | nil => cases hright
          | cons name'' names'' =>
              rw [pathLe_cons_iff] at hleft hright ⊢
              rcases hleft with hless | ⟨rfl, hleft⟩
              · rcases hright with hless' | ⟨rfl, -⟩
                · exact .inl (String.lt_trans hless hless')
                · exact .inl hless
              · exact hright.imp_right fun hright => ⟨hright.1, ih _ _ hleft hright.2⟩

theorem pathLe_antisymm (hleft : pathLe left right = true) (hright : pathLe right left = true) :
    left = right := by
  induction left generalizing right with
  | nil =>
      cases right with
      | nil => rfl
      | cons => cases hright
  | cons name names ih =>
      cases right with
      | nil => cases hleft
      | cons name' names' =>
          rw [pathLe_cons_iff] at hleft hright
          rcases hleft with hless | ⟨rfl, hleft⟩
          · rcases hright with hless' | ⟨rfl, -⟩
            · exact absurd hless' (String.lt_asymm hless)
            · exact absurd hless (String.lt_irrefl _)
          · rcases hright with hless | ⟨-, hright⟩
            · exact absurd hless (String.lt_irrefl _)
            · rw [ih hleft hright]

theorem pairwise_sorted (paths : List (List String)) :
    (paths.mergeSort pathLe).Pairwise fun left right => pathLe left right = true :=
  List.pairwise_mergeSort pathLe_trans pathLe_total paths

/-- There is one order in which paths are sorted. -/
theorem eq_of_sorted {paths paths' : List (List String)}
    (hsorted : paths.Pairwise fun left right => pathLe left right = true)
    (hsorted' : paths'.Pairwise fun left right => pathLe left right = true)
    (hperm : paths.Perm paths') : paths = paths' :=
  List.Perm.eq_of_pairwise (fun _ _ _ _ => pathLe_antisymm) hsorted hsorted' hperm

end Order

/-! ## Programs -/

/-- The names lead to a file with the extension of programs. -/
def IsProgram (names : List String) : Prop :=
  ∃ above stem, stem ≠ "" ∧ names = above ++ [stem ++ ".json"]

/-- A walk from the root tells of the program at these names. -/
def Lists (files : Files) (root : String) (names : List String) : Prop :=
  .ok ⟨names, true⟩ ∈ files.walk root ∧ IsProgram names

/-- The programs that a walk tells of, sorted. -/
def listed (told : List (Except WalkFault Found)) : List (List String) :=
  (((told.filterMap Except.toOption).filter isProgram).map Found.names).mergeSort pathLe

section Listed

variable {told told' : List (Except WalkFault Found)} {names : List String}

theorem isProgramName_iff {name : String} :
    isProgramName name = true ↔ ∃ stem, stem ≠ "" ∧ name = stem ++ ".json" := by
  rw [isProgramName, Bool.and_eq_true, List.isSuffixOf_iff_suffix, bne_iff_ne]
  constructor
  · rintro ⟨⟨stem, hstem⟩, hne⟩
    have hname : name = String.ofList stem ++ ".json" :=
      String.toList_inj.mp (by simp [← hstem])
    refine ⟨String.ofList stem, fun hempty => hne ?_, hname⟩
    rw [hname, hempty, String.empty_append]
  · rintro ⟨stem, hstem, rfl⟩
    refine ⟨⟨stem.toList, by rw [String.toList_append]⟩, fun hname => hstem ?_⟩
    have htext := congrArg String.toList hname
    rw [String.toList_append, List.append_left_eq_self] at htext
    exact String.toList_eq_nil_iff.mp htext

theorem isProgram_iff {found : Found} :
    isProgram found = true ↔ found.isFile = true ∧ IsProgram found.names := by
  rw [isProgram, Bool.and_eq_true]
  refine and_congr_right fun _ => ?_
  rw [Option.any_eq_true]
  constructor
  · rintro ⟨name, hlast, hname⟩
    obtain ⟨above, hnames⟩ := List.getLast?_eq_some_iff.mp hlast
    obtain ⟨stem, hstem, rfl⟩ := isProgramName_iff.mp hname
    exact ⟨above, stem, hstem, hnames⟩
  · rintro ⟨above, stem, hstem, hnames⟩
    exact ⟨stem ++ ".json", List.getLast?_eq_some_iff.mpr ⟨above, hnames⟩,
      isProgramName_iff.mpr ⟨stem, hstem, rfl⟩⟩

theorem mem_filterMap_toOption_iff {found : Found} :
    found ∈ told.filterMap Except.toOption ↔ .ok found ∈ told := by
  rw [List.mem_filterMap]
  constructor
  · rintro ⟨stop | found, hmem, hfound⟩
    · cases hfound
    · cases hfound
      exact hmem
  · exact fun hmem => ⟨_, hmem, rfl⟩

theorem mem_listed_iff : names ∈ listed told ↔ .ok ⟨names, true⟩ ∈ told ∧ IsProgram names := by
  rw [listed, (List.mergeSort_perm _ _).mem_iff, List.mem_map]
  constructor
  · rintro ⟨⟨names, isFile⟩, hmem, rfl⟩
    obtain ⟨hmem, hprogram⟩ := List.mem_filter.mp hmem
    obtain ⟨rfl, hnames⟩ := isProgram_iff.mp hprogram
    exact ⟨mem_filterMap_toOption_iff.mp hmem, hnames⟩
  · rintro ⟨hmem, hnames⟩
    exact ⟨⟨names, true⟩, List.mem_filter.mpr
      ⟨mem_filterMap_toOption_iff.mpr hmem, isProgram_iff.mpr ⟨rfl, hnames⟩⟩, rfl⟩

theorem listed_eq_of_perm (hperm : told.Perm told') : listed told = listed told' := by
  refine eq_of_sorted (pairwise_sorted _) (pairwise_sorted _) ?_
  refine (List.mergeSort_perm _ _).trans (.trans ?_ (List.mergeSort_perm _ _).symm)
  exact ((hperm.filterMap _).filter _).map _

theorem listed_nodup (htold : told.Nodup) : (listed told).Nodup := by
  rw [listed, (List.mergeSort_perm _ _).nodup_iff]
  have hfound : (told.filterMap Except.toOption).Nodup := by
    refine htold.filterMap ?_
    rintro (stop | found) (stop' | found') _ ⟨⟩ ⟨⟩
    rfl
  -- Names alone do not make up what was found, but all that is left are files.
  refine (hfound.filter _).map_on fun found hmem found' hmem' hnames => ?_
  obtain ⟨hfile, -⟩ := isProgram_iff.mp (List.mem_filter.mp hmem).2
  obtain ⟨hfile', -⟩ := isProgram_iff.mp (List.mem_filter.mp hmem').2
  cases found
  cases found'
  cases hnames
  cases hfile
  cases hfile'
  rfl

theorem pairwise_listed (htold : told.Nodup) : (listed told).Pairwise Before := by
  refine (pairwise_sorted _).imp₂ (fun left right hle hne => ?_) (listed_nodup htold)
  exact (pathLe_iff.mp hle).resolve_left hne

theorem forall₂_filterMap_toOption (hwalk : ∀ stop, .error stop ∉ told) :
    List.Forall₂ (fun item found => item = .ok found) told (told.filterMap Except.toOption) := by
  induction told with
  | nil => exact .nil
  | cons item told ih =>
      have hrest := ih fun stop hstop => hwalk stop (.tail _ hstop)
      cases item with
      | error stop => exact absurd (List.mem_cons_self) (hwalk stop)
      | ok found => exact .cons rfl hrest

theorem eq_listed {programs : List (List String)}
    (hprograms : ∀ names, names ∈ programs ↔ .ok ⟨names, true⟩ ∈ told ∧ IsProgram names)
    (hsorted : programs.Pairwise Before) (htold : told.Nodup) : programs = listed told := by
  have hnodup : programs.Nodup := hsorted.imp Before.ne
  refine eq_of_sorted (hsorted.imp fun hbefore => pathLe_iff.mpr (.inr hbefore))
    (pairwise_sorted _) ((List.perm_ext_iff_of_nodup hnodup (listed_nodup htold)).mpr ?_)
  exact fun names => (hprograms names).trans mem_listed_iff.symm

/-- What is reported of a walk that stops. -/
def stopFailure (root : String) (stop : WalkFault) : Failure :=
  .input (.unwalkable root (joinPath root stop.names) stop.fault)

theorem discover_eq (root : String) (told : List (Except WalkFault Found)) :
    discover root told = (do
      let found ← told.mapM fun item => item.mapError (stopFailure root)
      match ((found.filter isProgram).map Found.names).mergeSort pathLe with
      | [] => .error (.input (.noPrograms root))
      | programs => .ok (programs.map (joinPath root))) := rfl

/-- A walk without a fault is searched for programs. -/
theorem discover_of_ok {root : String} (hwalk : ∀ stop, .error stop ∉ told) :
    discover root told =
      match listed told with
      | [] => .error (.input (.noPrograms root))
      | programs => .ok (programs.map (joinPath root)) := by
  have hfound : told.mapM (fun item => item.mapError (stopFailure root)) =
      .ok (told.filterMap Except.toOption) :=
    mapM_eq_ok_iff.mpr ((forall₂_filterMap_toOption hwalk).imp fun _ _ => mapError_eq_ok_iff.mpr)
  rw [discover_eq, hfound]
  rfl

theorem exists_mapM_eq_error (root : String) {stop : WalkFault} (hstop : .error stop ∈ told) :
    ∃ stop, .error stop ∈ told ∧
      told.mapM (fun item => item.mapError (stopFailure root)) =
        .error (stopFailure root stop) := by
  induction told with
  | nil => cases hstop
  | cons item told ih =>
      rw [List.mapM_cons]
      cases item with
      | error stop => exact ⟨stop, .head _, rfl⟩
      | ok found =>
          obtain ⟨stop, hmem, herror⟩ := ih ((List.mem_cons.mp hstop).resolve_left nofun)
          refine ⟨stop, .tail _ hmem, ?_⟩
          rw [herror]
          rfl

/-- A walk that stops is not searched; the first of its faults is reported. -/
theorem exists_discover_eq_error (root : String) {stop : WalkFault} (hstop : .error stop ∈ told) :
    ∃ stop, .error stop ∈ told ∧ discover root told = .error (stopFailure root stop) := by
  obtain ⟨stop, hmem, herror⟩ := exists_mapM_eq_error root hstop
  refine ⟨stop, hmem, ?_⟩
  rw [discover_eq, herror]
  rfl

end Listed

end BuilderCalls.CommandLine
