import BuilderCalls.CommandLine.Run
import BuilderCalls.Proofs.Result
import BuilderCalls.Proofs.Walk

/-!
# Following paths

A path is followed component by component.  The path joined from a root and the names below
it leads to what these names lead to, so each file that a walk tells of is found again by
its path.  Where two trees have the same contents, paths lead to the same in both, and the
walks differ at most in their order.
-/

namespace BuilderCalls

/-! ## Parts -/

section Parts

variable {separator : Char} {first text : List Char}

theorem parts_ne_nil : parts separator text ≠ [] := by
  cases text with
  | nil => exact List.cons_ne_nil _ _
  | cons char rest =>
      rw [parts]
      split
      · exact List.cons_ne_nil _ _
      · split
        · exact List.cons_ne_nil _ _
        · exact List.cons_ne_nil _ _

theorem parts_of_not_mem (hfirst : separator ∉ first) : parts separator first = [first] := by
  induction first with
  | nil => rfl
  | cons char first ih =>
      obtain ⟨hchar, hfirst⟩ := not_or.mp (List.mem_cons.not.mp hfirst)
      rw [parts, if_neg (Ne.symm hchar), ih hfirst]

theorem parts_append_separator (first text : List Char) :
    parts separator (first ++ separator :: text) =
      parts separator first ++ parts separator text := by
  induction first with
  | nil => simp [parts]
  | cons char first ih =>
      rw [List.cons_append, parts, parts, ih]
      split
      · rfl
      · cases hparts : parts separator first with
        | nil => exact absurd hparts parts_ne_nil
        | cons part others => rfl

end Parts

namespace Entry

/-! ## Paths -/

/-- Where one component leads: the directories passed, and the entry itself. -/
def step (place : List Entry × Entry) (component : String) :
    Except ReadFault (List Entry × Entry) :=
  match place with
  | (_, .file _) => .error .notADirectory
  | (_, .special _) => .error .notADirectory
  | (_, .closed isFile fault) => .error (if isFile then .notADirectory else fault)
  | (passed, .directory entries) =>
      if component = "" || component = "." then .ok (passed, .directory entries)
      else if component = ".." then
        match passed with
        | [] => .ok ([], .directory entries)
        | outer :: passed => .ok (passed, outer)
      else if nameLimit < component.utf8ByteSize then .error .nameTooLong
      else
        match entries.lookup component with
        | some entry => .ok (.directory entries :: passed, entry)
        | none => .error .noSuchFile

section Follow

variable {passed : List Entry} {current entry : Entry}

theorem follow_cons (component : String) (rest : List String) :
    follow passed current (component :: rest) = (do
      let place ← step (passed, current) component
      follow place.1 place.2 rest) := by
  cases current with
  | directory entries =>
      rw [follow.eq_def, step.eq_def]
      dsimp only
      split
      · rfl
      · split
        · cases passed <;> rfl
        · split
          · rfl
          · cases entries.lookup component <;> rfl
  | _ => rfl

theorem follow_append (first rest : List String) :
    follow passed current (first ++ rest) = (do
      let place ← first.foldlM step (passed, current)
      follow place.1 place.2 rest) := by
  induction first generalizing passed current with
  | nil => rfl
  | cons component first ih =>
      rw [List.cons_append, follow_cons, List.foldlM_cons, bind_assoc]
      exact bind_congr fun place => ih

theorem follow_eq_ok_iff {names : List String} :
    follow passed current names = .ok entry ↔
      ∃ passed', names.foldlM step (passed, current) = .ok (passed', entry) := by
  rw [← List.append_nil names, follow_append, bind_eq_ok_iff, List.append_nil]
  constructor
  · rintro ⟨⟨passed', current'⟩, hplace, hfollow⟩
    cases hfollow
    exact ⟨passed', hplace⟩
  · rintro ⟨passed', hplace⟩
    exact ⟨_, hplace, rfl⟩

/-- A place in a proper tree. -/
def ProperPlace (place : List Entry × Entry) : Prop :=
  place.2.Proper ∧ ∀ outer ∈ place.1, outer.Proper

theorem ProperPlace.step {place place' : List Entry × Entry} {component : String}
    (hplace : ProperPlace place) (hstep : step place component = .ok place') :
    ProperPlace place' := by
  obtain ⟨passed, current⟩ := place
  obtain ⟨hcurrent, hpassed⟩ := hplace
  cases hcurrent with
  | directory hdistinct hnames hentries =>
      have hcurrent := Proper.directory hdistinct hnames hentries
      rw [step.eq_def] at hstep
      dsimp only at hstep
      split at hstep
      · cases hstep
        exact ⟨hcurrent, hpassed⟩
      · split at hstep
        · cases passed with
          | nil =>
              cases hstep
              exact ⟨hcurrent, hpassed⟩
          | cons outer passed =>
              cases hstep
              exact List.forall_mem_cons.mp hpassed
        · split at hstep
          · cases hstep
          · split at hstep
            · next entry hlookup =>
                cases hstep
                exact ⟨hentries _ _ (mem_of_lookup_eq_some hlookup),
                  List.forall_mem_cons.mpr ⟨hcurrent, hpassed⟩⟩
            · cases hstep
  | _ => cases hstep

theorem ProperPlace.foldlM {place place' : List Entry × Entry} {names : List String}
    (hplace : ProperPlace place) (hfold : names.foldlM Entry.step place = .ok place') :
    ProperPlace place' := by
  induction names generalizing place with
  | nil =>
      cases hfold
      exact hplace
  | cons name names ih =>
      rw [List.foldlM_cons, bind_eq_ok_iff] at hfold
      obtain ⟨next, hstep, hfold⟩ := hfold
      exact ih (hplace.step hstep) hfold

/-- An empty component is passed over, unless it is the last one. -/
theorem follow_empty (name : String) (rest : List String) :
    follow passed current ("" :: name :: rest) = follow passed current (name :: rest) := by
  cases current <;> rfl

theorem step_of_lookup {entries : List (String × Entry)} {name : String}
    (hname : ProperName name) (hlookup : entries.lookup name = some entry) :
    step (passed, .directory entries) name = .ok (.directory entries :: passed, entry) := by
  obtain ⟨hempty, hdot, hdots, -, -, hsize⟩ := hname
  simp [step, hempty, hdot, hdots, Nat.not_lt.mpr hsize, hlookup]

theorem follow_of_at? {names : List String} (hcurrent : current.Proper)
    (hat : current.at? names = some entry) : follow passed current names = .ok entry := by
  induction names generalizing passed current with
  | nil =>
      cases hat
      rfl
  | cons name names ih =>
      cases hcurrent with
      | directory hdistinct hnames hentries =>
          obtain ⟨inner, hlookup, hat⟩ := Option.bind_eq_some_iff.mp hat
          have hmem := mem_of_lookup_eq_some hlookup
          have hname := hnames name (List.mem_map_of_mem hmem)
          rw [follow_cons, step_of_lookup hname hlookup]
          exact ih (hentries name inner hmem) hat
      | _ => cases hat

theorem Proper.properName_of_at? {names : List String} (hproper : current.Proper)
    (hat : current.at? names = some entry) : ∀ name ∈ names, ProperName name := by
  induction names generalizing current with
  | nil => exact nofun
  | cons name names ih =>
      cases hproper with
      | directory hdistinct hnames hentries =>
          obtain ⟨inner, hlookup, hat⟩ := Option.bind_eq_some_iff.mp hat
          have hmem := mem_of_lookup_eq_some hlookup
          exact List.forall_mem_cons.mpr
            ⟨hnames name (List.mem_map_of_mem hmem), ih (hentries name inner hmem) hat⟩
      | _ => cases hat

end Follow

/-! ## Joined paths -/

section Joined

variable {name : String} {names : List String} {passed : List Entry} {current entry root : Entry}

theorem components_slash (first rest : String) :
    components (first ++ "/" ++ rest) = components first ++ components rest := by
  have htext : (first ++ "/" ++ rest).toList = first.toList ++ '/' :: rest.toList := by simp
  rw [components, htext, parts_append_separator, List.map_append]
  rfl

theorem ProperName.components (hname : ProperName name) : components name = [name] := by
  rw [Entry.components, parts_of_not_mem hname.slash_not_mem, List.map_singleton,
    String.ofList_toList]

theorem follow_pushName (hname : ProperName name) (path : String) (rest : List String) :
    follow passed current (components (CommandLine.pushName path name) ++ rest) =
      follow passed current (components path ++ name :: rest) := by
  rw [CommandLine.pushName]
  split
  · -- The last component of the path is empty, and the name after it passes over it.
    next hslash =>
      obtain ⟨first, hfirst⟩ := List.getLast?_eq_some_iff.mp hslash
      obtain rfl : path = String.ofList first ++ "/" ++ "" :=
        String.toList_inj.mp (by simp [hfirst])
      have hpath : String.ofList first ++ "/" ++ "" ++ name =
          String.ofList first ++ "/" ++ name := by
        simp
      have hempty : components "" = [""] := rfl
      rw [hpath, components_slash, components_slash, hname.components, hempty, List.append_assoc,
        List.append_assoc, follow_append, follow_append]
      exact bind_congr fun place => (follow_empty name rest).symm
  · rw [components_slash, hname.components, List.append_assoc, List.singleton_append]

theorem follow_joinPath (hnames : ∀ name ∈ names, ProperName name) (path : String) :
    follow passed current (components (CommandLine.joinPath path names)) =
      follow passed current (components path ++ names) := by
  induction names generalizing path with
  | nil =>
      rw [List.append_nil]
      rfl
  | cons name names ih =>
      obtain ⟨hname, hnames⟩ := List.forall_mem_cons.mp hnames
      exact (ih hnames _).trans (follow_pushName hname path names)

theorem nul_not_mem_joinPath (hnames : ∀ name ∈ names, ProperName name) {path : String}
    (hpath : '\x00' ∉ path.toList) : '\x00' ∉ (CommandLine.joinPath path names).toList := by
  induction names generalizing path with
  | nil => exact hpath
  | cons name names ih =>
      obtain ⟨hname, hnames⟩ := List.forall_mem_cons.mp hnames
      refine ih hnames ?_
      rw [CommandLine.pushName]
      split <;> simp [hpath, hname.nul_not_mem]

theorem resolve_eq_ok_iff {path : String} :
    root.resolve path = .ok entry ↔
      '\x00' ∉ path.toList ∧ path.utf8ByteSize < pathLimit ∧
        follow [] root (components path) = .ok entry := by
  rw [resolve]
  split
  · next hnul =>
      have hmem : '\x00' ∈ path.toList := List.contains_iff_mem.mp hnul
      simp [hmem]
  · next hnul =>
      have hmem : '\x00' ∉ path.toList := fun hmem => hnul (List.contains_iff_mem.mpr hmem)
      split
      · next hsize => simp [Nat.not_lt.mpr hsize]
      · next hsize => simp [hmem, Nat.not_le.mp hsize]

theorem Proper.of_resolve (hroot : root.Proper) {path : String}
    (hpath : root.resolve path = .ok entry) : entry.Proper := by
  obtain ⟨-, -, hfollow⟩ := resolve_eq_ok_iff.mp hpath
  obtain ⟨passed, hplace⟩ := follow_eq_ok_iff.mp hfollow
  exact (ProperPlace.foldlM ⟨hroot, List.forall_mem_nil _⟩ hplace).1

/-- The path joined from a root and the names below it leads to what the names lead to. -/
theorem resolve_joinPath (hentry : entry.Proper) {inner : Entry} {path : String}
    (hpath : root.resolve path = .ok entry) (hat : entry.at? names = some inner)
    (hsize : (CommandLine.joinPath path names).utf8ByteSize < pathLimit) :
    root.resolve (CommandLine.joinPath path names) = .ok inner := by
  obtain ⟨hnul, -, hfollow⟩ := resolve_eq_ok_iff.mp hpath
  obtain ⟨passed, hplace⟩ := follow_eq_ok_iff.mp hfollow
  have hnames := hentry.properName_of_at? hat
  refine resolve_eq_ok_iff.mpr ⟨nul_not_mem_joinPath hnames hnul, hsize, ?_⟩
  rw [follow_joinPath hnames, follow_append, hplace]
  exact follow_of_at? hentry hat

end Joined

/-! ## Order -/

/-- An entry without what it holds. -/
def surface : Entry → Entry
  | .directory _ => .directory []
  | entry => entry

/-- The same entries at the same names, in whatever order the directories list them. -/
def SameContents (entry entry' : Entry) : Prop :=
  ∀ names, (entry.at? names).map surface = (entry'.at? names).map surface

inductive SameResult : Except ReadFault Entry → Except ReadFault Entry → Prop
  | ok {entry entry' : Entry} (hsame : entry.SameContents entry') :
      SameResult (.ok entry) (.ok entry')
  | error (fault : ReadFault) : SameResult (.error fault) (.error fault)

section Order

variable {entry entry' : Entry} {entries entries' : List (String × Entry)}

theorem SameContents.symm (hsame : entry.SameContents entry') : entry'.SameContents entry :=
  fun names => (hsame names).symm

theorem surface_eq_leaf {leaf : Entry} (hleaf : ∀ entries, leaf ≠ .directory entries)
    (hsame : leaf.surface = entry.surface) : entry = leaf := by
  cases entry with
  | directory entries =>
      cases leaf with
      | directory entries' => exact absurd rfl (hleaf entries')
      | _ => cases hsame
  | _ =>
      cases leaf with
      | directory entries' => cases hsame
      | _ => exact hsame.symm

theorem SameContents.eq_or_directories (hsame : entry.SameContents entry') :
    (entry' = entry ∧ ∀ entries, entry ≠ .directory entries) ∨
      ∃ entries entries', entry = .directory entries ∧ entry' = .directory entries' := by
  have hsurface : entry.surface = entry'.surface := Option.some.inj (hsame [])
  cases entry with
  | directory entries =>
      cases entry' with
      | directory entries' => exact .inr ⟨entries, entries', rfl, rfl⟩
      | _ => cases hsurface
  | _ => exact .inl ⟨surface_eq_leaf (fun _ => nofun) hsurface, fun _ => nofun⟩

/-- Directories with the same contents list the same names, in any order. -/
theorem SameContents.lookup (hsame : (directory entries).SameContents (directory entries'))
    (name : String) :
    Option.Rel SameContents (entries.lookup name) (entries'.lookup name) := by
  have hat (names : List String) := hsame (name :: names)
  simp only [at?] at hat
  cases hlookup : entries.lookup name with
  | none =>
      cases hlookup' : entries'.lookup name with
      | none => exact .none
      | some entry' =>
          have hnone := hat []
          rw [hlookup, hlookup'] at hnone
          cases hnone
  | some entry =>
      cases hlookup' : entries'.lookup name with
      | none =>
          have hnone := hat []
          rw [hlookup, hlookup'] at hnone
          cases hnone
      | some entry' =>
          rw [hlookup, hlookup'] at hat
          exact .some hat

theorem SameContents.follow {passed passed' : List Entry} {names : List String}
    (hpassed : List.Forall₂ SameContents passed passed') (hsame : entry.SameContents entry') :
    SameResult (Entry.follow passed entry names) (Entry.follow passed' entry' names) := by
  -- A component may step back, so the directories passed have to agree as well.
  induction names generalizing passed passed' entry entry' with
  | nil => exact .ok hsame
  | cons component rest ih =>
      rcases hsame.eq_or_directories with ⟨rfl, hleaf⟩ | ⟨entries, entries', rfl, rfl⟩
      · cases entry' with
        | directory entries => exact absurd rfl (hleaf entries)
        | _ => exact .error _
      · rw [follow.eq_def, follow.eq_def passed']
        dsimp only
        split
        · exact ih hpassed hsame
        · split
          · cases hpassed with
            | nil => exact ih .nil hsame
            | cons houter hpassed => exact ih hpassed houter
          · split
            · exact .error _
            · have hlookup := hsame.lookup component
              generalize entries.lookup component = found at hlookup
              generalize entries'.lookup component = found' at hlookup
              cases hlookup with
              | none => exact .error _
              | some hfound => exact ih (.cons hsame hpassed) hfound

theorem SameContents.resolve {root root' : Entry} (hsame : root.SameContents root')
    (path : String) : SameResult (root.resolve path) (root'.resolve path) := by
  rw [Entry.resolve, Entry.resolve]
  split
  · exact .error _
  · split
    · exact .error _
    · exact hsame.follow .nil

theorem isFile_surface (entry : Entry) : entry.surface.isFile = entry.isFile := by
  cases entry <;> rfl

theorem SameContents.isFile_eq (hsame : entry.SameContents entry') :
    entry'.isFile = entry.isFile := by
  rw [← isFile_surface, ← isFile_surface entry]
  exact congrArg isFile (Option.some.inj (hsame [])).symm

theorem SameContents.exists_at? (hsame : entry.SameContents entry') {names : List String}
    {inner : Entry} (hat : entry.at? names = some inner) :
    ∃ inner', entry'.at? names = some inner' ∧ inner'.surface = inner.surface := by
  have hmap := hsame names
  rw [hat, Option.map_some, eq_comm, Option.map_eq_some_iff] at hmap
  exact hmap

theorem SameContents.tells {told : Except WalkFault Found} (hsame : entry.SameContents entry')
    (htells : entry.Tells told) : entry'.Tells told := by
  cases told with
  | ok found =>
      obtain ⟨inner, hat, hfile⟩ := htells
      obtain ⟨inner', hat', hsurface⟩ := hsame.exists_at? hat
      refine ⟨inner', hat', ?_⟩
      rw [← isFile_surface, hsurface, isFile_surface, hfile]
  | error stop =>
      obtain ⟨inner', hat', hsurface⟩ := hsame.exists_at? htells
      obtain rfl : inner' = .closed false stop.fault :=
        surface_eq_leaf (fun _ => nofun) hsurface.symm
      exact hat'

theorem SameContents.walk_perm (hsame : entry.SameContents entry') (hproper : entry.Proper)
    (hproper' : entry'.Proper) : (entry'.walk []).Perm (entry.walk []) := by
  rw [List.perm_ext_iff_of_nodup hproper'.nodup_walk hproper.nodup_walk]
  intro told
  rw [hproper'.mem_walk_iff, hproper.mem_walk_iff]
  exact ⟨hsame.symm.tells, hsame.tells⟩

end Order

end Entry

/-! ## Files in a tree -/

namespace Files

variable {directory directory' : List (String × Entry)} {refusals : Refusals}

theorem nodup_walk (hproper : (Entry.directory directory).Proper) (root : String) :
    ((within directory refusals).walk root).Nodup := by
  rw [walk]
  split
  · next entry hentry => exact (hproper.of_resolve hentry).nodup_walk
  · exact List.nodup_singleton _

/-- A walk tells of all files below the root, and of no others. -/
theorem file_mem_walk_iff (hproper : (Entry.directory directory).Proper) {root : String}
    {names : List String} :
    .ok ⟨names, true⟩ ∈ (within directory refusals).walk root ↔
      ∃ entry inner, (within directory refusals).entryAt root = .ok entry ∧
        entry.at? names = some inner ∧ inner.isFile = true := by
  rw [walk]
  split
  · next entry hentry =>
      rw [(hproper.of_resolve hentry).mem_walk_iff, hentry]
      constructor
      · rintro ⟨inner, hat, hfile⟩
        exact ⟨entry, inner, rfl, hat, hfile⟩
      · rintro ⟨_, inner, ⟨⟩, hat, hfile⟩
        exact ⟨inner, hat, hfile⟩
  · next fault hfault =>
      rw [hfault]
      simp

/-- Every file that a walk tells of is found at the path joined from the root and its names. -/
theorem isFile_joinPath (hproper : (Entry.directory directory).Proper) {root : String}
    {names : List String} (hfound : .ok ⟨names, true⟩ ∈ (within directory refusals).walk root)
    (hsize : (CommandLine.joinPath root names).utf8ByteSize < Entry.pathLimit) :
    (within directory refusals).isFile (CommandLine.joinPath root names) = true := by
  obtain ⟨entry, inner, hentry, hat, hfile⟩ := (file_mem_walk_iff hproper).mp hfound
  have hinner : (within directory refusals).entryAt (CommandLine.joinPath root names) = .ok inner :=
    Entry.resolve_joinPath (hproper.of_resolve hentry) hentry hat hsize
  rw [isFile, hinner]
  exact hfile

/-- The order in which directories list what they hold shows only in the order of a walk. -/
theorem same_of_sameContents (hproper : (Entry.directory directory).Proper)
    (hproper' : (Entry.directory directory').Proper)
    (hsame : (Entry.directory directory).SameContents (.directory directory')) (path : String) :
    (within directory' refusals).isFile path = (within directory refusals).isFile path ∧
      (within directory' refusals).readText path = (within directory refusals).readText path ∧
        ((within directory' refusals).walk path).Perm ((within directory refusals).walk path) := by
  have hresult : Entry.SameResult ((within directory refusals).entryAt path)
      ((within directory' refusals).entryAt path) := hsame.resolve path
  rw [isFile, isFile, readText, readText, walk, walk]
  cases hentry : (within directory refusals).entryAt path with
  | error fault =>
      cases hentry' : (within directory' refusals).entryAt path with
      | error fault' =>
          rw [hentry, hentry'] at hresult
          cases hresult
          exact ⟨rfl, rfl, .refl _⟩
      | ok entry' =>
          rw [hentry, hentry'] at hresult
          cases hresult
  | ok entry =>
      cases hentry' : (within directory' refusals).entryAt path with
      | error fault' =>
          rw [hentry, hentry'] at hresult
          cases hresult
      | ok entry' =>
          rw [hentry, hentry'] at hresult
          cases hresult with
          | ok hsame =>
              refine ⟨hsame.isFile_eq, ?_,
                hsame.walk_perm (hproper.of_resolve hentry) (hproper'.of_resolve hentry')⟩
              rcases hsame.eq_or_directories with ⟨rfl, -⟩ | ⟨_, _, rfl, rfl⟩
              · rfl
              · rfl

end Files

end BuilderCalls
