import BuilderCalls.Files
import BuilderCalls.Proofs.Json.Members

/-!
# Walks

In a proper tree the names of a directory are distinct, and each is one that a path can
lead through.  A walk of such a tree tells once of every entry, by the names that lead to
it, and it stops once at every directory that is closed.
-/

namespace BuilderCalls

namespace Entry

/-- A name that a path can lead through. -/
structure ProperName (name : String) : Prop where
  ne_empty : name ≠ ""
  ne_dot : name ≠ "."
  ne_dots : name ≠ ".."
  slash_not_mem : '/' ∉ name.toList
  nul_not_mem : '\x00' ∉ name.toList
  size_le : name.utf8ByteSize ≤ nameLimit

instance (name : String) : Decidable (ProperName name) :=
  decidable_of_iff (name ≠ "" ∧ name ≠ "." ∧ name ≠ ".." ∧ '/' ∉ name.toList ∧
      '\x00' ∉ name.toList ∧ name.utf8ByteSize ≤ nameLimit)
    ⟨fun ⟨hempty, hdot, hdots, hslash, hnul, hsize⟩ => ⟨hempty, hdot, hdots, hslash, hnul, hsize⟩,
      fun ⟨hempty, hdot, hdots, hslash, hnul, hsize⟩ => ⟨hempty, hdot, hdots, hslash, hnul, hsize⟩⟩

/-- Each directory has proper names, and none of them twice. -/
inductive Proper : Entry → Prop
  | file (text : Option String) : Proper (.file text)
  | closed (isFile : Bool) (fault : ReadFault) : Proper (.closed isFile fault)
  | special (text : Option String) : Proper (.special text)
  | directory {entries : List (String × Entry)} (hdistinct : (entries.map Prod.fst).Nodup)
      (hnames : ∀ name ∈ entries.map Prod.fst, ProperName name)
      (hentries : ∀ name entry, (name, entry) ∈ entries → entry.Proper) :
      Proper (.directory entries)

/-- The entry to which names lead; none when one of them is not there. -/
def at? (entry : Entry) : List String → Option Entry
  | [] => some entry
  | name :: names =>
      match entry with
      | .directory entries => (entries.lookup name).bind fun entry => entry.at? names
      | _ => none

/-! ## What a walk tells -/

/-- What is told of an entry, told from the directory that holds it under a name. -/
def underName (name : String) : Except WalkFault Found → Except WalkFault Found
  | .ok found => .ok ⟨name :: found.names, found.isFile⟩
  | .error stop => .error ⟨name :: stop.names, stop.fault⟩

def toldNames : Except WalkFault Found → List String
  | .ok found => found.names
  | .error stop => stop.names

theorem toldNames_underName (name : String) (told : Except WalkFault Found) :
    toldNames (underName name told) = name :: toldNames told := by
  cases told <;> rfl

mutual

theorem walk_cons (name : String) (names : List String) (entry : Entry) :
    entry.walk (name :: names) = (entry.walk names).map (underName name) := by
  cases entry with
  | file => rfl
  | special => rfl
  | closed isFile fault => cases isFile <;> rfl
  | directory entries =>
      rw [walk, walk, List.map_cons, walkEntries_cons name names entries]
      rfl
termination_by structural entry

theorem walkEntries_cons (name : String) (names : List String)
    (entries : List (String × Entry)) :
    walkEntries (name :: names) entries = (walkEntries names entries).map (underName name) := by
  match entries with
  | [] => rfl
  | (inner, entry) :: rest =>
      rw [walkEntries, walkEntries, List.map_append, List.cons_append,
        walk_cons name (names ++ [inner]) entry, walkEntries_cons name names rest]
termination_by structural entries

end

theorem walk_directory (entries : List (String × Entry)) :
    (Entry.directory entries).walk [] =
      .ok ⟨[], false⟩ ::
        entries.flatMap fun (name, entry) => (entry.walk []).map (underName name) := by
  rw [walk, List.cons.injEq]
  refine ⟨rfl, ?_⟩
  induction entries with
  | nil => rfl
  | cons first rest ih =>
      obtain ⟨name, entry⟩ := first
      rw [walkEntries, List.nil_append, walk_cons, ih]
      rfl

/-- What a walk may tell of a tree: what is there, and which directories it cannot pass. -/
def Tells (entry : Entry) : Except WalkFault Found → Prop
  | .ok found => ∃ inner, entry.at? found.names = some inner ∧ inner.isFile = found.isFile
  | .error stop => entry.at? stop.names = some (.closed false stop.fault)

section Proper

variable {entry : Entry} {entries : List (String × Entry)} {told : Except WalkFault Found}

theorem mem_walk_directory_iff :
    told ∈ (Entry.directory entries).walk [] ↔
      told = .ok ⟨[], false⟩ ∨
        ∃ name entry, (name, entry) ∈ entries ∧ ∃ inner ∈ entry.walk [],
          underName name inner = told := by
  simp [walk_directory]

theorem tells_directory_iff :
    (Entry.directory entries).Tells told ↔
      told = .ok ⟨[], false⟩ ∨
        ∃ name entry, entries.lookup name = some entry ∧ ∃ inner, entry.Tells inner ∧
          underName name inner = told := by
  constructor
  · intro htells
    cases told with
    | ok found =>
        obtain ⟨names, isFile⟩ := found
        obtain ⟨inner, hat, rfl⟩ := htells
        cases names with
        | nil =>
            cases hat
            exact .inl rfl
        | cons name names =>
            obtain ⟨entry, hlookup, hat⟩ := Option.bind_eq_some_iff.mp hat
            exact .inr ⟨name, entry, hlookup, .ok ⟨names, _⟩, ⟨inner, hat, rfl⟩, rfl⟩
    | error stop =>
        obtain ⟨names, fault⟩ := stop
        cases names with
        | nil => cases htells
        | cons name names =>
            obtain ⟨entry, hlookup, hat⟩ := Option.bind_eq_some_iff.mp htells
            exact .inr ⟨name, entry, hlookup, .error ⟨names, fault⟩, hat, rfl⟩
  · rintro (rfl | ⟨name, entry, hlookup, inner, hinner, rfl⟩)
    · exact ⟨_, rfl, rfl⟩
    · cases inner with
      | ok found =>
          obtain ⟨inner, hat, hfile⟩ := hinner
          exact ⟨inner, Option.bind_eq_some_iff.mpr ⟨entry, hlookup, hat⟩, hfile⟩
      | error stop => exact Option.bind_eq_some_iff.mpr ⟨entry, hlookup, hinner⟩

/-- At an entry that is no directory there is nothing but itself. -/
theorem tells_leaf_iff (hleaf : ∀ name names, entry.at? (name :: names) = none) :
    entry.Tells told ↔
      told = .ok ⟨[], entry.isFile⟩ ∨
        ∃ fault, entry = .closed false fault ∧ told = .error ⟨[], fault⟩ := by
  constructor
  · intro htells
    cases told with
    | ok found =>
        obtain ⟨names, isFile⟩ := found
        obtain ⟨inner, hat, rfl⟩ := htells
        cases names with
        | nil =>
            cases hat
            exact .inl rfl
        | cons name names => cases (hleaf name names).symm.trans hat
    | error stop =>
        obtain ⟨names, fault⟩ := stop
        cases names with
        | nil =>
            cases htells
            exact .inr ⟨fault, rfl, rfl⟩
        | cons name names => cases (hleaf name names).symm.trans htells
  · rintro (rfl | ⟨fault, rfl, rfl⟩)
    · exact ⟨_, rfl, rfl⟩
    · rfl

/-- A walk tells all that holds of a tree and nothing else. -/
theorem Proper.mem_walk_iff (hproper : entry.Proper) : told ∈ entry.walk [] ↔ entry.Tells told := by
  induction hproper generalizing told with
  | file text =>
      rw [tells_leaf_iff fun _ _ => rfl]
      simp [walk, isFile]
  | closed isFile fault =>
      rw [tells_leaf_iff fun _ _ => rfl]
      cases isFile <;> simp [walk, Entry.isFile]
  | special text =>
      rw [tells_leaf_iff fun _ _ => rfl]
      simp [walk, isFile]
  | @directory entries hdistinct _ _ ih =>
      rw [mem_walk_directory_iff, tells_directory_iff]
      constructor
      · rintro (htold | ⟨name, entry, hmem, inner, hinner, hsame⟩)
        · exact .inl htold
        · exact .inr ⟨name, entry, lookup_eq_some_of_mem hdistinct hmem, inner,
            (ih name entry hmem).mp hinner, hsame⟩
      · rintro (htold | ⟨name, entry, hlookup, inner, hinner, hsame⟩)
        · exact .inl htold
        · have hmem := mem_of_lookup_eq_some hlookup
          exact .inr ⟨name, entry, hmem, inner, (ih name entry hmem).mpr hinner, hsame⟩

theorem underName_injective (name : String) : Function.Injective (underName name) := by
  rintro (stop | found) (stop' | found') hsame
  · cases stop
    cases stop'
    cases hsame
    rfl
  · cases hsame
  · cases hsame
  · cases found
    cases found'
    cases hsame
    rfl

/-- A walk tells nothing twice. -/
theorem Proper.nodup_walk (hproper : entry.Proper) : (entry.walk []).Nodup := by
  induction hproper with
  | file text => exact List.nodup_singleton _
  | closed isFile fault => cases isFile <;> simp [walk]
  | special text => exact List.nodup_singleton _
  | directory hdistinct _ _ ih =>
      rw [walk_directory, List.nodup_cons, List.nodup_flatMap]
      refine ⟨fun hmem => ?_, ?_, ?_⟩
      · obtain ⟨⟨name, entry⟩, -, hmem⟩ := List.mem_flatMap.mp hmem
        obtain ⟨inner, -, hsame⟩ := List.mem_map.mp hmem
        cases (toldNames_underName name inner).symm.trans (congrArg toldNames hsame)
      · rintro ⟨name, entry⟩ hmem
        exact (ih name entry hmem).map (underName_injective name)
      · -- What is told from two entries of the directory differs in its first name.
        refine (List.pairwise_map.mp hdistinct).imp fun hne told htold htold' => ?_
        obtain ⟨inner, -, rfl⟩ := List.mem_map.mp htold
        obtain ⟨inner', -, hsame⟩ := List.mem_map.mp htold'
        have hnames := congrArg toldNames hsame
        rw [toldNames_underName, toldNames_underName] at hnames
        exact hne (List.cons.inj hnames).1.symm

end Proper

end Entry

end BuilderCalls
