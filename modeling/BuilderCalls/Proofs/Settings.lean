import BuilderCalls.CommandLine.Run
import BuilderCalls.Proofs.Result
import Mathlib.Data.List.Forall2

/-!
# Settings field by field

`Stated` is what a settings document says, with nothing where it says nothing.  `TextStates`
describes this by the form of the document, a mapping in which no key that counts is repeated.
Reading a document takes what it states and a default for each other field
(`Settings.ofText_eq_ok_iff`), and a request puts its own options in front
(`effectiveSettings_eq_ok_iff`).
-/

namespace BuilderCalls

structure Stated where
  namespaceName : Option String
  quote : Option Quote
  format : Option OutputFormat
  deriving DecidableEq

namespace Stated

def nothing : Stated :=
  ⟨none, none, none⟩

/-- The stated values in front of those of another source. -/
def or (first second : Stated) : Stated :=
  ⟨first.namespaceName <|> second.namespaceName, first.quote <|> second.quote,
    first.format <|> second.format⟩

/-- The settings, with a default for each field that is not stated. -/
def settings (stated : Stated) : Settings :=
  ⟨⟨stated.namespaceName.getD "j", stated.quote.getD .single⟩, stated.format.getD .text⟩

/-- What differs from every default was stated. -/
theorem eq_of_settings {stated : Stated} {namespaceName : String} {quote : Quote}
    {format : OutputFormat} (hsettings : stated.settings = ⟨⟨namespaceName, quote⟩, format⟩)
    (hnamespace : namespaceName ≠ "j") (hquote : quote ≠ .single) (hformat : format ≠ .text) :
    stated = ⟨some namespaceName, some quote, some format⟩ := by
  obtain ⟨namespaceName?, quote?, format?⟩ := stated
  cases namespaceName? <;> cases quote? <;> cases format? <;> simp_all [settings]

end Stated

/-! ## Documents -/

inductive IsText : Yaml.Node → String → Prop
  | scalar (text : String) (plain : Bool) (tag : Option String) :
      IsText (.scalar text plain tag) text

/-- A word stands as a scalar, or as a local tag on a null. -/
inductive Spells : Yaml.Node → String → Prop
  | scalar {text : String} {plain : Bool} {tag : Option String}
      (htag : ∀ name, tag ≠ some ("!" ++ name)) : Spells (.scalar text plain tag) text
  | tag {text name : String} (hnull : text ∈ ["", "~", "null", "Null", "NULL"]) :
      Spells (.scalar text true (some ("!" ++ name))) name

/-- What fields say for a key, which may not be repeated. -/
inductive Says {α : Type} (fields : List (String × Yaml.Node)) (key : String)
    (means : Yaml.Node → α → Prop) : Option α → Prop
  | nothing (habsent : ∀ field ∈ fields, field.1 ≠ key) : Says fields key means none
  | value {before after : List (String × Yaml.Node)} {node : Yaml.Node} {value : α}
      (hfields : fields = before ++ (key, node) :: after)
      (hbefore : ∀ field ∈ before, field.1 ≠ key) (hafter : ∀ field ∈ after, field.1 ≠ key)
      (hmeans : means node value) : Says fields key means (some value)

section Documents

variable (root : Yaml.Node)

inductive IsField : Yaml.Node × Yaml.Node → String × Yaml.Node → Prop
  | mk {key : Yaml.Node} {name : String} (hkey : IsText (root.follow key) name)
      (value : Yaml.Node) : IsField (key, value) (name, root.follow value)

/-- The node is a mapping with these fields, or empty, as a mapping may be. -/
inductive HasFields : Yaml.Node → List (String × Yaml.Node) → Prop
  | mapping {pairs : List (Yaml.Node × Yaml.Node)} {fields : List (String × Yaml.Node)}
      (hpairs : List.Forall₂ (IsField root) pairs fields) : HasFields (.mapping pairs) fields
  | empty (tag : Option String) : HasFields (.scalar "" true tag) []

/-- What the value of `render` states; it may have other keys. -/
inductive RenderStates : Yaml.Node → Option String × Option Quote → Prop
  | mk {node : Yaml.Node} {fields : List (String × Yaml.Node)} {namespaceName : Option String}
      {quote : Option Quote} (hfields : HasFields root node fields)
      (hnamespace : Says fields "namespace" IsText namespaceName)
      (hquote : Says fields "quote" (fun value quote => Spells value quote.name) quote) :
      RenderStates node (namespaceName, quote)

inductive DocumentStates : Stated → Prop
  | mk {fields : List (String × Yaml.Node)} {render : Option (Option String × Option Quote)}
      {format : Option OutputFormat} (hfields : HasFields root (root.follow root) fields)
      (hknown : ∀ field ∈ fields, field.1 = "render" ∨ field.1 = "format")
      (hrender : Says fields "render" (RenderStates root) render)
      (hformat : Says fields "format" (fun value format => Spells value format.name) format) :
      DocumentStates ⟨render.bind Prod.fst, render.bind Prod.snd, format⟩

end Documents

/-- What a settings file states by its text. -/
inductive TextStates (text : String) : Stated → Prop
  | blank (hblank : ∀ char ∈ text.toList, Settings.isWhite char = true) : TextStates text .nothing
  | empty (hblank : ∃ char ∈ text.toList, Settings.isWhite char = false)
      (hdocument : Yaml.document? text = some none) : TextStates text .nothing
  | document {root : Yaml.Node} {stated : Stated}
      (hblank : ∃ char ∈ text.toList, Settings.isWhite char = false)
      (hdocument : Yaml.document? text = some (some root))
      (hstates : DocumentStates root stated) : TextStates text stated

/-! ## Reading documents -/

namespace Settings

variable {root node : Yaml.Node} {fields : List (String × Yaml.Node)} {key : String}

theorem scalar?_eq_some_iff {text : String} : scalar? node = some text ↔ IsText node text := by
  constructor
  · intro hscalar
    cases node with
    | scalar text plain tag =>
        cases hscalar
        exact .scalar text plain tag
    | _ => cases hscalar
  · rintro ⟨⟩
    rfl

theorem word?_tagged (text name : String) (plain : Bool) :
    word? (.scalar text plain (some ("!" ++ name))) =
      if plain && nullWords.contains text then some name else none := by
  simp [word?]

theorem word?_untagged {text : String} {plain : Bool} {tag : Option String}
    (htag : ∀ name, tag ≠ some ("!" ++ name)) : word? (.scalar text plain tag) = some text := by
  rw [word?]
  split
  next name hname =>
    obtain ⟨tag, rfl, hname⟩ := Option.map_eq_some_iff.mp hname
    have hlocal : tag = "!" ++ String.ofList name := String.toList_inj.mp (by simpa using hname)
    exact absurd (congrArg some hlocal) (htag _)
  next => rfl

theorem word?_eq_some_iff {word : String} : word? node = some word ↔ Spells node word := by
  constructor
  · intro hword
    cases node with
    | scalar text plain tag =>
        by_cases htag : ∃ name, tag = some ("!" ++ name)
        · obtain ⟨name, rfl⟩ := htag
          rw [word?_tagged] at hword
          split_ifs at hword with hnull
          obtain ⟨rfl, hnull⟩ := Bool.and_eq_true_iff.mp hnull
          cases hword
          exact .tag (List.contains_iff_mem.mp hnull)
        · have htag := not_exists.mp htag
          rw [word?_untagged htag] at hword
          cases hword
          exact .scalar htag
    | _ => cases hword
  · intro hspells
    cases hspells with
    | scalar htag => exact word?_untagged htag
    | tag hnull =>
        rw [word?_tagged]
        exact if_pos (List.contains_iff_mem.mpr hnull)

theorem quote_ofName?_eq_some_iff {name : String} {quote : Quote} :
    Quote.ofName? name = some quote ↔ name = quote.name := by
  unfold Quote.ofName?
  cases quote <;> split_ifs <;> simp_all [Quote.name]

theorem format_ofName?_eq_some_iff {name : String} {format : OutputFormat} :
    OutputFormat.ofName? name = some format ↔ name = format.name := by
  unfold OutputFormat.ofName?
  cases format <;> split_ifs <;> simp_all [OutputFormat.name]

theorem isField_iff {pair : Yaml.Node × Yaml.Node} {field : String × Yaml.Node} :
    (do return (← scalar? (root.follow pair.1), root.follow pair.2)) = some field ↔
      IsField root pair field := by
  obtain ⟨key, value⟩ := pair
  simp only [Option.bind_eq_bind, Option.bind_eq_some_iff, scalar?_eq_some_iff]
  constructor
  · rintro ⟨name, hkey, ⟨⟩⟩
    exact .mk hkey value
  · rintro ⟨hkey⟩
    exact ⟨_, hkey, rfl⟩

theorem fields?_mapping_iff {pairs : List (Yaml.Node × Yaml.Node)} :
    fields? root (.mapping pairs) = some fields ↔ List.Forall₂ (IsField root) pairs fields := by
  change List.mapM _ pairs = some fields ↔ _
  rw [mapM_eq_some_iff]
  exact ⟨fun hpairs => hpairs.imp fun _ _ => isField_iff.mp,
    fun hpairs => hpairs.imp fun _ _ => isField_iff.mpr⟩

theorem fields?_eq_some_iff : fields? root node = some fields ↔ HasFields root node fields := by
  constructor
  · intro hfields
    obtain ⟨pairs, hpairs, hread⟩ := Option.bind_eq_some_iff.mp hfields
    unfold pairs? at hpairs
    split at hpairs
    next => exact .mapping (fields?_mapping_iff.mp hfields)
    next =>
      cases hpairs
      cases hread
      exact .empty _
    next => cases hpairs
  · intro hfields
    cases hfields with
    | mapping hpairs => exact fields?_mapping_iff.mpr hpairs
    | empty => rfl

theorem value?_eq_none_iff : value? fields key = some none ↔ ∀ field ∈ fields, field.1 ≠ key := by
  have hnone : fields.filter (fun field => field.1 = key) = [] ↔
      ∀ field ∈ fields, field.1 ≠ key := by
    simp only [List.filter_eq_nil_iff, decide_eq_true_eq]
  rw [← hnone, value?]
  split
  next hfilter => simp [hfilter]
  next hfilter => simp [hfilter]
  next hnil _ => exact iff_of_false nofun hnil

theorem value?_eq_some_iff :
    value? fields key = some (some node) ↔ ∃ before after, fields = before ++ (key, node) :: after ∧
      (∀ field ∈ before, field.1 ≠ key) ∧ ∀ field ∈ after, field.1 ≠ key := by
  have hone : fields.filter (fun field => field.1 = key) = [(key, node)] ↔
      ∃ before after, fields = before ++ (key, node) :: after ∧
        (∀ field ∈ before, field.1 ≠ key) ∧ ∀ field ∈ after, field.1 ≠ key := by
    simp only [List.filter_eq_cons_iff, List.filter_eq_nil_iff, decide_eq_true_eq, true_and]
  rw [← hone, value?]
  split
  next hfilter => simp [hfilter]
  next name value hfilter =>
    have hname : name = key := by
      have hmem := List.mem_filter.mp (hfilter ▸ List.mem_singleton_self (name, value))
      exact of_decide_eq_true hmem.2
    subst hname
    simp [hfilter]
  next hother => exact iff_of_false nofun (hother _ _)

/-- A field is read by what is said for it, or else has its default. -/
theorem read?_eq_some_iff {α β : Type} {read : Yaml.Node → Option α}
    {means : Yaml.Node → β → Prop} {change : β → α}
    (hread : ∀ node value, read node = some value ↔ ∃ said, means node said ∧ change said = value)
    {default value : α} :
    read? fields key default read = some value ↔
      ∃ said, Says fields key means said ∧ (said.map change).getD default = value := by
  unfold read?
  rw [Option.bind_eq_bind, Option.bind_eq_some_iff]
  constructor
  · rintro ⟨_ | node, hvalue, hresult⟩
    · exact ⟨none, .nothing (value?_eq_none_iff.mp hvalue), Option.some.inj hresult⟩
    · obtain ⟨before, after, hfields, hbefore, hafter⟩ := value?_eq_some_iff.mp hvalue
      obtain ⟨said, hmeans, hchange⟩ := (hread node value).mp hresult
      exact ⟨some said, .value hfields hbefore hafter hmeans, hchange⟩
  · rintro ⟨_, hsays, hvalue⟩
    cases hsays with
    | nothing habsent =>
        exact ⟨none, value?_eq_none_iff.mpr habsent, congrArg some hvalue⟩
    | value hfields hbefore hafter hmeans =>
        exact ⟨some _, value?_eq_some_iff.mpr ⟨_, _, hfields, hbefore, hafter⟩,
          (hread _ _).mpr ⟨_, hmeans, hvalue⟩⟩

theorem read?_eq_some_iff_says {α : Type} {read : Yaml.Node → Option α}
    {means : Yaml.Node → α → Prop} (hread : ∀ node value, read node = some value ↔ means node value)
    {default value : α} :
    read? fields key default read = some value ↔
      ∃ said, Says fields key means said ∧ said.getD default = value := by
  have hsaid (node : Yaml.Node) (value : α) :
      read node = some value ↔ ∃ said, means node said ∧ id said = value := by
    simp [hread]
  simpa using read?_eq_some_iff hsaid

theorem readQuote_iff {quote : Quote} :
    (word? node).bind Quote.ofName? = some quote ↔ Spells node quote.name := by
  simp [Option.bind_eq_some_iff, word?_eq_some_iff, quote_ofName?_eq_some_iff]

theorem readFormat_iff {format : OutputFormat} :
    (word? node).bind OutputFormat.ofName? = some format ↔ Spells node format.name := by
  simp [Option.bind_eq_some_iff, word?_eq_some_iff, format_ofName?_eq_some_iff]

/-- The render options from what is stated of them. -/
def renderOf (stated : Option String × Option Quote) : RenderOptions :=
  ⟨stated.1.getD "j", stated.2.getD .single⟩

theorem renderOfYaml?_eq_some_iff {options : RenderOptions} :
    renderOfYaml? root node = some options ↔
      ∃ stated, RenderStates root node stated ∧ renderOf stated = options := by
  simp only [renderOfYaml?, Option.bind_eq_bind, Option.bind_eq_some_iff, fields?_eq_some_iff,
    read?_eq_some_iff_says fun _ _ => scalar?_eq_some_iff,
    read?_eq_some_iff_says fun _ _ => readQuote_iff]
  constructor
  · rintro ⟨fields, hfields, _, ⟨namespaceName, hnamespace, rfl⟩, _, ⟨quote, hquote, rfl⟩, ⟨⟩⟩
    exact ⟨(namespaceName, quote), .mk hfields hnamespace hquote, rfl⟩
  · rintro ⟨_, ⟨hfields, hnamespace, hquote⟩, rfl⟩
    exact ⟨_, hfields, _, ⟨_, hnamespace, rfl⟩, _, ⟨_, hquote, rfl⟩, rfl⟩

theorem known_iff : (fields.all fun (key, _) => ["render", "format"].contains key) = true ↔
    ∀ field ∈ fields, field.1 = "render" ∨ field.1 = "format" := by
  simp [List.all_eq_true]

theorem ofYaml?_eq_some_iff {settings : Settings} :
    ofYaml? root = some settings ↔
      ∃ stated, DocumentStates root stated ∧ stated.settings = settings := by
  simp only [ofYaml?, Option.bind_eq_bind, Option.bind_eq_some_iff, fields?_eq_some_iff,
    Option.ite_none_right_eq_some, known_iff,
    read?_eq_some_iff fun _ _ => renderOfYaml?_eq_some_iff,
    read?_eq_some_iff_says fun _ _ => readFormat_iff]
  constructor
  · rintro ⟨fields, hfields, hknown, _, ⟨render, hrender, rfl⟩, _, ⟨format, hformat, rfl⟩, ⟨⟩⟩
    refine ⟨_, .mk hfields hknown hrender hformat, ?_⟩
    cases render <;> rfl
  · rintro ⟨stated, hstates, rfl⟩
    cases hstates with
    | @mk fields render format hfields hknown hrender hformat =>
        refine ⟨fields, hfields, hknown, _, ⟨render, hrender, rfl⟩, _, ⟨format, hformat, rfl⟩, ?_⟩
        cases render <;> rfl

theorem blank_iff {text : String} :
    text.toList.all isWhite = false ↔ ∃ char ∈ text.toList, isWhite char = false := by
  simp [List.all_eq_false]

theorem settings_nothing : Stated.nothing.settings = default :=
  rfl

/-- A text is read field by field, with the default where it states nothing. -/
theorem ofText_eq_ok_iff {text : String} {refusals : Refusals} {settings : Settings} :
    ofText text refusals = .ok settings ↔
      ∃ stated, TextStates text stated ∧ stated.settings = settings := by
  unfold ofText
  constructor
  · intro hsettings
    split at hsettings
    next hblank =>
      cases hsettings
      exact ⟨.nothing, .blank (List.all_eq_true.mp hblank), settings_nothing⟩
    next hblank =>
      have hblank := blank_iff.mp (Bool.not_eq_true _ ▸ hblank)
      split at hsettings
      next => cases hsettings
      next hdocument =>
        cases hsettings
        exact ⟨.nothing, .empty hblank hdocument, settings_nothing⟩
      next root hdocument =>
        split at hsettings
        next hread =>
          cases hsettings
          obtain ⟨stated, hstates, hsettings⟩ := ofYaml?_eq_some_iff.mp hread
          exact ⟨stated, .document hblank hdocument hstates, hsettings⟩
        next => cases hsettings
  · rintro ⟨stated, hstates, rfl⟩
    cases hstates with
    | blank hblank =>
        rw [if_pos (List.all_eq_true.mpr hblank), settings_nothing]
    | empty hblank hdocument =>
        simp only [blank_iff.mpr hblank, hdocument, settings_nothing]
        rfl
    | document hblank hdocument hstates =>
        simp only [blank_iff.mpr hblank, hdocument, ofYaml?_eq_some_iff.mpr ⟨_, hstates, rfl⟩]
        rfl

end Settings

namespace CommandLine

/-- What the settings file of a request states; one that was not asked for may be missing, be
no regular file, or be broken. -/
inductive FileStates (files : Files) (request : ConvertRequest) : Stated → Prop
  | requested {file text : String} {stated : Stated} (hrequest : request.settings = some file)
      (hread : files.readText file = .ok text) (hstates : TextStates text stated) :
      FileStates files request stated
  | discovered {text : String} {stated : Stated} (hrequest : request.settings = none)
      (hdirectory : files.directoryFault = none) (hfile : files.isFile settingsFile = true)
      (hread : files.readText settingsFile = .ok text) (hstates : TextStates text stated) :
      FileStates files request stated
  | ignored (hrequest : request.settings = none) (hdirectory : files.directoryFault = none)
      (hbroken : files.isFile settingsFile = true →
        ∀ text stated, files.readText settingsFile = .ok text → ¬TextStates text stated) :
      FileStates files request .nothing

/-- What the options of a request state. -/
def ConvertRequest.stated (request : ConvertRequest) : Stated :=
  ⟨request.namespaceName, request.quote, request.format⟩

variable {files : Files} {request : ConvertRequest} {settings : Settings}

theorem loadSettings_eq_ok_iff {file : String} :
    loadSettings files file = .ok settings ↔
      ∃ text stated, files.readText file = .ok text ∧ TextStates text stated ∧
        stated.settings = settings := by
  unfold loadSettings
  cases files.readText file with
  | error => simp
  | ok text => simp [Settings.ofText_eq_ok_iff]

theorem settings_or (request : ConvertRequest) (stated : Stated) :
    (request.stated.or stated).settings =
      ⟨⟨request.namespaceName.getD stated.settings.render.namespaceName,
        request.quote.getD stated.settings.render.quote⟩,
        request.format.getD stated.settings.format⟩ := by
  obtain ⟨file, source, namespaceName, quote, format, settings⟩ := request
  cases namespaceName <;> cases quote <;> cases format <;> rfl

/-- Settings that were not asked for are those of a file that can be loaded, or the defaults. -/
theorem discoverSettings_eq_iff :
    discoverSettings files = settings ↔
      files.isFile settingsFile = true ∧ loadSettings files settingsFile = .ok settings ∨
        (files.isFile settingsFile = true → ∀ found, loadSettings files settingsFile ≠ .ok found) ∧
          .default = settings := by
  unfold discoverSettings
  split_ifs with hfile
  · cases loadSettings files settingsFile <;> simp [hfile]
  · simp [hfile]

theorem configuredSettings_eq_ok_iff :
    configuredSettings files request = .ok settings ↔
      ∃ stated, FileStates files request stated ∧ stated.settings = settings := by
  unfold configuredSettings
  constructor
  · intro hsettings
    split at hsettings
    next file hrequest =>
      obtain ⟨text, stated, hread, hstates, rfl⟩ := loadSettings_eq_ok_iff.mp hsettings
      exact ⟨stated, .requested hrequest hread hstates, rfl⟩
    next hrequest =>
      split at hsettings
      next => cases hsettings
      next hdirectory =>
        rcases discoverSettings_eq_iff.mp (Except.ok.inj hsettings) with ⟨hfile, hload⟩ | ⟨hno, rfl⟩
        · obtain ⟨text, stated, hread, hstates, rfl⟩ := loadSettings_eq_ok_iff.mp hload
          exact ⟨stated, .discovered hrequest hdirectory hfile hread hstates, rfl⟩
        · refine ⟨.nothing, .ignored hrequest hdirectory ?_, rfl⟩
          intro hfile text stated hread hstates
          exact hno hfile _ (loadSettings_eq_ok_iff.mpr ⟨text, stated, hread, hstates, rfl⟩)
  · rintro ⟨stated, hstates, rfl⟩
    cases hstates with
    | requested hrequest hread hstates =>
        rw [hrequest]
        exact loadSettings_eq_ok_iff.mpr ⟨_, _, hread, hstates, rfl⟩
    | discovered hrequest hdirectory hfile hread hstates =>
        have hload := loadSettings_eq_ok_iff.mpr ⟨_, _, hread, hstates, rfl⟩
        simp only [hrequest, hdirectory, discoverSettings_eq_iff.mpr (.inl ⟨hfile, hload⟩)]
    | ignored hrequest hdirectory hbroken =>
        have hno : files.isFile settingsFile = true →
            ∀ found, loadSettings files settingsFile ≠ .ok found := by
          intro hfile found hload
          obtain ⟨text, stated, hread, hstates, -⟩ := loadSettings_eq_ok_iff.mp hload
          exact hbroken hfile text stated hread hstates
        simp only [hrequest, hdirectory, discoverSettings_eq_iff.mpr (.inr ⟨hno, rfl⟩)]
        rfl

/-- An option of the request wins over the file, and the file over the default, field by field. -/
theorem effectiveSettings_eq_ok_iff :
    effectiveSettings files request = .ok settings ↔
      ∃ stated, FileStates files request stated ∧
        (request.stated.or stated).settings = settings := by
  simp only [effectiveSettings, bind_eq_ok_iff, pure_eq_ok_iff, configuredSettings_eq_ok_iff,
    settings_or]
  constructor
  · rintro ⟨_, ⟨stated, hstates, rfl⟩, rfl⟩
    exact ⟨stated, hstates, rfl⟩
  · rintro ⟨stated, hstates, rfl⟩
    exact ⟨_, ⟨stated, hstates, rfl⟩, rfl⟩

end CommandLine

end BuilderCalls
