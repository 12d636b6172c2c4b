import Mathlib
import TextPipeline.Proofs.Settings.Layers
import TextPipeline.Proofs.Settings.Parts

/-!
# Settings from layers

The settings that a file and an environment give are settled one by one: each of them is what the
environment gives at its path, or else what the file gives there, or else its standard value.  So a
value of a section leaves the others of the section alone, in whatever layer they are given, and
what is given at any other path has no effect.
-/

namespace TextPipeline

/-! ### Values -/

namespace Setting

/-- The setting is a text, or the only character of one. -/
inductive IsText : Setting → String → Prop where
  | text (origin : Origin) (s : String) : IsText (.scalar origin (.text s)) s
  | char (origin : Origin) (c : Char) : IsText (.scalar origin (.char c)) (String.singleton c)

/-- The setting is a whole number that is not negative. -/
inductive IsNatural : Setting → Nat → Prop where
  | unsigned (origin : Origin) (n : Nat) : IsNatural (.scalar origin (.unsigned n)) n
  | signed (origin : Origin) (n : Nat) : IsNatural (.scalar origin (.signed n)) n

/-- The setting is a truth value. -/
inductive IsBool : Setting → Bool → Prop where
  | bool (origin : Origin) (b : Bool) : IsBool (.scalar origin (.bool b)) b

/-- The setting is the name of a format. -/
inductive IsFormat : Setting → LogFormat → Prop where
  | name (origin : Origin) (f : LogFormat) : IsFormat (.scalar origin (.text f.name)) f

end Setting

namespace SettingReader

open Setting

variable {v : Setting}

theorem text_eq_ok_iff {s : String} :
  text v = .ok s ↔ v.IsText s
  := by
  constructor
  · intro h
    rw [text.eq_def] at h
    split at h
    · cases h
      apply IsText.text
    · cases h
      apply IsText.char
    · cases h
  · rintro (_ | _) <;> rfl

theorem natural_eq_ok_iff {n : Nat} :
  natural v = .ok n ↔ v.IsNatural n
  := by
  constructor
  · intro h
    rw [natural.eq_def] at h
    split at h
    · cases h
      apply IsNatural.unsigned
    · next origin i =>
      split at h
      · cases h
      · cases h
        obtain ⟨n, rfl⟩ := Int.eq_ofNat_of_zero_le (Int.not_lt.mp ‹_›)
        apply IsNatural.signed
    · cases h
  · rintro (_ | ⟨origin, n⟩)
    · rfl
    · simp [natural]

theorem bool_eq_ok_iff {b : Bool} :
  bool v = .ok b ↔ v.IsBool b
  := by
  constructor
  · intro h
    rw [bool.eq_def] at h
    split at h
    · cases h
      apply IsBool.bool
    · cases h
  · rintro ⟨_⟩
    rfl

/-- A format is found by its name. -/
theorem ofName?_eq_some_iff {name : String} {f : LogFormat} :
  LogFormat.ofName? name = some f ↔ name = f.name
  := by
  constructor
  · intro h
    have hname := List.find?_some h
    exact (of_decide_eq_true hname).symm
  · rintro rfl
    cases f <;> decide

theorem format_eq_ok_iff {f : LogFormat} :
  format v = .ok f ↔ v.IsFormat f
  := by
  constructor
  · intro h
    rw [format.eq_def] at h
    split at h
    · split at h
      · next hname =>
        cases h
        rw [ofName?_eq_some_iff.mp hname]
        apply IsFormat.name
      · cases h
    · cases h
    · split at h
      · cases h
      · cases h
    · cases h
  · rintro ⟨_⟩
    simp only [format, ofName?_eq_some_iff.mpr rfl]

end SettingReader

namespace Settings

open Setting SettingPart

/-! ### Sections -/

/-- The parts of the section about execution. -/
def executionParts : List (SettingPart ExecutionSettings) :=
  [⟨"endpoint", fun _ => .text, (·.endpoint), fun s v => { s with endpoint := v }⟩,
    ⟨"timeout_secs", fun _ => .natural, (·.timeoutSeconds),
      fun s v => { s with timeoutSeconds := v }⟩]

/-- The parts of the section about compilation. -/
def compilerParts : List (SettingPart CompilerSettings) :=
  [⟨"default_sample_text", fun _ => .text, (·.sampleText), fun s v => { s with sampleText := v }⟩]

/-- The parts of the section about logging. -/
def loggingParts : List (SettingPart LoggingSettings) :=
  [⟨"level", fun _ => .text, (·.level), fun s v => { s with level := v }⟩,
    ⟨"format", fun _ => .format, (·.format), fun s v => { s with format := v }⟩,
    ⟨"ansi", fun _ => .bool, (·.ansi), fun s v => { s with ansi := v }⟩]

/-- The sections, which are the parts of all settings. -/
def sectionParts : List (SettingPart Settings) :=
  [⟨"execution", executionReader, (·.execution), fun s v => { s with execution := v }⟩,
    ⟨"compiler", compilerReader, (·.compiler), fun s v => { s with compiler := v }⟩,
    ⟨"logging", loggingReader, (·.logging), fun s v => { s with logging := v }⟩]

theorem separate_executionParts :
  Separate executionParts
  := by
  constructor
  · decide
  · simp [executionParts]
  · simp [executionParts]
  · rintro ⟨_, _⟩ ⟨_, _⟩ h
    simpa [executionParts] using h

theorem separate_compilerParts :
  Separate compilerParts
  := by
  constructor
  · decide
  · simp [compilerParts]
  · simp [compilerParts]
  · rintro ⟨_⟩ ⟨_⟩ h
    simpa [compilerParts] using h

theorem separate_loggingParts :
  Separate loggingParts
  := by
  constructor
  · decide
  · simp [loggingParts]
  · simp [loggingParts]
  · rintro ⟨_, _, _⟩ ⟨_, _, _⟩ h
    simpa [loggingParts] using h

theorem separate_sectionParts :
  Separate sectionParts
  := by
  constructor
  · decide
  · simp [sectionParts]
  · simp [sectionParts]
  · rintro ⟨_, _, _⟩ ⟨_, _, _⟩ h
    simpa [sectionParts] using h

/-! ### Values of merged layers -/

section

variable {α : Type} {means : Setting → α → Prop} {before value : α}

/-- A setting over another one means what it means alone, as long as no table means anything. -/
theorem means_onto_iff (h : ∀ origin members, ¬ means (.table origin members) value)
    {later : Setting} {earlier : Option Setting} :
  means (later.onto earlier) value ↔ means later value
  := by
  cases earlier with
  | none => rfl
  | some earlier =>
    cases later with
    | scalar _ _ => cases earlier <;> rfl
    | list _ _ => cases earlier <;> rfl
    | table _ _ =>
      cases earlier with
      | scalar _ _ => rfl
      | list _ _ => rfl
      | table _ _ => exact iff_of_false (h _ _) (h _ _)

/-- What is given later settles a value, be it over something earlier or in place of it. -/
theorem settled_onto_iff (h : ∀ origin members, ¬ means (.table origin members) value)
    {later earlier : Option Setting} :
  Settled means before ((later.map (onto · earlier)).or earlier) value
    ↔ Settled means before (later.or earlier) value
  := by
  cases later with
  | none => rfl
  | some later => apply means_onto_iff h

/-- What is given later leaves it open how a value is settled without it. -/
theorem settled_or_congr {later earlier earlier' : Option Setting}
    (h : Settled means before earlier value ↔ Settled means before earlier' value) :
  Settled means before (later.or earlier) value ↔ Settled means before (later.or earlier') value
  := by
  cases later with
  | none => apply h
  | some later => rfl

/-- It makes no difference whether the value before is given beneath everything else. -/
theorem settled_or_some_iff {base : Setting} (h : means base value ↔ value = before)
    {later : Option Setting} :
  Settled means before (later.or (some base)) value ↔ Settled means before later value
  := by
  cases later with
  | none => apply h
  | some later => rfl

end

/-! ### Sections of merged layers -/

/-- The names of the sections. -/
def sectionNames : List String := ["execution", "compiler", "logging"]

/-- The layer gives each section, if it gives it, as a table. -/
def GivesSections (layer : Named Setting) : Prop :=
  ∀ top ∈ sectionNames, GivesTable layer top

/-- A layer of nothing but tables gives each section as a table. -/
theorem givesSections_of_forall {layer : Named Setting}
    (h : ∀ m ∈ layer, ∃ origin members, m.2 = .table origin members) :
  GivesSections layer
  := by
  intro top htop v hv
  obtain ⟨front, back, rfl, -⟩ := List.lookup_eq_some_iff.mp hv
  apply h (top, v)
  simp

/-- A sorted layer that gives each section, if it gives it, as a table. -/
structure Sectioned (layer : Named Setting) : Prop where
  ordered : OrderedMembers layer
  sections : GivesSections layer

/-- Merged layers give sections as tables if both of them do. -/
theorem Sectioned.merge {earlier later : Named Setting} (h : Sectioned earlier)
    (hlater : Sectioned later) :
  Sectioned (mergeMembers earlier later)
  := by
  constructor
  · apply h.ordered.merge hlater.ordered.all
  · intro top htop
    apply (h.sections top htop).merge hlater.ordered.sorted (hlater.sections top htop)

/-- A value in a section of merged layers is settled by the later layer or else by the earlier one,
as long as it cannot be read from a table. -/
theorem Sectioned.settled_merge_iff {earlier later : Named Setting} (h : Sectioned earlier)
    (hlater : Sectioned later) {top name : String}
    (htop : top ∈ sectionNames) {α : Type} {means : Setting → α → Prop}
    {before value : α} (htable : ∀ origin members, ¬ means (.table origin members) value) :
  Settled means before (valueAt top name (mergeMembers earlier later)) value
    ↔ Settled means before ((valueAt top name later).or (valueAt top name earlier)) value
  := by
  rw [valueAt_mergeMembers hlater.ordered (h.sections top htop) (hlater.sections top htop)]
  apply settled_onto_iff htable

/-- The layer of settings is sorted. -/
theorem orderedMembers_toLayer (s : Settings) :
  OrderedMembers s.toLayer
  := by
  have hscalars : ∀ values : Named Scalar, (values.map Prod.fst).Pairwise (· < ·) →
      Ordered (.table .standard (values.map fun v => (v.1, .scalar .standard v.2))) := by
    intro values hvalues
    apply Ordered.table
    · rw [Named.Sorted, List.pairwise_map]
      apply List.pairwise_map.mp hvalues
    · rw [List.forall_mem_map]
      intro v hv
      apply Ordered.scalar
  constructor
  · have hnames : (s.toLayer.map Prod.fst).Pairwise (· < ·) := by
      change ["compiler", "execution", "logging"].Pairwise (· < ·)
      decide
    apply List.pairwise_map.mp hnames
  · simp only [toLayer, List.forall_mem_cons]
    refine ⟨?_, ?_, ?_, by simp⟩
    · apply hscalars [("default_sample_text", .text _)]
      apply List.pairwise_singleton
    · apply hscalars [("endpoint", .text _), ("timeout_secs", .unsigned _)]
      change ["endpoint", "timeout_secs"].Pairwise (· < ·)
      decide
    · apply hscalars [("ansi", .bool _), ("format", .text _), ("level", .text _)]
      change ["ansi", "format", "level"].Pairwise (· < ·)
      decide

/-- Settings give a layer whose sections are tables. -/
theorem sectioned_toLayer (s : Settings) :
  Sectioned s.toLayer
  := by
  use orderedMembers_toLayer s
  apply givesSections_of_forall
  simp only [toLayer, List.forall_mem_cons]
  exact ⟨⟨_, _, rfl⟩, ⟨_, _, rfl⟩, ⟨_, _, rfl⟩, by simp⟩

/-- The layers of a file and of an environment over the standard settings. -/
def merged (file environment : Named Setting) : Named Setting :=
  [file, environment].foldl mergeMembers standard.toLayer

/-- What the environment gives at a path, or else what the file gives there. -/
def given (file environment : Named Setting) (top name : String) : Option Setting :=
  (valueAt top name environment).or (valueAt top name file)

variable {file environment : Named Setting}

/-- The merged layers are sorted and give sections as tables. -/
theorem sectioned_merged (hfile : Sectioned file) (henvironment : Sectioned environment) :
  Sectioned (merged file environment)
  := ((sectioned_toLayer standard).merge hfile).merge henvironment

/-- Each section of the merged layers is a table. -/
theorem exists_section (hfile : Sectioned file) (henvironment : Sectioned environment)
    {top : String} (htop : top ∈ sectionNames) :
  ∃ origin members, Named.get? top (merged file environment) = some (.table origin members)
    ∧ Named.Sorted members
  := by
  have hstandard : (Named.get? top standard.toLayer).isSome := by
    revert top
    decide
  have hsome : (Named.get? top (merged file environment)).isSome :=
    isSome_get?_mergeMembers henvironment.ordered.sorted
      (isSome_get?_mergeMembers hfile.ordered.sorted hstandard)
  obtain ⟨v, hv⟩ := Option.isSome_iff_exists.mp hsome
  have hmerged := sectioned_merged hfile henvironment
  obtain ⟨origin, members, rfl⟩ := hmerged.sections top htop v hv
  use origin, members, hv, (hmerged.ordered.get? hv).members.sorted

/-- A section of the merged layers is settled part by part. -/
theorem settled_section_iff (hfile : Sectioned file) (henvironment : Sectioned environment)
    {top : String} (htop : top ∈ sectionNames) {σ : Type}
    {parts : List (SettingPart σ)} (hparts : Separate parts) {before s : σ} (name : String) :
  Settled (fun v s => SettingReader.ofFields name (parts.map field) before v = .ok s) before
      (Named.get? top (merged file environment)) s
    ↔ ∀ part ∈ parts, Settled (part.reads before) (part.get before)
      (valueAt top part.name (merged file environment)) (part.get s)
  := by
  obtain ⟨origin, members, hget, hsorted⟩ := exists_section hfile henvironment htop
  simp only [valueAt, hget]
  apply hparts.foldlM_addMember_eq_ok_iff hsorted

/-- A value in a section of the merged layers is settled by what the environment or the file gives
for it, as long as it cannot be read from a table. -/
theorem settled_valueAt_merged_iff (hfile : Sectioned file) (henvironment : Sectioned environment)
    {top name : String} (htop : top ∈ sectionNames) {α : Type}
    {reader : SettingReader α} {means : Setting → α → Prop}
    (hreader : ∀ {v value}, reader v = .ok value ↔ means v value)
    (htable : ∀ {value} origin members, ¬ means (.table origin members) value) {before : α}
    (hbefore : (valueAt top name standard.toLayer).map reader = some (.ok before)) {value : α} :
  Settled (fun v value => reader v = .ok value) before
      (valueAt top name (merged file environment)) value
    ↔ Settled means before (given file environment top name) value
  := by
  have hmeans : (fun v value => reader v = .ok value) = means := by
    funext v value
    apply propext hreader
  obtain ⟨base, hbase, hread⟩ := Option.map_eq_some_iff.mp hbefore
  have hbase' : means base value ↔ value = before := by
    rw [← hreader, hread, Except.ok.injEq, eq_comm]
  have hstandard := sectioned_toLayer standard
  rw [hmeans]
  calc Settled means before (valueAt top name (merged file environment)) value
    _ ↔ Settled means before ((valueAt top name environment).or
          (valueAt top name (mergeMembers standard.toLayer file))) value :=
        (hstandard.merge hfile).settled_merge_iff henvironment htop htable
    _ ↔ Settled means before ((valueAt top name environment).or
          ((valueAt top name file).or (some base))) value := by
        rw [← hbase]
        apply settled_or_congr (hstandard.settled_merge_iff hfile htop htable)
    _ ↔ Settled means before (given file environment top name) value := by
        rw [← Option.or_assoc]
        apply settled_or_some_iff hbase'

/-! ### Loaded settings -/

/-- Each of the settings is what the environment gives at its path, or else what the file gives
there, or else its standard value. -/
structure Layered (file environment : Named Setting) (s : Settings) : Prop where
  endpoint : Settled IsText standard.execution.endpoint
    (given file environment "execution" "endpoint") s.execution.endpoint
  timeoutSeconds : Settled IsNatural standard.execution.timeoutSeconds
    (given file environment "execution" "timeout_secs") s.execution.timeoutSeconds
  sampleText : Settled IsText standard.compiler.sampleText
    (given file environment "compiler" "default_sample_text") s.compiler.sampleText
  level : Settled IsText standard.logging.level
    (given file environment "logging" "level") s.logging.level
  format : Settled IsFormat standard.logging.format
    (given file environment "logging" "format") s.logging.format
  ansi : Settled IsBool standard.logging.ansi
    (given file environment "logging" "ansi") s.logging.ansi

/-- The level of logging is known, an answer may take some time, and the endpoint begins like the
address of a service. -/
structure Usable (s : Settings) : Prop where
  level : s.logging.level ∈ ["trace", "debug", "info", "warn", "error"]
  timeout : 0 < s.execution.timeoutSeconds
  endpoint : "http://".toList <+: s.execution.endpoint.toList
    ∨ "https://".toList <+: s.execution.endpoint.toList

/-- Nothing speaks against settings just when they are usable. -/
theorem invalid?_eq_none_iff {s : Settings} :
  s.invalid? = none ↔ s.Usable
  := by
  have hurl : isUrl s.execution.endpoint = true ↔ "http://".toList <+: s.execution.endpoint.toList
      ∨ "https://".toList <+: s.execution.endpoint.toList := by
    simp only [isUrl, Bool.or_eq_true, List.isPrefixOf_iff_prefix]
  rw [invalid?]
  constructor
  · intro h
    split at h
    · cases h
    · split at h
      · cases h
      · split at h
        · cases h
        · next hlevel htime hendpoint =>
          simp only [Bool.not_eq_true', Bool.not_eq_false] at hendpoint
          exact ⟨Decidable.not_not.mp hlevel, Nat.pos_of_ne_zero htime, hurl.mp hendpoint⟩
  · intro h
    have hlevel : s.logging.level ∈ levels := h.level
    rw [if_neg (not_not_intro hlevel), if_neg (Nat.ne_of_gt h.timeout), hurl.mpr h.endpoint]
    rfl

/-- The section about execution that the merged layers give. -/
theorem settled_execution_iff (hfile : Sectioned file) (henvironment : Sectioned environment)
    {s : ExecutionSettings} :
  Settled (fun v s => executionReader standard.execution v = .ok s) standard.execution
      (Named.get? "execution" (merged file environment)) s
    ↔ Settled IsText standard.execution.endpoint (given file environment "execution" "endpoint")
        s.endpoint
      ∧ Settled IsNatural standard.execution.timeoutSeconds
        (given file environment "execution" "timeout_secs") s.timeoutSeconds
  := by
  have htop : "execution" ∈ sectionNames := by
    decide
  apply (settled_section_iff hfile henvironment htop separate_executionParts _).trans
  simp only [executionParts, List.forall_mem_cons, List.not_mem_nil, false_imp_iff, implies_true,
    and_true]
  apply and_congr
  · apply settled_valueAt_merged_iff hfile henvironment htop SettingReader.text_eq_ok_iff _ rfl
    rintro _ _ _ ⟨⟩
  · apply settled_valueAt_merged_iff hfile henvironment htop SettingReader.natural_eq_ok_iff _ rfl
    rintro _ _ _ ⟨⟩

/-- The section about compilation that the merged layers give. -/
theorem settled_compiler_iff (hfile : Sectioned file) (henvironment : Sectioned environment)
    {s : CompilerSettings} :
  Settled (fun v s => compilerReader standard.compiler v = .ok s) standard.compiler
      (Named.get? "compiler" (merged file environment)) s
    ↔ Settled IsText standard.compiler.sampleText
      (given file environment "compiler" "default_sample_text") s.sampleText
  := by
  have htop : "compiler" ∈ sectionNames := by
    decide
  apply (settled_section_iff hfile henvironment htop separate_compilerParts _).trans
  rw [compilerParts, List.forall_mem_singleton]
  apply settled_valueAt_merged_iff hfile henvironment htop SettingReader.text_eq_ok_iff _ rfl
  rintro _ _ _ ⟨⟩

/-- The section about logging that the merged layers give. -/
theorem settled_logging_iff (hfile : Sectioned file) (henvironment : Sectioned environment)
    {s : LoggingSettings} :
  Settled (fun v s => loggingReader standard.logging v = .ok s) standard.logging
      (Named.get? "logging" (merged file environment)) s
    ↔ Settled IsText standard.logging.level (given file environment "logging" "level") s.level
      ∧ Settled IsFormat standard.logging.format (given file environment "logging" "format")
        s.format
      ∧ Settled IsBool standard.logging.ansi (given file environment "logging" "ansi") s.ansi
  := by
  have htop : "logging" ∈ sectionNames := by
    decide
  apply (settled_section_iff hfile henvironment htop separate_loggingParts _).trans
  simp only [loggingParts, List.forall_mem_cons, List.not_mem_nil, false_imp_iff, implies_true,
    and_true]
  apply and_congr
  · apply settled_valueAt_merged_iff hfile henvironment htop SettingReader.text_eq_ok_iff _ rfl
    rintro _ _ _ ⟨⟩
  · apply and_congr
    · apply settled_valueAt_merged_iff hfile henvironment htop SettingReader.format_eq_ok_iff _ rfl
      rintro _ _ _ ⟨⟩
    · apply settled_valueAt_merged_iff hfile henvironment htop SettingReader.bool_eq_ok_iff _ rfl
      rintro _ _ _ ⟨⟩

/-- The merged layers give the settings that are settled one by one. -/
theorem ofMembers_merged_eq_ok_iff (hfile : Sectioned file)
    (henvironment : Sectioned environment) {s : Settings} :
  ofMembers (merged file environment) = .ok s ↔ Layered file environment s
  := by
  have hsorted := (sectioned_merged hfile henvironment).ordered.sorted
  apply (separate_sectionParts.foldlM_addMember_eq_ok_iff hsorted).trans
  simp only [sectionParts, List.forall_mem_cons, List.not_mem_nil, false_imp_iff, implies_true,
    and_true]
  constructor
  · rintro ⟨hexecution, hcompiler, hlogging⟩
    obtain ⟨hendpoint, htimeout⟩ := (settled_execution_iff hfile henvironment).mp hexecution
    have hsample := (settled_compiler_iff hfile henvironment).mp hcompiler
    obtain ⟨hlevel, hformat, hansi⟩ := (settled_logging_iff hfile henvironment).mp hlogging
    exact ⟨hendpoint, htimeout, hsample, hlevel, hformat, hansi⟩
  · intro h
    refine ⟨?_, ?_, ?_⟩
    · apply (settled_execution_iff hfile henvironment).mpr ⟨h.endpoint, h.timeoutSeconds⟩
    · apply (settled_compiler_iff hfile henvironment).mpr h.sampleText
    · apply (settled_logging_iff hfile henvironment).mpr ⟨h.level, h.format, h.ansi⟩

/-- Layers give settings just when what they have been read as is usable. -/
theorem ofLayers_eq_ok_iff {layers : List (Named Setting)} {s : Settings} :
  ofLayers layers = .ok s
    ↔ ofMembers (layers.foldl mergeMembers standard.toLayer) = .ok s ∧ s.Usable
  := by
  rw [ofLayers]
  constructor
  · intro h
    split at h
    · cases h
    · next s' hs' =>
      split at h
      · cases h
      · next hnone =>
        cases h
        exact ⟨hs', invalid?_eq_none_iff.mp hnone⟩
  · rintro ⟨hs, husable⟩
    simp only [hs, invalid?_eq_none_iff.mpr husable]

/-- An environment without variables that are settings gives nothing. -/
theorem environmentLayer_eq_nil {environment : List (String × String)}
    (h : ∀ v ∈ environment,
      ¬ Environment.lead <+: (trimBlank v.1.toList).map Char.toLower) :
  environmentLayer environment = []
  := by
  rw [environmentLayer]
  apply List.foldlRecOn (motive := (· = [])) _ _ rfl
  rintro layer rfl ⟨k, text⟩ hv
  have hpath : Environment.pathOf k = none := by
    rw [Environment.pathOf]
    rw [if_neg]
    simpa using h _ hv
  simp only [hpath]

/-- The settings of a file and an environment are settled one by one: if both give the sections
they give as tables, then settings are had just when they are usable and each of them is what the
environment gives at its path, or else what the file gives there, or else its standard value.
Whatever else is given, be it in the same section, has no say in it.  No settings are had that are
not usable.  Without variables that are settings the environment does not matter. -/
theorem load_layered (file : Option String) (environment : List (String × String)) :
  (∀ layer, fileLayer (file.getD "") = some layer → GivesSections layer →
      GivesSections (environmentLayer environment) →
      ∀ s, load file environment = .ok s
        ↔ Layered layer (environmentLayer environment) s ∧ s.Usable)
    ∧ (∀ s, load file environment = .ok s → s.Usable)
    ∧ ∀ text, file = some text →
      (∀ v ∈ environment, ¬ Environment.lead <+: (trimBlank v.1.toList).map Char.toLower) →
      load file environment = parse text
  := by
  refine ⟨?_, ?_, ?_⟩
  · intro layer hlayer hfile henvironment s
    have hfile' : Sectioned layer := ⟨orderedMembers_fileLayer hlayer, hfile⟩
    have henvironment' : Sectioned (environmentLayer environment) :=
      ⟨orderedMembers_environmentLayer environment, henvironment⟩
    rw [load, hlayer, ← ofMembers_merged_eq_ok_iff hfile' henvironment']
    apply ofLayers_eq_ok_iff
  · intro s hs
    rw [load] at hs
    split at hs
    · cases hs
    · apply (ofLayers_eq_ok_iff.mp hs).2
  · rintro text rfl hvariables
    rw [load, parse, environmentLayer_eq_nil hvariables, Option.getD_some]
    rfl

/-- A file with one value in each of two sections, and one that has no meaning. -/
def siblingFile : String :=
  "[execution]\ntimeout_secs = 5\n[logging]\nlevel = \"warn\"\nshade = 1"

/-- An environment with another value in each of the two sections. -/
def siblingEnvironment : List (String × String) :=
  [("NLPFLOW_EXECUTION__ENDPOINT", "https://runner/api"), ("nlpflow_logging.ansi", "false"),
    ("HOME", "/")]

/-- The settings of the file and the environment together. -/
def siblingSettings : Settings :=
  ⟨⟨"https://runner/api", 5⟩, ⟨defaultSampleText⟩, ⟨"warn", .pretty, false⟩⟩

/-- Values of one section come from the file, from the environment and from the standard settings
together. -/
theorem load_siblings :
  load (some siblingFile) siblingEnvironment = .ok siblingSettings
    ∧ siblingSettings.Usable
    ∧ load (some "execution = 1") [("HOME", "/")] = parse "execution = 1"
  := by
  have hparse : Toml.parse siblingFile
      = some [("execution", .table .header [("timeout_secs", .integer 5)]),
        ("logging", .table .header [("level", .text "warn"), ("shade", .integer 1)])] := by
    cbv
  have hfile : fileLayer siblingFile
      = some [("execution", .table .file [("timeout_secs", .scalar .file (.signed 5))]),
        ("logging", .table .file
          [("level", .scalar .file (.text "warn")), ("shade", .scalar .file (.signed 1))])] := by
    rw [fileLayer, hparse]
    rfl
  have henvironment : environmentLayer siblingEnvironment
      = [("execution", .table .environment
          [("endpoint", .scalar .environment (.text "https://runner/api"))]),
        ("logging", .table .environment [("ansi", .scalar .environment (.bool false))])] := by
    rfl
  have husable : siblingSettings.Usable := by
    constructor <;> decide
  have hloaded := load_layered (some siblingFile) siblingEnvironment
  rw [henvironment] at hloaded
  have hok : load (some siblingFile) siblingEnvironment = .ok siblingSettings := by
    apply (hloaded.1 _ hfile _ _ _).mpr
    · refine ⟨?_, husable⟩
      exact ⟨.text _ _, .signed _ 5, rfl, .text _ _, rfl, .bool _ _⟩
    · apply givesSections_of_forall
      simp
    · apply givesSections_of_forall
      simp
  use hok, hloaded.2.1 _ hok
  apply (load_layered (some "execution = 1") [("HOME", "/")]).2.2 _ rfl
  decide

end Settings

end TextPipeline
