import Referent.Settings

/-!
# Where settings come from

A setting comes from the highest source that sets it, whatever the sources say of other settings
(`Setting.Prevails`). There is one such value at most, so this says what the settings are
(`Settings.ComesFrom.unique`).

Of the sources, only the environment may be wrong at this point: a variable may hold a text that is
not read (`Misread`). The first variable that does is the error, and nothing else is one, even where
a higher source sets the field (`Settings.highest_source_prevails`).
-/

namespace Referent

/-! ## One setting -/

/-- What each source sets a field to. -/
def Source.sets (default file environment commandLine : Option α) : Source → Option α
  | .default => default
  | .file => file
  | .environment => environment
  | .commandLine => commandLine

theorem Source.eq_of_level_eq {source other : Source} (h : source.level = other.level) :
    source = other := by
  cases source <;> cases other <;> first | rfl | cases h

/-- Of what sources set a field to, this is the value of the highest that sets it. -/
structure Setting.Prevails (sets : Source → Option α) (setting : Setting α) : Prop where
  set : sets setting.source = some setting.value
  highest : ∀ higher, setting.source.level < higher.level → sets higher = none

namespace Setting

variable {sets : Source → Option α} {setting other : Setting α} {value : α}
  {default file environment : Option α}

theorem Prevails.level_le (h : setting.Prevails sets) (hother : other.Prevails sets) :
    other.source.level ≤ setting.source.level := by
  refine Nat.le_of_not_lt fun hhigher => ?_
  have hnone := h.highest other.source hhigher
  rw [hother.set] at hnone
  cases hnone

theorem Prevails.unique (h : setting.Prevails sets) (hother : other.Prevails sets) :
    other = setting := by
  have hsource : other.source = setting.source :=
    Source.eq_of_level_eq (Nat.le_antisymm (h.level_le hother) (hother.level_le h))
  have hvalue := hother.set
  rw [hsource, h.set] at hvalue
  cases setting
  cases other
  simp only [Setting.mk.injEq]
  exact ⟨(Option.some.inj hvalue).symm, hsource⟩

theorem prevails_commandLine :
    Prevails (Source.sets default file environment (some value)) ⟨value, .commandLine⟩ where
  set := rfl
  highest higher h := by cases higher <;> simp [Source.level] at h

theorem prevails_environment :
    Prevails (Source.sets default file (some value) none) ⟨value, .environment⟩ where
  set := rfl
  highest higher h := by
    cases higher with
    | commandLine => rfl
    | _ => simp [Source.level] at h

theorem prevails_file : Prevails (Source.sets default (some value) none none) ⟨value, .file⟩ where
  set := rfl
  highest higher h := by
    cases higher with
    | environment | commandLine => rfl
    | _ => simp [Source.level] at h

theorem prevails_default :
    Prevails (Source.sets (some value) none none none) ⟨value, .default⟩ where
  set := rfl
  highest higher h := by
    cases higher with
    | file | environment | commandLine => rfl
    | default => simp [Source.level] at h

end Setting

section Layers

variable {field : Overrides → Option α} {file environment commandLine : Overrides}
  {default : Option α} {setting : Setting α}

theorem prevails_of_last (h : (layers field file environment commandLine).getLast?.or
    (default.map (⟨·, .default⟩)) = some setting) : setting.Prevails
      (Source.sets default (field file) (field environment) (field commandLine)) := by
  cases hcommandLine : field commandLine with
  | some value =>
    obtain rfl : ⟨value, .commandLine⟩ = setting := by
      simpa [layers, hcommandLine, List.getLast?_append] using h
    exact Setting.prevails_commandLine
  | none =>
    cases henvironment : field environment with
    | some value =>
      obtain rfl : ⟨value, .environment⟩ = setting := by
        simpa [layers, hcommandLine, henvironment, List.getLast?_append] using h
      exact Setting.prevails_environment
    | none =>
      cases hfile : field file with
      | some value =>
        obtain rfl : ⟨value, .file⟩ = setting := by
          simpa [layers, hcommandLine, henvironment, hfile] using h
        exact Setting.prevails_file
      | none =>
        cases default with
        | some value =>
          obtain rfl : ⟨value, .default⟩ = setting := by
            simpa [layers, hcommandLine, henvironment, hfile] using h
          exact Setting.prevails_default
        | none => simp [layers, hcommandLine, henvironment, hfile] at h

/-- The last layer prevails, or the default where there is none. -/
theorem last_eq_some_iff : (layers field file environment commandLine).getLast?.or
    (default.map (⟨·, .default⟩)) = some setting ↔ setting.Prevails
      (Source.sets default (field file) (field environment) (field commandLine)) := by
  refine ⟨prevails_of_last, fun h => ?_⟩
  cases hlast : (layers field file environment commandLine).getLast?.or
      (default.map (⟨·, .default⟩)) with
  | some other => rw [h.unique (prevails_of_last hlast)]
  | none =>
    -- Without a layer and a default, no source sets the field, so no value prevails.
    obtain ⟨hlayers, hdefault⟩ := Option.or_eq_none_iff.1 hlast
    have hunset := List.getLast?_eq_none_iff.1 hlayers
    simp only [layers, List.filterMap_eq_nil_iff] at hunset
    have hset := h.set
    cases hsource : setting.source <;> simp_all [Source.sets]

end Layers

/-! ## Variables -/

/-- The variables whose text has to be read, in the order in which it is. -/
inductive Variable
  | mode | coreLibrary | unknownsProject | libraries | projects
  deriving DecidableEq, Repr

namespace Variable

/-- Every variable whose text has to be read. -/
def all : List Variable :=
  [.mode, .coreLibrary, .unknownsProject, .libraries, .projects]

theorem mem_all (which : Variable) : which ∈ all := by
  cases which <;> decide

/-- The name of a variable. -/
def key : Variable → String
  | .mode => "TYPEGRAPH_MODE"
  | .coreLibrary => "TYPEGRAPH_CORE_LIBRARY"
  | .unknownsProject => "TYPEGRAPH_UNKNOWNS_PROJECT"
  | .libraries => "TYPEGRAPH_LIBRARIES"
  | .projects => "TYPEGRAPH_PROJECTS"

/-- Why a text is refused as the value of a variable. -/
def Refuses : Variable → String → SettingsError → Prop
  | .mode, text, cause =>
    text ≠ "plain" ∧ text ≠ "virtual" ∧ cause = .invalidValue "mode" text
  | .coreLibrary, text, cause => ProjectId.read "TYPEGRAPH_CORE_LIBRARY" text = .error cause
  | .unknownsProject, text, cause =>
    ProjectId.read "TYPEGRAPH_UNKNOWNS_PROJECT" text = .error cause
  | .libraries, text, cause => ProjectId.readList "TYPEGRAPH_LIBRARIES" text = .error cause
  | .projects, text, cause => ProjectId.readList "TYPEGRAPH_PROJECTS" text = .error cause

end Variable

/-- A variable is set to a text that is refused. -/
def Misread (environment : String → Option String) (which : Variable) (cause : SettingsError) :
    Prop :=
  ∃ text, environment which.key = some text ∧ which.Refuses text cause

/-- The first of some variables that is misread is refused for this reason. -/
def FirstMisread (environment : String → Option String) (order : List Variable)
    (cause : SettingsError) : Prop :=
  ∃ front which rest, order = front ++ which :: rest ∧
    Misread environment which cause ∧
    ∀ earlier ∈ front, ∀ other, ¬ Misread environment earlier other

section Environment

variable {environment : String → Option String} {which : Variable} {order : List Variable}
  {cause : SettingsError} {key : String} {read : String → Except SettingsError α}

theorem firstMisread_nil : ¬ FirstMisread environment [] cause := by
  rintro ⟨front, which, rest, heq, -⟩
  simp at heq

theorem firstMisread_cons : FirstMisread environment (which :: order) cause ↔
    Misread environment which cause ∨
      (∀ other, ¬ Misread environment which other) ∧
        FirstMisread environment order cause := by
  constructor
  · rintro ⟨front, first, rest, heq, hfirst, hfront⟩
    cases front with
    | nil =>
      cases heq
      exact .inl hfirst
    | cons earlier front =>
      cases heq
      exact .inr ⟨hfront _ List.mem_cons_self, front, first, rest, rfl, hfirst,
        fun other hother => hfront other (List.mem_cons_of_mem _ hother)⟩
  · rintro (hfirst | ⟨hnone, front, first, rest, rfl, hfirst, hfront⟩)
    · exact ⟨[], which, order, rfl, hfirst, fun _ h => absurd h List.not_mem_nil⟩
    · refine ⟨which :: front, first, rest, rfl, hfirst, fun earlier hearlier => ?_⟩
      rcases List.mem_cons.1 hearlier with rfl | hearlier
      · exact hnone
      · exact hfront earlier hearlier

/-- Some variable is misread exactly if a first one is. -/
theorem exists_firstMisread_iff : (∃ cause, FirstMisread environment order cause) ↔
    ∃ which ∈ order, ∃ cause, Misread environment which cause := by
  induction order with
  | nil => simp [firstMisread_nil]
  | cons which order ih =>
    simp only [firstMisread_cons, List.mem_cons, exists_eq_or_imp, ← ih]
    by_cases h : ∃ cause, Misread environment which cause
    · obtain ⟨cause, hcause⟩ := h
      exact ⟨fun _ => .inl ⟨cause, hcause⟩, fun _ => ⟨cause, .inl hcause⟩⟩
    · rw [not_exists] at h
      simp [h]

theorem Mode.read_eq (text : String) : Mode.read text =
    if text = "plain" then .ok .plain
    else if text = "virtual" then .ok .virtual
    else .error (.invalidValue "mode" text) := by
  unfold Mode.read Mode.ofName?
  by_cases hplain : text = "plain"
  · subst hplain
    rfl
  · by_cases hvirtual : text = "virtual"
    · subst hvirtual
      rfl
    · have hnone : Mode.all.find? (·.name == text) = none := by
        simp [Mode.all, Mode.name, Ne.symm hplain, Ne.symm hvirtual]
      rw [hnone, if_neg hplain, if_neg hvirtual]

theorem Mode.read_eq_error_iff {text : String} : Mode.read text = .error cause ↔
    text ≠ "plain" ∧ text ≠ "virtual" ∧ cause = .invalidValue "mode" text := by
  rw [Mode.read_eq]
  split
  · simp_all
  · split
    · simp_all
    · simp_all [eq_comm]

theorem readVariable_eq_error_iff : Overrides.readVariable environment key read = .error cause ↔
    ∃ text, environment key = some text ∧ read text = .error cause := by
  unfold Overrides.readVariable
  cases environment key with
  | none => simp
  | some text => cases hread : read text <;> simp [Except.map, hread]

/-- Reading one variable more, in front of others. -/
theorem bind_readVariable_eq_error_iff {β : Type} (which : Variable)
    {next : Option α → Except SettingsError β}
    (hrefuses : ∀ text cause, which.Refuses text cause ↔ read text = .error cause)
    (hnext : ∀ value, next value = .error cause ↔ FirstMisread environment order cause) :
    (Overrides.readVariable environment which.key read >>= next) = .error cause ↔
      FirstMisread environment (which :: order) cause := by
  have hmisread (cause : SettingsError) : Misread environment which cause ↔
      Overrides.readVariable environment which.key read = .error cause := by
    simp only [Misread, hrefuses, readVariable_eq_error_iff]
  rw [firstMisread_cons]
  simp only [hmisread]
  cases Overrides.readVariable environment which.key read with
  | error early => simp [bind, Except.bind]
  | ok value => simp [bind, Except.bind, hnext]

theorem ofEnvironment_eq_error_iff : Overrides.ofEnvironment environment = .error cause ↔
    FirstMisread environment Variable.all cause := by
  -- One variable after the other, in the order in which they are read.
  refine bind_readVariable_eq_error_iff .mode (fun _ _ => Mode.read_eq_error_iff.symm) fun _ => ?_
  refine bind_readVariable_eq_error_iff .coreLibrary (fun _ _ => .rfl) fun _ => ?_
  refine bind_readVariable_eq_error_iff .unknownsProject (fun _ _ => .rfl) fun _ => ?_
  refine bind_readVariable_eq_error_iff .libraries (fun _ _ => .rfl) fun _ => ?_
  refine bind_readVariable_eq_error_iff .projects (fun _ _ => .rfl) fun _ => ?_
  exact ⟨fun h => (nomatch h), fun h => absurd h firstMisread_nil⟩

/-- The value that a variable holds, if it is set and its text is read. -/
def held (environment : String → Option String) (key : String)
    (read : String → Except SettingsError α) : Option α :=
  (environment key).bind fun text => (read text).toOption

/-- What the variables hold, each by itself. -/
def Overrides.heldBy (environment : String → Option String) : Overrides where
  rootType := environment "TYPEGRAPH_ROOT_TYPE"
  mode := (environment "TYPEGRAPH_MODE").bind fun text =>
    if text = "plain" then some .plain else if text = "virtual" then some .virtual else none
  coreLibrary := held environment "TYPEGRAPH_CORE_LIBRARY"
    (ProjectId.read "TYPEGRAPH_CORE_LIBRARY")
  unknownsProject := held environment "TYPEGRAPH_UNKNOWNS_PROJECT"
    (ProjectId.read "TYPEGRAPH_UNKNOWNS_PROJECT")
  libraries := held environment "TYPEGRAPH_LIBRARIES" (ProjectId.readList "TYPEGRAPH_LIBRARIES")
  projects := held environment "TYPEGRAPH_PROJECTS" (ProjectId.readList "TYPEGRAPH_PROJECTS")

theorem readVariable_eq_ok {value : Option α}
    (h : Overrides.readVariable environment key read = .ok value) :
    value = held environment key read := by
  unfold Overrides.readVariable at h
  unfold held
  cases henvironment : environment key with
  | none =>
    rw [henvironment] at h
    cases h
    rfl
  | some text =>
    rw [henvironment] at h
    cases hread : read text <;> simp_all [Except.map, Except.toOption]

theorem held_mode : held environment "TYPEGRAPH_MODE" Mode.read =
    (Overrides.heldBy environment).mode := by
  unfold held Overrides.heldBy
  congr 1
  funext text
  rw [Mode.read_eq]
  split
  · rfl
  · split <;> rfl

theorem exists_of_bind_eq_ok {ε β : Type} {result : Except ε α} {next : α → Except ε β} {value : β}
    (h : (result >>= next) = .ok value) :
    ∃ middle, result = .ok middle ∧ next middle = .ok value := by
  cases result with
  | error early => cases h
  | ok middle => exact ⟨middle, rfl, h⟩

/-- What is read as a whole is what the variables hold. -/
theorem ofEnvironment_eq_ok {overrides : Overrides}
    (h : Overrides.ofEnvironment environment = .ok overrides) :
    overrides = .heldBy environment := by
  obtain ⟨mode, hmode, h⟩ := exists_of_bind_eq_ok h
  obtain ⟨coreLibrary, hcoreLibrary, h⟩ := exists_of_bind_eq_ok h
  obtain ⟨unknownsProject, hunknownsProject, h⟩ := exists_of_bind_eq_ok h
  obtain ⟨libraries, hlibraries, h⟩ := exists_of_bind_eq_ok h
  obtain ⟨projects, hprojects, h⟩ := exists_of_bind_eq_ok h
  cases h
  rw [readVariable_eq_ok hmode, held_mode, readVariable_eq_ok hcoreLibrary,
    readVariable_eq_ok hunknownsProject, readVariable_eq_ok hlibraries,
    readVariable_eq_ok hprojects]
  rfl

end Environment

/-! ## All settings -/

namespace Settings

/-- Each setting is that of the highest source that sets it, or the default. Without any, there is
no core library. -/
structure ComesFrom (file : Option Overrides) (environment commandLine : Overrides)
    (settings : Settings) : Prop where
  rootType : settings.rootType.Prevails (Source.sets (some "java.lang.Object")
    (file.bind (·.rootType)) environment.rootType commandLine.rootType)
  mode : settings.mode.Prevails (Source.sets (some .virtual)
    (file.bind (·.mode)) environment.mode commandLine.mode)
  coreLibrary : ∀ setting, settings.coreLibrary = some setting ↔
    setting.Prevails (Source.sets none
      (file.bind (·.coreLibrary)) environment.coreLibrary commandLine.coreLibrary)
  unknownsProject : settings.unknownsProject.Prevails (Source.sets (some ⟨0⟩)
    (file.bind (·.unknownsProject)) environment.unknownsProject commandLine.unknownsProject)
  libraries : settings.libraries.Prevails (Source.sets (some [])
    (file.bind (·.libraries)) environment.libraries commandLine.libraries)
  projects : settings.projects.Prevails (Source.sets (some [])
    (file.bind (·.projects)) environment.projects commandLine.projects)

section ComesFrom

variable {file : Option Overrides} {environment commandLine : Overrides}
  {settings other : Settings}

/-- There are no two settings that come from the same sources. -/
theorem ComesFrom.unique (h : settings.ComesFrom file environment commandLine)
    (hother : other.ComesFrom file environment commandLine) : other = settings := by
  have hcore : other.coreLibrary = settings.coreLibrary :=
    Option.ext fun setting => (hother.coreLibrary setting).trans (h.coreLibrary setting).symm
  have hroot := h.rootType.unique hother.rootType
  have hmode := h.mode.unique hother.mode
  have hunknowns := h.unknownsProject.unique hother.unknownsProject
  have hlibraries := h.libraries.unique hother.libraries
  have hprojects := h.projects.unique hother.projects
  cases settings
  cases other
  simp only [Settings.mk.injEq]
  exact ⟨hroot, hmode, hcore, hunknowns, hlibraries, hprojects⟩

/-- No file is as good as one that sets nothing. -/
theorem field_getD {field : Overrides → Option α} (hfield : field {} = none) :
    field (file.getD {}) = file.bind field := by
  cases file with
  | none => exact hfield
  | some file => rfl

theorem last_eq_some_iff_prevails (field : Overrides → Option α) (hfield : field {} = none)
    (setting : Setting α) :
    (layers field (file.getD {}) environment commandLine).getLast? = some setting ↔
      setting.Prevails
        (Source.sets none (file.bind field) (field environment) (field commandLine)) := by
  rw [← field_getD hfield, ← last_eq_some_iff, Option.map_none, Option.or_none]

theorem getD_last_prevails (field : Overrides → Option α) (hfield : field {} = none)
    (value : α) :
    ((layers field (file.getD {}) environment commandLine).getLast?.getD
      ⟨value, .default⟩).Prevails
        (Source.sets (some value) (file.bind field) (field environment) (field commandLine)) := by
  rw [← field_getD hfield, ← last_eq_some_iff]
  cases (layers field (file.getD {}) environment commandLine).getLast? <;> rfl

theorem combine_comesFrom :
    (combine (file.getD {}) environment commandLine).ComesFrom file environment commandLine where
  rootType := getD_last_prevails Overrides.rootType rfl _
  mode := getD_last_prevails Overrides.mode rfl _
  coreLibrary := last_eq_some_iff_prevails Overrides.coreLibrary rfl
  unknownsProject := getD_last_prevails Overrides.unknownsProject rfl _
  libraries := getD_last_prevails Overrides.libraries rfl _
  projects := getD_last_prevails Overrides.projects rfl _

end ComesFrom

variable {file : Option Overrides} {environment : String → Option String}
  {commandLine : Overrides} {settings : Settings}

theorem comesFrom_of_resolve (h : resolve file environment commandLine = .ok settings) :
    settings.ComesFrom file (.heldBy environment) commandLine := by
  unfold resolve at h
  cases hread : Overrides.ofEnvironment environment with
  | error cause =>
    rw [hread] at h
    cases h
  | ok overrides =>
    rw [hread] at h
    cases h
    rw [← ofEnvironment_eq_ok hread]
    exact combine_comesFrom

theorem resolve_eq_error_iff {cause : SettingsError} :
    resolve file environment commandLine = .error cause ↔
      FirstMisread environment Variable.all cause := by
  rw [← ofEnvironment_eq_error_iff, resolve]
  cases Overrides.ofEnvironment environment <;> simp [Except.map]

/-- Without an error there are settings. -/
theorem exists_resolve_iff : (∃ settings, resolve file environment commandLine = .ok settings) ↔
    ∀ which cause, ¬ Misread environment which cause := by
  have hall : (∃ cause, resolve file environment commandLine = .error cause) ↔
      ∃ which cause, Misread environment which cause := by
    simp only [resolve_eq_error_iff, exists_firstMisread_iff, Variable.mem_all, true_and]
  constructor
  · rintro ⟨settings, hsettings⟩ which cause hmisread
    obtain ⟨first, hfirst⟩ := hall.2 ⟨which, cause, hmisread⟩
    rw [hsettings] at hfirst
    cases hfirst
  · intro hnone
    cases hresolve : resolve file environment commandLine with
    | ok settings => exact ⟨settings, rfl⟩
    | error first =>
      obtain ⟨which, cause, hmisread⟩ := hall.1 ⟨first, hresolve⟩
      exact absurd hmisread (hnone which cause)

/-- Settings fail exactly if the environment has a variable whose text is not read: a mode other
than the two that there are, or no id or list of ids, whatever the command line sets. The error is
that of the first such variable. Otherwise there are settings, each with the value and the source of
the highest source that sets it, or with the default, and with no regard to the others. -/
theorem highest_source_prevails (file : Option Overrides) (environment : String → Option String)
    (commandLine : Overrides) :
    (∀ cause, resolve file environment commandLine = .error cause ↔
      FirstMisread environment Variable.all cause) ∧
    ((∃ settings, resolve file environment commandLine = .ok settings) ↔
      ∀ which cause, ¬ Misread environment which cause) ∧
    ∀ settings, resolve file environment commandLine = .ok settings →
      settings.ComesFrom file (.heldBy environment) commandLine ∧
      ∀ other : Settings, other.ComesFrom file (.heldBy environment) commandLine →
        other = settings := by
  refine ⟨fun _ => resolve_eq_error_iff, exists_resolve_iff, fun settings h => ?_⟩
  have hfrom := comesFrom_of_resolve h
  exact ⟨hfrom, fun other => hfrom.unique⟩

/-- The command line sets the mode, and yet the mode in the environment is the error. So would be
the libraries, but they are read later. -/
example :
    let environment (key : String) : Option String :=
      [("TYPEGRAPH_LIBRARIES", "3,jdk"), ("TYPEGRAPH_MODE", "fast")].lookup key
    resolve none environment { mode := some .plain } = .error (.invalidValue "mode" "fast") := by
  rfl

end Settings

end Referent
