import Referent.Model.Project
import Referent.Proofs.Store
import Referent.Proofs.Table

/-!
# What a build leaves behind

Building a model is a program that may fail at every read, with tasks around its passes. For
the draft it works on none of that matters: a pass that succeeds does to the draft what the
rows of the store say (`Draft.declare`, `Draft.inherit`), and a pass that fails does nothing.
So a list of passes leaves what the passes before the first failure made, and a model that was
built is known from the store (`loaded_eq_ok`, `buildVirtual_eq_ok`).
-/

namespace Referent

/-! ## Runs of a program -/

theorem bind_apply (first : EStateM ε σ α) (next : α → EStateM ε σ β) (s : σ) :
    (first >>= next) s = match first s with
      | .ok a mid => next a mid
      | .error err mid => .error err mid := rfl

/-- Reading the state goes on with it. -/
theorem get_bind_apply (next : σ → EStateM ε σ β) (s : σ) : (get >>= next) s = next s s := rfl

/-- Changing the state cannot fail. -/
theorem modify_bind_apply (change : σ → σ) (next : PUnit → EStateM ε σ β) (s : σ) :
    (modify change >>= next) s = next () (change s) := rfl

theorem forM_cons_apply (step : α → EStateM ε σ PUnit) (a : α) (rest : List α) (s : σ) :
    (a :: rest).forM step s = match step a s with
      | .ok _ mid => rest.forM step mid
      | .error err mid => .error err mid := by
  show (step a >>= fun _ => rest.forM step) s = _
  rw [bind_apply]
  cases step a s <;> rfl

/-- A sequence of steps succeeds if both steps do. -/
theorem bind_eq_ok {first : EStateM ε σ α} {next : α → EStateM ε σ β} {s s' : σ} {b : β} :
    (first >>= next) s = .ok b s' ↔
      ∃ a mid, first s = .ok a mid ∧ next a mid = .ok b s' := by
  rw [bind_apply]
  cases first s with
  | ok a mid => simp
  | error err mid => simp

/-- A sequence of steps fails if the first step fails, or the second one after it. -/
theorem bind_eq_error {first : EStateM ε σ α} {next : α → EStateM ε σ β} {s s' : σ} {err : ε} :
    (first >>= next) s = .error err s' ↔
      first s = .error err s' ∨ ∃ a mid, first s = .ok a mid ∧ next a mid = .error err s' := by
  rw [bind_apply]
  cases first s with
  | ok a mid => simp
  | error err mid => simp

/-- Whether a run has succeeded. -/
def succeeds : EStateM.Result ε σ α → Bool
  | .ok _ _ => true
  | .error _ _ => false

theorem exists_ok_of_succeeds {result : EStateM.Result ε σ α} (h : succeeds result = true) :
    ∃ a s, result = .ok a s := by
  cases result with
  | ok a s => exact ⟨a, s, rfl⟩
  | error err s => cases h

namespace Loading

/-! ## Effects on the draft -/

/-- A step of loading answers `value` and turns the draft into `draft`, or fails and leaves it;
either way it only reads the store. -/
def Does (work : Loading α) (bench : Workbench) (value : α) (draft : Draft) : Prop :=
  match work bench with
  | .ok a after =>
    a = value ∧ after.draft = draft ∧ after.desk.corpus.store = bench.desk.corpus.store
  | .error _ after =>
    after.draft = bench.draft ∧ after.desk.corpus.store = bench.desk.corpus.store

theorem report_does (change : Progress → Progress) (bench : Workbench) :
    Does (report change) bench () bench.draft := ⟨rfl, rfl, rfl⟩

theorem pure_does (value : α) (bench : Workbench) :
    Does (pure value) bench value bench.draft := ⟨rfl, rfl, rfl⟩

theorem ask_does {question : Access → Except StoreError α × Access} {bench : Workbench}
    {value : α}
    (hstore : (question bench.desk.corpus).2.store = bench.desk.corpus.store)
    (hvalue : ∀ answer, (question bench.desk.corpus).1 = .ok answer → answer = value) :
    Does (ask question) bench value bench.draft := by
  unfold Does ask
  cases hquestion : question bench.desk.corpus with
  | mk answer corpus =>
    rw [hquestion] at hstore hvalue
    cases answer with
    | ok answer => exact ⟨hvalue answer rfl, rfl, hstore⟩
    | error cause => exact ⟨rfl, hstore⟩

/-- A step that leaves the draft may come before any other. -/
theorem bind_does {first : Loading α} {next : α → Loading β} {bench : Workbench} {a : α}
    {value : β} {draft : Draft} (hfirst : Does first bench a bench.draft)
    (hnext : ∀ after : Workbench, after.draft = bench.draft →
      after.desk.corpus.store = bench.desk.corpus.store → Does (next a) after value draft) :
    Does (first >>= next) bench value draft := by
  unfold Does at hfirst ⊢
  rw [bind_apply]
  cases hrun : first bench with
  | error err after =>
    rw [hrun] at hfirst
    exact hfirst
  | ok a' after =>
    rw [hrun] at hfirst
    obtain ⟨rfl, hdraft, hstore⟩ := hfirst
    have := hnext after hdraft hstore
    unfold Does at this
    simp only
    cases hrun' : next a' after with
    | ok b last =>
      rw [hrun'] at this
      exact ⟨this.1, this.2.1, this.2.2.trans hstore⟩
    | error err last =>
      rw [hrun'] at this
      exact ⟨this.1.trans hdraft, this.2.trans hstore⟩

/-- The workbench at the start of a task. -/
def starting (name : String) (unit : Option String) (bench : Workbench) : Workbench :=
  { bench with desk.progress := bench.desk.progress.start name unit }

/-- A task answers what its work answers. -/
theorem task_eq (name : String) (unit : Option String) (work : Loading α) (bench : Workbench) :
    task name unit work bench = match work (starting name unit bench) with
      | .ok a after => .ok a { after with desk.progress := after.desk.progress.finish.2 }
      | .error err after => .error err after := by
  unfold task report
  rw [modify_bind_apply, ← starting, bind_apply]
  cases work (starting name unit bench) <;> rfl

theorem task_does {name : String} {unit : Option String} {work : Loading α} {bench : Workbench}
    {value : α} {draft : Draft}
    (h : ∀ after : Workbench, after.draft = bench.draft →
      after.desk.corpus.store = bench.desk.corpus.store → Does work after value draft) :
    Does (task name unit work) bench value draft := by
  have hwork := h (starting name unit bench) rfl rfl
  unfold Does at hwork ⊢
  rw [task_eq]
  cases hrun : work (starting name unit bench) with
  | ok a last =>
    rw [hrun] at hwork
    exact hwork
  | error err last =>
    rw [hrun] at hwork
    exact hwork

theorem declarations_does (project : ProjectId) (origin : Origin) (bench : Workbench) :
    Does (declarations project origin) bench ()
      (bench.draft.declare origin bench.desk.corpus.store project) := by
  apply task_does
  intro after hdraft hstore
  obtain ⟨hkept, hrows⟩ := after.desk.corpus.entitiesOf_cases project EntityKind.declared
  apply bind_does (ask_does hkept hrows)
  intro last hdraft' hstore'
  rw [← hdraft, ← hdraft', ← hstore]
  exact ⟨rfl, rfl, rfl⟩

theorem inheritance_does (project : ProjectId) (toRef : Nat → EntityRef)
    (elsewhere : EntityId → Option EntityRef) (bench : Workbench) :
    Does (inheritance project toRef elsewhere) bench ()
      (bench.draft.inherit toRef elsewhere bench.desk.corpus.store project) := by
  apply task_does
  intro bench₁ hdraft₁ hstore₁
  have hbases : Does (task "Loading has_base_type relations" (some "relations loaded") do
      let rows ← ask (·.relationsOf project [.hasBaseType])
      report (·.count rows.length)
      return baseTypes rows) bench₁
      (baseTypes (bench.desk.corpus.store.relationsOf project [.hasBaseType])) bench₁.draft := by
    apply task_does
    intro bench₂ hdraft₂ hstore₂
    obtain ⟨hkept, hrows⟩ := bench₂.desk.corpus.relationsOf_cases project [.hasBaseType]
    rw [← hstore₁, ← hstore₂, ← hdraft₂]
    apply bind_does (ask_does hkept hrows)
    intro bench₃ hdraft₃ _
    rw [← hdraft₃]
    apply bind_does (report_does _ bench₃)
    intro bench₄ hdraft₄ _
    rw [← hdraft₄]
    exact pure_does _ bench₄
  apply bind_does hbases
  intro bench₂ hdraft₂ hstore₂
  apply task_does
  intro bench₃ hdraft₃ hstore₃
  obtain ⟨hkept, hrows⟩ :=
    bench₃.desk.corpus.relationsOf_cases project RelationKind.inheritance
  apply bind_does (ask_does hkept hrows)
  intro bench₄ hdraft₄ hstore₄
  have hdraft : bench₄.draft = bench.draft := by rw [hdraft₄, hdraft₃, hdraft₂, hdraft₁]
  have hstore : bench₃.desk.corpus.store = bench.desk.corpus.store := by
    rw [hstore₃, hstore₂, hstore₁]
  rw [← hdraft, hstore]
  exact ⟨rfl, rfl, rfl⟩

/-- A loop over projects leaves what the rounds before the first failure made. -/
theorem forM_does (pass : ProjectId → Loading Unit) (store : Store)
    (change : Draft → ProjectId → Draft)
    (hpass : ∀ project bench, bench.desk.corpus.store = store →
      Does (pass project) bench () (change bench.draft project))
    (projects : List ProjectId) (bench : Workbench) (hstore : bench.desk.corpus.store = store) :
    match projects.forM pass bench with
    | .ok _ after =>
      after.draft = projects.foldl change bench.draft ∧ after.desk.corpus.store = store
    | .error _ after => ∃ loaded rest, projects = loaded ++ rest ∧
        after.draft = loaded.foldl change bench.draft ∧ after.desk.corpus.store = store := by
  induction projects generalizing bench with
  | nil => exact ⟨rfl, hstore⟩
  | cons project projects ih =>
    have hfirst := hpass project bench hstore
    unfold Does at hfirst
    rw [forM_cons_apply]
    cases hrun : pass project bench with
    | error err after =>
      rw [hrun] at hfirst
      exact ⟨[], project :: projects, rfl, hfirst.1, hfirst.2.trans hstore⟩
    | ok a after =>
      rw [hrun] at hfirst
      obtain ⟨-, hdraft, hkept⟩ := hfirst
      have hrest := ih after (hkept.trans hstore)
      rw [hdraft] at hrest
      simp only
      cases hrun' : projects.forM pass after with
      | ok b last =>
        rw [hrun'] at hrest
        exact hrest
      | error err last =>
        rw [hrun'] at hrest
        obtain ⟨loaded, rest, hsplit, hlast, hsame⟩ := hrest
        exact ⟨project :: loaded, rest, by rw [hsplit]; rfl, hlast, hsame⟩

end Loading

/-! ## Library models -/

namespace Draft

/-- What loading libraries makes of a draft: all declarations, and then in virtual mode all
inheritance. -/
def fill (mode : Mode) (store : Store) (libraries : List ProjectId) (draft : Draft) : Draft :=
  let declared := libraries.foldl (declare .library store) draft
  match mode with
  | .plain => declared
  | .virtual => libraries.foldl (inherit .library (fun _ => none) store) declared

/-- What a load that failed may have made of a draft. -/
inductive Partial (mode : Mode) (store : Store) (libraries : List ProjectId) (draft : Draft) :
    Draft → Prop
  | declarations {loaded rest : List ProjectId} : libraries = loaded ++ rest →
      Partial mode store libraries draft (loaded.foldl (declare .library store) draft)
  | inheritance {loaded rest : List ProjectId} : mode = .virtual → libraries = loaded ++ rest →
      Partial mode store libraries draft
        (loaded.foldl (inherit .library (fun _ => none) store)
          (libraries.foldl (declare .library store) draft))

end Draft

namespace LibraryModel

theorem passes_cases (mode : Mode) (libraries : List ProjectId) (bench : Workbench) :
    match passes mode libraries bench with
    | .ok _ after => after.draft = bench.draft.fill mode bench.desk.corpus.store libraries ∧
        after.desk.corpus.store = bench.desk.corpus.store
    | .error _ after =>
      Draft.Partial mode bench.desk.corpus.store libraries bench.draft after.draft ∧
        after.desk.corpus.store = bench.desk.corpus.store := by
  have hdeclare := Loading.forM_does (Loading.declarations · .library) bench.desk.corpus.store
    (Draft.declare .library bench.desk.corpus.store) (fun project after hstore => by
      rw [← hstore]
      exact Loading.declarations_does project .library after) libraries bench rfl
  unfold passes
  rw [bind_apply]
  cases hrun : libraries.forM (Loading.declarations · .library) bench with
  | error err after =>
    rw [hrun] at hdeclare
    obtain ⟨loaded, rest, hsplit, hdraft, hstore⟩ := hdeclare
    exact ⟨hdraft ▸ .declarations hsplit, hstore⟩
  | ok a after =>
    rw [hrun] at hdeclare
    obtain ⟨hdraft, hstore⟩ := hdeclare
    cases mode with
    | plain => exact ⟨hdraft, hstore⟩
    | virtual =>
      have hinherit := Loading.forM_does
        (Loading.inheritance · .library fun _ => none) bench.desk.corpus.store
        (Draft.inherit .library (fun _ => none) bench.desk.corpus.store)
        (fun project last hlast => by
          rw [← hlast]
          exact Loading.inheritance_does project .library (fun _ => none) last)
        libraries after hstore
      rw [hdraft] at hinherit
      show match libraries.forM (Loading.inheritance · .library fun _ => none) after with
        | .ok _ last => _
        | .error _ last => _
      cases hrun' : libraries.forM (Loading.inheritance · .library fun _ => none) after with
      | error err last =>
        rw [hrun'] at hinherit
        obtain ⟨loaded, rest, hsplit, hlast, hkept⟩ := hinherit
        exact ⟨hlast ▸ .inheritance rfl hsplit, hkept⟩
      | ok b last =>
        rw [hrun'] at hinherit
        exact hinherit

/-- Loading libraries fills the draft from the store, and fills part of it on failure. -/
theorem load_cases (libraries : List ProjectId) (model : LibraryModel) (desk : Desk) :
    match load libraries (model, desk) with
    | .ok _ after =>
      after.1 = { model with
          draft := model.draft.fill model.mode desk.corpus.store libraries } ∧
        after.2.corpus.store = desk.corpus.store
    | .error _ after =>
      (∃ draft, Draft.Partial model.mode desk.corpus.store libraries model.draft draft ∧
        after.1 = { model with draft }) ∧ after.2.corpus.store = desk.corpus.store := by
  -- The passes run within a task, which starts before them and ends after them.
  let bench := Loading.starting ("Loading " ++ toString libraries.length ++ " libraries") none
    { desk, draft := model.draft }
  have hpasses := passes_cases model.mode libraries bench
  simp only [load, Loading.closingTasks, Loading.task_eq]
  cases hrun : passes model.mode libraries bench with
  | ok a after =>
    rw [hrun] at hpasses
    obtain ⟨hdraft, hstore⟩ := hpasses
    exact ⟨by rw [hdraft]; rfl, hstore⟩
  | error err after =>
    rw [hrun] at hpasses
    obtain ⟨hpartial, hstore⟩ := hpasses
    exact ⟨⟨after.draft, hpartial, rfl⟩, hstore⟩

theorem load_eq_ok {libraries : List ProjectId} {model model' : LibraryModel} {desk desk' : Desk}
    {done : Unit} (h : load libraries (model, desk) = .ok done (model', desk')) :
    model' = { model with
        draft := model.draft.fill model.mode desk.corpus.store libraries } ∧
      desk'.corpus.store = desk.corpus.store := by
  have hload := load_cases libraries model desk
  rw [h] at hload
  exact hload

/-- A load that fails leaves the model as far as it came. -/
theorem load_eq_error {libraries : List ProjectId} {model model' : LibraryModel}
    {desk desk' : Desk} {err : ModelError}
    (h : load libraries (model, desk) = .error err (model', desk')) :
    ∃ draft, Draft.Partial model.mode desk.corpus.store libraries model.draft draft ∧
      model' = { model with draft } := by
  have hload := load_cases libraries model desk
  rw [h] at hload
  exact hload.1

theorem load_of_loaded {libraries : List ProjectId} {model model' : LibraryModel}
    {desk desk' : Desk} (h : model.loaded libraries desk = .ok model' desk') :
    load libraries (model, desk) = .ok () (model', desk') := by
  unfold loaded at h
  split at h
  · rename_i done model₁ desk₁ hload
    cases h
    exact hload
  · cases h

theorem loaded_eq_ok {libraries : List ProjectId} {model model' : LibraryModel}
    {desk desk' : Desk} (h : model.loaded libraries desk = .ok model' desk') :
    model' = { model with
        draft := model.draft.fill model.mode desk.corpus.store libraries } ∧
      desk'.corpus.store = desk.corpus.store :=
  load_eq_ok (load_of_loaded h)

end LibraryModel

/-! ## Project models -/

namespace ProjectModel

theorem assemble_eq_ok {project : ProjectId} {library : LibraryModel} {start : Table}
    {title : String} {passes : Loading Unit} {desk desk' : Desk} {model : ProjectModel}
    {draft : Draft}
    (hpasses : ∀ bench : Workbench, bench.draft = { table := start } →
      bench.desk.corpus.store = desk.corpus.store → ∀ after, passes bench = .ok () after →
        after.draft = draft ∧ after.desk.corpus.store = desk.corpus.store)
    (h : assemble project library start title passes desk = .ok model desk') :
    model = { project, library, table := draft.table, diagnostics := draft.diagnostics } ∧
      desk'.corpus.store = desk.corpus.store := by
  let bench := Loading.starting (title ++ " for " ++ project.display) none
    { desk, draft.table := start }
  simp only [assemble, Loading.closingTasks, Loading.task_eq] at h
  cases hrun : passes bench with
  | ok a after =>
    rw [hrun] at h
    cases h
    obtain ⟨hdraft, hstore⟩ := hpasses bench rfl rfl after hrun
    exact ⟨by rw [hdraft], hstore⟩
  | error err after =>
    rw [hrun] at h
    cases h

/-- What building a project makes of the empty draft. -/
def contents (mode : Mode) (store : Store) (library : LibraryModel) (project : ProjectId) :
    Draft :=
  match mode with
  | .plain => Draft.declare .internal store {} project
  | .virtual =>
    Draft.inherit .project library.findById? store
      (Draft.declare .internal store { table := ({} : Table).trackIds } project) project

theorem buildPlain_eq_ok {project : ProjectId} {library : LibraryModel} {desk desk' : Desk}
    {model : ProjectModel} (h : buildPlain project library desk = .ok model desk') :
    model = { project, library
              table := (contents .plain desk.corpus.store library project).table
              diagnostics := (contents .plain desk.corpus.store library project).diagnostics } ∧
      desk'.corpus.store = desk.corpus.store := by
  refine assemble_eq_ok (fun bench hdraft hstore after hafter => ?_) h
  have hdoes := Loading.declarations_does project .internal bench
  unfold Loading.Does at hdoes
  rw [hafter, hdraft, hstore] at hdoes
  exact hdoes.2

theorem buildVirtual_eq_ok {project : ProjectId} {library : LibraryModel} {soleHolder : Bool}
    {desk desk' : Desk} {model : ProjectModel}
    (h : buildVirtual project library soleHolder desk = .ok model desk') :
    model =
        { project
          library := if soleHolder then library.releaseIds else library
          table := (contents .virtual desk.corpus.store library project).table.releaseIds
          diagnostics :=
            (contents .virtual desk.corpus.store library project).diagnostics } ∧
      desk'.corpus.store = desk.corpus.store := by
  obtain ⟨built, after, hbuilt, hmodel⟩ := bind_eq_ok.1 h
  cases hmodel
  have hpasses : ∀ bench : Workbench, bench.draft = { table := ({} : Table).trackIds } →
      bench.desk.corpus.store = desk.corpus.store →
      ∀ last, (do
          Loading.declarations project .internal
          Loading.inheritance project .project library.findById?) bench = .ok () last →
        last.draft = contents .virtual desk.corpus.store library project ∧
          last.desk.corpus.store = desk.corpus.store := by
    intro bench hdraft hstore last hlast
    obtain ⟨a, mid, hdeclared, hinherited⟩ := bind_eq_ok.1 hlast
    have hdeclare := Loading.declarations_does project .internal bench
    have hinherit := Loading.inheritance_does project .project library.findById? mid
    unfold Loading.Does at hdeclare hinherit
    rw [hdeclared, hdraft, hstore] at hdeclare
    rw [hinherited, hdeclare.2.1, hdeclare.2.2] at hinherit
    exact hinherit.2
  obtain ⟨rfl, hstore⟩ := assemble_eq_ok hpasses hbuilt
  exact ⟨rfl, hstore⟩

end ProjectModel

end Referent
