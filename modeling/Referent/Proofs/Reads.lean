import Referent.Proofs.Loading

/-!
# The reads of a load

A load makes a fixed number of reads: one of the entity table for the declarations of a library,
and two of the relation table for its inheritance. Nothing else can fail, so whether a load
succeeds is known from the plan of failures before it starts (`LibraryModel.loaded_spends`). Two
ways of loading that make the same reads therefore succeed and fail together.
-/

namespace Referent

namespace Access

/-- The next reads of either table go through, as many as are given. -/
structure Allows (access : Access) (entities relations : Nat) : Prop where
  entities : ∀ i < entities,
    access.plan .readEntities (access.calls.readEntities + i) = false
  relations : ∀ i < relations,
    access.plan .readRelations (access.calls.readRelations + i) = false

/-- The access when these reads have been made. -/
def afterReading (access : Access) (entities relations : Nat) : Access :=
  { access with calls := { access.calls with
      readEntities := access.calls.readEntities + entities
      readRelations := access.calls.readRelations + relations } }

variable {access : Access} {entities relations entities' relations' : Nat}

theorem afterReading_add : (access.afterReading entities relations).afterReading entities'
    relations' = access.afterReading (entities + entities') (relations + relations') := by
  simp only [afterReading, Nat.add_assoc]

/-- Reads go through in a row if the first of them do and then the others. -/
theorem allows_add : access.Allows (entities + entities') (relations + relations') ↔
    access.Allows entities relations ∧
      (access.afterReading entities relations).Allows entities' relations' := by
  constructor
  · intro h
    refine ⟨⟨fun i hi => h.entities i (by omega), fun i hi => h.relations i (by omega)⟩, ?_, ?_⟩
    · intro i hi
      have := h.entities (entities + i) (by omega)
      rwa [← Nat.add_assoc] at this
    · intro i hi
      have := h.relations (relations + i) (by omega)
      rwa [← Nat.add_assoc] at this
  · rintro ⟨hfirst, hthen⟩
    constructor
    · intro i hi
      by_cases hlt : i < entities
      · exact hfirst.entities i hlt
      · have := hthen.entities (i - entities) (by omega)
        rwa [afterReading, Nat.add_assoc, Nat.add_sub_cancel' (by omega)] at this
    · intro i hi
      by_cases hlt : i < relations
      · exact hfirst.relations i hlt
      · have := hthen.relations (i - relations) (by omega)
        rwa [afterReading, Nat.add_assoc, Nat.add_sub_cancel' (by omega)] at this

theorem allows_zero (access : Access) : access.Allows 0 0 := by
  constructor
  · intro i hi
    omega
  · intro i hi
    omega

end Access

namespace Loading

/-- Work that makes so many reads of either table, and fails if and only if one of them does. -/
def Spends (work : Loading α) (entities relations : Nat) : Prop :=
  ∀ bench : Workbench, match work bench with
    | .ok _ after => bench.desk.corpus.Allows entities relations ∧
        after.desk.corpus = bench.desk.corpus.afterReading entities relations
    | .error _ _ => ¬ bench.desk.corpus.Allows entities relations

variable {entities relations entities' relations' : Nat}

theorem Spends.bind {first : Loading α} {next : α → Loading β}
    (hfirst : Spends first entities relations)
    (hnext : ∀ a, Spends (next a) entities' relations') :
    Spends (first >>= next) (entities + entities') (relations + relations') := by
  intro bench
  have hspent := hfirst bench
  rw [bind_apply]
  cases hrun : first bench with
  | error err after =>
    rw [hrun] at hspent
    intro hallows
    exact hspent (Access.allows_add.1 hallows).1
  | ok a after =>
    rw [hrun] at hspent
    obtain ⟨hallows, hcorpus⟩ := hspent
    have hrest := hnext a after
    rw [hcorpus] at hrest
    simp only
    cases hrun' : next a after with
    | ok b last =>
      rw [hrun'] at hrest
      exact ⟨Access.allows_add.2 ⟨hallows, hrest.1⟩, hrest.2.trans Access.afterReading_add⟩
    | error err last =>
      rw [hrun'] at hrest
      intro hall
      exact hrest (Access.allows_add.1 hall).2

/-- Work that makes no reads may come behind any other. -/
theorem Spends.followed {first : Loading α} {next : α → Loading β}
    (hfirst : Spends first entities relations) (hnext : ∀ a, Spends (next a) 0 0) :
    Spends (first >>= next) entities relations :=
  hfirst.bind hnext

/-- A step that leaves the corpus alone spends nothing. -/
theorem spends_nothing {work : Loading α}
    (h : ∀ bench, ∃ a after, work bench = .ok a after ∧ after.desk.corpus = bench.desk.corpus) :
    Spends work 0 0 := by
  intro bench
  obtain ⟨a, after, hrun, hcorpus⟩ := h bench
  rw [hrun]
  exact ⟨bench.desk.corpus.allows_zero, hcorpus⟩

theorem spends_pure (a : α) : Spends (pure a) 0 0 :=
  spends_nothing fun bench => ⟨a, bench, rfl, rfl⟩

theorem spends_askEntities (project : ProjectId) (kinds : List EntityKind) :
    Spends (ask (·.entitiesOf project kinds)) 1 0 := by
  intro bench
  unfold ask Access.entitiesOf Access.call
  by_cases hplan : bench.desk.corpus.plan .readEntities
      (bench.desk.corpus.calls.get .readEntities) = true
  · simp only [hplan, if_true]
    intro hallows
    have := hallows.entities 0 (by omega)
    rw [Nat.add_zero] at this
    exact absurd hplan (by rw [CallCounts.get, this]; decide)
  · simp only [hplan]
    refine ⟨⟨?_, fun i hi => by omega⟩, rfl⟩
    intro i hi
    obtain rfl : i = 0 := by omega
    exact Bool.not_eq_true _ ▸ hplan

theorem spends_askRelations (project : ProjectId) (kinds : List RelationKind) :
    Spends (ask (·.relationsOf project kinds)) 0 1 := by
  intro bench
  unfold ask Access.relationsOf Access.call
  by_cases hplan : bench.desk.corpus.plan .readRelations
      (bench.desk.corpus.calls.get .readRelations) = true
  · simp only [hplan, if_true]
    intro hallows
    have := hallows.relations 0 (by omega)
    rw [Nat.add_zero] at this
    exact absurd hplan (by rw [CallCounts.get, this]; decide)
  · simp only [hplan]
    refine ⟨⟨fun i hi => by omega, ?_⟩, rfl⟩
    intro i hi
    obtain rfl : i = 0 := by omega
    exact Bool.not_eq_true _ ▸ hplan

theorem Spends.task {work : Loading α} (h : Spends work entities relations) (name : String)
    (unit : Option String) : Spends (task name unit work) entities relations := by
  intro bench
  have hspent := h (starting name unit bench)
  rw [task_eq]
  cases hrun : work (starting name unit bench) with
  | ok a after =>
    rw [hrun] at hspent
    exact hspent
  | error err after =>
    rw [hrun] at hspent
    exact hspent

theorem Spends.closingTasks {work : Loading α} (h : Spends work entities relations) :
    Spends (closingTasks work) entities relations := by
  intro bench
  have hspent := h bench
  unfold Loading.closingTasks
  cases hrun : work bench with
  | ok a after =>
    rw [hrun] at hspent
    exact hspent
  | error err after =>
    rw [hrun] at hspent
    exact hspent

theorem Spends.forM {pass : ProjectId → Loading Unit}
    (h : ∀ project, Spends (pass project) entities relations) (projects : List ProjectId) :
    Spends (projects.forM pass) (projects.length * entities) (projects.length * relations) := by
  induction projects with
  | nil =>
    rw [List.length_nil, Nat.zero_mul, Nat.zero_mul]
    exact spends_pure ()
  | cons project projects ih =>
    rw [List.length_cons, Nat.add_one_mul, Nat.add_one_mul, Nat.add_comm _ entities,
      Nat.add_comm _ relations]
    exact (h project).bind fun _ => ih

/-! ## Passes -/

theorem declarations_spends (project : ProjectId) (origin : Origin) :
    Spends (declarations project origin) 1 0 := by
  apply Spends.task
  apply (spends_askEntities project _).followed
  intro rows
  exact spends_nothing fun _ => ⟨(), _, rfl, rfl⟩

theorem inheritance_spends (project : ProjectId) (toRef : Nat → EntityRef)
    (elsewhere : EntityId → Option EntityRef) :
    Spends (inheritance project toRef elsewhere) 0 2 := by
  apply Spends.task
  show Spends _ (0 + 0) (1 + 1)
  refine Spends.bind (Spends.task ?_ _ _) fun bases => Spends.task ?_ _ _
  · apply (spends_askRelations project _).followed
    intro rows
    exact spends_nothing fun _ => ⟨_, _, rfl, rfl⟩
  · apply (spends_askRelations project _).followed
    intro rows
    exact spends_nothing fun _ => ⟨(), _, rfl, rfl⟩

end Loading

namespace LibraryModel

/-- How many reads of the relation table it takes to load some libraries. -/
def relationReads (mode : Mode) (libraries : List ProjectId) : Nat :=
  match mode with
  | .plain => 0
  | .virtual => libraries.length * 2

theorem passes_spends (mode : Mode) (libraries : List ProjectId) :
    (passes mode libraries).Spends libraries.length (relationReads mode libraries) := by
  have hdeclared := Loading.Spends.forM
    (fun project => Loading.declarations_spends project .library) libraries
  rw [Nat.mul_one, Nat.mul_zero] at hdeclared
  have hinherited := Loading.Spends.forM
    (fun project => Loading.inheritance_spends project .library fun _ => none) libraries
  rw [Nat.mul_zero] at hinherited
  cases mode with
  | plain => exact hdeclared.followed fun _ => Loading.spends_pure ()
  | «virtual» =>
    have hall := hdeclared.bind fun _ => hinherited
    rw [Nat.zero_add] at hall
    exact hall

/-- Loading libraries succeeds exactly if its reads go through. -/
theorem loaded_spends (model : LibraryModel) (libraries : List ProjectId) (desk : Desk) :
    match model.loaded libraries desk with
    | .ok _ after =>
      desk.corpus.Allows libraries.length (relationReads model.mode libraries) ∧
        after.corpus =
          desk.corpus.afterReading libraries.length (relationReads model.mode libraries)
    | .error _ _ =>
      ¬ desk.corpus.Allows libraries.length (relationReads model.mode libraries) := by
  have hwork := ((passes_spends model.mode libraries).task
    ("Loading " ++ toString libraries.length ++ " libraries") none).closingTasks
    { desk, draft := model.draft }
  unfold loaded load
  simp only
  generalize Loading.closingTasks _ _ = result at hwork ⊢
  cases result with
  | ok a after => exact hwork
  | error err after => exact hwork

theorem succeeds_loaded (model : LibraryModel) (libraries : List ProjectId) (desk : Desk) :
    succeeds (model.loaded libraries desk) = true ↔
      desk.corpus.Allows libraries.length (relationReads model.mode libraries) := by
  have hspent := model.loaded_spends libraries desk
  cases hrun : model.loaded libraries desk with
  | ok loaded after =>
    rw [hrun] at hspent
    exact ⟨fun _ => hspent.1, fun _ => rfl⟩
  | error err after =>
    rw [hrun] at hspent
    constructor
    · intro h
      cases h
    · intro h
      exact absurd h hspent

/-- Where no call of the store fails, loads succeed. -/
theorem exists_loaded (model : LibraryModel) (libraries : List ProjectId) (desk : Desk)
    (hhealthy : desk.corpus.plan = .none) :
    ∃ model' desk', model.loaded libraries desk = .ok model' desk' := by
  apply exists_ok_of_succeeds
  rw [succeeds_loaded]
  constructor <;> intros <;> rw [hhealthy] <;> rfl

end LibraryModel

end Referent
