import Referent.Proofs.Healthy
import Referent.Proofs.Relocation

/-!
# What lookups change about later answers

Lookups write to the tables that later lookups read, so the same reference may come out
differently before and after. What a model would answer at once is written down without running
it (`ProjectModel.foretold`); a run of questions leaves that alone but for two kinds of names
(`ProjectModel.Fickle`), and for those one plain lookup is enough to change it.

* **Growth keeps dispatch**: declarations stay what they are, and a walk from a type that was
  there before sees what it saw before (`Grows.relocates`).
* **One answer** (`outcome_of_virtual`): an answer that is not remembered is the one foretold.
* **A run** (`Built.told_alike_unless_fickle`): an answer that is remembered was foretold
  when it was given, and is foretold still; in a healthy corpus there is an answer.
-/

namespace Referent

/-! ## What a caller can tell -/

/-- What a caller can tell of an entity. The ids of made entities differ from run to run. -/
structure Profile where
  name : String
  kind : EntityKind
  origin : Origin
  declared : Option EntityId
  deriving DecidableEq, Repr

/-- What a caller can tell of this entity. -/
def Entity.profile (entity : Entity) : Profile where
  name := entity.name
  kind := entity.kind
  origin := entity.origin
  declared := if entity.kind ∈ EntityKind.declared then some entity.id else none

namespace ProjectModel

/-- How a reference came out, and what a caller can tell of its targets. -/
def outcome (model : ProjectModel) (binding : Binding) : Status × List (Option Profile) :=
  (binding.status, binding.targets.map fun ref => (model.entity? ref).map Entity.profile)

/-- The outcome of a virtual lookup that is not remembered, if it succeeds. -/
def foretold (model : ProjectModel) (name : String) : Status × List (Option Profile) :=
  match model.findAny? name with
  | some ref => model.outcome (.resolved ref)
  | none =>
    if Name.isCompoundType name then
      (.resolved, [(Name.compoundKind? name).map fun kind =>
        { name, kind, origin := .notApplicable, declared := none }])
    else match (model.dispatch name).binding with
      | some binding => model.outcome binding
      | none =>
        (.unresolved, [some { name, kind := .unknown, origin := .unknown, declared := none }])

/-- A name that a plain lookup can give another meaning than a virtual lookup found in it. -/
inductive Fickle (model : ProjectModel) (name : String) : Prop
  /-- A compound type takes a name that denotes a library type, or that dispatch would have
  decided. -/
  | taken : model.find? name = none → Name.compoundKind? name ≠ none →
      model.library.find? name ≠ none ∨ Name.isCompoundType name = false → Fickle model name
  /-- A compound type takes the name of the receiver, and hides the library type of that name
  with all that it inherits. -/
  | hidden {ref} : model.findAny? name = none → Name.compoundKind? name = none →
      Name.MemberRef.ofName? name = some ref → ref.isConstructorOrInitializer = false →
      Name.isArray ref.receiver = false → model.find? ref.receiver = none →
      Name.compoundKind? ref.receiver ≠ none → (model.library.dispatch name).binding ≠ none →
      Fickle model name

variable {model : ProjectModel} {name : String}

theorem findAny?_eq_none :
    model.findAny? name = none ↔ model.find? name = none ∧ model.library.find? name = none := by
  rw [findAny?, Option.orElse_eq_orElse, Option.orElse_eq_or, Option.or_eq_none_iff]

theorem outcome_resolved {ref : EntityRef} {entity : Entity}
    (h : model.entity? ref = some entity) :
    model.outcome (.resolved ref) = (.resolved, [some entity.profile]) := by
  simp only [outcome, Binding.status, Binding.targets, List.map_cons, List.map_nil, h,
    Option.map_some]

theorem outcome_unresolved {ref : EntityRef} {entity : Entity}
    (h : model.entity? ref = some entity) :
    model.outcome (.unresolved ref) = (.unresolved, [some entity.profile]) := by
  simp only [outcome, Binding.status, Binding.targets, List.map_cons, List.map_nil, h,
    Option.map_some]

theorem foretold_found {ref : EntityRef} (h : model.findAny? name = some ref) :
    model.foretold name = model.outcome (.resolved ref) := by
  rw [foretold, h]

theorem foretold_compound (hany : model.findAny? name = none)
    (hname : Name.isCompoundType name = true) {kind : EntityKind}
    (hkind : Name.compoundKind? name = some kind) :
    model.foretold name =
      (.resolved, [some { name, kind, origin := .notApplicable, declared := none }]) := by
  simp only [foretold, hany, hname, if_true, hkind, Option.map_some]

theorem foretold_dispatched (hany : model.findAny? name = none)
    (hname : Name.isCompoundType name = false) {binding : Binding}
    (h : (model.dispatch name).binding = some binding) :
    model.foretold name = model.outcome binding := by
  simp only [foretold, hany, hname, Bool.false_eq_true, if_false, h]

theorem foretold_open (hany : model.findAny? name = none)
    (hname : Name.isCompoundType name = false) (h : (model.dispatch name).binding = none) :
    model.foretold name =
      (.unresolved,
        [some { name, kind := .unknown, origin := .unknown, declared := none }]) := by
  simp only [foretold, hany, hname, Bool.false_eq_true, if_false, h]

end ProjectModel

theorem isSynthesized_of_compoundKind? {name : String} {kind : EntityKind}
    (h : Name.compoundKind? name = some kind) : kind.isSynthesized = true := by
  unfold Name.compoundKind? at h
  split at h
  · cases h
  · unfold Name.Shape.kind? at h
    split at h <;> cases h <;> rfl

theorem EntityKind.not_declared_of_isSynthesized {kind : EntityKind}
    (h : kind.isSynthesized = true) : kind ∉ EntityKind.declared := by
  revert h
  cases kind <;> decide

theorem isSome_compoundKind? {name : String} (h : Name.isCompoundType name = true) :
    ∃ kind, Name.compoundKind? name = some kind := by
  unfold Name.isCompoundType at h
  unfold Name.compoundKind?
  rw [Bool.and_eq_true, Bool.not_eq_true'] at h
  obtain ⟨hmethod, hshape⟩ := h
  rw [hmethod]
  cases hkind : Name.Shape.ofName name with
  | simple =>
    rw [hkind] at hshape
    cases hshape
  | array element dimensions => exact ⟨_, rfl⟩
  | wildcard bound => exact ⟨_, rfl⟩
  | typeVariable parameter bounds => exact ⟨_, rfl⟩
  | parameterized base arguments => exact ⟨_, rfl⟩

theorem isCompoundType_eq_false {name : String} (h : Name.compoundKind? name = none) :
    Name.isCompoundType name = false := by
  cases hcompound : Name.isCompoundType name with
  | false => rfl
  | true =>
    obtain ⟨kind, hkind⟩ := isSome_compoundKind? hcompound
    rw [h] at hkind
    cases hkind

/-! ## Growth keeps dispatch -/

namespace LookupState

variable {kept : EntityId → Prop} {base : Nat} {start state : LookupState} {name : String}

theorem Grows.find?_cases (h : Grows kept start state) (name : String) :
    state.model.find? name = start.model.find? name ∨
      start.model.find? name = none ∧ ∃ slot kind id, state.model.find? name =
        some (.project slot) ∧ Name.compoundKind? name = some kind ∧
          state.model.entity? (.project slot) = some (Lookup.compoundEntity name kind id) := by
  cases hstart : start.model.table.slot? name with
  | some slot =>
    left
    rw [ProjectModel.find?, ProjectModel.find?, h.slot name slot hstart, hstart]
  | none =>
    cases hstate : state.model.table.slot? name with
    | none =>
      left
      rw [ProjectModel.find?, ProjectModel.find?, hstart, hstate]
    | some slot =>
      right
      obtain ⟨kind, id, hkind, hentity⟩ := h.made name slot hstart hstate
      refine ⟨by rw [ProjectModel.find?, hstart, Option.map_none], slot, kind, id, ?_, hkind,
        hentity⟩
      rw [ProjectModel.find?, hstate, Option.map_some]

/-- Compound types are no declarations, whatever names they take. -/
theorem Grows.declared? (h : Grows kept start state) (hstart : Ready base start)
    (name : String) : state.model.declared? name = start.model.declared? name := by
  have hslot : state.model.table.declaredSlot? name = start.model.table.declaredSlot? name := by
    rw [Table.declaredSlot?, Table.declaredSlot?]
    cases hearly : start.model.table.slot? name with
    | some slot =>
      have hentity := Array.getElem?_eq_getElem (hstart.slot_lt name slot hearly)
      rw [h.slot name slot hearly, Option.filter_some, Option.filter_some, hentity,
        h.entity slot _ hentity]
    | none =>
      cases hlate : state.model.table.slot? name with
      | none => rfl
      | some slot =>
        obtain ⟨kind, id, hkind, hentity⟩ := h.made name slot hearly hlate
        rw [Option.filter_some, hentity]
        simp [Lookup.compoundEntity, isSynthesized_of_compoundKind? hkind]
  rw [ProjectModel.declared?, ProjectModel.declared?, hslot, h.library]

/-- What a fresh model shows, it shows after any growth. -/
theorem Grows.relocates (h : Grows kept start state) (hstart : Ready base start)
    (hfresh : start.model.Fresh) :
    Hierarchy.Relocates id start.model.hierarchy state.model.hierarchy where
  injective := Function.injective_id
  entity ref entity hentity := by
    rw [ProjectModel.entity?_hierarchy] at hentity
    refine ⟨entity, ?_, rfl, rfl, ?_⟩
    · rw [ProjectModel.entity?_hierarchy]
      exact h.entity? hentity
    · rw [List.map_id]
  closed ref entity hentity parent hparent := by
    rw [ProjectModel.entity?_hierarchy] at hentity ⊢
    exact hfresh.closed hentity parent hparent
  declared name := by
    rw [Option.map_id_fun, id]
    exact h.declared? hstart name

/-- Dispatch decides as before, unless a compound type has taken the receiver's name. -/
theorem Grows.dispatch_cases (h : Grows kept start state) (hstart : Ready base start)
    (hfresh : start.model.Fresh) (name : String) :
    (state.model.dispatch name).binding = (start.model.dispatch name).binding ∨
      (state.model.dispatch name).binding = none ∧ ∃ ref,
        Name.MemberRef.ofName? name = some ref ∧ ref.isConstructorOrInitializer = false ∧
          Name.isArray ref.receiver = false ∧ start.model.find? ref.receiver = none ∧
            Name.compoundKind? ref.receiver ≠ none := by
  cases href : Name.MemberRef.ofName? name with
  | none =>
    left
    simp only [ProjectModel.dispatch, href]
  | some ref =>
    cases hinit : ref.isConstructorOrInitializer with
    | true =>
      left
      simp only [ProjectModel.dispatch, href, hinit, if_true]
    | false =>
      cases harray : Name.isArray ref.receiver with
      | true =>
        left
        simp only [ProjectModel.dispatch, href, hinit, harray, if_true, h.library,
          h.declared? hstart]
      | false =>
        rcases h.find?_cases ref.receiver with
          hsame | ⟨hnone, slot, kind, id, hmade, hkind, hentity⟩
        · left
          cases hreceiver : start.model.find? ref.receiver with
          | none =>
            rw [ProjectModel.dispatch_of_unknown href hinit harray hreceiver,
              ProjectModel.dispatch_of_unknown href hinit harray (hsame.trans hreceiver), h.library]
          | some receiver =>
            obtain ⟨entity, hentity⟩ := hstart.entity?_of_denotes (.bound hreceiver)
            have hvisible : (start.model.hierarchy.entity? receiver).isSome := by
              rw [ProjectModel.entity?_hierarchy, hentity]
              rfl
            have hresolve := (h.relocates hstart hfresh).resolve hvisible name ref
            rw [ProjectModel.dispatch_of_known href hinit harray hreceiver,
              ProjectModel.dispatch_of_known href hinit harray (hsame.trans hreceiver)]
            refine hresolve.trans ?_
            rw [Binding.move_id, Option.map_id, id]
        · right
          refine ⟨?_, ref, rfl, hinit, harray, hnone, by rw [hkind]; simp⟩
          rw [← ProjectModel.entity?_hierarchy] at hentity
          rw [ProjectModel.dispatch_of_known href hinit harray hmade]
          exact Hierarchy.resolve_of_no_parents hentity rfl name ref

/-- An outcome stays what it is while its targets can be seen. -/
theorem Grows.outcome (h : Grows kept start state) {binding : Binding}
    (hvisible : ∀ target ∈ binding.targets, (start.model.entity? target).isSome) :
    state.model.outcome binding = start.model.outcome binding := by
  rw [ProjectModel.outcome, ProjectModel.outcome]
  congr 1
  apply List.map_congr_left
  intro target htarget
  obtain ⟨entity, hentity⟩ := Option.isSome_iff_exists.1 (hvisible target htarget)
  rw [hentity, h.entity? hentity]

theorem profile_compoundEntity {kind : EntityKind} (hkind : Name.compoundKind? name = some kind)
    (id : EntityId) : (Lookup.compoundEntity name kind id).profile =
      { name, kind, origin := .notApplicable, declared := none } := by
  have := EntityKind.not_declared_of_isSynthesized (isSynthesized_of_compoundKind? hkind)
  simp [Entity.profile, Lookup.compoundEntity, this]

/-- What is foretold of a name that keeps its meaning stays so, unless the name of its receiver
is taken. -/
theorem Grows.foretold_of_same (h : Grows kept start state) (hstart : Ready base start)
    (hfresh : start.model.Fresh) (hname : ¬ start.model.Fickle name)
    (hsame : state.model.find? name = start.model.find? name) :
    state.model.foretold name = start.model.foretold name := by
  have hany : state.model.findAny? name = start.model.findAny? name := by
    rw [ProjectModel.findAny?, ProjectModel.findAny?, hsame, h.library]
  cases hstate : start.model.findAny? name with
  | some ref =>
    rw [ProjectModel.foretold_found hstate, ProjectModel.foretold_found (hany.trans hstate)]
    exact h.outcome (hstart.visible_findAny hstate)
  | none =>
    cases hcompound : Name.isCompoundType name with
    | true =>
      obtain ⟨kind, hkind⟩ := isSome_compoundKind? hcompound
      rw [ProjectModel.foretold_compound hstate hcompound hkind,
        ProjectModel.foretold_compound (hany.trans hstate) hcompound hkind]
    | false =>
      have hkind : Name.compoundKind? name = none := by
        by_contra hkind
        exact hname (.taken (ProjectModel.findAny?_eq_none.1 hstate).1 hkind (.inr hcompound))
      have hbinding : (state.model.dispatch name).binding =
          (start.model.dispatch name).binding := by
        rcases h.dispatch_cases hstart hfresh name with
          heq | ⟨hnone, ref, href, hinit, harray, hreceiver, hshape⟩
        · exact heq
        · have hlibrary : (start.model.library.dispatch name).binding = none := by
            by_contra hlibrary
            exact hname (.hidden hstate hkind href hinit harray hreceiver hshape hlibrary)
          rw [hnone, ProjectModel.dispatch_of_unknown href hinit harray hreceiver, hlibrary]
      cases hearly : (start.model.dispatch name).binding with
      | none =>
        rw [ProjectModel.foretold_open hstate hcompound hearly,
          ProjectModel.foretold_open (hany.trans hstate) hcompound (hbinding.trans hearly)]
      | some binding =>
        rw [ProjectModel.foretold_dispatched hstate hcompound hearly,
          ProjectModel.foretold_dispatched (hany.trans hstate) hcompound (hbinding.trans hearly)]
        exact h.outcome (hstart.visible_dispatch hearly)

/-- What is foretold of a name that is not fickle stays so. -/
theorem Grows.foretold (h : Grows kept start state) (hstart : Ready base start)
    (hfresh : start.model.Fresh) (hname : ¬ start.model.Fickle name) :
    state.model.foretold name = start.model.foretold name := by
  rcases h.find?_cases name with hsame | ⟨hnone, slot, kind, id, hmade, hkind, hentity⟩
  · exact h.foretold_of_same hstart hfresh hname hsame
  · have hshape : Name.compoundKind? name ≠ none := by
      rw [hkind]
      exact Option.some_ne_none kind
    have hlibrary : start.model.library.find? name = none := by
      by_contra hlibrary
      exact hname (.taken hnone hshape (.inl hlibrary))
    have hcompound : Name.isCompoundType name = true := by
      by_contra hcompound
      rw [Bool.not_eq_true] at hcompound
      exact hname (.taken hnone hshape (.inr hcompound))
    have hany : state.model.findAny? name = some (.project slot) := by
      rw [ProjectModel.findAny?, hmade]
      rfl
    rw [ProjectModel.foretold_found hany, ProjectModel.outcome_resolved hentity,
      profile_compoundEntity hkind,
      ProjectModel.foretold_compound (ProjectModel.findAny?_eq_none.2 ⟨hnone, hlibrary⟩)
        hcompound hkind]

/-! ## One answer -/

/-- A compound type that is looked up has its name. -/
theorem compound_of_getEntity (h : Ready base state) (hfree : state.model.find? name = none)
    {kind : EntityKind} (hkind : Name.compoundKind? name = some kind) {ref : EntityRef}
    {after : LookupState} (hrun : ProjectModel.getEntity name state = .ok ref after) :
    ∃ id, after.model.find? name = some ref ∧
      after.model.entity? ref = some (Lookup.compoundEntity name kind id) := by
  obtain ⟨hadds, hdenotes⟩ := adds_of_getEntity h hrun
  cases hdenotes with
  | bound hfind =>
    rcases hadds.grows.find?_cases name with hsame | ⟨-, slot, kind', id, hmade, hkind', hentity⟩
    · rw [hsame, hfree] at hfind
      cases hfind
    · rw [hmade] at hfind
      cases hfind
      rw [hkind] at hkind'
      cases hkind'
      exact ⟨id, hmade, hentity⟩
  | library _ hnone _ =>
    rw [hkind] at hnone
    cases hnone
  | placeholder _ hnone _ _ =>
    rw [hkind] at hnone
    cases hnone

/-- The reference is to a compound type of that name, and a row has come for it. -/
def MadeSince (before after : LookupState) (name : String) (ref : EntityRef) : Prop :=
  ∃ kind id row, kind.isSynthesized = true ∧
    after.model.entity? ref = some (Lookup.compoundEntity name kind id) ∧
    before.corpus.store.New after.corpus.store row ∧ row.name = name ∧ row.kind = kind

/-- A compound type that is looked up for the first time is made. -/
theorem madeSince_of_getEntity (h : Ready base state) (hfree : state.model.find? name = none)
    {kind : EntityKind} (hkind : Name.compoundKind? name = some kind) {ref : EntityRef}
    {after : LookupState} (hrun : ProjectModel.getEntity name state = .ok ref after) :
    state.MadeSince after name ref := by
  obtain ⟨id, hfind, hentity⟩ := compound_of_getEntity h hfree hkind hrun
  obtain ⟨slot, hslot, rfl⟩ := Option.map_eq_some_iff.1 hfind
  obtain ⟨-, kind', id', hunused, hlinked⟩ := (adds_of_getEntity h hrun).1.linked name slot
    (Option.map_eq_none_iff.1 hfree) hslot
  have hsame := hlinked.shape
  rw [hkind, Option.some.injEq] at hsame
  exact ⟨kind, id, _, isSynthesized_of_compoundKind? hkind, hentity,
    ⟨hlinked.row, fun hold => hunused (.of_mem hold)⟩, rfl, hsame.symm⟩

/-- An answer that is not remembered is the one foretold, and its targets can be seen. -/
theorem outcome_of_virtual (h : Ready base state) (hmemo : state.model.memoized? name = none)
    {binding : Binding} {after : LookupState}
    (hrun : ProjectModel.getVirtualEntity name state = .ok binding after) :
    after.model.outcome binding = state.model.foretold name ∧
      ∀ target ∈ binding.targets, (after.model.entity? target).isSome := by
  have hexit := ProjectModel.getVirtualEntity_exit name state
  rw [hrun] at hexit
  cases hexit with
  | remembered hold =>
    rw [hmemo] at hold
    cases hold
  | bound _ hany => exact ⟨(ProjectModel.foretold_found hany).symm, h.visible_findAny hany⟩
  | made _ hany hcompound hget =>
    obtain ⟨kind, hkind⟩ := isSome_compoundKind? hcompound
    have hfree := (ProjectModel.findAny?_eq_none.1 hany).1
    obtain ⟨id, -, hentity⟩ := compound_of_getEntity h hfree hkind hget
    constructor
    · rw [ProjectModel.outcome_resolved hentity, profile_compoundEntity hkind,
        ProjectModel.foretold_compound hany hcompound hkind]
    · intro target htarget
      rw [List.mem_singleton.1 htarget, hentity]
      rfl
  | decided _ hany hcompound hbinding =>
    exact ⟨(ProjectModel.foretold_dispatched hany hcompound hbinding).symm,
      h.visible_dispatch hbinding⟩
  | @placed ref last _ hany hcompound hbinding hget =>
    have hunknown := unknown_noting_adds h name (state.model.dispatch name).anomaly
    rw [hget] at hunknown
    obtain ⟨hadds, hplaceholder⟩ := hunknown
    obtain ⟨slot, id, rfl, hentity⟩ := hadds.ready.placeholder name ref hplaceholder
    have hseen : (last.remembering name (.unresolved (.project slot))).model.entity?
        (.project slot) = some (PlaceholderCache.entity name id) := hentity
    constructor
    · rw [ProjectModel.outcome_unresolved hseen,
        ProjectModel.foretold_open hany hcompound hbinding]
      rfl
    · intro target htarget
      rw [List.mem_singleton.1 htarget, hseen]
      rfl

/-- What a virtual lookup tells a caller, if it succeeds. -/
def told? (state : LookupState) (name : String) : Option (Status × List (Option Profile)) :=
  match ProjectModel.getVirtualEntity name state with
  | .ok binding after => some (after.model.outcome binding)
  | .error _ _ => none

theorem told?_eq_foretold (h : Ready base state) (hmemo : state.model.memoized? name = none)
    {answer : Status × List (Option Profile)} (htold : state.told? name = some answer) :
    answer = state.model.foretold name := by
  unfold told? at htold
  split at htold
  · rename_i binding after hrun
    cases htold
    exact (outcome_of_virtual h hmemo hrun).1
  · cases htold

/-- In a healthy corpus, there is an answer. -/
theorem exists_told (h : state.corpus.Healthy (Name.weight name)) :
    ∃ answer, state.told? name = some answer := by
  rw [← Nat.zero_add (Name.weight name)] at h
  obtain ⟨binding, after, hrun, -⟩ := (ProjectModel.getVirtualEntity_succeeds h).exists_ok
  exact ⟨after.model.outcome binding, by rw [told?, hrun]⟩

/-! ## Runs -/

/-- What is remembered can be seen, and was foretold at the start unless its name is fickle. -/
structure Recalls (start state : LookupState) : Prop where
  visible : ∀ other binding, state.model.memoized? other = some binding →
    ∀ target ∈ binding.targets, (state.model.entity? target).isSome
  outcome : ∀ other binding, state.model.memoized? other = some binding →
    ¬ start.model.Fickle other → state.model.outcome binding = start.model.foretold other

theorem memoized?_remembering {other : String} {binding answer : Binding}
    (hmemo : (state.remembering name answer).model.memoized? other = some binding) :
    state.model.memoized? other = some binding ∨ other = name ∧ binding = answer := by
  simp only [ProjectModel.memoized?, remembering] at hmemo ⊢
  rw [Std.TreeMap.getElem?_insert] at hmemo
  split at hmemo
  · rename_i heq
    exact .inr ⟨(Std.LawfulEqOrd.eq_of_compare heq).symm, (Option.some.inj hmemo).symm⟩
  · exact .inl hmemo

/-- A virtual lookup remembers nothing but its own answer. -/
theorem memoized?_virtual (h : Ready base state) {other : String} {binding : Binding}
    (hmemo : (state.leaving (ProjectModel.getVirtualEntity name)).model.memoized? other =
      some binding) :
    state.model.memoized? other = some binding ∨
      other = name ∧ state.model.memoized? name = none ∧
        ProjectModel.getVirtualEntity name state =
          .ok binding (state.leaving (ProjectModel.getVirtualEntity name)) := by
  have hsame : ∀ {after : LookupState}, after.model.bindings = state.model.bindings →
      after.model.memoized? other = some binding → state.model.memoized? other = some binding := by
    intro after hbindings hafter
    rwa [ProjectModel.memoized?, hbindings] at hafter
  have hexit := ProjectModel.getVirtualEntity_exit name state
  have hget := (leaving_getEntity_adds h name).bindings
  have hunknown := unknown_noting_adds h name (state.model.dispatch name).anomaly
  unfold leaving at hget hmemo ⊢
  generalize ProjectModel.getVirtualEntity name state = result at hexit hmemo ⊢
  cases hexit with
  | remembered _ => exact .inl hmemo
  | bound _ _ => exact .inl hmemo
  | made _ _ _ hrun =>
    rw [hrun] at hget
    exact .inl (hsame hget hmemo)
  | unmade _ _ _ hrun =>
    rw [hrun] at hget
    exact .inl (hsame hget hmemo)
  | decided hnew _ _ _ =>
    rcases memoized?_remembering hmemo with hold | ⟨rfl, rfl⟩
    · exact .inl (hsame rfl hold)
    · exact .inr ⟨rfl, hnew, rfl⟩
  | placed hnew _ _ _ hrun =>
    rw [hrun] at hunknown
    rcases memoized?_remembering hmemo with hold | ⟨rfl, rfl⟩
    · exact .inl (hsame hunknown.1.bindings hold)
    · exact .inr ⟨rfl, hnew, rfl⟩
  | unplaced _ _ _ _ hrun =>
    rw [hrun] at hunknown
    exact .inl (hsame hunknown.bindings hmemo)

theorem Recalls.grows (h : Recalls start state) {after : LookupState}
    (hgrows : Grows kept state after) {other : String} {binding : Binding}
    (hmemo : state.model.memoized? other = some binding) :
    (∀ target ∈ binding.targets, (after.model.entity? target).isSome) ∧
      (¬ start.model.Fickle other → after.model.outcome binding = start.model.foretold other) := by
  have hvisible := h.visible other binding hmemo
  constructor
  · intro target htarget
    obtain ⟨entity, hentity⟩ := Option.isSome_iff_exists.1 (hvisible target htarget)
    rw [hgrows.entity? hentity]
    rfl
  · intro hname
    rw [hgrows.outcome hvisible]
    exact h.outcome other binding hmemo hname

/-- A question is answered as foretold, and what is remembered of it was foretold. -/
theorem Recalls.question (h : Recalls start state) (hstart : Ready base start)
    (hfresh : start.model.Fresh) (hgrows : Grows kept start state) (hready : Ready base state)
    (question : Question) : Recalls start (state.leaving question.ask) := by
  have hadds := question_adds hready question
  cases question with
  | plain other =>
    have hbindings : (state.leaving (Question.plain other).ask).model.bindings =
        state.model.bindings := by
      rw [leaving_plain]
      exact (leaving_getEntity_adds hready other).bindings
    constructor
    · intro name binding hmemo
      rw [ProjectModel.memoized?, hbindings] at hmemo
      exact (h.grows hadds.grows hmemo).1
    · intro name binding hmemo
      rw [ProjectModel.memoized?, hbindings] at hmemo
      exact (h.grows hadds.grows hmemo).2
  | virtual other =>
    rw [leaving_virtual] at hadds ⊢
    constructor
    · intro name binding hmemo
      rcases memoized?_virtual hready hmemo with hold | ⟨rfl, hnew, hrun⟩
      · exact (h.grows hadds.grows hold).1
      · exact (outcome_of_virtual hready hnew hrun).2
    · intro name binding hmemo hname
      rcases memoized?_virtual hready hmemo with hold | ⟨rfl, hnew, hrun⟩
      · exact (h.grows hadds.grows hold).2 hname
      · rw [(outcome_of_virtual hready hnew hrun).1]
        exact hgrows.foretold hstart hfresh hname

theorem Recalls.afterAsking (h : Recalls start state) (hstart : Ready base start)
    (hfresh : start.model.Fresh) (hgrows : Grows kept start state) (hready : Ready base state)
    (hkept : ∀ id, kept id → state.corpus.store.Uses id) (questions : List Question) :
    Recalls start (state.afterAsking questions) := by
  induction questions generalizing state with
  | nil => exact h
  | cons question questions ih =>
    have hadds := question_adds hready question
    refine ih (h.question hstart hfresh hgrows hready question)
      (hgrows.trans (hadds.grows.weaken hkept)) hadds.ready ?_
    intro id hid
    exact hadds.grows.uses (hkept id hid)

end LookupState

open LookupState

namespace ProjectModel

variable {model : ProjectModel} {name : String}

theorem Fresh.outcome_declared (h : model.Fresh) (binding : Binding) (profile : Profile)
    (hprofile : some profile ∈ (model.outcome binding).2) :
    profile.kind ∈ EntityKind.declared := by
  obtain ⟨target, -, htarget⟩ := List.mem_map.1 hprofile
  obtain ⟨entity, hentity, rfl⟩ := Option.map_eq_some_iff.1 htarget
  exact h.declared hentity

/-- What is foretold of a fresh model is never a compound type that is made. -/
theorem Fresh.outcome_ne_made (h : model.Fresh) (binding : Binding) {kind : EntityKind}
    (hkind : Name.compoundKind? name = some kind) :
    model.outcome binding ≠
      (.resolved, [some { name, kind, origin := .notApplicable, declared := none }]) := by
  intro hbinding
  have hdeclared : kind ∈ EntityKind.declared := by
    refine h.outcome_declared binding
      { name, kind, origin := .notApplicable, declared := none } ?_
    rw [hbinding]
    exact List.mem_singleton_self _
  exact EntityKind.not_declared_of_isSynthesized (isSynthesized_of_compoundKind? hkind) hdeclared

/-- A compound type that takes the name is told instead. -/
theorem Fresh.foretold_ne_of_taken (hfresh : model.Fresh) {kind : EntityKind}
    (hkind : Name.compoundKind? name = some kind)
    (hother : model.library.find? name ≠ none ∨ Name.isCompoundType name = false)
    {after : LookupState} {ref : EntityRef} {id : EntityId}
    (hmade : after.model.find? name = some ref)
    (hentity : after.model.entity? ref = some (Lookup.compoundEntity name kind id)) :
    after.model.foretold name ≠ model.foretold name := by
  have hany : after.model.findAny? name = some ref := by
    rw [findAny?, hmade]
    rfl
  rw [foretold_found hany, outcome_resolved hentity, profile_compoundEntity hkind]
  cases hstart : model.findAny? name with
  | some target =>
    rw [foretold_found hstart]
    exact (hfresh.outcome_ne_made _ hkind).symm
  | none =>
    have hcompound : Name.isCompoundType name = false :=
      hother.resolve_left fun hlibrary => hlibrary (findAny?_eq_none.1 hstart).2
    cases hbinding : (model.dispatch name).binding with
    | some binding =>
      rw [foretold_dispatched hstart hcompound hbinding]
      exact (hfresh.outcome_ne_made _ hkind).symm
    | none =>
      rw [foretold_open hstart hcompound hbinding]
      intro heq
      cases heq

/-- A compound type that takes the name of the receiver has no members. -/
theorem foretold_ne_of_hidden {member : Name.MemberRef} {binding : Binding}
    (hany : model.findAny? name = none) (hshape : Name.compoundKind? name = none)
    (href : Name.MemberRef.ofName? name = some member)
    (hinit : member.isConstructorOrInitializer = false)
    (harray : Name.isArray member.receiver = false)
    (hreceiver : model.find? member.receiver = none)
    (hbinding : (model.library.dispatch name).binding = some binding)
    {kept : EntityId → Prop} {corpus : Access} {cache : PlaceholderCache} {after : LookupState}
    (hgrows : Grows kept { corpus, cache, model } after) {ref : EntityRef} {kind : EntityKind}
    {id : EntityId} (hmade : after.model.find? member.receiver = some ref)
    (hentity : after.model.entity? ref =
      some (Lookup.compoundEntity member.receiver kind id)) :
    after.model.foretold name ≠ model.foretold name := by
  have hcompound := isCompoundType_eq_false hshape
  have hafter : after.model.findAny? name = none := by
    obtain ⟨hfree, hlibrary⟩ := findAny?_eq_none.1 hany
    have hstays := hgrows.slot?_eq_none hshape (Option.map_eq_none_iff.1 hfree)
    refine findAny?_eq_none.2 ⟨Option.map_eq_none_iff.2 hstays, ?_⟩
    rw [hgrows.library]
    exact hlibrary
  have hnothing : (after.model.dispatch name).binding = none := by
    rw [← entity?_hierarchy] at hentity
    rw [dispatch_of_known href hinit harray hmade]
    exact Hierarchy.resolve_of_no_parents hentity rfl name _
  have hsomething : (model.dispatch name).binding = some binding := by
    rw [dispatch_of_unknown href hinit harray hreceiver]
    exact hbinding
  rw [foretold_open hafter hcompound hnothing, foretold_dispatched hany hcompound hsomething]
  exact fun heq => (dispatch_targets hsomething).1 (congrArg Prod.fst heq).symm

/-- One plain lookup changes what is foretold of a fickle name. -/
theorem Fresh.foretold_ne (hfresh : model.Fresh) {corpus : Access}
    (hstore : corpus.store.Reached) (cache : PlaceholderCache) (hname : model.Fickle name) :
    ∃ taken, ∀ ref after, getEntity taken { corpus, cache, model } = .ok ref after →
      after.model.foretold name ≠ model.foretold name := by
  have hready := hfresh.ready hstore cache
  cases hname with
  | taken hfree hshape hother =>
    obtain ⟨kind, hkind⟩ := Option.ne_none_iff_exists'.1 hshape
    refine ⟨name, fun ref after hrun => ?_⟩
    obtain ⟨id, hmade, hentity⟩ := compound_of_getEntity hready hfree hkind hrun
    exact hfresh.foretold_ne_of_taken hkind hother hmade hentity
  | @hidden member hany hshape href hinit harray hreceiver hreceiverShape hlibrary =>
    obtain ⟨kind, hkind⟩ := Option.ne_none_iff_exists'.1 hreceiverShape
    obtain ⟨binding, hbinding⟩ := Option.ne_none_iff_exists'.1 hlibrary
    refine ⟨member.receiver, fun ref after hrun => ?_⟩
    obtain ⟨id, hmade, hentity⟩ := compound_of_getEntity hready hreceiver hkind hrun
    exact foretold_ne_of_hidden hany hshape href hinit harray hreceiver hbinding
      (adds_of_getEntity hready hrun).1.grows hmade hentity

/-- A virtual lookup of a fresh model tells what is foretold. -/
theorem Fresh.told? (hfresh : model.Fresh) {corpus : Access} (hstore : corpus.store.Reached)
    (cache : PlaceholderCache) {answer : Status × List (Option Profile)}
    (htold : LookupState.told? { corpus, cache, model } name = some answer) :
    answer = model.foretold name :=
  LookupState.told?_eq_foretold (hfresh.ready hstore cache) (hfresh.memoized?_eq_none name) htold

/-- Questions asked in between, whatever became of them, do not change what a virtual lookup of
a name tells, unless the name is fickle; and then there is a plain lookup that changes it. Where
nothing fails and ids are left, the lookups named here succeed. -/
theorem Built.told_alike_unless_fickle (hbuilt : model.Built) {corpus corpus₀ : Access}
    (hstore : corpus.store.Reached) (hstore₀ : corpus₀.store.Reached)
    (cache cache₀ : PlaceholderCache) {first : Status × List (Option Profile)}
    (hfirst : LookupState.told? { corpus := corpus₀, cache := cache₀, model } name =
      some first) :
    let start : LookupState := { corpus, cache, model }
    (¬ model.Fickle name → ∀ questions,
      (∀ later, (start.afterAsking questions).told? name = some later → later = first) ∧
      ((start.afterAsking questions).corpus.Healthy (Name.weight name) →
        (start.afterAsking questions).told? name = some first)) ∧
    (model.Fickle name → ∃ taken,
      (∀ ref state, getEntity taken start = .ok ref state →
        ∀ later, state.told? name = some later → later ≠ first) ∧
      (corpus.Healthy (Name.weight taken + Name.weight name) → ∃ ref state later,
        getEntity taken start = .ok ref state ∧ state.told? name = some later)) := by
  intro start
  have hfresh := hbuilt.fresh
  have hready := hfresh.ready hstore cache
  rw [hfresh.told? hstore₀ cache₀ hfirst]
  constructor
  · intro hname questions
    obtain ⟨limit, hadds⟩ := afterAsking_adds hready questions
    have hrecalls : Recalls start (start.afterAsking questions) := by
      refine Recalls.afterAsking ?_ hready hfresh (Grows.refl corpus.store.Uses _) hready
        (fun _ h => h) questions
      constructor <;> simp [hfresh.memoized?_eq_none]
    have halike : ∀ later, (start.afterAsking questions).told? name = some later →
        later = model.foretold name := by
      intro later hlater
      cases hkept : (start.afterAsking questions).model.memoized? name with
      | some kept =>
        rw [LookupState.told?, getVirtualEntity_memoized hkept] at hlater
        cases hlater
        exact hrecalls.outcome name _ hkept hname
      | none =>
        rw [told?_eq_foretold hadds.ready hkept hlater]
        exact hadds.grows.foretold hready hfresh hname
    refine ⟨halike, fun hhealthy => ?_⟩
    obtain ⟨later, hlater⟩ := exists_told hhealthy
    rw [hlater, halike later hlater]
  · intro hname
    obtain ⟨taken, htaken⟩ := hfresh.foretold_ne hstore cache hname
    refine ⟨taken, fun ref state hget later hlater => ?_, fun hhealthy => ?_⟩
    · obtain ⟨hadds, -⟩ := adds_of_getEntity hready hget
      have hnone : state.model.memoized? name = none := by
        have hbindings : state.model.bindings = model.bindings := hadds.bindings
        rw [memoized?, hbindings]
        exact hfresh.memoized?_eq_none name
      rw [told?_eq_foretold hadds.ready hnone hlater]
      exact htaken ref state hget
    · rw [Nat.add_comm] at hhealthy
      have hget : Lookup.Succeeds (Name.weight name) (getEntity taken start) :=
        getEntity_succeeds hhealthy
      obtain ⟨ref, state, hrun, hleft⟩ := hget.exists_ok
      obtain ⟨later, hlater⟩ := exists_told hleft
      exact ⟨ref, state, later, hrun, hlater⟩

/-- A store with a library that declares `a.Box<T>`. -/
def boxStore : Store :=
  .ofRows [{ project := ⟨10⟩, name := "a.Box", kind := .class, params := some "<T>", id := ⟨1⟩ }]

/-- A project without declarations on top of that library. -/
def boxModel : ProjectModel where
  project := ⟨1⟩
  library := { mode := .plain, draft := Draft.declare .library boxStore {} ⟨10⟩ }

theorem boxModel_built : boxModel.Built := by
  have hload : ∃ desk, LibraryModel.load [⟨10⟩]
      (.empty .plain, { corpus := { store := boxStore } }) =
        .ok () (boxModel.library, desk) := ⟨_, rfl⟩
  obtain ⟨desk, hload⟩ := hload
  exact ⟨.plain, ⟨1⟩, boxModel.library, false, { corpus := {} }, _,
    .loaded (.empty .plain) hload, rfl⟩

/-- An array of the library type is told alike throughout. -/
theorem Built.array_told_alike :
    let start : LookupState :=
      { corpus := { store := boxStore }, cache := { owner := ⟨9⟩ }, model := boxModel }
    boxModel.Built ∧ boxStore.Reached ∧ ¬ boxModel.Fickle "a.Box<T>[]" ∧
      (start.afterAsking [.plain "a.Box<T>", .plain "a.Box<T>[]"]).told? "a.Box<T>[]" =
        start.told? "a.Box<T>[]" := by
  intro start
  have hreached : start.corpus.store.Reached := Store.reached_ofRows _
  have hsteady : ¬ boxModel.Fickle "a.Box<T>[]" := by
    rintro (⟨-, -, hlibrary | hcompound⟩ | ⟨-, hshape, -⟩)
    · exact hlibrary (by decide +kernel)
    · exact absurd hcompound (by decide +kernel)
    · exact absurd hshape (by decide +kernel)
  have hfirst : start.told? "a.Box<T>[]" = some (.resolved,
      [some { name := "a.Box<T>[]", kind := .array, origin := .notApplicable,
              declared := none }]) := by decide +kernel
  have hhealthy : start.corpus.Healthy
      (Name.weight "a.Box<T>[]" + Name.weights ["a.Box<T>", "a.Box<T>[]"]) :=
    ⟨hreached.sound, rfl, by decide +kernel⟩
  refine ⟨boxModel_built, hreached, hsteady, ?_⟩
  rw [hfirst]
  exact ((boxModel_built.told_alike_unless_fickle hreached hreached _ _ hfirst).1 hsteady _).2
    (afterAsking_healthy _ hhealthy)

/-- A plain lookup makes a parameterized type of the name, and the library type is told no
more. -/
theorem library_type_told_no_more :
    let start : LookupState :=
      { corpus := { store := boxStore }, cache := { owner := ⟨9⟩ }, model := boxModel }
    boxModel.Built ∧ boxStore.Reached ∧
      start.told? "a.Box<T>" = some (.resolved,
        [some { name := "a.Box", kind := .class, origin := .library, declared := some ⟨1⟩ }]) ∧
      ∃ ref state, getEntity "a.Box<T>" start = .ok ref state ∧
        state.told? "a.Box<T>" = some (.resolved,
          [some { name := "a.Box<T>", kind := .parameterizedType, origin := .notApplicable,
                  declared := none }]) := by
  intro start
  refine ⟨boxModel_built, Store.reached_ofRows _, by decide +kernel, ?_⟩
  have hlater : (start.leaving (getEntity "a.Box<T>")).told? "a.Box<T>" = some (.resolved,
      [some { name := "a.Box<T>", kind := .parameterizedType, origin := .notApplicable,
              declared := none }]) := by decide +kernel
  have hok : succeeds (getEntity "a.Box<T>" start) = true := by decide +kernel
  obtain ⟨ref, after, hrun⟩ := exists_ok_of_succeeds hok
  rw [LookupState.leaving, hrun] at hlater
  exact ⟨ref, after, hrun, hlater⟩

end ProjectModel

end Referent
