import Referent.Proofs.Questions

/-!
# What every step of a lookup keeps

Both questions are made of a few steps: a compound type is made, a part is related to it, a
placeholder is handed out, a name is given back, an anomaly or a result is noted. A property of
states that each of these steps keeps, whether the step fails or not (`Upkeep`), is kept by
every question and by every run of questions. A plain lookup takes the first four steps only, and
so it keeps what these keep (`PlainUpkeep`). The recursion over the parts of a name is gone
through once, here.
-/

namespace Referent

open LookupState

namespace LookupState

variable {state after : LookupState}

theorem leaving_of_ok {work : Lookup α} {a : α} (h : work state = .ok a after) :
    state.leaving work = after := by
  rw [leaving, h]

theorem leaving_of_error {work : Lookup α} {err : ModelError} (h : work state = .error err after) :
    state.leaving work = after := by
  rw [leaving, h]

theorem leaving_bind (first : Lookup α) (next : α → Lookup β) (state : LookupState) :
    state.leaving (first >>= next) = match first state with
      | .ok a mid => mid.leaving (next a)
      | .error _ mid => mid := by
  unfold leaving
  rw [bind_apply]
  cases first state <;> rfl

end LookupState

namespace Lookup

/-! ## What the steps of a plain lookup do -/

theorem model_synthesize {name : String} (hfree : state.model.find? name = none)
    (kind : EntityKind) :
    match synthesize name kind state with
    | .ok (id, _) after => after.model = { state.model with
        table := (state.model.table.allocate (compoundEntity name kind id)).bind name
          state.model.table.size }
    | .error _ after => after.model = state.model := by
  rw [synthesize_inserting hfree]
  rcases state.corpus.insert _ with ⟨answer, corpus⟩
  cases answer <;> rfl

/-- A relation is added to the store, or the store stays as it is. -/
theorem leaving_relateTo_cases (left : EntityId) (kind : RelationKind) (target : EntityRef)
    (state : LookupState) :
    (∃ corpus, state.leaving (relateTo left kind target) = { state with corpus } ∧
        corpus.store = state.corpus.store) ∨
      ∃ entity corpus, state.model.entity? target = some entity ∧
        state.leaving (relateTo left kind target) = { state with corpus } ∧
        corpus.store =
          state.corpus.store.relate (partRow state.model.project left kind entity) := by
  cases hentity : state.model.entity? target with
  | none =>
    -- Where there is no entity there is nothing to relate to.
    refine .inl ⟨state.corpus, ?_, rfl⟩
    simp only [leaving, relateTo, get_bind_apply, hentity]
    rfl
  | some entity =>
    rcases relateTo_cases hentity left kind with
      ⟨corpus, hrun, hrelated⟩ | ⟨cause, corpus, hrun, hsame⟩
    · exact .inr ⟨entity, corpus, rfl, leaving_of_ok hrun, hrelated⟩
    · exact .inl ⟨corpus, leaving_of_error hrun, hsame⟩

theorem model_relateTo (left : EntityId) (kind : RelationKind) (target : EntityRef)
    (state : LookupState) : (state.leaving (relateTo left kind target)).model = state.model := by
  rcases leaving_relateTo_cases left kind target state with
    ⟨corpus, hafter, -⟩ | ⟨entity, corpus, -, hafter, -⟩
  · rw [hafter]
  · rw [hafter]

theorem model_unknown (name : String) (state : LookupState) :
    (state.leaving (unknown name)).model = state.model ∨
      ∃ id, (state.leaving (unknown name)).model = (state.placing name id).model := by
  cases hplaceholder : state.model.placeholders[name]? with
  | some ref =>
    rw [leaving_of_ok (unknown_cached hplaceholder)]
    exact .inl rfl
  | none =>
    cases hcached : state.cache.entries[name]? with
    | some id =>
      rw [leaving_of_ok (unknown_kept hplaceholder hcached)]
      exact .inr ⟨id, rfl⟩
    | none =>
      unfold leaving
      rw [unknown_inserting hplaceholder hcached]
      rcases state.corpus.insert _ with ⟨answer, corpus⟩
      cases answer with
      | ok id => exact .inr ⟨id, rfl⟩
      | error cause => exact .inl rfl

/-! ## Upkeep -/

/-- A property of states that every step of a plain lookup keeps. Names that are free get rows of
compound types with ids that are `owned`, and only these are related to parts, each to the answer
of the part's own lookup. -/
structure PlainUpkeep (P : LookupState → Prop) (owned : EntityId → Prop) : Prop where
  made {state : LookupState} {name : String} {kind : EntityKind} : P state →
    state.model.find? name = none → Name.compoundKind? name = some kind →
    match synthesize name kind state with
      | .ok (id, _) after => P after ∧ owned id
      | .error _ after => P after
  related {before state : LookupState} {id : EntityId} {name : String}
    {part : RelationKind × String} {target : EntityRef} : P before →
      ProjectModel.getEntity part.2 before = .ok target state → P state → owned id →
      part ∈ (Name.Shape.ofName name).constituents → P (state.leaving (relateTo id part.1 target))
  placeholder {state : LookupState} (name : String) : P state → P (state.leaving (unknown name))
  forgetting {state : LookupState} (name : String) : P state → P (state.forgetting name)

namespace PlainUpkeep

variable {P : LookupState → Prop} {owned : EntityId → Prop} {state : LookupState} {name : String}

theorem linkParts (h : PlainUpkeep P owned) {id : EntityId} (howned : owned id)
    {parts : List (RelationKind × String)}
    (hparts : ∀ part ∈ parts, part ∈ (Name.Shape.ofName name).constituents ∧
      ∀ state, P state → P (state.leaving (ProjectModel.getEntity part.2)))
    (hstate : P state) : P (state.leaving (parts.forM (linkPart id))) := by
  induction parts generalizing state with
  | nil => exact hstate
  | cons part parts ih =>
    obtain ⟨hmem, hget⟩ := hparts part List.mem_cons_self
    have hrest (mid : LookupState) (hmid : P mid) : P (mid.leaving (parts.forM (linkPart id))) :=
      ih (fun other hother => hparts other (List.mem_cons_of_mem _ hother)) hmid
    have hfirst : P (state.leaving (linkPart id part)) := by
      have hpart := hget state hstate
      unfold linkPart
      rw [leaving_bind]
      cases hrun : ProjectModel.getEntity part.2 state with
      | error err mid => rwa [leaving_of_error hrun] at hpart
      | ok ref mid =>
        rw [leaving_of_ok hrun] at hpart
        exact h.related hstate hrun hpart howned hmem
    unfold leaving at hfirst ⊢
    rw [forM_cons_apply]
    cases hrun : linkPart id part state with
    | error err mid =>
      rw [hrun] at hfirst
      exact hfirst
    | ok u mid =>
      rw [hrun] at hfirst
      exact hrest mid hfirst

/-- A plain lookup keeps what its steps keep. -/
theorem getEntity (h : PlainUpkeep P owned) (name : String) (hstate : P state) :
    P (state.leaving (ProjectModel.getEntity name)) := by
  -- Parts are shorter than the whole.
  induction hlength : name.length using Nat.strongRecOn generalizing name state with
  | ind length ih =>
    subst hlength
    cases hfind : state.model.find? name with
    | some ref =>
      rw [leaving_of_ok (ProjectModel.getEntity_found hfind)]
      exact hstate
    | none =>
      cases hkind : Name.compoundKind? name with
      | none =>
        cases hlibrary : state.model.library.find? name with
        | some ref =>
          rw [leaving_of_ok (ProjectModel.getEntity_library hfind hkind hlibrary)]
          exact hstate
        | none =>
          have hunknown := h.placeholder name hstate
          unfold leaving at hunknown ⊢
          rwa [ProjectModel.getEntity_unknown hfind hkind hlibrary]
      | some kind =>
        have hmade := h.made hstate hfind hkind
        unfold leaving
        rw [ProjectModel.getEntity_compound hfind hkind, bind_apply]
        cases hrun : synthesize name kind state with
        | error err after =>
          rw [hrun] at hmade
          exact hmade
        | ok pair after =>
          rw [hrun] at hmade
          obtain ⟨hafter, howned⟩ := hmade
          have hparts : ∀ part ∈ (Name.Shape.ofName name).constituents,
              part ∈ (Name.Shape.ofName name).constituents ∧
                ∀ state, P state → P (state.leaving (ProjectModel.getEntity part.2)) := by
            intro part hpart
            refine ⟨hpart, fun mid hmid => ?_⟩
            exact ih _ (Name.length_lt_of_mem_constituents hpart) part.2 hmid rfl
          have hlinked := h.linkParts howned hparts hafter
          unfold leaving at hlinked
          simp only [bind_apply (unbinding _ _), unbinding]
          revert hlinked
          cases (Name.Shape.ofName name).constituents.forM (linkPart pair.1) after with
          | ok u last => exact id
          | error err last => exact h.forgetting name

/-- What is said of the model alone is kept if it is kept when a compound type or a placeholder is
entered and when a name is given back. -/
theorem of_model {P : LookupState → Prop}
    (hmodel : ∀ {state after : LookupState}, after.model = state.model → P state → P after)
    (hmade : ∀ {state : LookupState} (name : String) (kind : EntityKind) (id : EntityId),
      P state → P { state with
        model.table := (state.model.table.allocate (compoundEntity name kind id)).bind name
          state.model.table.size })
    (hplaced : ∀ {state : LookupState} (name : String) (id : EntityId), P state →
      P (state.placing name id))
    (hforgotten : ∀ {state : LookupState} (name : String), P state → P (state.forgetting name)) :
    PlainUpkeep P fun _ => True where
  made {state name kind} hstate hfree _ := by
    have hafter := model_synthesize hfree kind
    cases hrun : synthesize name kind state with
    | ok pair after =>
      rw [hrun] at hafter
      exact ⟨hmodel hafter (hmade name kind pair.1 hstate), trivial⟩
    | error err after =>
      rw [hrun] at hafter
      exact hmodel hafter hstate
  related _ _ hstate _ _ := hmodel (model_relateTo _ _ _ _) hstate
  placeholder {state} name hstate := by
    rcases model_unknown name state with hsame | ⟨id, hplace⟩
    · exact hmodel hsame hstate
    · exact hmodel hplace (hplaced name id hstate)
  forgetting name hstate := hforgotten name hstate

end PlainUpkeep

/-- A property of states that every step of a lookup keeps. -/
structure Upkeep (P : LookupState → Prop) (owned : EntityId → Prop) : Prop extends
    PlainUpkeep P owned where
  noting {state : LookupState} (anomaly : Option Anomaly) : P state → P (state.noting anomaly)
  remembering {state : LookupState} (name : String) (binding : Binding) :
    P state → P (state.remembering name binding)

namespace Upkeep

variable {P : LookupState → Prop} {owned : EntityId → Prop} {state : LookupState} {name : String}

theorem getEntity (h : Upkeep P owned) (name : String) (hstate : P state) :
    P (state.leaving (ProjectModel.getEntity name)) :=
  h.toPlainUpkeep.getEntity name hstate

/-- A virtual lookup keeps what its steps keep. -/
theorem getVirtualEntity (h : Upkeep P owned) (name : String) (hstate : P state) :
    P (state.leaving (ProjectModel.getVirtualEntity name)) := by
  have hexit := ProjectModel.getVirtualEntity_exit name state
  have hget := h.getEntity name hstate
  have hnoted := h.noting (state.model.dispatch name).anomaly hstate
  have hunknown := h.placeholder name hnoted
  unfold leaving at hget hunknown ⊢
  generalize ProjectModel.getVirtualEntity name state = result at hexit ⊢
  cases hexit with
  | remembered _ => exact hstate
  | bound _ _ => exact hstate
  | made _ _ _ hrun =>
    rw [hrun] at hget
    exact hget
  | unmade _ _ _ hrun =>
    rw [hrun] at hget
    exact hget
  | decided _ _ _ _ => exact h.remembering name _ hnoted
  | placed _ _ _ _ hrun =>
    rw [hrun] at hunknown
    exact h.remembering name _ hunknown
  | unplaced _ _ _ _ hrun =>
    rw [hrun] at hunknown
    exact hunknown

theorem question (h : Upkeep P owned) (question : Question) (hstate : P state) :
    P (state.leaving question.ask) := by
  cases question with
  | plain name =>
    rw [leaving_plain]
    exact h.getEntity name hstate
  | «virtual» name =>
    rw [leaving_virtual]
    exact h.getVirtualEntity name hstate

end Upkeep

end Lookup

end Referent
