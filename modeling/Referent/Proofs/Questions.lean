import Referent.Proofs.Dispatch
import Referent.Proofs.Linking

/-!
# Questions asked of a model

A model answers two questions, plain and with inheritance, and a run asks any number of them in
any order. Each branch of a virtual lookup is one equation, and `getVirtualEntity_exit` says in
which ways the branches end; a run goes on from whatever state the question before it has left,
so a failure ends a question but not the run.

* **A question** (`question_adds`): an answer with inheritance adds what a plain lookup adds,
  and besides that only keeps results and anomalies.
* **A run** (`Built.compounds_linked`): in every state of a run the bound compound types are
  linked whole, and no question unbinds a name.
-/

namespace Referent

/-! ## Branches of a virtual lookup -/

namespace LookupState

/-- The state with an anomaly recorded, if there is one. -/
def noting (state : LookupState) (anomaly : Option Anomaly) : LookupState :=
  { state with model.diagnostics := state.model.diagnostics.recordAny anomaly }

/-- The state with a result kept. -/
def remembering (state : LookupState) (name : String) (binding : Binding) : LookupState :=
  { state with model.bindings := state.model.bindings.insert name binding }

end LookupState

namespace ProjectModel

open Lookup

variable {name : String} {state : LookupState}

theorem getVirtualEntity_memoized {binding : Binding}
    (h : state.model.memoized? name = some binding) :
    getVirtualEntity name state = .ok binding state := by
  simp only [getVirtualEntity, get_bind_apply, h]
  rfl

theorem getVirtualEntity_found {ref : EntityRef} (hmemo : state.model.memoized? name = none)
    (h : state.model.findAny? name = some ref) :
    getVirtualEntity name state = .ok (.resolved ref) state := by
  simp only [getVirtualEntity, get_bind_apply, hmemo, h]
  rfl

theorem getVirtualEntity_compound (hmemo : state.model.memoized? name = none)
    (hany : state.model.findAny? name = none) (h : Name.isCompoundType name = true) :
    getVirtualEntity name state =
      match getEntity name state with
      | .ok ref after => .ok (.resolved ref) after
      | .error err after => .error err after := by
  simp only [getVirtualEntity, get_bind_apply, hmemo, hany, h, if_true]
  rw [bind_apply]
  cases getEntity name state <;> rfl

theorem resolveByDispatch_decided {binding : Binding}
    (h : (state.model.dispatch name).binding = some binding) :
    resolveByDispatch name state =
      .ok binding (state.noting (state.model.dispatch name).anomaly) := by
  simp only [resolveByDispatch, update, get_bind_apply, modify_bind_apply, h]
  rfl

theorem resolveByDispatch_open (h : (state.model.dispatch name).binding = none) :
    resolveByDispatch name state =
      match unknown name (state.noting (state.model.dispatch name).anomaly) with
      | .ok ref after => .ok (.unresolved ref) after
      | .error err after => .error err after := by
  simp only [resolveByDispatch, update, get_bind_apply, modify_bind_apply, h]
  rw [← LookupState.noting, bind_apply]
  cases unknown name (state.noting (state.model.dispatch name).anomaly) <;> rfl

/-- A reference that dispatch decides is kept. -/
theorem getVirtualEntity_dispatched (hmemo : state.model.memoized? name = none)
    (hany : state.model.findAny? name = none) (hname : Name.isCompoundType name = false)
    {binding : Binding} (h : (state.model.dispatch name).binding = some binding) :
    getVirtualEntity name state = .ok binding
      ((state.noting (state.model.dispatch name).anomaly).remembering name binding) := by
  simp only [getVirtualEntity, get_bind_apply, hmemo, hany, hname, Bool.false_eq_true, if_false]
  rw [bind_apply, resolveByDispatch_decided h]
  rfl

/-- A reference that dispatch leaves open gets the placeholder of its name. -/
theorem getVirtualEntity_open (hmemo : state.model.memoized? name = none)
    (hany : state.model.findAny? name = none) (hname : Name.isCompoundType name = false)
    (h : (state.model.dispatch name).binding = none) :
    getVirtualEntity name state =
      match unknown name (state.noting (state.model.dispatch name).anomaly) with
      | .ok ref after => .ok (.unresolved ref) (after.remembering name (.unresolved ref))
      | .error err after => .error err after := by
  simp only [getVirtualEntity, get_bind_apply, hmemo, hany, hname, Bool.false_eq_true, if_false]
  rw [bind_apply, resolveByDispatch_open h]
  cases unknown name (state.noting (state.model.dispatch name).anomaly) <;> rfl

/-- The ways in which a virtual lookup ends. -/
inductive Exit (name : String) (state : LookupState) :
    EStateM.Result ModelError LookupState Binding → Prop
  | remembered {binding} : state.model.memoized? name = some binding →
      Exit name state (.ok binding state)
  | bound {ref} : state.model.memoized? name = none → state.model.findAny? name = some ref →
      Exit name state (.ok (.resolved ref) state)
  | made {ref after} : state.model.memoized? name = none → state.model.findAny? name = none →
      Name.isCompoundType name = true → getEntity name state = .ok ref after →
      Exit name state (.ok (.resolved ref) after)
  | unmade {err after} : state.model.memoized? name = none → state.model.findAny? name = none →
      Name.isCompoundType name = true → getEntity name state = .error err after →
      Exit name state (.error err after)
  | decided {binding} : state.model.memoized? name = none → state.model.findAny? name = none →
      Name.isCompoundType name = false → (state.model.dispatch name).binding = some binding →
      Exit name state (.ok binding
        ((state.noting (state.model.dispatch name).anomaly).remembering name binding))
  | placed {ref after} : state.model.memoized? name = none → state.model.findAny? name = none →
      Name.isCompoundType name = false → (state.model.dispatch name).binding = none →
      unknown name (state.noting (state.model.dispatch name).anomaly) = .ok ref after →
      Exit name state (.ok (.unresolved ref) (after.remembering name (.unresolved ref)))
  | unplaced {err after} : state.model.memoized? name = none → state.model.findAny? name = none →
      Name.isCompoundType name = false → (state.model.dispatch name).binding = none →
      unknown name (state.noting (state.model.dispatch name).anomaly) = .error err after →
      Exit name state (.error err after)

theorem getVirtualEntity_exit (name : String) (state : LookupState) :
    Exit name state (getVirtualEntity name state) := by
  cases hmemo : state.model.memoized? name with
  | some binding =>
    rw [getVirtualEntity_memoized hmemo]
    exact .remembered hmemo
  | none =>
    cases hany : state.model.findAny? name with
    | some ref =>
      rw [getVirtualEntity_found hmemo hany]
      exact .bound hmemo hany
    | none =>
      cases hname : Name.isCompoundType name with
      | true =>
        rw [getVirtualEntity_compound hmemo hany hname]
        cases hget : getEntity name state with
        | ok ref after => exact .made hmemo hany hname hget
        | error err after => exact .unmade hmemo hany hname hget
      | false =>
        cases hbinding : (state.model.dispatch name).binding with
        | some binding =>
          rw [getVirtualEntity_dispatched hmemo hany hname hbinding]
          exact .decided hmemo hany hname hbinding
        | none =>
          rw [getVirtualEntity_open hmemo hany hname hbinding]
          cases hrun : unknown name (state.noting (state.model.dispatch name).anomaly) with
          | ok ref after => exact .placed hmemo hany hname hbinding hrun
          | error err after => exact .unplaced hmemo hany hname hbinding hrun

end ProjectModel

/-! ## What answers lead to -/

namespace LookupState

variable {base : Nat} {state : LookupState} {name : String}

theorem Ready.visible_findAny (h : Ready base state) {ref : EntityRef}
    (hfind : state.model.findAny? name = some ref) :
    ∀ target ∈ (Binding.resolved ref).targets, (state.model.entity? target).isSome := by
  intro target htarget
  rw [List.mem_singleton.1 htarget]
  rw [ProjectModel.findAny?, Option.orElse_eq_orElse, Option.orElse_eq_or,
    Option.or_eq_some_iff] at hfind
  rcases hfind with hfind | ⟨-, hfind⟩
  · obtain ⟨entity, hentity⟩ := h.entity?_of_denotes (.bound hfind)
    rw [hentity]
    rfl
  · have hsome := h.library.isSome_of_find? hfind
    obtain ⟨slot, -, rfl⟩ := Option.map_eq_some_iff.1 hfind
    exact hsome

/-- The targets of dispatch can be seen. -/
theorem Ready.visible_dispatch (h : Ready base state) {binding : Binding}
    (hbinding : (state.model.dispatch name).binding = some binding) :
    ∀ target ∈ binding.targets, (state.model.entity? target).isSome := by
  intro target htarget
  obtain ⟨other, hfind | hfind⟩ := (ProjectModel.dispatch_targets hbinding).2 target htarget
  · obtain ⟨entity, hentity⟩ := h.entity?_of_denotes (.bound hfind)
    rw [hentity]
    rfl
  · have hsome := h.library.isSome_of_find? hfind
    obtain ⟨slot, -, rfl⟩ := Option.map_eq_some_iff.1 hfind
    exact hsome

end LookupState

/-! ## Questions -/

/-- What a model can be asked. -/
inductive Question
  /-- What a name denotes. -/
  | plain (name : String)
  /-- What a reference denotes, with inheritance. -/
  | virtual (name : String)
  deriving DecidableEq, Repr

namespace Question

/-- The name a question is about. -/
def name : Question → String
  | plain name | virtual name => name

/-- Ask a question and drop the answer. -/
def ask : Question → Lookup Unit
  | plain name => discard (ProjectModel.getEntity name)
  | virtual name => discard (ProjectModel.getVirtualEntity name)

end Question

namespace LookupState

open Lookup

/-- The state that a lookup leaves, whatever becomes of it. -/
def leaving (state : LookupState) (work : Lookup α) : LookupState :=
  match work state with
  | .ok _ after => after
  | .error _ after => after

/-- The state that a run of questions leaves, whatever becomes of each. -/
def afterAsking (state : LookupState) (questions : List Question) : LookupState :=
  questions.foldl (fun state question => state.leaving question.ask) state

variable {kept : EntityId → Prop} {base limit : Nat} {before after state : LookupState}
variable {name : String}

theorem leaving_plain (state : LookupState) (name : String) :
    state.leaving (Question.plain name).ask = state.leaving (ProjectModel.getEntity name) := by
  have hask : (Question.plain name).ask state =
      EStateM.map (fun _ => ()) (ProjectModel.getEntity name) state := rfl
  unfold leaving
  rw [hask, EStateM.map]
  cases ProjectModel.getEntity name state <;> rfl

theorem leaving_virtual (state : LookupState) (name : String) :
    state.leaving (Question.virtual name).ask =
      state.leaving (ProjectModel.getVirtualEntity name) := by
  have hask : (Question.virtual name).ask state =
      EStateM.map (fun _ => ()) (ProjectModel.getVirtualEntity name) state := rfl
  unfold leaving
  rw [hask, EStateM.map]
  cases ProjectModel.getVirtualEntity name state <;> rfl

theorem leaving_getEntity_adds (h : Ready base state) (name : String) :
    AddsPlainly state.corpus.store.Uses base (name.length + 1) state
      (state.leaving (ProjectModel.getEntity name)) := by
  have hget := getEntity_adds base name state h
  unfold GetAdds at hget
  unfold leaving
  cases hrun : ProjectModel.getEntity name state with
  | ok ref after =>
    rw [hrun] at hget
    exact hget.1
  | error err after =>
    rw [hrun] at hget
    exact hget

theorem leaving_unknown_adds (h : Ready base state) (kept : EntityId → Prop) (name : String)
    (limit : Nat) : AddsPlainly kept base limit state (state.leaving (unknown name)) := by
  have hunknown := unknown_adds h kept name limit
  unfold leaving
  cases hrun : unknown name state with
  | ok ref after =>
    rw [hrun] at hunknown
    exact hunknown.1
  | error err after =>
    rw [hrun] at hunknown
    exact hunknown

/-- Results and anomalies are not among what is linked. -/
theorem Adds.annotated (h : Adds kept base limit before after)
    (bindings : Std.TreeMap String Binding) (diagnostics : Diagnostics) :
    Adds kept base limit before
      { after with model := { after.model with bindings, diagnostics } } := by
  have hannotated : Adds (fun _ => True) base limit after
      { after with model := { after.model with bindings, diagnostics } } := by
    refine .of_same_slots ?_ ?_ rfl
    · exact { h.ready with }
    · exact { Grows.refl (fun _ => True) after with }
  exact h.trans hannotated (fun _ h => h) (fun _ _ => trivial) (fun _ _ _ => trivial)

theorem Adds.remembering (h : Adds kept base limit before after) (name : String)
    (binding : Binding) : Adds kept base limit before (after.remembering name binding) :=
  h.annotated _ after.model.diagnostics

/-- An anomaly that is recorded first makes no difference to what a placeholder adds. -/
theorem unknown_noting_adds (h : Ready base state) (name : String) (anomaly : Option Anomaly) :
    match unknown name (state.noting anomaly) with
    | .ok ref after =>
      AddsPlainly state.corpus.store.Uses base (name.length + 1) state after ∧
        after.model.placeholders[name]? = some ref
    | .error _ after =>
      AddsPlainly state.corpus.store.Uses base (name.length + 1) state after := by
  have hnoted : AddsPlainly state.corpus.store.Uses base (name.length + 1) state
      (state.noting anomaly) := ⟨(Adds.refl h).annotated state.model.bindings _, rfl⟩
  have hunknown := unknown_adds hnoted.ready state.corpus.store.Uses name (name.length + 1)
  cases hrun : unknown name (state.noting anomaly) with
  | ok ref after =>
    rw [hrun] at hunknown
    refine ⟨hnoted.trans hunknown.1 (fun _ h => h) (fun _ h => h) ?_, hunknown.2⟩
    exact fun _ huses hfresh => absurd huses hfresh
  | error err after =>
    rw [hrun] at hunknown
    refine hnoted.trans hunknown (fun _ h => h) (fun _ h => h) ?_
    exact fun _ huses hfresh => absurd huses hfresh

theorem getVirtualEntity_adds (h : Ready base state) (name : String) :
    Adds state.corpus.store.Uses base (name.length + 1) state
      (state.leaving (ProjectModel.getVirtualEntity name)) := by
  have hexit := ProjectModel.getVirtualEntity_exit name state
  have hget := leaving_getEntity_adds h name
  have hunknown := unknown_noting_adds h name (state.model.dispatch name).anomaly
  unfold leaving at hget ⊢
  generalize ProjectModel.getVirtualEntity name state = result at hexit ⊢
  cases hexit with
  | remembered _ => exact .refl h
  | bound _ _ => exact .refl h
  | made _ _ _ hrun =>
    rw [hrun] at hget
    exact hget.toAdds
  | unmade _ _ _ hrun =>
    rw [hrun] at hget
    exact hget.toAdds
  | decided _ _ _ _ =>
    exact ((Adds.refl h).annotated state.model.bindings _).remembering name _
  | placed _ _ _ _ hrun =>
    rw [hrun] at hunknown
    exact hunknown.1.toAdds.remembering name _
  | unplaced _ _ _ _ hrun =>
    rw [hrun] at hunknown
    exact hunknown.toAdds

theorem question_adds (h : Ready base state) (question : Question) :
    Adds state.corpus.store.Uses base (question.name.length + 1) state
      (state.leaving question.ask) := by
  cases question with
  | plain name =>
    rw [leaving_plain]
    exact (leaving_getEntity_adds h name).toAdds
  | virtual name =>
    rw [leaving_virtual]
    exact getVirtualEntity_adds h name

/-! ## Runs -/

theorem afterAsking_adds (h : Ready base state) (questions : List Question) :
    ∃ limit, Adds state.corpus.store.Uses base limit state (state.afterAsking questions) := by
  induction questions generalizing state with
  | nil => exact ⟨0, .refl h⟩
  | cons question questions ih =>
    have hfirst := question_adds h question
    obtain ⟨limit, hrest⟩ := ih hfirst.ready
    refine ⟨max (question.name.length + 1) limit, ?_⟩
    exact (hfirst.mono (Nat.le_max_left _ _)).trans (hrest.mono (Nat.le_max_right _ _))
      (fun _ h => h) (fun _ h => hfirst.grows.uses h) (fun _ huses _ => huses)

end LookupState

open LookupState

theorem ProjectModel.Fresh.ready {model : ProjectModel} (h : model.Fresh) {corpus : Access}
    (hstore : corpus.store.Reached) (cache : PlaceholderCache) :
    Ready corpus.store.relations.size { corpus, cache, model } where
  store := hstore
  library := h.library
  slot_lt := h.table.slot_lt
  placeholder name ref href := by
    simp [h.placeholders] at href
  base_le := Nat.le_refl _
  left row hrow := by
    rw [← Array.length_toList, List.drop_length] at hrow
    cases hrow

theorem filter_id_eq {rows : List EntityRow} {row : EntityRow}
    (hnodup : (rows.map (·.id)).Nodup) (hrow : row ∈ rows) :
    rows.filter (·.id = row.id) = [row] := by
  induction rows with
  | nil => cases hrow
  | cons head rows ih =>
    rw [List.map_cons, List.nodup_cons] at hnodup
    rcases List.mem_cons.1 hrow with rfl | hrow
    · rw [List.filter_cons_of_pos (by simp), List.filter_eq_nil_iff.2]
      intro other hother hid
      rw [decide_eq_true_eq] at hid
      exact hnodup.1 (List.mem_map.2 ⟨other, hother, hid⟩)
    · rw [List.filter_cons_of_neg]
      · exact ih hnodup.2 hrow
      · rw [decide_eq_true_eq]
        intro hid
        exact hnodup.1 (List.mem_map.2 ⟨row, hrow, hid.symm⟩)

/-- In every state that questions can lead to, whatever calls of the store fail, a name that is
bound to a compound type is bound to a whole one: it has one row, of the kind and with the
dimensions that the name spells out, and the relations inserted for it are one for each part in
order, to what a plain lookup of the part finds. And no question unbinds a name. -/
theorem ProjectModel.Built.compounds_linked {model : ProjectModel} (hbuilt : model.Built)
    {corpus : Access} (hstore : corpus.store.Reached) (cache : PlaceholderCache)
    (questions : List Question) :
    let state := LookupState.afterAsking { corpus, cache, model } questions
    (∀ name slot entity, state.model.table.slot? name = some slot →
      state.model.table.arena[slot]? = some entity → entity.kind.isSynthesized = true →
      ∃ kind, Name.compoundKind? name = some kind ∧
        entity = { name, kind, id := entity.id, origin := .notApplicable } ∧
        state.corpus.store.entities.toList.filter (·.id = entity.id) =
          [{ project := model.project, name, kind, id := entity.id
             dimensions := (Name.Shape.ofName name).dimensions? }] ∧
        List.Forall₂
          (fun part row => ∃ ref target, getEntity part.2 state = .ok ref state ∧
            state.model.entity? ref = some target ∧
            row = { kind := part.1, left := entity.id, right := target.id
                    project := model.project, origin := target.origin })
          (Name.Shape.ofName name).constituents
          ((state.corpus.store.relations.toList.drop corpus.store.relations.size).filter
            (·.left = entity.id))) ∧
      ∀ (question : Question) name ref, state.model.find? name = some ref →
        (state.leaving question.ask).model.find? name = some ref := by
  intro state
  have hfresh := hbuilt.fresh
  obtain ⟨limit, hadds⟩ := afterAsking_adds (hfresh.ready hstore cache) questions
  constructor
  · intro name slot entity hslot hentity hkind
    cases hstart : model.table.slot? name with
    | some early =>
      -- What was bound from the start was declared.
      exfalso
      have hsame := hadds.grows.slot name early hstart
      rw [hslot] at hsame
      cases hsame
      have hlt := hfresh.table.slot_lt name slot hstart
      have hold := hadds.grows.entity slot _ (Array.getElem?_eq_getElem hlt)
      rw [hentity] at hold
      cases hold
      have hdeclared := hfresh.table.kind _ (Array.getElem_mem_toList hlt)
      revert hkind hdeclared
      cases model.table.arena[slot].kind <;> decide
    | none =>
      obtain ⟨-, kind, id, -, hlinked⟩ := hadds.linked name slot hstart hslot
      rw [hlinked.entity] at hentity
      cases hentity
      have hproject : state.model.project = model.project := hadds.grows.project
      refine ⟨kind, hlinked.shape, rfl, ?_, ?_⟩
      · rw [← hproject]
        exact filter_id_eq hadds.ready.store.sound.nodup hlinked.row
      · refine hlinked.parts.imp ?_
        rintro part row ⟨ref, target, hdenotes, htarget, rfl⟩
        refine ⟨ref, target, getEntity_of_denotes hdenotes, htarget, ?_⟩
        rw [← hproject]
        rfl
  · intro question name ref hfind
    obtain ⟨slot, hslot, rfl⟩ := Option.map_eq_some_iff.1 hfind
    have hgrows := (question_adds hadds.ready question).grows
    rw [find?, hgrows.slot name slot hslot, Option.map_some]

/-- The first relation fails, so the first question leaves a row and no name; the second makes
the type anew. -/
theorem ProjectModel.Built.array_linked_after_failure :
    let model : ProjectModel := { project := ⟨1⟩, library := .empty .plain }
    let plan : FaultPlan := fun call made => call = .insertRelation ∧ made = 0
    let state := LookupState.afterAsking { corpus := { plan }, cache := { owner := ⟨9⟩ }, model }
      [.plain "int[]", .plain "int[]"]
    model.Built ∧ Store.Reached {} ∧ state.model.table.slot? "int[]" = some 2 ∧
      state.corpus.store.entities.toList.filter (·.id = ⟨3⟩) =
        [{ project := ⟨1⟩, name := "int[]", kind := .array, id := ⟨3⟩, dimensions := some 1 }] ∧
      ∃ row, (state.corpus.store.relations.toList.drop 0).filter (·.left = ⟨3⟩) = [row] := by
  intro model plan state
  have hbuilt : model.Built :=
    ⟨.plain, ⟨1⟩, _, false, { corpus := {} }, _, .empty .plain, rfl⟩
  have hslot : state.model.table.slot? "int[]" = some 2 := by decide +kernel
  have hentity : state.model.table.arena[2]? = some
      { name := "int[]", kind := .array, id := ⟨3⟩, origin := .notApplicable } := by
    decide +kernel
  have hstore : ({ plan } : Access).store.Reached := .empty
  obtain ⟨kind, hkind, heq, hrow, hparts⟩ :=
    (hbuilt.compounds_linked hstore { owner := ⟨9⟩ } [.plain "int[]", .plain "int[]"]).1
      "int[]" 2 _ hslot hentity (by decide)
  have hshape : Name.Shape.ofName "int[]" = .array "int" 1 := by decide +kernel
  cases heq
  rw [hshape] at hrow hparts
  refine ⟨hbuilt, .empty, hslot, hrow, ?_⟩
  obtain ⟨row, rows, -, hrest, hrows⟩ := List.forall₂_cons_left_iff.1 hparts
  cases hrest
  exact ⟨row, hrows⟩

end Referent
