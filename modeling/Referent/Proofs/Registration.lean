import Referent.Proofs.Ambiguities
import Referent.Proofs.References

/-!
# Names that are registered late

A name can be bound after the model was built: an entity is entered under it by hand, or a plain
lookup makes the compound type that it writes. The name may have been looked up by then. A plain
lookup leaves nothing in the way, since a placeholder holds no name. A virtual lookup that
dispatch has answered is remembered under the name, and what is remembered is asked first and
never given up. So a name that the project binds resolves to itself unless dispatch answered it
while nothing stood for it; from then on it keeps that answer, and the entity that has got the
name is passed over (`Reached.bound_name_resolves_unless_dispatched`).

* **What is remembered** (`Reached.memoized?_iff`): exactly the answers that dispatch has given.
* **What it is** (`Dispatched.ne_bound`): the entity that is bound later was not there to be
  answered, since names are bound to new slots (`late_upkeep`).
-/

namespace Referent

open Lookup LookupState

namespace LookupState

/-! ## Histories with registration -/

/-- The states that a model gets to from a given one. Entities may be entered by hand between
questions. -/
inductive Onward (start : LookupState) : LookupState → Prop
  | here : Onward start start
  | led {state later : LookupState} : Onward start state → state.Leads later → Onward start later
  | added {state : LookupState} (name : String) (id : EntityId) (kind : EntityKind) :
      Onward start state →
      Onward start { state with model := (state.model.add name id kind).2 }

/-- A virtual lookup of the name was answered `binding` when nothing stood for the name. -/
def Dispatched (state : LookupState) (name : String) (binding : Binding) : Prop :=
  ∃ before after, before.Reached ∧ before.model.findAny? name = none ∧
    Name.isCompoundType name = false ∧
    ProjectModel.getVirtualEntity name before = .ok binding after ∧ after.Onward state

variable {base : Nat} {start state after later : LookupState} {name : String} {binding : Binding}
  {ref : EntityRef}

theorem Reached.onward (h : start.Reached) (hstate : start.Onward state) : state.Reached := by
  induction hstate with
  | here => exact h
  | led _ hleads ih => exact .led ih hleads
  | added name id kind _ ih => exact .added name id kind ih

/-- What a model refers to can be seen. -/
theorem Reached.anchored (h : state.Reached) : ∃ library, Anchored library state := by
  induction h with
  | @built model corpus cache hbuilt hstore =>
    obtain ⟨mode, project, library, soleHolder, desk, desk', hlibrary, hbuild⟩ := hbuilt
    exact ⟨library, (LibraryModel.Serves.built cache hbuild hstore).anchored hlibrary⟩
  | led _ hleads ih =>
    obtain ⟨library, hanchored⟩ := ih
    exact ⟨library, hanchored.led hleads⟩
  | added name id kind _ ih =>
    obtain ⟨library, hanchored⟩ := ih
    exact ⟨library, hanchored.added name id kind⟩

/-! ## What is remembered -/

theorem memoized?_unknown (name : String) (state : LookupState) (other : String) :
    (state.leaving (unknown name)).model.memoized? other = state.model.memoized? other := by
  rcases model_unknown name state with hsame | ⟨id, hplaced⟩
  · rw [hsame]
  · rw [hplaced]
    rfl

/-- What is remembered of a name stays. -/
theorem memoized?_kept (h : Ready base state) (hmemo : state.model.memoized? name = some binding)
    (question : Question) :
    (state.leaving question.ask).model.memoized? name = some binding := by
  cases question with
  | plain other =>
    rw [leaving_plain, ProjectModel.memoized?, (leaving_getEntity_adds h other).bindings]
    exact hmemo
  | «virtual» other =>
    rw [leaving_virtual]
    have hexit := ProjectModel.getVirtualEntity_exit other state
    have hbindings := (leaving_getEntity_adds h other).bindings
    have hunknown :=
      memoized?_unknown other (state.noting (state.model.dispatch other).anomaly) name
    -- Only a name of which nothing is remembered gets a result.
    have hother (hnew : state.model.memoized? other = none) : other ≠ name := by
      rintro rfl
      rw [hnew] at hmemo
      cases hmemo
    unfold leaving at hbindings hunknown ⊢
    generalize ProjectModel.getVirtualEntity other state = result at hexit ⊢
    cases hexit with
    | remembered _ => exact hmemo
    | bound _ _ => exact hmemo
    | made _ _ _ hrun =>
      rw [hrun] at hbindings
      rw [ProjectModel.memoized?, hbindings]
      exact hmemo
    | unmade _ _ _ hrun =>
      rw [hrun] at hbindings
      rw [ProjectModel.memoized?, hbindings]
      exact hmemo
    | decided hnew _ _ _ =>
      simp only
      rw [memoized?_of_remembering, if_neg (hother hnew)]
      exact hmemo
    | placed hnew _ _ _ hrun =>
      rw [hrun] at hunknown
      simp only
      rw [memoized?_of_remembering, if_neg (hother hnew), hunknown]
      exact hmemo
    | unplaced _ _ _ _ hrun =>
      rw [hrun] at hunknown
      simp only
      rw [hunknown]
      exact hmemo

theorem Leads.memoized? (h : start.Leads state) (hstart : Ready base start)
    (hmemo : start.model.memoized? name = some binding) :
    state.model.memoized? name = some binding := by
  induction h with
  | here => exact hmemo
  | asked question h ih =>
    obtain ⟨_, hready, -⟩ := h.grows hstart
    exact memoized?_kept hready ih question
  | meanwhile _ _ ih => exact ih

theorem Onward.memoized? (h : start.Onward state) (hstart : start.Reached)
    (hmemo : start.model.memoized? name = some binding) :
    state.model.memoized? name = some binding := by
  induction h with
  | here => exact hmemo
  | led h hleads ih =>
    obtain ⟨⟨_, hready⟩, -⟩ := (hstart.onward h).sound
    exact hleads.memoized? hready ih
  | added _ _ _ _ ih => exact ih

/-- A result comes to be remembered only of a name that nothing stands for. -/
theorem free_of_memoized? (h : Ready base state) (hnew : state.model.memoized? name = none)
    (hrun : ProjectModel.getVirtualEntity name state = .ok binding after)
    (hmemo : after.model.memoized? name = some binding) :
    state.model.findAny? name = none ∧ Name.isCompoundType name = false := by
  have hexit := ProjectModel.getVirtualEntity_exit name state
  rw [hrun] at hexit
  cases hexit with
  | remembered hold =>
    rw [hnew] at hold
    cases hold
  | bound _ _ =>
    rw [hnew] at hmemo
    cases hmemo
  | made _ _ _ hget =>
    have hbindings := (adds_of_getEntity h hget).1.bindings
    rw [ProjectModel.memoized?, hbindings] at hmemo
    rw [ProjectModel.memoized?, hmemo] at hnew
    cases hnew
  | decided _ hany hname _ => exact ⟨hany, hname⟩
  | placed _ hany hname _ _ => exact ⟨hany, hname⟩

/-- An answer that dispatch gives is remembered. -/
theorem memoized?_of_free (hany : state.model.findAny? name = none)
    (hname : Name.isCompoundType name = false)
    (hrun : ProjectModel.getVirtualEntity name state = .ok binding after) :
    after.model.memoized? name = some binding := by
  have hexit := ProjectModel.getVirtualEntity_exit name state
  rw [hrun] at hexit
  cases hexit with
  | remembered hold => exact hold
  | bound _ hfound =>
    rw [hany] at hfound
    cases hfound
  | made _ _ hcompound _ =>
    rw [hname] at hcompound
    cases hcompound
  | decided _ _ _ _ => rw [memoized?_of_remembering, if_pos rfl]
  | placed _ _ _ _ _ => rw [memoized?_of_remembering, if_pos rfl]

theorem Dispatched.led (h : state.Dispatched name binding) (hleads : state.Leads later) :
    later.Dispatched name binding := by
  obtain ⟨before, after, hreached, hany, hname, hrun, honward⟩ := h
  exact ⟨before, after, hreached, hany, hname, hrun, honward.led hleads⟩

/-- What a history remembers it has been told by dispatch on the way. -/
theorem Leads.dispatched (h : start.Leads state) (hstart : start.Reached)
    (hold : ∀ name binding, start.model.memoized? name = some binding →
      start.Dispatched name binding)
    (hmemo : state.model.memoized? name = some binding) : state.Dispatched name binding := by
  induction h generalizing name binding with
  | here => exact hold name binding hmemo
  | @asked before question h ih =>
    have hbefore : before.Reached := .led hstart h
    obtain ⟨⟨_, hready⟩, -⟩ := hbefore.sound
    have hstep : before.Leads (before.leaving question.ask) := .asked question .here
    cases question with
    | plain other =>
      have hbindings := (leaving_getEntity_adds hready other).bindings
      rw [leaving_plain, ProjectModel.memoized?, hbindings] at hmemo
      exact (ih hmemo).led hstep
    | «virtual» other =>
      rw [leaving_virtual] at hmemo
      rcases memoized?_virtual hready hmemo with hearly | ⟨rfl, hnew, hrun⟩
      · exact (ih hearly).led hstep
      · obtain ⟨hany, hname⟩ := free_of_memoized? hready hnew hrun hmemo
        rw [leaving_virtual]
        exact ⟨before, _, hbefore, hany, hname, hrun, .here⟩
  | meanwhile h helse ih => exact (ih hmemo).led (.meanwhile .here helse)

/-- What is remembered of a name is what dispatch has answered. -/
theorem Reached.memoized?_iff (h : state.Reached) :
    state.model.memoized? name = some binding ↔ state.Dispatched name binding := by
  constructor
  · intro hmemo
    induction h generalizing name binding with
    | built cache hbuilt hstore =>
      simp [hbuilt.fresh.memoized?_eq_none] at hmemo
    | led hstart hleads ih => exact hleads.dispatched hstart (fun _ _ => ih) hmemo
    | added other id kind _ ih =>
      obtain ⟨before, after, hreached, hany, hname, hrun, honward⟩ := ih hmemo
      exact ⟨before, after, hreached, hany, hname, hrun, .added other id kind honward⟩
  · rintro ⟨before, after, hreached, hany, hname, hrun, honward⟩
    have hafter : before.Leads after := by
      rw [← leaving_of_ok hrun, ← leaving_virtual]
      exact .asked _ .here
    exact honward.memoized? (.led hreached hafter) (memoized?_of_free hany hname hrun)

/-! ## What is bound later -/

/-- The name denotes nothing but slots behind the first `size` ones. -/
def Late (name : String) (size : Nat) (state : LookupState) : Prop :=
  size ≤ state.model.table.size ∧
    ∀ slot, state.model.table.slot? name = some slot → size ≤ slot

theorem Late.push {size : Nat} (h : Late name size state) (model : ProjectModel)
    (entity : Entity) (harena : model.table.arena = state.model.table.arena.push entity)
    (hslot : ∀ slot, model.table.slot? name = some slot →
      state.model.table.slot? name = some slot ∨ slot = state.model.table.size) :
    Late name size { state with model } := by
  obtain ⟨hsize, hold⟩ := h
  constructor
  · simp only [Table.size, harena, Array.size_push]
    exact Nat.le_succ_of_le hsize
  · intro slot hfound
    rcases hslot slot hfound with hearly | rfl
    · exact hold slot hearly
    · exact hsize

/-- A name that comes to be bound gets a new slot. -/
theorem late_upkeep (name : String) (size : Nat) : Upkeep (Late name size) fun _ => True where
  toPlainUpkeep := by
    apply PlainUpkeep.of_model
    · intro state after heq hstate
      rw [Late, heq]
      exact hstate
    · intro state other kind id hstate
      apply hstate.push _ (compoundEntity other kind id) rfl
      intro slot hslot
      rw [Table.slot?_bind] at hslot
      split at hslot
      · cases hslot
        exact .inr rfl
      · exact .inl hslot
    · intro state other id hstate
      exact hstate.push (state.placing other id).model _ rfl fun slot hslot => .inl hslot
    · intro state other hstate
      refine ⟨hstate.1, fun slot hslot => hstate.2 slot ?_⟩
      simp only [forgetting, Table.slot?_forget] at hslot
      split at hslot
      · cases hslot
      · exact hslot
  noting _ hstate := hstate
  remembering _ _ hstate := hstate

theorem Onward.late {size : Nat} (h : start.Onward state) (hstart : Late name size start) :
    Late name size state := by
  induction h with
  | here => exact hstart
  | led _ hleads ih =>
    induction hleads with
    | here => exact ih
    | asked question _ ih => exact (late_upkeep name size).question question ih
    | meanwhile _ _ ih => exact ih
  | @added before other id kind _ ih =>
    apply ih.push _ _ (arena_add before.model other id kind)
    intro slot hslot
    rw [slot?_add] at hslot
    cases hearly : before.model.table.slot? name with
    | some early =>
      rw [hearly, Option.some_or] at hslot
      exact .inl hslot
    | none =>
      rw [hearly, Option.none_or] at hslot
      split at hslot
      · cases hslot
        exact .inr rfl
      · cases hslot

/-- Dispatch binds nothing. -/
theorem find?_of_free (hany : state.model.findAny? name = none)
    (hname : Name.isCompoundType name = false)
    (hrun : ProjectModel.getVirtualEntity name state = .ok binding after) :
    after.model.find? name = none := by
  have hfree := (ProjectModel.findAny?_eq_none.1 hany).1
  have hexit := ProjectModel.getVirtualEntity_exit name state
  rw [hrun] at hexit
  cases hexit with
  | remembered _ => exact hfree
  | bound _ _ => exact hfree
  | made _ _ hcompound _ =>
    rw [hname] at hcompound
    cases hcompound
  | decided _ _ _ _ => exact hfree
  | placed _ _ _ _ hunknown =>
    have hmodel := model_unknown name (state.noting (state.model.dispatch name).anomaly)
    rw [leaving_of_ok hunknown] at hmodel
    simp only [ProjectModel.find?, remembering]
    rcases hmodel with hsame | ⟨id, hplaced⟩
    · rw [hsame]
      exact hfree
    · rw [hplaced]
      exact hfree

/-- What dispatch has answered for a name is nothing that the name is bound to later. -/
theorem Dispatched.ne_bound (h : state.Dispatched name binding)
    (hfind : state.model.find? name = some ref) : binding ≠ .resolved ref := by
  obtain ⟨before, after, hreached, hany, hname, hrun, honward⟩ := h
  have hled : before.Leads after := by
    rw [← leaving_of_ok hrun, ← leaving_virtual]
    exact .asked _ .here
  have hafter : after.Reached := .led hreached hled
  have hmemo := memoized?_of_free hany hname hrun
  obtain ⟨library, hanchored⟩ := hafter.anchored
  obtain ⟨slot, hslot, rfl⟩ := Option.map_eq_some_iff.1 hfind
  rintro rfl
  have hvisible := hanchored.remembered name _ hmemo _ (List.mem_singleton_self _)
  have hlt : slot < after.model.table.size := by
    simpa [ProjectModel.entity?, Table.size] using hvisible
  have hfree := Option.map_eq_none_iff.1 (find?_of_free hany hname hrun)
  have hlate : Late name after.model.table.size after := by
    refine ⟨Nat.le_refl _, fun early hearly => ?_⟩
    rw [hfree] at hearly
    cases hearly
  exact Nat.not_le.2 hlt ((honward.late hlate).2 slot hslot)

/-! ## Bound names -/

/-- A name that the project binds resolves to itself, unless dispatch has answered it while
nothing stood for it. Then that answer stays, and it is another one. -/
theorem Reached.bound_name_resolves_unless_dispatched (h : state.Reached)
    (hfind : state.model.find? name = some ref) :
    ((∀ binding, ¬ state.Dispatched name binding) →
      ProjectModel.getVirtualEntity name state = .ok (.resolved ref) state) ∧
    ∀ binding, state.Dispatched name binding →
      ProjectModel.getVirtualEntity name state = .ok binding state ∧
        binding ≠ .resolved ref := by
  constructor
  · intro hnever
    cases hmemo : state.model.memoized? name with
    | some binding => exact absurd (h.memoized?_iff.1 hmemo) (hnever binding)
    | none =>
      apply ProjectModel.getVirtualEntity_found hmemo
      rw [ProjectModel.findAny?, hfind]
      rfl
  · intro binding hdispatched
    have hmemo := h.memoized?_iff.2 hdispatched
    exact ⟨ProjectModel.getVirtualEntity_memoized hmemo, hdispatched.ne_bound hfind⟩

/-- A method is entered after a plain lookup has made a placeholder for it. -/
theorem Reached.added_after_placeholder_resolves :
    let fresh : LookupState :=
      { corpus := {}, cache := { owner := ⟨9⟩ }, model := ProjectModel.alone {} ⟨1⟩ }
    let asked := fresh.afterAsking [.plain "p.A.m()"]
    let state := { asked with model := (asked.model.add "p.A.m()" ⟨2⟩ .method).2 }
    asked.model.placeholders["p.A.m()"]? = some (.project 0) ∧
      state.model.find? "p.A.m()" = some (.project 1) ∧
      (∀ binding, ¬ state.Dispatched "p.A.m()" binding) ∧
      ProjectModel.getVirtualEntity "p.A.m()" state = .ok (.resolved (.project 1)) state := by
  intro fresh asked state
  have hfresh : fresh.Reached := .built _ (ProjectModel.alone_built {} ⟨1⟩) .empty
  have hasked : asked.Reached := .led hfresh (.asked _ .here)
  have hstate : state.Reached := .added _ _ _ hasked
  have hplaceholder : asked.model.placeholders["p.A.m()"]? = some (.project 0) := by
    decide +kernel
  have hfind : state.model.find? "p.A.m()" = some (.project 1) := by decide +kernel
  have hmemo : state.model.memoized? "p.A.m()" = none := by decide +kernel
  have hnever (binding : Binding) : ¬ state.Dispatched "p.A.m()" binding := by
    rw [← hstate.memoized?_iff, hmemo]
    simp
  exact ⟨hplaceholder, hfind, hnever,
    (hstate.bound_name_resolves_unless_dispatched hfind).1 hnever⟩

/-- The method is entered after a virtual lookup has found nothing, and is passed over. -/
theorem Reached.added_after_dispatch_unresolved :
    ∃ state : LookupState, state.Reached ∧
      state.model.find? "p.A.m()" = some (.project 1) ∧
      (∃ entity, state.model.entity? (.project 1) = some entity ∧ entity.kind = .method) ∧
      ProjectModel.getVirtualEntity "p.A.m()" state = .ok (.unresolved (.project 0)) state := by
  let fresh : LookupState :=
    { corpus := {}, cache := { owner := ⟨9⟩ }, model := ProjectModel.alone {} ⟨1⟩ }
  let asked := fresh.afterAsking [.virtual "p.A.m()"]
  let state := { asked with model := (asked.model.add "p.A.m()" ⟨2⟩ .method).2 }
  have hfresh : fresh.Reached := .built _ (ProjectModel.alone_built {} ⟨1⟩) .empty
  have hled : fresh.Leads asked := .asked (.virtual "p.A.m()") .here
  have hasked : asked.Reached := .led hfresh hled
  have hmemo : state.model.memoized? "p.A.m()" = some (.unresolved (.project 0)) := by
    decide +kernel
  refine ⟨state, .added _ _ _ hasked, by decide +kernel, ?_,
    ProjectModel.getVirtualEntity_memoized hmemo⟩
  exact ⟨{ name := "p.A.m()", kind := .method, id := ⟨2⟩, origin := .internal },
    by decide +kernel, rfl⟩

end LookupState

end Referent
