import Referent.Proofs.Choice
import Referent.Proofs.Lasting
import Referent.Proofs.Upkeep

/-!
# Every ambiguity is noted once

A lookup records an anomaly before it does anything that can fail, and keeps its result last; yet
anomalies and results never come apart. An anomaly comes only with a choice that is made
(`Hierarchy.contested_of_anomaly`), and then nothing is left that can fail. The anomalies of a
model are those of its build and behind them one for each remembered name whose candidates are
contested (`Noted`, `Built.ambiguities_noted_once`).

* **Growth keeps choices** (`Grows.sees_cases`): a receiver that dispatch sees was seen alike when
  the model was built, or is a compound type that has taken the name since and has no supertypes.
* **One step**: plain lookups leave anomalies and results alone (`diagnostics_getEntity`), and a
  virtual lookup notes and remembers at once (`Noted.choosing`).
-/

namespace Referent

/-! ## Growth keeps choices -/

namespace Hierarchy

variable {small large : Hierarchy} {receiver : EntityRef} {targets : List EntityRef}

theorem Relocates.namesOf (h : Relocates id small large)
    (htargets : ∀ target ∈ targets, (small.entity? target).isSome) :
    large.namesOf targets = small.namesOf targets := by
  apply List.filterMap_congr
  intro target htarget
  obtain ⟨entity, hentity⟩ := Option.isSome_iff_exists.1 (htargets target htarget)
  obtain ⟨moved, hmoved, hname, -⟩ := h.entity target entity hentity
  rw [id] at hmoved
  rw [hmoved, hentity, Option.map_some, Option.map_some, hname]

theorem chosenMethod_congr {classes interfaces : List EntityRef} (name : String)
    (h : large.namesOf classes = small.namesOf classes) :
    large.chosenMethod name classes interfaces = small.chosenMethod name classes interfaces := by
  match classes, interfaces with
  | [], [] => rfl
  | [], [_] => rfl
  | [], _ :: _ :: _ => rfl
  | [_], _ => rfl
  | _ :: _ :: _, _ => simp only [chosenMethod, h]

theorem chosenField_congr {fields : List EntityRef} (name : String)
    (h : large.namesOf fields = small.namesOf fields) :
    large.chosenField name fields = small.chosenField name fields := by
  match fields with
  | [] => rfl
  | [_] => rfl
  | _ :: _ :: _ => simp only [chosenField, h]

/-- Seen in a larger hierarchy, a member resolves as before, and with the same anomaly. -/
theorem Relocates.resolve_eq (h : Relocates id small large)
    (hdeclared : ∀ name target, small.declared? name = some target →
      (small.entity? target).isSome)
    (hreceiver : (small.entity? receiver).isSome) (name : String) (ref : Name.MemberRef) :
    large.resolve receiver name ref = small.resolve receiver name ref := by
  have hmove : ∀ finding : Finding, Finding.move id finding = finding := fun _ => rfl
  have hfindings : large.findings receiver ref.member = small.findings receiver ref.member := by
    have hmoved : large.findings (id receiver) ref.member =
        (small.findings receiver ref.member).map (Finding.move id) := h.findings hreceiver
    rw [id] at hmoved
    rw [hmoved, List.map_congr_left fun finding _ => hmove finding, List.map_id']
  -- Candidates are declared, so they were seen, and under the same names.
  have hnames : ∀ ofKind : EntityKind → Bool,
      let candidates :=
        Hierarchy.declarations ((small.findings receiver ref.member).filter (ofKind ·.kind))
      large.namesOf candidates = small.namesOf candidates := by
    intro ofKind
    apply h.namesOf
    intro target htarget
    obtain ⟨other, hother⟩ :=
      (small.candidates_declarations ref.member receiver ofKind).declared target htarget
    exact hdeclared other target hother
  rw [Hierarchy.resolve, Hierarchy.resolve]
  split
  · rw [resolveMethod_eq, resolveMethod_eq, hfindings]
    exact chosenMethod_congr name (hnames (· != .interface))
  · rw [resolveField_eq, resolveField_eq, hfindings]
    apply chosenField_congr
    have hall := hnames fun _ => true
    simpa using hall

end Hierarchy

namespace ProjectModel

/-- Several declarations that a reference in this model may mean, of which the language would
have one. -/
def Contested (model : ProjectModel) (name : String) (targets : List EntityRef)
    (about : List String → Anomaly) : Prop :=
  ∃ ref view receiver, Name.MemberRef.ofName? name = some ref ∧
    model.Sees ref.receiver view receiver ∧ view.Contested name ref receiver targets about

/-- What a fresh model declares can be seen. -/
theorem Fresh.visible_declared {model : ProjectModel} (h : model.Fresh) {name : String}
    {target : EntityRef} (hdeclared : model.hierarchy.declared? name = some target) :
    (model.hierarchy.entity? target).isSome := by
  rw [entity?_hierarchy]
  rcases declared?_cases hdeclared with hown | hshared
  · obtain ⟨slot, hslot, rfl⟩ := Option.map_eq_some_iff.1 hown
    have hlt := h.table.slot_lt name slot hslot
    rw [entity?, Array.getElem?_eq_getElem hlt]
    rfl
  · have hsome := h.library.isSome_of_find? hshared
    obtain ⟨slot, -, rfl⟩ := Option.map_eq_some_iff.1 hshared
    exact hsome

/-- Where nothing is found, nothing is noted. -/
theorem anomaly_of_no_binding {model : ProjectModel} {name : String}
    (h : (model.dispatch name).binding = none) : (model.dispatch name).anomaly = none := by
  rcases model.dispatch_cases name with ⟨ref, view, receiver, -, -, -, -, heq⟩ | ⟨target, heq⟩
  · rw [heq] at h ⊢
    exact Hierarchy.anomaly_of_no_binding h
  · rw [heq]

/-- Whatever a view shows, the model shows. -/
theorem Sees.entity? {model : ProjectModel} {name : String} {view : Hierarchy}
    {receiver target : EntityRef} {entity : Entity} (h : model.Sees name view receiver)
    (hentity : view.entity? target = some entity) : model.entity? target = some entity := by
  cases h with
  | own _ =>
    rw [entity?_hierarchy] at hentity
    exact hentity
  | shared _ _ =>
    cases target with
    | library slot => exact hentity
    | project slot => simp [Hierarchy.entity?, LibraryModel.hierarchy] at hentity

/-- What a view of a fresh model declares, it shows. -/
theorem Sees.visible_declared {model : ProjectModel} {name other : String} {view : Hierarchy}
    {receiver target : EntityRef} (h : model.Sees name view receiver) (hfresh : model.Fresh)
    (hdeclared : view.declared? other = some target) : (view.entity? target).isSome := by
  cases h with
  | own _ => exact hfresh.visible_declared hdeclared
  | shared _ _ =>
    obtain ⟨slot, hslot, rfl⟩ := Option.map_eq_some_iff.1 hdeclared
    rw [hfresh.library.declaredSlot?_eq] at hslot
    have hlt := hfresh.library.slot_lt other slot hslot
    exact Option.isSome_iff_exists.2 ⟨_, Array.getElem?_eq_getElem hlt⟩

end ProjectModel

namespace LookupState

variable {kept : EntityId → Prop} {base : Nat} {start state after : LookupState} {name : String}

/-- A receiver that dispatch sees was seen from the start, and its members resolve alike; or it
is a compound type, which has none. -/
theorem Grows.sees_cases (h : Grows kept start state) (hstart : Ready base start)
    (hfresh : start.model.Fresh) {view : Hierarchy} {receiver : EntityRef}
    (hsees : state.model.Sees name view receiver) :
    (∃ early, start.model.Sees name early receiver ∧
        ∀ full ref, view.resolve receiver full ref = early.resolve receiver full ref) ∨
      ∀ full ref, (view.resolve receiver full ref).binding = none := by
  cases hsees with
  | own hfind =>
    rcases h.find?_cases name with hsame | ⟨-, slot, kind, id, hmade, -, hentity⟩
    · left
      rw [hsame] at hfind
      obtain ⟨entity, hentity⟩ := hstart.entity?_of_denotes (.bound hfind)
      have hvisible : (start.model.hierarchy.entity? receiver).isSome := by
        rw [ProjectModel.entity?_hierarchy, hentity]
        rfl
      refine ⟨_, .own hfind, fun full ref => ?_⟩
      apply (h.relocates hstart hfresh).resolve_eq ?_ hvisible
      exact fun _ _ hdeclared => hfresh.visible_declared hdeclared
    · right
      rw [hmade] at hfind
      cases hfind
      rw [← ProjectModel.entity?_hierarchy] at hentity
      exact fun full ref => Hierarchy.resolve_of_no_parents hentity rfl full ref
  | shared hfree hfind =>
    left
    rw [h.library] at hfind ⊢
    refine ⟨_, .shared ?_ hfind, fun _ _ => rfl⟩
    rcases h.find?_cases name with hsame | ⟨hnone, -⟩
    · exact hsame.symm.trans hfree
    · exact hnone

end LookupState

/-! ## Plain lookups leave anomalies alone -/

namespace Lookup

open LookupState

theorem diagnostics_unknown (name : String) (state : LookupState) :
    (state.leaving (unknown name)).model.diagnostics = state.model.diagnostics := by
  rcases model_unknown name state with hsame | ⟨id, hplaced⟩
  · rw [hsame]
  · rw [hplaced]
    rfl

/-- No step of a plain lookup notes anything. -/
theorem diagnostics_upkeep (diagnostics : Diagnostics) :
    PlainUpkeep (fun state => state.model.diagnostics = diagnostics) fun _ => True := by
  apply PlainUpkeep.of_model
  · intro state after heq hstate
    rw [heq]
    exact hstate
  · exact fun _ _ _ hstate => hstate
  · exact fun _ _ hstate => hstate
  · exact fun _ hstate => hstate

theorem diagnostics_getEntity (name : String) (state : LookupState) :
    (state.leaving (ProjectModel.getEntity name)).model.diagnostics = state.model.diagnostics :=
  (diagnostics_upkeep state.model.diagnostics).getEntity name rfl

end Lookup

theorem Diagnostics.toList_recordAny (diagnostics : Diagnostics) (anomaly : Option Anomaly) :
    (diagnostics.recordAny anomaly).toList = diagnostics.toList ++ anomaly.toList := by
  cases anomaly with
  | none => exact (List.append_nil _).symm
  | some anomaly => exact Array.toList_push

/-! ## One entry for each ambiguity -/

namespace LookupState

/-- The anomalies of a model since it was built: one for each name that is remembered as
ambiguous with contested candidates, with the names of these candidates in order. -/
structure Noted (model : ProjectModel) (state : LookupState) (entries : List (String × Anomaly)) :
    Prop where
  nodup : (entries.map Prod.fst).Nodup
  anomalies : state.model.anomalies = model.anomalies ++ entries.map Prod.snd
  complete : ∀ name targets about, state.model.memoized? name = some (.ambiguous targets) →
    model.Contested name targets about → name ∈ entries.map Prod.fst
  sound : ∀ name anomaly, (name, anomaly) ∈ entries → ∃ targets about names,
    state.model.memoized? name = some (.ambiguous targets) ∧
    model.Contested name targets about ∧
    targets.map (fun target => (state.model.entity? target).map (·.name)) = names.map some ∧
    anomaly = about names

variable {kept : EntityId → Prop} {base : Nat} {start state after : LookupState} {name : String}
  {model : ProjectModel} {entries : List (String × Anomaly)}

theorem memoized?_of_remembering (state : LookupState) (name : String) (binding : Binding)
    (other : String) : (state.remembering name binding).model.memoized? other =
      if name = other then some binding else state.model.memoized? other := by
  simp only [ProjectModel.memoized?, remembering]
  rw [Std.TreeMap.getElem?_insert]
  simp only [Std.LawfulEqOrd.compare_eq_iff_eq]

/-- Names of what can be seen stay what they are. -/
theorem Grows.names (h : Grows kept state after) {targets : List EntityRef} {names : List String}
    (hnames : targets.map (fun target => (state.model.entity? target).map (·.name)) =
      names.map some) :
    targets.map (fun target => (after.model.entity? target).map (·.name)) = names.map some := by
  rw [← hnames]
  apply List.map_congr_left
  intro target htarget
  have hsome : (state.model.entity? target).map (·.name) ∈ names.map some := by
    rw [← hnames]
    exact List.mem_map_of_mem htarget
  obtain ⟨entityName, -, hname⟩ := List.mem_map.1 hsome
  obtain ⟨entity, hentity, -⟩ := Option.map_eq_some_iff.1 hname.symm
  rw [hentity, h.entity? hentity]

/-- Growth that leaves anomalies and results alone leaves the entries alone. -/
theorem Noted.grows (h : Noted model state entries) (hgrows : Grows kept state after)
    (hdiagnostics : after.model.diagnostics = state.model.diagnostics)
    (hbindings : after.model.bindings = state.model.bindings) : Noted model after entries := by
  have hmemo : ∀ other, after.model.memoized? other = state.model.memoized? other := by
    intro other
    rw [ProjectModel.memoized?, ProjectModel.memoized?, hbindings]
  constructor
  · exact h.nodup
  · rw [ProjectModel.anomalies, hdiagnostics]
    exact h.anomalies
  · intro other targets about hother
    rw [hmemo] at hother
    exact h.complete other targets about hother
  · intro other anomaly hentry
    obtain ⟨targets, about, names, hother, hcontested, hnames, heq⟩ := h.sound other anomaly hentry
    exact ⟨targets, about, names, (hmemo other).trans hother, hcontested, hgrows.names hnames, heq⟩

/-- A choice is noted and remembered at once: its anomaly, if it has one, is the entry of its
name. -/
theorem Noted.choosing (h : Noted model state entries)
    (hnew : state.model.memoized? name = none) {binding : Binding} {anomaly : Option Anomaly}
    (hcomplete : ∀ targets about, binding = .ambiguous targets →
      model.Contested name targets about → anomaly.isSome = true)
    (hsound : ∀ found, anomaly = some found → ∃ targets about names,
      binding = .ambiguous targets ∧ model.Contested name targets about ∧
      targets.map (fun target => (state.model.entity? target).map (·.name)) = names.map some ∧
      found = about names) :
    Noted model ((state.noting anomaly).remembering name binding)
      (entries ++ anomaly.toList.map (name, ·)) := by
  have hmemo : ∀ other, ((state.noting anomaly).remembering name binding).model.memoized? other =
      if name = other then some binding else state.model.memoized? other :=
    memoized?_of_remembering (state.noting anomaly) name binding
  have hfree : name ∉ entries.map Prod.fst := by
    intro hmem
    obtain ⟨⟨other, found⟩, hentry, rfl⟩ := List.mem_map.1 hmem
    obtain ⟨targets, about, names, hother, -⟩ := h.sound other found hentry
    rw [hnew] at hother
    cases hother
  constructor
  · cases anomaly with
    | none => simpa using h.nodup
    | some found =>
      rw [Option.toList_some, List.map_singleton, List.map_append, List.nodup_append']
      refine ⟨h.nodup, List.nodup_singleton _, ?_⟩
      intro other hother hname
      rw [List.map_singleton, List.mem_singleton] at hname
      rw [hname] at hother
      exact hfree hother
  · have hrecorded := Diagnostics.toList_recordAny state.model.diagnostics anomaly
    have hbefore := h.anomalies
    unfold ProjectModel.anomalies at hbefore ⊢
    rw [List.map_append, ← List.append_assoc, ← hbefore]
    refine hrecorded.trans ?_
    cases anomaly <;> rfl
  · intro other targets about hother hcontested
    rw [hmemo] at hother
    rw [List.map_append, List.mem_append]
    split at hother
    · rename_i hname
      subst hname
      cases hother
      obtain ⟨found, hfound⟩ :=
        Option.isSome_iff_exists.1 (hcomplete targets about rfl hcontested)
      right
      simp [hfound]
    · exact .inl (h.complete other targets about hother hcontested)
  · intro other found hentry
    rcases List.mem_append.1 hentry with hearly | hlate
    · obtain ⟨targets, about, names, hother, hrest⟩ := h.sound other found hearly
      refine ⟨targets, about, names, ?_, hrest⟩
      rw [hmemo, if_neg]
      · exact hother
      · rintro rfl
        rw [hnew] at hother
        cases hother
    · obtain ⟨last, hlast, heq⟩ := List.mem_map.1 hlate
      cases heq
      obtain ⟨targets, about, names, rfl, hrest⟩ := hsound found (Option.mem_toList.1 hlast)
      refine ⟨targets, about, names, ?_, hrest⟩
      rw [hmemo, if_pos rfl]

/-- An anomaly is about contested candidates, and names them. -/
theorem Grows.contested_of_anomaly (h : Grows kept start state) (hstart : Ready base start)
    (hfresh : start.model.Fresh) {anomaly : Anomaly}
    (hanomaly : (state.model.dispatch name).anomaly = some anomaly) :
    ∃ targets about names, (state.model.dispatch name).binding = some (.ambiguous targets) ∧
      start.model.Contested name targets about ∧
      targets.map (fun target => (state.model.entity? target).map (·.name)) = names.map some ∧
      anomaly = about names := by
  rcases state.model.dispatch_cases name with
    ⟨ref, view, receiver, href, -, -, hsees, heq⟩ | ⟨target, heq⟩
  · rw [heq] at hanomaly ⊢
    rcases h.sees_cases hstart hfresh hsees with ⟨early, hearly, hresolve⟩ | hnone
    · rw [hresolve] at hanomaly ⊢
      obtain ⟨targets, about, hbinding, hcontested, rfl⟩ :=
        Hierarchy.contested_of_anomaly hanomaly
      have hvisible : ∀ target ∈ targets, (early.entity? target).isSome := by
        intro target htarget
        obtain ⟨other, hother⟩ := (Hierarchy.resolve_targets hbinding).2 target htarget
        exact hearly.visible_declared hfresh hother
      refine ⟨targets, about, _, hbinding, ⟨ref, early, receiver, href, hearly, hcontested⟩,
        ?_, rfl⟩
      rw [Hierarchy.namesOf_of_visible hvisible]
      apply List.map_congr_left
      intro target htarget
      obtain ⟨entity, hentity⟩ := Option.isSome_iff_exists.1 (hvisible target htarget)
      rw [hentity, h.entity? (hearly.entity? hentity)]
    · rw [Hierarchy.anomaly_of_no_binding (hnone name ref)] at hanomaly
      cases hanomaly
  · rw [heq] at hanomaly
    cases hanomaly

/-- Contested candidates come with an anomaly. -/
theorem Grows.anomaly_of_contested (h : Grows kept start state) (hstart : Ready base start)
    (hfresh : start.model.Fresh) {targets : List EntityRef} {about : List String → Anomaly}
    (hbinding : (state.model.dispatch name).binding = some (.ambiguous targets))
    (hcontested : start.model.Contested name targets about) :
    ((state.model.dispatch name).anomaly).isSome = true := by
  obtain ⟨ref, view, receiver, href, hsees, hcontested⟩ := hcontested
  rcases state.model.dispatch_cases name with
    ⟨ref', view', receiver', href', -, -, hsees', heq⟩ | ⟨target, heq⟩
  · rw [href] at href'
    cases href'
    rw [heq] at hbinding ⊢
    rcases h.sees_cases hstart hfresh hsees' with ⟨early, hearly, hresolve⟩ | hnone
    · obtain ⟨rfl, rfl⟩ := hsees.unique hearly
      rw [hresolve]
      exact hcontested.anomaly
    · rw [hnone] at hbinding
      cases hbinding
  · rw [heq] at hbinding
    cases target <;> cases hbinding

/-- A virtual lookup adds the entry of its name, if there is one, and no other. -/
theorem Noted.getVirtualEntity (h : Noted start.model state entries)
    (hgrows : Grows kept start state) (hstart : Ready base start) (hfresh : start.model.Fresh)
    {base' : Nat} (hready : Ready base' state) (name : String) :
    ∃ more, Noted start.model (state.leaving (ProjectModel.getVirtualEntity name))
      (entries ++ more) := by
  have hexit := ProjectModel.getVirtualEntity_exit name state
  have hget := h.grows (leaving_getEntity_adds hready name).grows
    (Lookup.diagnostics_getEntity name state) (leaving_getEntity_adds hready name).bindings
  have hunknown := unknown_noting_adds hready name (state.model.dispatch name).anomaly
  have hdiagnostics := Lookup.diagnostics_unknown name
    (state.noting (state.model.dispatch name).anomaly)
  unfold leaving at hget hdiagnostics ⊢
  generalize ProjectModel.getVirtualEntity name state = result at hexit ⊢
  cases hexit with
  | remembered _ => exact ⟨[], by simpa using h⟩
  | bound _ _ => exact ⟨[], by simpa using h⟩
  | made _ _ _ hrun =>
    rw [hrun] at hget
    exact ⟨[], by simpa using hget⟩
  | unmade _ _ _ hrun =>
    rw [hrun] at hget
    exact ⟨[], by simpa using hget⟩
  | decided hmemo _ _ hbinding =>
    refine ⟨_, h.choosing hmemo ?_ ?_⟩
    · rintro targets about rfl hcontested
      exact hgrows.anomaly_of_contested hstart hfresh hbinding hcontested
    · intro found hfound
      obtain ⟨targets, about, names, hambiguous, hrest⟩ :=
        hgrows.contested_of_anomaly hstart hfresh hfound
      rw [hbinding] at hambiguous
      cases hambiguous
      exact ⟨targets, about, names, rfl, hrest⟩
  -- Where dispatch finds nothing it notes nothing, whether or not there is a placeholder.
  | @placed ref after hmemo _ _ hbinding hrun =>
    rw [hrun] at hunknown hdiagnostics
    rw [ProjectModel.anomaly_of_no_binding hbinding] at hdiagnostics
    have hsame := h.grows hunknown.1.grows hdiagnostics hunknown.1.bindings
    have hnew : after.model.memoized? name = none := by
      rw [ProjectModel.memoized?, hunknown.1.bindings]
      exact hmemo
    have hchosen : Noted start.model ((after.noting none).remembering name (.unresolved ref))
        (entries ++ []) := by
      apply hsame.choosing hnew
      · intro targets about heq
        cases heq
      · intro found heq
        cases heq
    exact ⟨[], hchosen⟩
  | unplaced _ _ _ hbinding hrun =>
    rw [hrun] at hunknown hdiagnostics
    rw [ProjectModel.anomaly_of_no_binding hbinding] at hdiagnostics
    have hsame := h.grows hunknown.grows hdiagnostics hunknown.bindings
    exact ⟨[], by simpa using hsame⟩

/-- Along a history every ambiguity is noted once. -/
theorem Leads.noted (hstate : start.Leads state) (hstart : Ready base start)
    (hfresh : start.model.Fresh) : ∃ entries, Noted start.model state entries := by
  induction hstate with
  | here =>
    refine ⟨[], List.nodup_nil, by simp, ?_, ?_⟩
    · intro name targets about hmemo
      simp [hfresh.memoized?_eq_none] at hmemo
    · intro name anomaly hentry
      cases hentry
  | @asked before question hbefore ih =>
    obtain ⟨entries, hnoted⟩ := ih
    obtain ⟨_, hready, hgrows⟩ := hbefore.grows hstart
    cases question with
    | plain name =>
      rw [leaving_plain]
      have hadds := leaving_getEntity_adds hready name
      exact ⟨entries,
        hnoted.grows hadds.grows (Lookup.diagnostics_getEntity name before) hadds.bindings⟩
    | «virtual» name =>
      rw [leaving_virtual]
      obtain ⟨more, hmore⟩ := hnoted.getVirtualEntity hgrows hstart hfresh hready name
      exact ⟨_, hmore⟩
  | @meanwhile before corpus cache hbefore helse ih =>
    obtain ⟨entries, hnoted⟩ := ih
    exact ⟨entries, { hnoted with }⟩

end LookupState

namespace ProjectModel

/-- In whatever state questions leave a model, its anomalies are those of its build and behind
them one for each name that is remembered as ambiguous among methods of classes or among
fields. -/
theorem Built.ambiguities_noted_once {model : ProjectModel} (hbuilt : model.Built)
    {corpus : Access} (hstore : corpus.store.Reached) (cache : PlaceholderCache)
    {state : LookupState} (hstate : LookupState.Leads { corpus, cache, model } state) :
    ∃ entries, LookupState.Noted model state entries :=
  hstate.noted (hbuilt.fresh.ready hstore cache) hbuilt.fresh

/-- A store with a project whose `p.A` implements two interfaces that declare the field `f`. -/
def fieldStore : Store :=
  ((Store.ofRows
    [{ project := ⟨1⟩, name := "i.I", kind := .interface, id := ⟨1⟩ },
     { project := ⟨1⟩, name := "i.I.f", kind := .field, id := ⟨2⟩ },
     { project := ⟨1⟩, name := "i.J", kind := .interface, id := ⟨3⟩ },
     { project := ⟨1⟩, name := "i.J.f", kind := .field, id := ⟨4⟩ },
     { project := ⟨1⟩, name := "p.A", kind := .class, id := ⟨5⟩ }]).relate
    { kind := .implements, left := ⟨5⟩, right := ⟨1⟩, project := ⟨1⟩ }).relate
    { kind := .implements, left := ⟨5⟩, right := ⟨3⟩, project := ⟨1⟩ }

/-- The rows of the store built as a project without libraries. -/
def fieldModel : ProjectModel :=
  alone fieldStore ⟨1⟩

/-- The field is asked for three times and noted once. -/
theorem Built.field_noted_once :
    let start : LookupState :=
      { corpus := { store := fieldStore }, cache := { owner := ⟨9⟩ }, model := fieldModel }
    let state := start.afterAsking [.virtual "p.A.f", .plain "p.A.f", .virtual "p.A.f"]
    fieldModel.Built ∧ start.corpus.store.Reached ∧ start.Leads state ∧ ∃ entries,
      LookupState.Noted fieldModel state entries ∧
        entries.map Prod.snd = [.ambiguousField "p.A.f" ["i.I.f", "i.J.f"]] := by
  intro start state
  have hstore : start.corpus.store.Reached := .relate _ (.relate _ (Store.reached_ofRows _))
  have hstate : start.Leads state := .asked _ (.asked _ (.asked _ .here))
  have hbuilt : fieldModel.Built := alone_built fieldStore ⟨1⟩
  obtain ⟨entries, hnoted⟩ := hbuilt.ambiguities_noted_once hstore _ hstate
  have hbefore : fieldModel.anomalies = [] := by decide +kernel
  have hafter : state.model.anomalies = [.ambiguousField "p.A.f" ["i.I.f", "i.J.f"]] := by
    decide +kernel
  refine ⟨hbuilt, hstore, hstate, entries, hnoted, ?_⟩
  rw [← hafter, hnoted.anomalies, hbefore, List.nil_append]

end ProjectModel

end Referent
