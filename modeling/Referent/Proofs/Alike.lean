import Referent.Proofs.Steady

/-!
# Models that differ in ids alone

The ids of compound types and placeholders depend on what else is in the store, and nothing
else that a model shows does. Two models are alike if they differ in these ids alone
(`ProjectModel.Alike`).

* **Walks** look at names, kinds and parents, so they find the same in both
  (`Hierarchy.Alike.resolve`).
* **Lookups** that succeed in both, over whatever stores and caches, answer the same and leave
  models that are alike again (`getEntity_alike`, `getVirtualEntity_alike`).
-/

namespace Referent

/-- What there is to an entity besides the id of a made one. -/
def Entity.face (entity : Entity) : Profile × List EntityRef :=
  (entity.profile, entity.parents)

/-! ## Walks -/

namespace Hierarchy

/-- Two hierarchies that differ in ids alone. -/
structure Alike (first second : Hierarchy) : Prop where
  face : ∀ ref, (second.entity? ref).map Entity.face = (first.entity? ref).map Entity.face
  declared : ∀ name, second.declared? name = first.declared? name

variable {first second : Hierarchy} {member : String}

namespace Alike

/-- What a walk looks at is the same. -/
theorem fields (h : Alike first second) (ref : EntityRef) :
    (second.entity? ref).map (fun entity => (entity.name, entity.kind, entity.parents)) =
      (first.entity? ref).map fun entity => (entity.name, entity.kind, entity.parents) := by
  have hface := congrArg (Option.map fun face : Profile × List EntityRef =>
    (face.1.name, face.1.kind, face.2)) (h.face ref)
  rw [Option.map_map, Option.map_map] at hface
  exact hface

theorem isSome_entity? (h : Alike first second) (ref : EntityRef) :
    (second.entity? ref).isSome = (first.entity? ref).isSome := by
  have := congrArg Option.isSome (h.face ref)
  rwa [Option.isSome_map, Option.isSome_map] at this

theorem finding? (h : Alike first second) (ref : EntityRef) :
    second.finding? member ref = first.finding? member ref := by
  have hfields := h.fields ref
  unfold Hierarchy.finding?
  cases hfirst : first.entity? ref with
  | none =>
    rw [hfirst, Option.map_none, Option.map_eq_none_iff] at hfields
    rw [hfields]
    rfl
  | some entity =>
    rw [hfirst, Option.map_some, Option.map_eq_some_iff] at hfields
    obtain ⟨other, hother, heq⟩ := hfields
    obtain ⟨hname, hkind, -⟩ : other.name = entity.name ∧ other.kind = entity.kind ∧
      other.parents = entity.parents := by simpa using heq
    rw [hother, Option.bind_some, Option.bind_some, hname, hkind, h.declared]

theorem scan (h : Alike first second) (seen refs : List EntityRef) :
    second.scan member seen refs = first.scan member seen refs := by
  have hfinding : second.finding? member = first.finding? member :=
    funext fun ref => h.finding? ref
  have hsilent : second.isSilent member = first.isSilent member := by
    funext ref
    simp only [isSilent, hfinding, h.isSome_entity?]
  rw [scan_eq, scan_eq, hfinding, hsilent]

theorem walk (h : Alike first second) (seen queue : List EntityRef) :
    second.walk member seen queue = first.walk member seen queue := by
  -- Along the walk of the first: both take the same turn, as turns depend on names, kinds and
  -- parents only.
  induction seen, queue using walk_induction first member with
  | nil seen => rw [walk_nil, walk_nil]
  | hidden seen current queue hentity ih =>
    have hother := h.isSome_entity? current
    rw [hentity, Option.isSome_none, Option.isSome_eq_false_iff,
      Option.isNone_iff_eq_none] at hother
    rw [walk_cons_none hother, walk_cons_none hentity, ih]
  | visible seen current queue entity hentity ih =>
    have hfields := h.fields current
    rw [hentity, Option.map_some, Option.map_eq_some_iff] at hfields
    obtain ⟨other, hother, heq⟩ := hfields
    have hparents : other.parents = entity.parents := congrArg (·.2.2) heq
    rw [walk_cons_some hother, walk_cons_some hentity, hparents, h.scan, ih]

theorem namesOf (h : Alike first second) (refs : List EntityRef) :
    second.namesOf refs = first.namesOf refs := by
  apply List.filterMap_congr
  intro ref _
  have hname := congrArg (Option.map (·.1)) (h.fields ref)
  rw [Option.map_map, Option.map_map] at hname
  exact hname

/-- Members resolve to the same declarations, with the same anomalies. -/
theorem resolve (h : Alike first second) (receiver : EntityRef) (name : String)
    (ref : Name.MemberRef) :
    second.resolve receiver name ref = first.resolve receiver name ref := by
  have hfindings : second.findings receiver ref.member = first.findings receiver ref.member :=
    h.walk [receiver] [receiver]
  simp only [Hierarchy.resolve, resolveMethod, resolveField, hfindings, h.namesOf]

end Alike

end Hierarchy

/-! ## Models -/

namespace ProjectModel

/-- Two models that differ in the ids of made entities alone. The index of the library by id may
have been given up in one of them. -/
structure Alike (first second : ProjectModel) : Prop where
  library : second.library.releaseIds = first.library.releaseIds
  slots : second.table.slots = first.table.slots
  arena : second.table.arena.map Entity.face = first.table.arena.map Entity.face
  placeholders : second.placeholders = first.placeholders
  bindings : second.bindings = first.bindings
  diagnostics : second.diagnostics = first.diagnostics

variable {first second : ProjectModel}

namespace Alike

theorem size (h : Alike first second) : second.table.size = first.table.size := by
  have := congrArg Array.size h.arena
  rwa [Array.size_map, Array.size_map] at this

theorem find? (h : Alike first second) (name : String) :
    second.find? name = first.find? name := by
  rw [ProjectModel.find?, ProjectModel.find?, Table.slot?, Table.slot?, h.slots]

/-- Lookups in a library do not use its index by id. -/
theorem library_find? (h : Alike first second) (name : String) :
    second.library.find? name = first.library.find? name := by
  show second.library.releaseIds.find? name = first.library.releaseIds.find? name
  rw [h.library]

theorem library_dispatch (h : Alike first second) (name : String) :
    second.library.dispatch name = first.library.dispatch name := by
  show second.library.releaseIds.dispatch name = first.library.releaseIds.dispatch name
  rw [h.library]

theorem findAny? (h : Alike first second) (name : String) :
    second.findAny? name = first.findAny? name := by
  rw [ProjectModel.findAny?, ProjectModel.findAny?, h.find?, h.library_find?]

theorem face (h : Alike first second) (ref : EntityRef) :
    (second.entity? ref).map Entity.face = (first.entity? ref).map Entity.face := by
  cases ref with
  | library slot =>
    show (second.library.releaseIds.entity? (.library slot)).map Entity.face = _
    rw [h.library]
    rfl
  | project slot =>
    show second.table.arena[slot]?.map Entity.face = first.table.arena[slot]?.map Entity.face
    rw [← Array.getElem?_map, ← Array.getElem?_map, h.arena]

theorem profile (h : Alike first second) (ref : EntityRef) :
    (second.entity? ref).map Entity.profile = (first.entity? ref).map Entity.profile := by
  have := congrArg (Option.map Prod.fst) (h.face ref)
  rwa [Option.map_map, Option.map_map] at this

theorem declared? (h : Alike first second) (name : String) :
    second.declared? name = first.declared? name := by
  have hkind : ∀ slot : Nat,
      second.table.arena[slot]?.any (fun entity => !entity.kind.isSynthesized) =
        first.table.arena[slot]?.any fun entity => !entity.kind.isSynthesized := by
    intro slot
    have hprofile := congrArg (Option.any fun profile : Profile => !profile.kind.isSynthesized)
      (h.profile (.project slot))
    rwa [Option.any_map, Option.any_map] at hprofile
  have hslot : second.table.declaredSlot? name = first.table.declaredSlot? name := by
    rw [Table.declaredSlot?, Table.declaredSlot?, Table.slot?, Table.slot?, h.slots]
    simp only [hkind]
  rw [ProjectModel.declared?, ProjectModel.declared?, hslot, h.library_find?]

theorem hierarchy (h : Alike first second) :
    first.hierarchy.Alike second.hierarchy where
  face ref := by
    rw [entity?_hierarchy, entity?_hierarchy]
    exact h.face ref
  declared := h.declared?

theorem dispatch (h : Alike first second) (name : String) :
    second.dispatch name = first.dispatch name := by
  have hroot : second.library.rootType = first.library.rootType :=
    congrArg (·.rootType) h.library
  simp only [ProjectModel.dispatch, hroot, h.declared?, h.find?, h.library_dispatch,
    h.hierarchy.resolve]

/-- Both models get an entity that differs in its id at most. -/
theorem allocate (h : Alike first second) {entity other : Entity}
    (hface : other.face = entity.face) :
    Alike { first with table := first.table.allocate entity }
      { second with table := second.table.allocate other } :=
  { h with
    arena := by
      show (second.table.arena.push other).map Entity.face =
        (first.table.arena.push entity).map Entity.face
      rw [Array.map_push, Array.map_push, h.arena, hface] }

end Alike

end ProjectModel

/-! ## Lookups -/

namespace Lookup

open LookupState

/-- If both runs succeed, the answers are related by `R` and the models that they leave are
alike. -/
def AlikeRuns (R : α → β → Prop) : EStateM.Result ModelError LookupState α →
    EStateM.Result ModelError LookupState β → Prop
  | .ok a after, .ok b last => R a b ∧ after.model.Alike last.model
  | _, _ => True

variable {R : α → β → Prop} {state other : LookupState} {name : String}

theorem AlikeRuns.error_left {err : ModelError} {after : LookupState}
    {result : EStateM.Result ModelError LookupState β} :
    AlikeRuns R (.error err after) result := trivial

theorem AlikeRuns.error_right {err : ModelError} {after : LookupState}
    {result : EStateM.Result ModelError LookupState α} :
    AlikeRuns R result (.error err after) := by
  cases result <;> trivial

theorem AlikeRuns.bind {S : γ → δ → Prop} {first : Lookup α} {second : Lookup β}
    {next : α → Lookup γ} {next' : β → Lookup δ}
    (h : AlikeRuns R (first state) (second other))
    (hnext : ∀ a b (after last : LookupState), R a b → after.model.Alike last.model →
      AlikeRuns S (next a after) (next' b last)) :
    AlikeRuns S ((first >>= next) state) ((second >>= next') other) := by
  rw [bind_apply, bind_apply]
  revert h
  cases first state with
  | error err after => exact fun _ => .error_left
  | ok a after =>
    cases second other with
    | error err last => exact fun _ => .error_right
    | ok b last => exact fun h => hnext a b after last h.1 h.2

theorem AlikeRuns.intro {result : EStateM.Result ModelError LookupState α}
    {result' : EStateM.Result ModelError LookupState β}
    (h : ∀ a after b last, result = .ok a after → result' = .ok b last →
      R a b ∧ after.model.Alike last.model) : AlikeRuns R result result' := by
  cases result with
  | error err after => exact .error_left
  | ok a after =>
    cases result' with
    | error err last => exact .error_right
    | ok b last => exact h a after b last rfl rfl

theorem placing_of_unknown (hnew : state.model.placeholders[name]? = none) {ref : EntityRef}
    {after : LookupState} (hrun : unknown name state = .ok ref after) :
    ref = .project state.model.table.size ∧
      ∃ id, after.model = (state.placing name id).model := by
  cases hcached : state.cache.entries[name]? with
  | some id =>
    rw [unknown_kept hnew hcached] at hrun
    cases hrun
    exact ⟨rfl, id, rfl⟩
  | none =>
    rw [unknown_inserting hnew hcached] at hrun
    revert hrun
    rcases state.corpus.insert _ with ⟨answer, corpus⟩
    cases answer with
    | error cause =>
      intro hrun
      cases hrun
    | ok id =>
      intro hrun
      cases hrun
      exact ⟨rfl, id, rfl⟩

/-- A placeholder has its own id in each store. -/
theorem unknown_alike (h : state.model.Alike other.model) (name : String) :
    AlikeRuns Eq (unknown name state) (unknown name other) := by
  cases hnew : state.model.placeholders[name]? with
  | some ref =>
    have hother : other.model.placeholders[name]? = some ref := by rw [h.placeholders, hnew]
    rw [unknown_cached hnew, unknown_cached hother]
    exact ⟨rfl, h⟩
  | none =>
    have hother : other.model.placeholders[name]? = none := by rw [h.placeholders, hnew]
    apply AlikeRuns.intro
    intro ref after ref' last hrun hrun'
    obtain ⟨rfl, id, hafter⟩ := placing_of_unknown hnew hrun
    obtain ⟨rfl, id', hlast⟩ := placing_of_unknown hother hrun'
    have hface : (PlaceholderCache.entity name id').face =
        (PlaceholderCache.entity name id).face := rfl
    rw [hafter, hlast, h.size]
    refine ⟨rfl, { h.allocate hface with placeholders := ?_ }⟩
    show other.model.placeholders.insert _ _ = state.model.placeholders.insert _ _
    rw [h.placeholders, h.size]

theorem face_compoundEntity {kind : EntityKind} (hkind : Name.compoundKind? name = some kind)
    (id : EntityId) : (compoundEntity name kind id).face =
      ({ name, kind, origin := .notApplicable, declared := none }, []) := by
  rw [Entity.face, profile_compoundEntity hkind]
  rfl

/-- So has a compound type. -/
theorem synthesize_alike (h : state.model.Alike other.model)
    (hfree : state.model.find? name = none) {kind : EntityKind}
    (hkind : Name.compoundKind? name = some kind) :
    AlikeRuns (fun made made' => made.2 = made'.2) (synthesize name kind state)
      (synthesize name kind other) := by
  rw [synthesize_inserting hfree, synthesize_inserting ((h.find? name).trans hfree)]
  rcases state.corpus.insert _ with ⟨answer, corpus⟩
  rcases other.corpus.insert _ with ⟨answer', corpus'⟩
  cases answer with
  | error cause => exact .error_left
  | ok id =>
    cases answer' with
    | error cause => exact .error_right
    | ok id' =>
      have hface := (face_compoundEntity hkind id').trans (face_compoundEntity hkind id).symm
      refine ⟨by rw [h.size], { h.allocate hface with slots := ?_ }⟩
      show other.model.table.slots.insert _ _ = state.model.table.slots.insert _ _
      rw [h.slots, h.size]

/-- Relations leave the models alone. -/
theorem relateTo_alike (h : state.model.Alike other.model) (id id' : EntityId)
    (kind : RelationKind) (target target' : EntityRef) :
    AlikeRuns (fun _ _ => True) (relateTo id kind target state)
      (relateTo id' kind target' other) := by
  -- The targets may even be missing in one model: relations are in the store alone.
  have hmodel : ∀ (state after : LookupState) (id : EntityId) (target : EntityRef) (u : Unit),
      relateTo id kind target state = .ok u after → after.model = state.model := by
    intro state after id target u hrun
    cases hentity : state.model.entity? target with
    | none =>
      simp only [relateTo, get_bind_apply, hentity] at hrun
      cases hrun
      rfl
    | some entity =>
      rcases relateTo_cases hentity id kind with ⟨corpus, hok, -⟩ | ⟨cause, corpus, herror, -⟩
      · rw [hok] at hrun
        cases hrun
        rfl
      · rw [herror] at hrun
        cases hrun
  apply AlikeRuns.intro
  intro u after u' last hrun hrun'
  rw [hmodel state after id target u hrun, hmodel other last id' target' u' hrun']
  exact ⟨trivial, h⟩

theorem linkParts_alike (id id' : EntityId) {parts : List (RelationKind × String)}
    (hget : ∀ part ∈ parts, ∀ state other : LookupState, state.model.Alike other.model →
      AlikeRuns Eq (ProjectModel.getEntity part.2 state) (ProjectModel.getEntity part.2 other))
    (h : state.model.Alike other.model) :
    AlikeRuns (fun _ _ => True) (parts.forM (linkPart id) state)
      (parts.forM (linkPart id') other) := by
  induction parts generalizing state other with
  | nil => exact ⟨trivial, h⟩
  | cons part parts ih =>
    show AlikeRuns _ ((linkPart id part >>= fun _ => parts.forM (linkPart id)) state)
      ((linkPart id' part >>= fun _ => parts.forM (linkPart id')) other)
    have hpart : AlikeRuns (fun _ _ => True) (linkPart id part state)
        (linkPart id' part other) := by
      apply AlikeRuns.bind (hget part List.mem_cons_self state other h)
      intro ref ref' after last _ hafter
      exact relateTo_alike hafter id id' part.1 ref ref'
    apply hpart.bind
    intro u u' after last _ hafter
    exact ih (fun part hpart => hget part (List.mem_cons_of_mem _ hpart)) hafter

end Lookup

namespace ProjectModel

open Lookup

variable {state other : LookupState}

/-- Plain lookups in alike models answer the same. -/
theorem getEntity_alike (h : state.model.Alike other.model) (name : String) :
    AlikeRuns Eq (getEntity name state) (getEntity name other) := by
  -- Parts are shorter than the whole.
  induction hlength : name.length using Nat.strongRecOn generalizing name state other with
  | ind length ih =>
    subst hlength
    cases hfind : state.model.find? name with
    | some ref =>
      rw [getEntity_found hfind, getEntity_found ((h.find? name).trans hfind)]
      exact ⟨rfl, h⟩
    | none =>
      have hfind' := (h.find? name).trans hfind
      cases hkind : Name.compoundKind? name with
      | none =>
        cases hlibrary : state.model.library.find? name with
        | some ref =>
          rw [getEntity_library hfind hkind hlibrary,
            getEntity_library hfind' hkind ((h.library_find? name).trans hlibrary)]
          exact ⟨rfl, h⟩
        | none =>
          rw [getEntity_unknown hfind hkind hlibrary,
            getEntity_unknown hfind' hkind ((h.library_find? name).trans hlibrary)]
          exact unknown_alike h name
      | some kind =>
        rw [getEntity_compound hfind hkind, getEntity_compound hfind' hkind]
        apply (synthesize_alike h hfind hkind).bind
        rintro ⟨id, made⟩ ⟨id', made'⟩ after last rfl hafter
        have hparts := linkParts_alike id id' (fun part hpart state other hstate =>
          ih _ (Name.length_lt_of_mem_constituents hpart) hstate part.2 rfl) hafter
        simp only [bind_apply (unbinding _ _), unbinding]
        revert hparts
        cases (Name.Shape.ofName name).constituents.forM (linkPart id) after with
        | error err after => exact fun _ => .error_left
        | ok u after =>
          cases (Name.Shape.ofName name).constituents.forM (linkPart id') last with
          | error err last => exact fun _ => .error_right
          | ok u' last => exact fun hparts => ⟨rfl, hparts.2⟩

theorem Alike.noting (h : state.model.Alike other.model) (anomaly : Option Anomaly) :
    (state.noting anomaly).model.Alike (other.noting anomaly).model :=
  { h with
    diagnostics := by
      show other.model.diagnostics.recordAny anomaly = state.model.diagnostics.recordAny anomaly
      rw [h.diagnostics] }

theorem Alike.remembering (h : state.model.Alike other.model) (name : String)
    (binding : Binding) :
    (state.remembering name binding).model.Alike (other.remembering name binding).model :=
  { h with
    bindings := by
      show other.model.bindings.insert name binding = state.model.bindings.insert name binding
      rw [h.bindings] }

/-- So do virtual lookups. -/
theorem getVirtualEntity_alike (h : state.model.Alike other.model) (name : String) :
    AlikeRuns Eq (getVirtualEntity name state) (getVirtualEntity name other) := by
  have hmemoized : other.model.memoized? name = state.model.memoized? name := by
    rw [memoized?, memoized?, h.bindings]
  cases hmemo : state.model.memoized? name with
  | some binding =>
    rw [getVirtualEntity_memoized hmemo, getVirtualEntity_memoized (hmemoized.trans hmemo)]
    exact ⟨rfl, h⟩
  | none =>
    have hmemo' := hmemoized.trans hmemo
    cases hany : state.model.findAny? name with
    | some ref =>
      rw [getVirtualEntity_found hmemo hany,
        getVirtualEntity_found hmemo' ((h.findAny? name).trans hany)]
      exact ⟨rfl, h⟩
    | none =>
      have hany' := (h.findAny? name).trans hany
      cases hname : Name.isCompoundType name with
      | true =>
        have hget := getEntity_alike h name
        rw [getVirtualEntity_compound hmemo hany hname,
          getVirtualEntity_compound hmemo' hany' hname]
        revert hget
        cases getEntity name state with
        | error err after => exact fun _ => .error_left
        | ok ref after =>
          cases getEntity name other with
          | error err last => exact fun _ => .error_right
          | ok ref' last => exact fun hget => ⟨congrArg Binding.resolved hget.1, hget.2⟩
      | false =>
        -- Dispatch is the same in both, and its anomaly is noted before a placeholder is needed.
        have hdispatch := h.dispatch name
        have hnoted := h.noting (state.model.dispatch name).anomaly
        cases hbinding : (state.model.dispatch name).binding with
        | some binding =>
          have hbinding' : (other.model.dispatch name).binding = some binding := by
            rw [hdispatch, hbinding]
          rw [getVirtualEntity_dispatched hmemo hany hname hbinding,
            getVirtualEntity_dispatched hmemo' hany' hname hbinding', hdispatch]
          exact ⟨rfl, hnoted.remembering name binding⟩
        | none =>
          have hbinding' : (other.model.dispatch name).binding = none := by
            rw [hdispatch, hbinding]
          have hunknown := unknown_alike hnoted name
          rw [getVirtualEntity_open hmemo hany hname hbinding,
            getVirtualEntity_open hmemo' hany' hname hbinding', hdispatch]
          revert hunknown
          cases unknown name (state.noting (state.model.dispatch name).anomaly) with
          | error err after => exact fun _ => .error_left
          | ok ref after =>
            cases unknown name (other.noting (state.model.dispatch name).anomaly) with
            | error err last => exact fun _ => .error_right
            | ok ref' last =>
              rintro ⟨rfl, halike⟩
              exact ⟨rfl, halike.remembering name (.unresolved ref)⟩

end ProjectModel

end Referent
