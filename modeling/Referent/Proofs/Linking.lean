import Referent.Proofs.Growth

/-!
# Compound types are linked whole

A compound type is bound before its parts are linked and unbound again if a part fails, at every
level of the recursion. Seen from before the lookup the name was free, so giving it back loses
nothing; what matters is that everything else a lookup has bound by then stays linked.

* **One step** (`getEntity_adds`): whatever becomes of a lookup, the names it has bound since are
  linked (`Linked`), they are no longer than the name looked up, and their rows are new.
* **The parts** (`linkParts_attaches`): each part contributes one relation, behind those of the
  parts before it; a part's own lookup never touches the whole, whose row is older.
* **A run** (`compounds_linked`): by induction over the questions asked of a model.
-/

namespace Referent

/-! ## Relations since lookups began -/

/-- The relations with this left end behind the first `base` ones. -/
def Store.relatedSince (store : Store) (base : Nat) (left : EntityId) : List RelationRow :=
  (store.relations.toList.drop base).filter (·.left = left)

namespace Store

variable {store : Store} {base : Nat}

theorem relatedSince_relate (h : base ≤ store.relations.size) (row : RelationRow)
    (left : EntityId) : (store.relate row).relatedSince base left =
      store.relatedSince base left ++ if row.left = left then [row] else [] := by
  rw [relatedSince, relate, Array.toList_push, List.drop_append_of_le_length (by simpa using h),
    List.filter_append, relatedSince]
  by_cases hleft : row.left = left <;> simp [hleft]

end Store

namespace LookupState

open Lookup

variable {kept : EntityId → Prop} {base : Nat} {before after : LookupState} {id : EntityId}

theorem Grows.relatedSince (h : Grows kept before after) (hkept : kept id)
    (hbase : base ≤ before.corpus.store.relations.size) :
    after.corpus.store.relatedSince base id = before.corpus.store.relatedSince base id := by
  obtain ⟨added, heq, hadded⟩ := h.relations
  have hnone : added.filter (·.left = id) = [] := by
    rw [List.filter_eq_nil_iff]
    intro row hrow hleft
    rw [decide_eq_true_eq] at hleft
    exact hadded row hrow (hleft ▸ hkept)
  rw [Store.relatedSince, heq, List.drop_append_of_le_length (by simpa using hbase),
    List.filter_append, hnone, List.append_nil, Store.relatedSince]

/-- An id that no row has is related to nothing. -/
theorem Ready.relatedSince_eq_nil {state : LookupState} (h : Ready base state)
    (hid : ¬ state.corpus.store.Uses id) : state.corpus.store.relatedSince base id = [] := by
  rw [Store.relatedSince, List.filter_eq_nil_iff]
  intro row hrow hleft
  rw [decide_eq_true_eq] at hleft
  exact hid (hleft ▸ h.left row hrow)

/-! ## Linked compound types -/

/-- The relation that ties a compound type to a part. -/
def Ties (state : LookupState) (id : EntityId) (part : RelationKind × String)
    (row : RelationRow) : Prop :=
  ∃ ref entity, state.model.Denotes part.2 ref ∧ state.model.entity? ref = some entity ∧
    row = partRow state.model.project id part.1 entity

/-- The compound type in a slot has its row, and a relation for each of its parts in order. -/
structure Linked (base : Nat) (state : LookupState) (name : String) (slot : Nat)
    (kind : EntityKind) (id : EntityId) : Prop where
  shape : Name.compoundKind? name = some kind
  entity : state.model.table.arena[slot]? = some (compoundEntity name kind id)
  row : { compoundEntry state.model.project name kind with id } ∈
    state.corpus.store.entities.toList
  parts : List.Forall₂ (Ties state id) (Name.Shape.ofName name).constituents
    (state.corpus.store.relatedSince base id)

theorem Grows.ties (h : Grows kept before after) {part : RelationKind × String}
    {row : RelationRow} (hties : Ties before id part row) : Ties after id part row := by
  obtain ⟨ref, entity, hdenotes, hentity, rfl⟩ := hties
  refine ⟨ref, entity, h.denotes hdenotes, h.entity? hentity, ?_⟩
  rw [h.project]

/-- A linked compound type stays linked as long as nothing more is said about it. -/
theorem Grows.linked (h : Grows kept before after) {name : String} {slot : Nat}
    {kind : EntityKind} (hlinked : Linked base before name slot kind id) (hkept : kept id)
    (hbase : base ≤ before.corpus.store.relations.size) :
    Linked base after name slot kind id where
  shape := hlinked.shape
  entity := h.entity slot _ hlinked.entity
  row := by
    rw [h.project]
    exact h.row _ hlinked.row
  parts := by
    rw [h.relatedSince hkept hbase]
    exact hlinked.parts.imp fun _ _ hties => h.ties hties

theorem Linked.uses {state : LookupState} {name : String} {slot : Nat} {kind : EntityKind}
    (h : Linked base state name slot kind id) : state.corpus.store.Uses id :=
  .of_mem h.row

/-- What a lookup adds: names shorter than `limit`, each bound to a compound type that is linked
and whose row is new. -/
structure Adds (kept : EntityId → Prop) (base limit : Nat) (before after : LookupState) :
    Prop where
  ready : Ready base after
  grows : Grows kept before after
  linked : ∀ name slot, before.model.table.slot? name = none →
    after.model.table.slot? name = some slot → name.length < limit ∧ ∃ kind id,
      ¬ before.corpus.store.Uses id ∧ Linked base after name slot kind id

/-- A plain lookup does not touch the results of dispatch. -/
structure AddsPlainly (kept : EntityId → Prop) (base limit : Nat) (before after : LookupState) :
    Prop extends Adds kept base limit before after where
  bindings : after.model.bindings = before.model.bindings

variable {limit : Nat}

/-- A step that binds no name. -/
theorem Adds.of_same_slots (hready : Ready base after) (hgrows : Grows kept before after)
    (hslots : after.model.table.slots = before.model.table.slots) :
    Adds kept base limit before after where
  ready := hready
  grows := hgrows
  linked name slot hnone hsome := by
    rw [Table.slot?, hslots] at hsome
    rw [Table.slot?, hsome] at hnone
    cases hnone

theorem Adds.refl {state : LookupState} (h : Ready base state) :
    Adds kept base limit state state :=
  .of_same_slots h (Grows.refl kept state) rfl

theorem AddsPlainly.refl {state : LookupState} (h : Ready base state) :
    AddsPlainly kept base limit state state :=
  ⟨.refl h, rfl⟩

theorem Adds.mono {limit' : Nat} (h : Adds kept base limit before after)
    (hlimit : limit ≤ limit') : Adds kept base limit' before after :=
  { h with
    linked := by
      intro name slot hnone hsome
      obtain ⟨hlength, hlinked⟩ := h.linked name slot hnone hsome
      exact ⟨by omega, hlinked⟩ }

theorem AddsPlainly.mono {limit' : Nat} (h : AddsPlainly kept base limit before after)
    (hlimit : limit ≤ limit') : AddsPlainly kept base limit' before after :=
  ⟨h.toAdds.mono hlimit, h.bindings⟩

theorem AddsPlainly.weaken {fewer : EntityId → Prop}
    (h : AddsPlainly kept base limit before after) (hfewer : ∀ id, fewer id → kept id) :
    AddsPlainly fewer base limit before after :=
  { h with grows := h.grows.weaken hfewer }

/-- Two steps in a row. The second may say more about old compound types, but not about those
that the first has linked. -/
theorem Adds.trans {kept₁ kept₂ : EntityId → Prop} {first mid last : LookupState}
    (h₁ : Adds kept₁ base limit first mid) (h₂ : Adds kept₂ base limit mid last)
    (hkept₁ : ∀ id, kept id → kept₁ id) (hkept₂ : ∀ id, kept id → kept₂ id)
    (hnew : ∀ id, mid.corpus.store.Uses id → ¬ first.corpus.store.Uses id → kept₂ id) :
    Adds kept base limit first last where
  ready := h₂.ready
  grows := (h₁.grows.weaken hkept₁).trans (h₂.grows.weaken hkept₂)
  linked name slot hnone hsome := by
    cases hmid : mid.model.table.slot? name with
    | none =>
      obtain ⟨hlength, kind, id, hfresh, hlinked⟩ := h₂.linked name slot hmid hsome
      exact ⟨hlength, kind, id, fun huses => hfresh (h₁.grows.uses huses), hlinked⟩
    | some early =>
      have hsame := h₂.grows.slot name early hmid
      rw [hsome] at hsame
      cases hsame
      obtain ⟨hlength, kind, id, hfresh, hlinked⟩ := h₁.linked name slot hnone hmid
      exact ⟨hlength, kind, id, hfresh,
        h₂.grows.linked hlinked (hnew id hlinked.uses hfresh) h₁.ready.base_le⟩

theorem AddsPlainly.trans {kept₁ kept₂ : EntityId → Prop} {first mid last : LookupState}
    (h₁ : AddsPlainly kept₁ base limit first mid) (h₂ : AddsPlainly kept₂ base limit mid last)
    (hkept₁ : ∀ id, kept id → kept₁ id) (hkept₂ : ∀ id, kept id → kept₂ id)
    (hnew : ∀ id, mid.corpus.store.Uses id → ¬ first.corpus.store.Uses id → kept₂ id) :
    AddsPlainly kept base limit first last :=
  ⟨h₁.toAdds.trans h₂.toAdds hkept₁ hkept₂ hnew, h₂.bindings.trans h₁.bindings⟩

/-! ## Steps -/

variable {name : String} {state : LookupState}

/-- A failed call adds nothing. -/
theorem AddsPlainly.of_same_store (h : Ready base state) {corpus : Access}
    (hstore : corpus.store = state.corpus.store) :
    AddsPlainly kept base limit state { state with corpus } := by
  obtain ⟨hready, hgrows⟩ := h.same_store kept hstore
  exact ⟨.of_same_slots hready hgrows rfl, rfl⟩

theorem unknown_adds (h : Ready base state) (kept : EntityId → Prop) (name : String)
    (limit : Nat) :
    match unknown name state with
    | .ok ref after => AddsPlainly kept base limit state after ∧
        after.model.placeholders[name]? = some ref
    | .error _ after => AddsPlainly kept base limit state after := by
  cases hcached : state.model.placeholders[name]? with
  | some ref =>
    rw [unknown_cached hcached]
    exact ⟨.refl h, hcached⟩
  | none =>
    rcases unknown_cases h.store.sound hcached with
      ⟨id, corpus, cache, hrun, hstore⟩ | ⟨cause, corpus, hrun, hstore⟩
    · rw [hrun]
      -- The row first, then the slot.
      have hcorpus : Ready base { state with corpus } ∧ Grows kept state { state with corpus } := by
        rcases hstore with hsame | hinserted
        · exact h.same_store kept hsame
        · exact h.inserted kept hinserted
      obtain ⟨hready, hgrows⟩ := hcorpus
      obtain ⟨hready, hgrows'⟩ := hready.allocate kept (PlaceholderCache.entity name id)
      obtain ⟨hready, hgrows''⟩ := hready.enter kept hcached allocate_size
      have hall := (hgrows.trans hgrows').trans hgrows''
      exact ⟨⟨.of_same_slots { hready with } { hall with } rfl, rfl⟩, by simp⟩
    · rw [hrun]
      exact .of_same_store h hstore

/-- Relating a compound type to a part concerns that type alone. -/
theorem relateTo_adds (h : Ready base state) (hid : state.corpus.store.Uses id)
    {target : EntityRef} {entity : Entity}
    (hentity : state.model.entity? target = some entity) (kind : RelationKind) (limit : Nat) :
    match relateTo id kind target state with
    | .ok _ after => AddsPlainly (· ≠ id) base limit state after ∧
        after.model = state.model ∧
        after.corpus.store.relatedSince base id = state.corpus.store.relatedSince base id ++
          [partRow state.model.project id kind entity]
    | .error _ after => AddsPlainly (· ≠ id) base limit state after := by
  rcases relateTo_cases hentity id kind with ⟨corpus, hrun, hstore⟩ | ⟨cause, corpus, hrun, hstore⟩
  · rw [hrun]
    refine ⟨⟨.of_same_slots ?_ ?_ rfl, rfl⟩, rfl, ?_⟩
    · refine { h with store := ?_, base_le := ?_, left := ?_ }
      · simp only [hstore]
        exact h.store.relate _
      · simp only [hstore, Store.relate, Array.size_push]
        exact Nat.le_succ_of_le h.base_le
      · intro row hrow
        simp only [hstore, Store.relate, Array.toList_push] at hrow
        rw [List.drop_append_of_le_length (by simpa using h.base_le), List.mem_append,
          List.mem_singleton] at hrow
        simp only [hstore]
        rcases hrow with hrow | rfl
        · exact h.left row hrow
        · exact hid
    · refine { Grows.refl (· ≠ id) state with row := ?_, relations := ?_ }
      · simp [hstore, Store.relate]
      · refine ⟨[partRow state.model.project id kind entity], ?_, ?_⟩
        · simp [hstore, Store.relate]
        · simp [partRow]
    · simp only [hstore]
      rw [Store.relatedSince_relate h.base_le, if_pos (by rfl)]
  · rw [hrun]
    exact .of_same_store h hstore

/-- Some row of the store has this id, which is not that of the whole. -/
def UsesBesides (state : LookupState) (whole other : EntityId) : Prop :=
  state.corpus.store.Uses other ∧ other ≠ whole

/-- A run that ties `id` to the parts, in order and behind the parts it already has. -/
def Attaches (base limit : Nat) (id : EntityId) (parts : List (RelationKind × String))
    (state : LookupState) : EStateM.Result ModelError LookupState Unit → Prop
  | .ok _ after => AddsPlainly (state.UsesBesides id) base limit state after ∧
      ∃ rows, List.Forall₂ (Ties after id) parts rows ∧
        after.corpus.store.relatedSince base id =
          state.corpus.store.relatedSince base id ++ rows
  | .error _ after => AddsPlainly (state.UsesBesides id) base limit state after

theorem Attaches.cons {part : RelationKind × String} {parts : List (RelationKind × String)}
    {mid : LookupState} {result : EStateM.Result ModelError LookupState Unit}
    (hid : state.corpus.store.Uses id) (hfirst : Attaches base limit id [part] state (.ok () mid))
    (hrest : Attaches base limit id parts mid result) :
    Attaches base limit id (part :: parts) state result := by
  obtain ⟨hadds, rows, hties, hrelated⟩ := hfirst
  obtain ⟨row, rest, hrow, hnil, rfl⟩ := List.forall₂_cons_left_iff.1 hties
  cases hnil
  -- What the part has added is not the whole, which is older.
  have hkept : ∀ other, state.UsesBesides id other → mid.UsesBesides id other :=
    fun other hother => ⟨hadds.grows.uses hother.1, hother.2⟩
  have hnew : ∀ other, mid.corpus.store.Uses other → ¬ state.corpus.store.Uses other →
      mid.UsesBesides id other := by
    intro other huses hfresh
    refine ⟨huses, ?_⟩
    rintro rfl
    exact hfresh hid
  cases result with
  | error err after => exact hadds.trans hrest (fun _ h => h) hkept hnew
  | ok u after =>
    obtain ⟨hadds', rows, htied, hrelated'⟩ := hrest
    refine ⟨hadds.trans hadds' (fun _ h => h) hkept hnew, row :: rows, ?_, ?_⟩
    · exact .cons (hadds'.grows.ties hrow) htied
    · rw [hrelated', hrelated, List.append_assoc, List.singleton_append]

/-- What a lookup of `name` adds, whatever becomes of it. -/
def GetAdds (base : Nat) (name : String) (state : LookupState) : Prop :=
  match ProjectModel.getEntity name state with
  | .ok ref after => AddsPlainly state.corpus.store.Uses base (name.length + 1) state after ∧
      after.model.Denotes name ref
  | .error _ after => AddsPlainly state.corpus.store.Uses base (name.length + 1) state after

/-- The part is looked up and then the whole is related to it. -/
theorem linkPart_attaches {part : RelationKind × String} (h : Ready base state)
    (hid : state.corpus.store.Uses id) (hshort : part.2.length < limit)
    (hget : GetAdds base part.2 state) :
    Attaches base limit id [part] state (linkPart id part state) := by
  unfold GetAdds at hget
  unfold linkPart
  rw [bind_apply]
  cases hrun : ProjectModel.getEntity part.2 state with
  | error err mid =>
    rw [hrun] at hget
    exact (hget.mono hshort).weaken fun _ h => h.1
  | ok ref mid =>
    rw [hrun] at hget
    obtain ⟨hadds, hdenotes⟩ := hget
    have hmid := hadds.grows.uses hid
    obtain ⟨entity, hentity⟩ := hadds.ready.entity?_of_denotes hdenotes
    have hrelate := relateTo_adds hadds.ready hmid hentity part.1 limit
    have hne : ∀ other, mid.corpus.store.Uses other → ¬ state.corpus.store.Uses other →
        other ≠ id := by
      rintro other - hfresh rfl
      exact hfresh hid
    simp only
    cases hrun' : relateTo id part.1 ref mid with
    | error err after =>
      rw [hrun'] at hrelate
      exact (hadds.mono hshort).trans hrelate (fun _ h => h.1) (fun _ h => h.2) hne
    | ok u after =>
      rw [hrun'] at hrelate
      obtain ⟨hadds', hmodel, hrelated⟩ := hrelate
      refine ⟨(hadds.mono hshort).trans hadds' (fun _ h => h.1) (fun _ h => h.2) hne, [_],
        .cons ⟨ref, entity, ?_, ?_, rfl⟩ .nil, ?_⟩
      · rw [hmodel]
        exact hdenotes
      · rw [hmodel]
        exact hentity
      · rw [hrelated, hadds.grows.relatedSince hid h.base_le, hmodel]

/-- Linking parts adds one relation for each part, in order. -/
theorem linkParts_attaches {parts : List (RelationKind × String)} (limit : Nat)
    (hget : ∀ part ∈ parts, part.2.length < limit ∧
      ∀ state, Ready base state → GetAdds base part.2 state)
    (h : Ready base state) (hid : state.corpus.store.Uses id) :
    Attaches base limit id parts state (parts.forM (linkPart id) state) := by
  induction parts generalizing state with
  | nil => exact ⟨.refl h, [], .nil, by simp⟩
  | cons part parts ih =>
    obtain ⟨hshort, hpart⟩ := hget part List.mem_cons_self
    have hfirst := linkPart_attaches h hid hshort (hpart state h)
    rw [forM_cons_apply]
    cases hrun : linkPart id part state with
    | error err mid =>
      rw [hrun] at hfirst
      exact hfirst
    | ok u mid =>
      rw [hrun] at hfirst
      exact hfirst.cons hid <| ih (fun other hmem => hget other (List.mem_cons_of_mem _ hmem))
        hfirst.1.ready (hfirst.1.grows.uses hid)

/-- A compound type that has its row and its name and none of its parts. -/
structure Made (base : Nat) (before : LookupState) (name : String) (kind : EntityKind)
    (id : EntityId) (after : LookupState) : Prop where
  ready : Ready base after
  grows : Grows before.corpus.store.Uses before after
  bindings : after.model.bindings = before.model.bindings
  free : before.model.table.slot? name = none
  shape : Name.compoundKind? name = some kind
  slot? : ∀ other, after.model.table.slot? other =
    if name = other then some before.model.table.size else before.model.table.slot? other
  entity : after.model.table.arena[before.model.table.size]? =
    some (compoundEntity name kind id)
  row : { compoundEntry after.model.project name kind with id } ∈
    after.corpus.store.entities.toList
  fresh : ¬ before.corpus.store.Uses id
  related : after.corpus.store.relatedSince base id = []

theorem made_of_inserted (h : Ready base state) (hfree : state.model.table.slot? name = none)
    {kind : EntityKind} (hkind : Name.compoundKind? name = some kind) {corpus : Access}
    (hinserted : state.corpus.store.Inserted (compoundEntry state.model.project name kind) id
      corpus.store) :
    Made base state name kind id { state with corpus, model := { state.model with
      table := (state.model.table.allocate (compoundEntity name kind id)).bind name
        state.model.table.size } } := by
  obtain ⟨hready, hgrows⟩ := h.inserted state.corpus.store.Uses hinserted
  obtain ⟨hready, hgrows'⟩ := hready.allocate _ (compoundEntity name kind id)
  obtain ⟨hready, hgrows''⟩ := hready.bind _ hfree hkind allocate_size
  constructor
  · exact hready
  · exact (hgrows.trans hgrows').trans hgrows''
  · rfl
  · exact hfree
  · exact hkind
  · exact fun other => (state.model.table.allocate _).slot?_bind name other _
  · exact allocate_size
  · rw [hinserted.entities, Array.toList_push]
    exact List.mem_append_right _ (List.mem_singleton_self _)
  · exact hinserted.fresh
  · have := h.relatedSince_eq_nil hinserted.fresh
    simp only [Store.relatedSince, hinserted.relations]
    exact this

theorem Made.uses {kind : EntityKind} (h : Made base before name kind id after) :
    after.corpus.store.Uses id :=
  .of_mem h.row

theorem Made.older {kind : EntityKind} (h : Made base before name kind id after)
    {other : EntityId} (hother : before.corpus.store.Uses other) :
    after.UsesBesides id other := by
  refine ⟨h.grows.uses hother, ?_⟩
  rintro rfl
  exact h.fresh hother

/-- The state with a name given back. -/
def forgetting (state : LookupState) (name : String) : LookupState :=
  { state with model.table := state.model.table.forget name }

theorem find?_forgetting {other : String} (hne : other ≠ name) :
    (state.forgetting name).model.find? other = state.model.find? other := by
  rw [ProjectModel.find?, ProjectModel.find?, forgetting, Table.slot?_forget,
    if_neg (Ne.symm hne)]

theorem denotes_forgetting {other : String} {ref : EntityRef} (hne : other ≠ name)
    (h : state.model.Denotes other ref) : (state.forgetting name).model.Denotes other ref := by
  cases h with
  | bound hfind => exact .bound (by rw [find?_forgetting hne]; exact hfind)
  | library hfree hkind hfind =>
    exact .library (by rw [find?_forgetting hne]; exact hfree) hkind hfind
  | placeholder hfree hkind hnone hfind =>
    exact .placeholder (by rw [find?_forgetting hne]; exact hfree) hkind hnone hfind

/-- Names that are no longer than the one given back have other parts. -/
theorem Linked.forgetting {other : String} {slot : Nat} {kind : EntityKind}
    (h : Linked base state other slot kind id) (hlength : other.length ≤ name.length) :
    Linked base (state.forgetting name) other slot kind id where
  shape := h.shape
  entity := h.entity
  row := h.row
  parts := by
    have hne : ∀ part ∈ (Name.Shape.ofName other).constituents, part.2 ≠ name := by
      rintro part hpart rfl
      have := Name.length_lt_of_mem_constituents hpart
      omega
    refine ((List.forall₂_and_left _ _).2 ⟨hne, h.parts⟩).imp ?_
    rintro part row ⟨hpart, ref, entity, hdenotes, hentity, heq⟩
    exact ⟨ref, entity, denotes_forgetting hpart hdenotes, hentity, heq⟩

theorem Ready.forgetting (h : Ready base state) (name : String) :
    Ready base (state.forgetting name) :=
  { h with
    slot_lt := by
      intro other slot hother
      rw [LookupState.forgetting, Table.slot?_forget] at hother
      split at hother
      · cases hother
      · exact h.slot_lt other slot hother }

/-- A name that was free before may be given back. -/
theorem Grows.forgetting (h : Grows kept before after)
    (hfree : before.model.table.slot? name = none) :
    Grows kept before (after.forgetting name) :=
  { h with
    slot := by
      intro other slot hslot
      rw [LookupState.forgetting, Table.slot?_forget, if_neg]
      · exact h.slot other slot hslot
      · rintro rfl
        rw [hfree] at hslot
        cases hslot
    made := by
      intro other slot hnone hsome
      rw [LookupState.forgetting, Table.slot?_forget] at hsome
      split at hsome
      · cases hsome
      · exact h.made other slot hnone hsome }

/-- With its parts, the whole is linked. -/
theorem Made.complete {kind : EntityKind} {last : LookupState} {rows : List RelationRow}
    (h : Made base before name kind id after)
    (hadds : AddsPlainly (after.UsesBesides id) base name.length after last)
    (hties : List.Forall₂ (Ties last id) (Name.Shape.ofName name).constituents rows)
    (hrelated : last.corpus.store.relatedSince base id =
      after.corpus.store.relatedSince base id ++ rows) :
    AddsPlainly before.corpus.store.Uses base (name.length + 1) before last ∧
      last.model.Denotes name (.project before.model.table.size) := by
  have hbound : last.model.table.slot? name = some before.model.table.size :=
    hadds.grows.slot _ _ (by rw [h.slot?, if_pos rfl])
  refine ⟨⟨⟨hadds.ready, ?_, ?_⟩, hadds.bindings.trans h.bindings⟩, ?_⟩
  · exact h.grows.trans (hadds.grows.weaken fun other hother => h.older hother)
  · intro other slot hnone hsome
    by_cases hname : name = other
    · subst hname
      rw [hbound] at hsome
      cases hsome
      refine ⟨Nat.lt_succ_self _, kind, id, h.fresh, h.shape, hadds.grows.entity _ _ h.entity,
        ?_, ?_⟩
      · rw [hadds.grows.project]
        exact hadds.grows.row _ h.row
      · rw [hrelated, h.related, List.nil_append]
        exact hties
    · have hfree : after.model.table.slot? other = none := by
        rw [h.slot?, if_neg hname]
        exact hnone
      obtain ⟨hlength, kind', id', hfresh, hlinked⟩ := hadds.linked other slot hfree hsome
      exact ⟨Nat.lt_succ_of_lt hlength, kind', id', fun huses => hfresh (h.grows.uses huses),
        hlinked⟩
  · exact .bound (by rw [ProjectModel.find?, hbound, Option.map_some])

/-- Without them, only the whole is given back. -/
theorem Made.abandon {kind : EntityKind} {last : LookupState}
    (h : Made base before name kind id after)
    (hadds : AddsPlainly (after.UsesBesides id) base name.length after last) :
    AddsPlainly before.corpus.store.Uses base (name.length + 1) before (last.forgetting name) where
  ready := hadds.ready.forgetting name
  grows := by
    have hgrows := h.grows.trans (hadds.grows.weaken fun other hother => h.older hother)
    exact hgrows.forgetting h.free
  bindings := hadds.bindings.trans h.bindings
  linked other slot hnone hsome := by
    rw [forgetting, Table.slot?_forget] at hsome
    split at hsome
    · cases hsome
    · rename_i hname
      have hfree : after.model.table.slot? other = none := by
        rw [h.slot?, if_neg hname]
        exact hnone
      obtain ⟨hlength, kind', id', hfresh, hlinked⟩ := hadds.linked other slot hfree hsome
      exact ⟨Nat.lt_succ_of_lt hlength, kind', id', fun huses => hfresh (h.grows.uses huses),
        hlinked.forgetting (Nat.le_of_lt hlength)⟩

/-! ## A lookup -/

/-- Whatever becomes of a lookup, the compound types it leaves bound are linked whole. -/
theorem getEntity_adds (base : Nat) (name : String) :
    ∀ state, Ready base state → GetAdds base name state := by
  -- Parts are shorter than the whole.
  induction hlength : name.length using Nat.strongRecOn generalizing name with
  | ind length ih =>
    subst hlength
    intro state h
    unfold GetAdds
    cases hfind : state.model.find? name with
    | some ref =>
      rw [ProjectModel.getEntity_found hfind]
      exact ⟨.refl h, .bound hfind⟩
    | none =>
      cases hkind : Name.compoundKind? name with
      | none =>
        cases hlibrary : state.model.library.find? name with
        | some ref =>
          rw [ProjectModel.getEntity_library hfind hkind hlibrary]
          exact ⟨.refl h, .library hfind hkind hlibrary⟩
        | none =>
          rw [ProjectModel.getEntity_unknown hfind hkind hlibrary]
          have hunknown := unknown_adds h state.corpus.store.Uses name (name.length + 1)
          cases hrun : unknown name state with
          | ok ref after =>
            rw [hrun] at hunknown
            obtain ⟨hadds, hplaceholder⟩ := hunknown
            have hfree := hadds.grows.slot?_eq_none hkind (Option.map_eq_none_iff.1 hfind)
            refine ⟨hadds, .placeholder (Option.map_eq_none_iff.2 hfree) hkind ?_ hplaceholder⟩
            rw [hadds.grows.library]
            exact hlibrary
          | error err after =>
            rw [hrun] at hunknown
            exact hunknown
      | some kind =>
        have hfree : state.model.table.slot? name = none := Option.map_eq_none_iff.1 hfind
        rw [ProjectModel.getEntity_compound hfind hkind]
        rw [bind_apply]
        rcases synthesize_cases h.store.sound hfind kind with
          ⟨id, corpus, hrun, hinserted⟩ | ⟨cause, corpus, hrun, hstore⟩
        · rw [hrun]
          simp only [bind_apply (unbinding _ _), unbinding]
          have hmade := made_of_inserted h hfree hkind hinserted
          have hpart : ∀ part ∈ (Name.Shape.ofName name).constituents,
              part.2.length < name.length ∧ ∀ state, Ready base state →
                GetAdds base part.2 state := by
            intro part hmem
            have hshorter := Name.length_lt_of_mem_constituents hmem
            exact ⟨hshorter, ih _ hshorter part.2 rfl⟩
          have hparts := linkParts_attaches name.length hpart hmade.ready hmade.uses
          revert hparts
          cases (Name.Shape.ofName name).constituents.forM (linkPart id) _ with
          | ok u last =>
            rintro ⟨hadds, rows, hties, hrelated⟩
            exact hmade.complete hadds hties hrelated
          | error err last =>
            intro hadds
            exact hmade.abandon hadds
        · rw [hrun]
          exact .of_same_store h hstore

theorem adds_of_getEntity (h : Ready base state) {ref : EntityRef}
    (hrun : ProjectModel.getEntity name state = .ok ref after) :
    AddsPlainly state.corpus.store.Uses base (name.length + 1) state after ∧
      after.model.Denotes name ref := by
  have hget := getEntity_adds base name state h
  unfold GetAdds at hget
  rw [hrun] at hget
  exact hget

end LookupState

end Referent
