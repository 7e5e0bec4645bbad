import Referent.Proofs.Questions

/-!
# Lookups in a healthy corpus

Only the store can fail a lookup. While its plan fails nothing and ids are left for the rows to
come (`Access.Healthy`), every question is answered (`getEntity_succeeds`,
`getVirtualEntity_succeeds`). A name needs at most one row for itself and one for each name it
is made of, at any depth (`Name.weight`); names that are bound already need none.
-/

namespace Referent

/-- The number of names that a name is made of, itself counted. -/
def Name.weight (name : String) : Nat :=
  (Name.Shape.ofName name).constituents.attach.foldr (fun ⟨part, _⟩ rows => weight part.2 + rows) 1
termination_by name.length
decreasing_by exact Name.length_lt_of_mem_constituents ‹_›

/-- The number of names that some names are made of. -/
def Name.weights (names : List String) : Nat :=
  names.foldr (fun name rows => weight name + rows) 0

theorem Name.weights_cons (name : String) (names : List String) :
    weights (name :: names) = weight name + weights names := rfl

theorem Name.weight_eq (name : String) :
    weight name = 1 + weights ((Name.Shape.ofName name).constituents.map (·.2)) := by
  have hfold : ∀ parts : List (RelationKind × String),
      parts.foldr (fun part rows => weight part.2 + rows) 1 = 1 + weights (parts.map (·.2)) := by
    intro parts
    induction parts with
    | nil => rfl
    | cons part parts ih =>
      rw [List.foldr_cons, ih, List.map_cons, weights_cons]
      omega
  rw [weight, ← hfold]
  exact List.foldr_attach (f := fun part : RelationKind × String => (weight part.2 + ·))

theorem Name.weight_pos (name : String) : 1 ≤ weight name := by
  rw [weight_eq]
  omega

/-! ## Calls -/

/-- The next id is that of a new row, and the one after it is free again. -/
theorem Store.insert_of_room {store : Store} (hs : store.Sound) (entry : Entry)
    (hroom : store.nextId.toNat < Store.lastWord.toNat) :
    ∃ id store', store.insert entry = .ok (id, store') ∧ store'.Sound ∧
      store'.nextId.toNat = store.nextId.toNat + 1 := by
  rcases hs.insert_cases entry with ⟨hlast, -⟩ | ⟨-, store', hinsert⟩
  · rw [hlast] at hroom
    exact absurd hroom (Nat.lt_irrefl _)
  · exact ⟨_, store', hinsert⟩

/-- Nothing fails, and there are ids for some more rows. -/
structure Access.Healthy (access : Access) (rows : Nat) : Prop where
  sound : access.store.Sound
  plan : access.plan = .none
  room : access.store.nextId.toNat + rows ≤ Store.lastWord.toNat

namespace Access

variable {access : Access} {rows : Nat}

theorem Healthy.mono {fewer : Nat} (h : access.Healthy rows) (hfewer : fewer ≤ rows) :
    access.Healthy fewer :=
  { h with room := by have := h.room; omega }

/-- A call that nothing fails is up to the store. -/
theorem Healthy.call (h : access.Healthy rows) (which : Call)
    (serve : Store → Except StoreError (α × Store)) {answer : α} {store : Store}
    (hserve : serve access.store = .ok (answer, store)) :
    access.call which serve =
      (.ok answer, { access with store, calls := access.calls.bump which }) := by
  unfold Access.call
  rw [h.plan, hserve]
  rfl

theorem Healthy.insert (h : access.Healthy (rows + 1)) (entry : Entry) :
    ∃ id after, access.insert entry = (.ok id, after) ∧ after.Healthy rows := by
  have hroom := h.room
  obtain ⟨id, store, hinsert, hsound, hnext⟩ := Store.insert_of_room h.sound entry (by omega)
  refine ⟨id, _, h.call .insertEntity _ hinsert, hsound, h.plan, ?_⟩
  simp only [hnext]
  omega

theorem Healthy.relate (h : access.Healthy rows) (row : RelationRow) :
    ∃ after, access.relate row = (.ok (), after) ∧ after.Healthy rows :=
  ⟨_, h.call .insertRelation _ rfl, h.sound.relate row, h.plan, h.room⟩

end Access

/-! ## Steps -/

namespace Lookup

/-- A run that succeeds and leaves ids for some more rows. -/
def Succeeds (rows : Nat) : EStateM.Result ModelError LookupState α → Prop
  | .ok _ after => after.corpus.Healthy rows
  | .error _ _ => False

variable {rows : Nat} {state : LookupState} {name : String}

theorem Succeeds.exists_ok {result : EStateM.Result ModelError LookupState α}
    (h : Succeeds rows result) : ∃ a after, result = .ok a after ∧ after.corpus.Healthy rows := by
  cases result with
  | ok a after => exact ⟨a, after, rfl, h⟩
  | error err after => cases h

theorem Succeeds.succeeds_eq_true {result : EStateM.Result ModelError LookupState α}
    (h : Succeeds rows result) : succeeds result = true := by
  obtain ⟨a, after, rfl, -⟩ := h.exists_ok
  rfl

theorem Succeeds.bind {before : Nat} {first : Lookup α} {next : α → Lookup β}
    (hfirst : Succeeds before (first state))
    (hnext : ∀ a mid, mid.corpus.Healthy before → Succeeds rows (next a mid)) :
    Succeeds rows ((first >>= next) state) := by
  obtain ⟨a, mid, hrun, hmid⟩ := hfirst.exists_ok
  rw [bind_apply, hrun]
  exact hnext a mid hmid

theorem insert_succeeds (h : state.corpus.Healthy (rows + 1)) (entry : Entry) :
    Succeeds rows (ask (·.insert entry) state) := by
  obtain ⟨id, after, hinsert, hafter⟩ := h.insert entry
  unfold ask
  simp only [hinsert]
  exact hafter

theorem relateTo_succeeds (h : state.corpus.Healthy rows) (id : EntityId) (kind : RelationKind)
    (target : EntityRef) : Succeeds rows (relateTo id kind target state) := by
  simp only [relateTo, get_bind_apply]
  cases state.model.entity? target with
  | none => exact h
  | some entity =>
    obtain ⟨after, hrelate, hafter⟩ := h.relate
      { kind, left := id, right := entity.id, project := state.model.project,
        origin := entity.origin }
    simp only [ask, hrelate]
    exact hafter

theorem synthesize_succeeds (h : state.corpus.Healthy (rows + 1)) (kind : EntityKind) :
    Succeeds rows (synthesize name kind state) := by
  simp only [synthesize, get_bind_apply]
  apply Succeeds.bind (insert_succeeds h _)
  intro id mid hmid
  exact hmid

theorem unknown_succeeds (h : state.corpus.Healthy (rows + 1)) :
    Succeeds rows (unknown name state) := by
  simp only [unknown, get_bind_apply]
  cases state.model.placeholders[name]? with
  | some ref => exact h.mono (Nat.le_succ rows)
  | none =>
    have hfetch : Succeeds rows (fetchPlaceholder name state) := by
      unfold fetchPlaceholder PlaceholderCache.fetch
      cases hcached : state.cache.entries[name]? with
      | some id =>
        simp only [hcached]
        exact h.mono (Nat.le_succ rows)
      | none =>
        obtain ⟨id, after, hinsert, hafter⟩ := h.insert
          { project := state.cache.owner, name, kind := .unknown }
        simp only [hcached, hinsert]
        exact hafter
    apply hfetch.bind
    intro entity mid hmid
    exact hmid

/-- Each part takes the rows that it needs and leaves those that the later parts need. -/
theorem linkParts_succeeds (id : EntityId) (parts : List (RelationKind × String))
    (hget : ∀ part ∈ parts, ∀ rows state, state.corpus.Healthy (rows + Name.weight part.2) →
      Succeeds rows (ProjectModel.getEntity part.2 state))
    (h : state.corpus.Healthy (rows + Name.weights (parts.map (·.2)))) :
    Succeeds rows (parts.forM (linkPart id) state) := by
  induction parts generalizing state with
  | nil => exact h
  | cons part parts ih =>
    rw [List.map_cons, Name.weights_cons, Nat.add_left_comm, Nat.add_comm] at h
    have hfirst := hget part List.mem_cons_self _ state h
    refine Succeeds.bind (hfirst.bind fun ref mid hmid => relateTo_succeeds hmid id part.1 ref) ?_
    intro u mid hmid
    exact ih (fun other hother => hget other (List.mem_cons_of_mem _ hother)) hmid

end Lookup

/-! ## Questions -/

namespace ProjectModel

open Lookup

variable {rows : Nat} {state : LookupState} {name : String}

/-- A plain lookup succeeds if there are ids for the names it may have to make. -/
theorem getEntity_succeeds (h : state.corpus.Healthy (rows + Name.weight name)) :
    Succeeds rows (getEntity name state) := by
  -- Parts are shorter than the whole.
  induction hlength : name.length using Nat.strongRecOn generalizing name rows state with
  | ind length ih =>
    subst hlength
    have hpos := Name.weight_pos name
    cases hfind : state.model.find? name with
    | some ref =>
      rw [getEntity_found hfind]
      exact h.mono (Nat.le_add_right _ _)
    | none =>
      cases hkind : Name.compoundKind? name with
      | none =>
        cases hlibrary : state.model.library.find? name with
        | some ref =>
          rw [getEntity_library hfind hkind hlibrary]
          exact h.mono (Nat.le_add_right _ _)
        | none =>
          rw [getEntity_unknown hfind hkind hlibrary]
          exact unknown_succeeds (h.mono (by omega))
      | some kind =>
        rw [getEntity_compound hfind hkind]
        rw [Name.weight_eq, Nat.add_comm 1, ← Nat.add_assoc] at h
        apply Succeeds.bind (synthesize_succeeds h kind)
        rintro ⟨id, made⟩ mid hmid
        have hparts := linkParts_succeeds id (Name.Shape.ofName name).constituents
          (fun part hpart rows state hstate =>
            ih _ (Name.length_lt_of_mem_constituents hpart) hstate rfl) hmid
        obtain ⟨u, after, hrun, hafter⟩ := hparts.exists_ok
        simp only [bind_apply (unbinding _ _), unbinding, hrun]
        exact hafter

/-- A virtual lookup that makes no compound type succeeds if there is an id for a placeholder. -/
theorem getVirtualEntity_succeeds_unmade (h : state.corpus.Healthy (rows + 1))
    (hname : Name.isCompoundType name = false) : Succeeds rows (getVirtualEntity name state) := by
  cases hmemo : state.model.memoized? name with
  | some binding =>
    rw [getVirtualEntity_memoized hmemo]
    exact h.mono (Nat.le_succ rows)
  | none =>
    cases hany : state.model.findAny? name with
    | some ref =>
      rw [getVirtualEntity_found hmemo hany]
      exact h.mono (Nat.le_succ rows)
    | none =>
      cases hbinding : (state.model.dispatch name).binding with
      | some binding =>
        rw [getVirtualEntity_dispatched hmemo hany hname hbinding]
        exact h.mono (Nat.le_succ rows)
      | none =>
        have hunknown : Succeeds rows
            (unknown name (state.noting (state.model.dispatch name).anomaly)) :=
          unknown_succeeds h
        obtain ⟨ref, after, hrun, hafter⟩ := hunknown.exists_ok
        rw [getVirtualEntity_open hmemo hany hname hbinding, hrun]
        exact hafter

/-- A virtual lookup succeeds if there are ids for the names it may have to make. -/
theorem getVirtualEntity_succeeds (h : state.corpus.Healthy (rows + Name.weight name)) :
    Succeeds rows (getVirtualEntity name state) := by
  have hpos := Name.weight_pos name
  cases hname : Name.isCompoundType name with
  | false => exact getVirtualEntity_succeeds_unmade (h.mono (by omega)) hname
  | true =>
    cases hmemo : state.model.memoized? name with
    | some binding =>
      rw [getVirtualEntity_memoized hmemo]
      exact h.mono (Nat.le_add_right _ _)
    | none =>
      cases hany : state.model.findAny? name with
      | some ref =>
        rw [getVirtualEntity_found hmemo hany]
        exact h.mono (Nat.le_add_right _ _)
      | none =>
        obtain ⟨ref, after, hrun, hafter⟩ := (getEntity_succeeds h).exists_ok
        rw [getVirtualEntity_compound hmemo hany hname, hrun]
        exact hafter

end ProjectModel

/-! ## Runs -/

namespace LookupState

variable {rows : Nat} {state : LookupState}

theorem leaving_healthy (question : Question)
    (h : state.corpus.Healthy (rows + Name.weight question.name)) :
    (state.leaving question.ask).corpus.Healthy rows := by
  cases question with
  | plain name =>
    change state.corpus.Healthy (rows + Name.weight name) at h
    obtain ⟨ref, after, hrun, hafter⟩ := (ProjectModel.getEntity_succeeds h).exists_ok
    rw [leaving_plain, leaving, hrun]
    exact hafter
  | virtual name =>
    change state.corpus.Healthy (rows + Name.weight name) at h
    obtain ⟨binding, after, hrun, hafter⟩ := (ProjectModel.getVirtualEntity_succeeds h).exists_ok
    rw [leaving_virtual, leaving, hrun]
    exact hafter

/-- A run takes no more ids than the names it asks for are made of. -/
theorem afterAsking_healthy (questions : List Question)
    (h : state.corpus.Healthy (rows + Name.weights (questions.map (·.name)))) :
    (state.afterAsking questions).corpus.Healthy rows := by
  induction questions generalizing state with
  | nil => exact h
  | cons question questions ih =>
    rw [List.map_cons, Name.weights_cons, Nat.add_left_comm, Nat.add_comm] at h
    exact ih (leaving_healthy question h)

end LookupState

end Referent
