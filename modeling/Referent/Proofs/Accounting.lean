import Referent.Proofs.Lasting
import Referent.Proofs.Upkeep

/-!
# The rows that a plain lookup inserts

A lookup goes from a compound type to its parts as long as they are not bound (`Meets`). Of the
names that it meets, those that nothing stands for yet get one row each, and no other name gets
a row (`Reached.inserts_due_rows`). A part may be met many times and at any depth: the first time
settles it, since from then on something stands for it.

* **What is due** (`due?`): the row that a lookup of a name alone would have to insert.
* **Runs** (`Settles`, `Stops`): a run that ends well leaves no row of its own due and all others
  as they were; a run that stops has used up the ids while a row was due.
* **All of them** (`Adds.denotes_of_meets`): every name that is met denotes something afterwards,
  and what denotes something is not due (`due?_of_denotes`).
-/

namespace Referent

open Lookup LookupState

/-! ## States that can come about -/

namespace LookupState

/-- The states that a model gets into. Entities may be entered by hand between questions. -/
inductive Reached : LookupState → Prop
  | built {model : ProjectModel} {corpus : Access} (cache : PlaceholderCache) :
      model.Built → corpus.store.Reached → Reached { corpus, cache, model }
  | led {start state : LookupState} : Reached start → start.Leads state → Reached state
  | added {state : LookupState} (name : String) (id : EntityId) (kind : EntityKind) :
      Reached state → Reached { state with model := (state.model.add name id kind).2 }

/-- Every placeholder of the model is one of the run. -/
def Shared (state : LookupState) : Prop :=
  ∀ (name : String) (ref : EntityRef), state.model.placeholders[name]? = some ref →
    ∃ id, state.cache.entries[name]? = some id

variable {base : Nat} {state : LookupState} {name : String}

theorem slot?_add (model : ProjectModel) (name : String) (id : EntityId) (kind : EntityKind)
    (other : String) : (model.add name id kind).2.table.slot? other =
      (model.table.slot? other).or (if name = other then some model.table.size else none) := by
  refine (Draft.slot?_claims _ model.table.size [name] other).trans ?_
  simp only [Table.slot?_allocate, List.mem_singleton, eq_comm]

theorem arena_add (model : ProjectModel) (name : String) (id : EntityId) (kind : EntityKind) :
    (model.add name id kind).2.table.arena =
      model.table.arena.push { name, kind, id, origin := .internal } :=
  Draft.arena_claims _ model.table.size [name]

/-- Entities that are entered by hand take slots behind all others. -/
theorem Ready.added (h : Ready base state) (name : String) (id : EntityId) (kind : EntityKind) :
    Ready base { state with model := (state.model.add name id kind).2 } := by
  refine { h with slot_lt := ?_, placeholder := ?_ }
  · intro other slot hother
    simp only [Table.size, arena_add, Array.size_push]
    simp only [slot?_add] at hother
    rcases Option.or_eq_some_iff.1 hother with hold | ⟨-, hnew⟩
    · exact Nat.lt_succ_of_lt (h.slot_lt other slot hold)
    · split at hnew
      · cases hnew
        exact Nat.lt_succ_self _
      · cases hnew
  · intro other ref href
    obtain ⟨slot, placed, rfl, hentity⟩ := h.placeholder other ref href
    refine ⟨slot, placed, rfl, ?_⟩
    simp only [arena_add]
    exact allocate_entity hentity

/-- A placeholder may be placed once its row is in the cache. -/
theorem Shared.placing (h : state.Shared)
    (hrow : ∃ row, state.cache.entries[name]? = some row) (id : EntityId) :
    (state.placing name id).Shared := by
  intro other ref href
  change (state.model.placeholders.insert name _)[other]? = some ref at href
  rw [Std.TreeMap.getElem?_insert] at href
  split at href
  · rename_i heq
    rw [← Std.LawfulEqOrd.eq_of_compare heq]
    exact hrow
  · exact h other ref href

theorem Shared.caching (h : state.Shared) (name : String) (id : EntityId) (corpus : Access) :
    Shared { state with corpus, cache.entries := state.cache.entries.insert name id } := by
  intro other ref href
  obtain ⟨row, hrow⟩ := h other ref href
  simp only [Std.TreeMap.getElem?_insert]
  split
  · exact ⟨id, rfl⟩
  · exact ⟨row, hrow⟩

end LookupState

namespace Lookup

/-- Placeholders come from those of the run, whatever else a lookup does. -/
theorem shared_upkeep : Upkeep (fun state => state.corpus.store.Reached ∧ state.Shared)
    fun _ => True where
  made {state name kind} hstate hfree _ := by
    obtain ⟨hstore, hshared⟩ := hstate
    rcases synthesize_cases hstore.sound hfree kind with
      ⟨id, corpus, hrun, hinserted⟩ | ⟨cause, corpus, hrun, hsame⟩
    · rw [hrun]
      exact ⟨⟨hinserted.reached hstore, hshared⟩, trivial⟩
    · rw [hrun]
      exact ⟨by simpa [hsame] using hstore, hshared⟩
  related {_ state id name part target} _ _ hstate _ _ := by
    obtain ⟨hstore, hshared⟩ := hstate
    rcases leaving_relateTo_cases id part.1 target state with
      ⟨corpus, hafter, hsame⟩ | ⟨entity, corpus, -, hafter, hrelated⟩
    · rw [hafter]
      exact ⟨by simpa [hsame] using hstore, hshared⟩
    · rw [hafter]
      refine ⟨?_, hshared⟩
      simp only [hrelated]
      exact hstore.relate _
  placeholder {state} name hstate := by
    obtain ⟨hstore, hshared⟩ := hstate
    cases hnew : state.model.placeholders[name]? with
    | some ref =>
      rw [leaving_of_ok (unknown_cached hnew)]
      exact ⟨hstore, hshared⟩
    | none =>
      cases hcached : state.cache.entries[name]? with
      | some id =>
        rw [leaving_of_ok (unknown_kept hnew hcached)]
        exact ⟨hstore, hshared.placing ⟨id, hcached⟩ id⟩
      | none =>
        have hrun := unknown_inserting hnew hcached
        have hcases := state.corpus.insert_cases
          { project := state.cache.owner, name, kind := .unknown }
        revert hrun hcases
        rcases state.corpus.insert _ with ⟨answer, corpus⟩
        rintro hrun (⟨id, rfl, hinsert⟩ | ⟨cause, rfl, hsame⟩)
        · rw [leaving_of_ok hrun]
          refine ⟨(Store.inserted_of_insert hstore.sound hinsert).reached hstore, ?_⟩
          exact (hshared.caching name id corpus).placing ⟨id, by simp⟩ id
        · rw [leaving_of_error hrun]
          have hstays : corpus.store = state.corpus.store := hsame
          exact ⟨by simpa [hstays] using hstore, hshared⟩
  forgetting _ hstate := hstate
  noting _ hstate := hstate
  remembering _ _ hstate := hstate

end Lookup

namespace LookupState

variable {base : Nat} {start state : LookupState} {name : String}

theorem Leads.shared (h : start.Leads state) (hstart : Ready base start)
    (hshared : start.Shared) : state.Shared := by
  induction h with
  | here => exact hshared
  | asked question h ih =>
    obtain ⟨_, hready, -⟩ := h.grows hstart
    exact (shared_upkeep.question question ⟨hready.store, ih⟩).2
  | meanwhile _ helse ih =>
    intro name ref href
    obtain ⟨id, hid⟩ := ih name ref href
    exact ⟨id, helse.entries name id hid⟩

theorem Reached.sound (h : state.Reached) : (∃ base, Ready base state) ∧ state.Shared := by
  induction h with
  | built cache hbuilt hstore =>
    have hfresh := hbuilt.fresh
    refine ⟨⟨_, hfresh.ready hstore cache⟩, ?_⟩
    intro name ref href
    simp [hfresh.placeholders] at href
  | led _ hleads ih =>
    obtain ⟨⟨base, hready⟩, hshared⟩ := ih
    obtain ⟨base', hready', -⟩ := hleads.grows hready
    exact ⟨⟨base', hready'⟩, hleads.shared hready hshared⟩
  | added name id kind _ ih =>
    obtain ⟨⟨base, hready⟩, hshared⟩ := ih
    exact ⟨⟨base, hready.added name id kind⟩, hshared⟩

end LookupState

/-! ## What is due -/

/-- The names that a lookup of a name meets: the name itself, and the parts of every compound
type it meets that is not bound yet. -/
inductive ProjectModel.Meets (model : ProjectModel) (name : String) : String → Prop
  | itself : Meets model name name
  | part {whole : String} {part : RelationKind × String} : Meets model name whole →
      model.find? whole = none → Name.compoundKind? whole ≠ none →
      part ∈ (Name.Shape.ofName whole).constituents → Meets model name part.2

theorem ProjectModel.Meets.trans {model : ProjectModel} {name mid other : String}
    (h : model.Meets name mid) (h' : model.Meets mid other) : model.Meets name other := by
  induction h' with
  | itself => exact h
  | part _ hfree hkind hpart ih => exact .part ih hfree hkind hpart

namespace LookupState

/-- The row that a name still needs: that of a compound type unless the project has bound the
name, and that of a placeholder unless the name is bound or has one. -/
def due? (state : LookupState) (name : String) : Option Entry :=
  match state.model.find? name with
  | some _ => none
  | none =>
    match Name.compoundKind? name with
    | some kind => some (compoundEntry state.model.project name kind)
    | none =>
      match state.model.library.find? name, state.cache.entries[name]? with
      | none, none => some { project := state.cache.owner, name, kind := .unknown }
      | _, _ => none

variable {before mid after state : LookupState} {name : String} {entry : Entry}

theorem due?_found {ref : EntityRef} (h : state.model.find? name = some ref) :
    state.due? name = none := by
  simp only [due?, h]

theorem due?_compound {kind : EntityKind} (hfree : state.model.find? name = none)
    (hkind : Name.compoundKind? name = some kind) :
    state.due? name = some (compoundEntry state.model.project name kind) := by
  simp only [due?, hfree, hkind]

theorem due?_library {ref : EntityRef} (hkind : Name.compoundKind? name = none)
    (h : state.model.library.find? name = some ref) : state.due? name = none := by
  cases hfind : state.model.find? name <;> simp only [due?, hfind, hkind, h]

theorem due?_cached {id : EntityId} (hkind : Name.compoundKind? name = none)
    (h : state.cache.entries[name]? = some id) : state.due? name = none := by
  cases hfind : state.model.find? name <;> simp [due?, hfind, hkind, h]

theorem due?_missing (hfree : state.model.find? name = none)
    (hkind : Name.compoundKind? name = none) (hlibrary : state.model.library.find? name = none)
    (hmissing : state.cache.entries[name]? = none) :
    state.due? name = some { project := state.cache.owner, name, kind := .unknown } := by
  simp only [due?, hfree, hkind, hlibrary, hmissing]

theorem name_of_due? (h : state.due? name = some entry) : entry.name = name := by
  unfold due? at h
  split at h
  · cases h
  · split at h
    · cases h
      rfl
    · split at h
      · cases h
        rfl
      · cases h

/-- Only what stands for the name itself matters. -/
theorem due?_congr (hproject : after.model.project = before.model.project)
    (howner : after.cache.owner = before.cache.owner)
    (hlibrary : after.model.library = before.model.library)
    (hfind : after.model.find? name = before.model.find? name)
    (hentry : after.cache.entries[name]? = before.cache.entries[name]?) :
    after.due? name = before.due? name := by
  simp only [due?, hproject, howner, hlibrary, hfind, hentry]

/-- A name that denotes something needs no row. -/
theorem due?_of_denotes (hshared : state.Shared) {ref : EntityRef}
    (h : state.model.Denotes name ref) : state.due? name = none := by
  cases h with
  | bound hfind => exact due?_found hfind
  | library _ hkind hfind => exact due?_library hkind hfind
  | placeholder _ hkind _ hplaceholder =>
    obtain ⟨id, hid⟩ := hshared name ref hplaceholder
    exact due?_cached hkind hid

/-! ## Runs -/

/-- The rows that a run has inserted: one each for some of the names that were met, and for each
the one that was due. -/
structure Inserts (met : String → Prop) (before : LookupState) (rows : List EntityRow)
    (after : LookupState) : Prop where
  entities : after.corpus.store.entities.toList = before.corpus.store.entities.toList ++ rows
  relations : before.corpus.store.relations.toList <+: after.corpus.store.relations.toList
  next : after.corpus.store.nextId.toNat = before.corpus.store.nextId.toNat + rows.length
  nodup : (rows.map (·.name)).Nodup
  due : ∀ row ∈ rows, met row.name ∧ before.due? row.name = some row.toEntry

/-- Nothing fails but for want of ids. -/
structure Faultless (state : LookupState) : Prop where
  store : state.corpus.store.Reached
  plan : state.corpus.plan = .none

/-- A run that ends well: nothing it has inserted is due any more, and everything else is due as
before. -/
structure Settles (met : String → Prop) (before : LookupState) (rows : List EntityRow)
    (after : LookupState) : Prop extends Inserts met before rows after where
  faultless : after.Faultless
  settled : ∀ row ∈ rows, after.due? row.name = none
  others : ∀ other, other ∉ rows.map (·.name) → after.due? other = before.due? other

/-- A run that stops: it has no id left for a row that was due. -/
structure Stops (met : String → Prop) (before : LookupState) (rows : List EntityRow)
    (after : LookupState) : Prop extends Inserts met before rows after where
  full : after.corpus.store.nextId = Store.lastWord
  wanting : ∃ name, met name ∧ (before.due? name).isSome ∧ name ∉ rows.map (·.name)

variable {met met' : String → Prop} {rows more : List EntityRow}

theorem Settles.refl (met : String → Prop) (h : state.Faultless) :
    Settles met state [] state where
  entities := by simp
  relations := List.prefix_refl _
  next := by simp
  nodup := List.nodup_nil
  due := by simp
  faultless := h
  settled := by simp
  others _ _ := rfl

/-- What was due in between was due before, and is none of the rows inserted by then. -/
theorem Settles.due_before (h : Settles met before rows mid)
    (hdue : (mid.due? name).isSome) :
    name ∉ rows.map (·.name) ∧ before.due? name = mid.due? name := by
  have hnew : name ∉ rows.map (·.name) := by
    intro hmem
    obtain ⟨row, hrow, rfl⟩ := List.mem_map.1 hmem
    rw [h.settled row hrow] at hdue
    cases hdue
  exact ⟨hnew, (h.others name hnew).symm⟩

theorem Settles.inserts (h : Settles met before rows mid) (h' : Inserts met mid more after) :
    Inserts met before (rows ++ more) after where
  entities := by rw [h'.entities, h.entities, List.append_assoc]
  relations := h.relations.trans h'.relations
  next := by rw [h'.next, h.next, List.length_append, Nat.add_assoc]
  nodup := by
    rw [List.map_append, List.nodup_append']
    refine ⟨h.nodup, h'.nodup, ?_⟩
    intro name hname hmore
    obtain ⟨row, hrow, rfl⟩ := List.mem_map.1 hmore
    have hdue : (mid.due? row.name).isSome := by rw [(h'.due row hrow).2]; rfl
    exact (h.due_before hdue).1 hname
  due row hrow := by
    rcases List.mem_append.1 hrow with hrow | hrow
    · exact h.due row hrow
    · obtain ⟨hmet, hdue⟩ := h'.due row hrow
      refine ⟨hmet, ?_⟩
      rw [(h.due_before (by rw [hdue]; rfl)).2, hdue]

theorem Settles.trans (h : Settles met before rows mid) (h' : Settles met mid more after) :
    Settles met before (rows ++ more) after where
  toInserts := h.inserts h'.toInserts
  faultless := h'.faultless
  settled row hrow := by
    rcases List.mem_append.1 hrow with hrow | hrow
    · by_cases hmore : row.name ∈ more.map (·.name)
      · obtain ⟨other, hother, hname⟩ := List.mem_map.1 hmore
        rw [← hname]
        exact h'.settled other hother
      · rw [h'.others _ hmore]
        exact h.settled row hrow
    · exact h'.settled row hrow
  others other hother := by
    rw [List.map_append, List.mem_append, not_or] at hother
    rw [h'.others other hother.2, h.others other hother.1]

theorem Settles.stops (h : Settles met before rows mid) (h' : Stops met mid more after) :
    Stops met before (rows ++ more) after where
  toInserts := h.inserts h'.toInserts
  full := h'.full
  wanting := by
    obtain ⟨name, hmet, hdue, hnew⟩ := h'.wanting
    obtain ⟨hold, hsame⟩ := h.due_before hdue
    refine ⟨name, hmet, by rwa [hsame], ?_⟩
    rw [List.map_append, List.mem_append, not_or]
    exact ⟨hold, hnew⟩

/-- A run whose rows are accounted for. -/
def Accounts (met : String → Prop) (before : LookupState) :
    EStateM.Result ModelError LookupState α → Prop
  | .ok _ after => ∃ rows, Settles met before rows after
  | .error _ after => ∃ rows, Stops met before rows after

theorem Inserts.mono (h : Inserts met before rows after)
    (hmet : ∀ name, met name → met' name) : Inserts met' before rows after :=
  { h with
    due := by
      intro row hrow
      obtain ⟨hmem, hdue⟩ := h.due row hrow
      exact ⟨hmet _ hmem, hdue⟩ }

theorem Accounts.mono {result : EStateM.Result ModelError LookupState α}
    (h : Accounts met before result) (hmet : ∀ name, met name → met' name) :
    Accounts met' before result := by
  cases result with
  | ok a after =>
    obtain ⟨rows, hrows⟩ := h
    exact ⟨rows, { hrows with toInserts := hrows.toInserts.mono hmet }⟩
  | error err after =>
    obtain ⟨rows, hrows⟩ := h
    obtain ⟨name, hname, hdue⟩ := hrows.wanting
    exact ⟨rows, { toInserts := hrows.toInserts.mono hmet, full := hrows.full
                   wanting := ⟨name, hmet name hname, hdue⟩ }⟩

theorem Accounts.bind {first : Lookup α} {next : α → Lookup β}
    (hfirst : Accounts met state (first state))
    (hnext : ∀ a rows mid, Settles met state rows mid → Accounts met mid (next a mid)) :
    Accounts met state ((first >>= next) state) := by
  rw [bind_apply]
  cases hrun : first state with
  | error err mid =>
    rw [hrun] at hfirst
    exact hfirst
  | ok a mid =>
    rw [hrun] at hfirst
    obtain ⟨rows, hrows⟩ := hfirst
    have hrest := hnext a rows mid hrows
    simp only
    cases hrun' : next a mid with
    | ok b after =>
      rw [hrun'] at hrest
      obtain ⟨more, hmore⟩ := hrest
      exact ⟨_, hrows.trans hmore⟩
    | error err after =>
      rw [hrun'] at hrest
      obtain ⟨more, hmore⟩ := hrest
      exact ⟨_, hrows.stops hmore⟩

/-! ## Steps -/

/-- The row that was due for a name. -/
theorem Settles.single {id : EntityId} (h : before.Faultless) (hmet : met name)
    (hdue : before.due? name = some entry)
    (hinserted : before.corpus.store.Inserted entry id after.corpus.store)
    (hplan : after.corpus.plan = .none)
    (hnext : after.corpus.store.nextId.toNat = before.corpus.store.nextId.toNat + 1)
    (hsettled : after.due? name = none)
    (hothers : ∀ other, other ≠ name → after.due? other = before.due? other) :
    Settles met before [{ entry with id }] after where
  entities := by rw [hinserted.entities, Array.toList_push]
  relations := by simp [hinserted.relations]
  next := hnext
  nodup := List.nodup_singleton _
  due row hrow := by
    rw [List.mem_singleton.1 hrow]
    show met entry.name ∧ before.due? entry.name = some entry
    rw [name_of_due? hdue]
    exact ⟨hmet, hdue⟩
  faultless := ⟨hinserted.reached h.store, hplan⟩
  settled row hrow := by
    rw [List.mem_singleton.1 hrow]
    show after.due? entry.name = none
    rwa [name_of_due? hdue]
  others other hother := by
    apply hothers
    rintro rfl
    apply hother
    show other ∈ [entry.name]
    rw [name_of_due? hdue]
    exact List.mem_singleton_self other

/-- No id for the row that was due for a name. -/
theorem Stops.single (hmet : met name) (hdue : before.due? name = some entry)
    (hfull : before.corpus.store.nextId = Store.lastWord)
    (hstore : after.corpus.store = before.corpus.store) : Stops met before [] after where
  entities := by simp [hstore]
  relations := by simp [hstore]
  next := by simp [hstore]
  nodup := List.nodup_nil
  due := by simp
  full := by rw [hstore, hfull]
  wanting := ⟨name, hmet, by rw [hdue]; rfl, by simp⟩

/-- A step that inserts no row and settles nothing. -/
theorem Settles.idle (met : String → Prop) (hfaultless : after.Faultless)
    (hentities : after.corpus.store.entities = before.corpus.store.entities)
    (hrelations : before.corpus.store.relations.toList <+: after.corpus.store.relations.toList)
    (hnext : after.corpus.store.nextId = before.corpus.store.nextId)
    (hdue : ∀ other, after.due? other = before.due? other) : Settles met before [] after where
  entities := by simp [hentities]
  relations := hrelations
  next := by simp [hnext]
  nodup := List.nodup_nil
  due := by simp
  faultless := hfaultless
  settled := by simp
  others other _ := hdue other

theorem find?_placing (state : LookupState) (name : String) (id : EntityId) (other : String) :
    (state.placing name id).model.find? other = state.model.find? other := by
  rw [ProjectModel.find?, placing, Table.slot?_allocate, ProjectModel.find?]

theorem due?_placing (state : LookupState) (name : String) (id : EntityId) (other : String) :
    (state.placing name id).due? other = state.due? other :=
  due?_congr rfl rfl rfl (find?_placing state name id other) rfl

theorem unknown_accounts (h : state.Faultless) (hfree : state.model.find? name = none)
    (hkind : Name.compoundKind? name = none) (hlibrary : state.model.library.find? name = none)
    (hmet : met name) : Accounts met state (unknown name state) := by
  cases hnew : state.model.placeholders[name]? with
  | some ref =>
    rw [unknown_cached hnew]
    exact ⟨[], .refl met h⟩
  | none =>
    cases hcached : state.cache.entries[name]? with
    | some id =>
      rw [unknown_kept hnew hcached]
      exact ⟨[], .idle met ⟨h.store, h.plan⟩ rfl (List.prefix_refl _) rfl
        (due?_placing state name id)⟩
    | none =>
      have hdue := due?_missing hfree hkind hlibrary hcached
      rw [unknown_inserting hnew hcached]
      rcases state.corpus.insert_unless_full h.store h.plan
          { project := state.cache.owner, name, kind := .unknown } with
        ⟨-, corpus, hrun, hinserted, hplan, hnext⟩ | ⟨hfull, corpus, hrun, hstore, -⟩
      · rw [hrun]
        refine ⟨_, .single h hmet hdue hinserted hplan hnext ?_ ?_⟩
        · have hentry (id : EntityId) : (state.cache.entries.insert name id)[name]? = some id := by
            simp
          exact due?_cached hkind (hentry _)
        · intro other hother
          rw [due?_placing]
          refine due?_congr rfl rfl rfl rfl ?_
          simp [Std.TreeMap.getElem?_insert, Ne.symm hother]
      · rw [hrun]
        exact ⟨[], .single hmet hdue hfull hstore⟩

theorem synthesize_accounts (h : state.Faultless) (hfree : state.model.find? name = none)
    {kind : EntityKind} (hkind : Name.compoundKind? name = some kind) (hmet : met name) :
    Accounts met state (synthesize name kind state) := by
  have hdue := due?_compound hfree hkind
  rw [synthesize_inserting hfree]
  rcases state.corpus.insert_unless_full h.store h.plan
      (compoundEntry state.model.project name kind) with
    ⟨-, corpus, hrun, hinserted, hplan, hnext⟩ | ⟨hfull, corpus, hrun, hstore, -⟩
  · have hslot := (state.model.table.allocate
      (compoundEntity name kind ⟨state.corpus.store.nextId⟩)).slot?_bind name
    rw [hrun]
    refine ⟨_, .single h hmet hdue hinserted hplan hnext ?_ ?_⟩
    · apply due?_found
      rw [ProjectModel.find?, hslot, if_pos rfl, Option.map_some]
    · intro other hother
      refine due?_congr rfl rfl rfl ?_ rfl
      rw [ProjectModel.find?, hslot, if_neg (Ne.symm hother), Table.slot?_allocate,
        ProjectModel.find?]
  · rw [hrun]
    exact ⟨[], .single hmet hdue hfull hstore⟩

theorem relateTo_accounts (h : state.Faultless) (id : EntityId) (kind : RelationKind)
    (target : EntityRef) : Accounts met state (relateTo id kind target state) := by
  simp only [relateTo, get_bind_apply]
  cases state.model.entity? target with
  | none => exact ⟨[], .refl met h⟩
  | some entity =>
    have hcall : ∀ made, state.corpus.plan .insertRelation made = false := by
      intro made
      rw [h.plan]
      rfl
    simp only [ask, Access.relate, Access.call, hcall, Bool.false_eq_true, if_false]
    refine ⟨[], .idle met ⟨h.store.relate _, h.plan⟩ rfl ?_ rfl fun other => rfl⟩
    simp only [Store.relate, Array.toList_push]
    exact List.prefix_append _ _

/-! ## Names that are met -/

/-- Later on there is less to meet. -/
theorem Settles.meets (h : Settles met before rows mid) {other : String}
    (hmeets : mid.model.Meets name other) : before.model.Meets name other := by
  induction hmeets with
  | itself => exact .itself
  | part _ hfree hkind hpart ih =>
    obtain ⟨kind, hshape⟩ := Option.ne_none_iff_exists'.1 hkind
    have hdue := due?_compound hfree hshape
    refine .part ih ?_ hkind hpart
    by_contra hbound
    obtain ⟨ref, hfound⟩ := Option.ne_none_iff_exists'.1 hbound
    have hsame := (h.due_before (by rw [hdue]; rfl)).2
    rw [hdue, due?_found hfound] at hsame
    cases hsame

/-- The rows that linking inserts are those of the names that the parts meet. -/
theorem linkParts_accounts (id : EntityId) {parts : List (RelationKind × String)}
    (hget : ∀ part ∈ parts, ∀ state, state.Faultless →
      Accounts (state.model.Meets part.2) state (ProjectModel.getEntity part.2 state))
    (h : state.Faultless) (hmet : ∀ part ∈ parts, ∀ other,
      state.model.Meets part.2 other → met other) :
    Accounts met state (parts.forM (linkPart id) state) := by
  induction parts generalizing state with
  | nil => exact ⟨[], .refl met h⟩
  | cons part parts ih =>
    show Accounts met state ((linkPart id part >>= fun _ => parts.forM (linkPart id)) state)
    refine Accounts.bind (Accounts.bind ?_ ?_) ?_
    · exact (hget part List.mem_cons_self state h).mono (hmet part List.mem_cons_self)
    · intro ref rows mid hmid
      exact relateTo_accounts hmid.faultless id part.1 ref
    · intro u rows mid hmid
      refine ih (fun other hother => hget other (List.mem_cons_of_mem _ hother)) hmid.faultless ?_
      intro other hother name hname
      exact hmet other (List.mem_cons_of_mem _ hother) name (hmid.meets hname)

/-- Every row that a plain lookup inserts is accounted for. -/
theorem getEntity_accounts (h : state.Faultless) (name : String) :
    Accounts (state.model.Meets name) state (ProjectModel.getEntity name state) := by
  -- Parts are shorter than the whole.
  induction hlength : name.length using Nat.strongRecOn generalizing name state with
  | ind length ih =>
    subst hlength
    cases hfind : state.model.find? name with
    | some ref =>
      rw [ProjectModel.getEntity_found hfind]
      exact ⟨[], .refl _ h⟩
    | none =>
      cases hkind : Name.compoundKind? name with
      | none =>
        cases hlibrary : state.model.library.find? name with
        | some ref =>
          rw [ProjectModel.getEntity_library hfind hkind hlibrary]
          exact ⟨[], .refl _ h⟩
        | none =>
          rw [ProjectModel.getEntity_unknown hfind hkind hlibrary]
          exact unknown_accounts h hfind hkind hlibrary .itself
      | some kind =>
        have hshape : Name.compoundKind? name ≠ none := by simp [hkind]
        rw [ProjectModel.getEntity_compound hfind hkind]
        apply (synthesize_accounts h hfind hkind .itself).bind
        rintro ⟨id, made⟩ rows mid hmid
        have hparts : Accounts (state.model.Meets name) mid
            ((Name.Shape.ofName name).constituents.forM (linkPart id) mid) := by
          refine linkParts_accounts id (fun part hpart state hstate => ?_) hmid.faultless ?_
          · exact ih _ (Name.length_lt_of_mem_constituents hpart) hstate part.2 rfl
          · intro part hpart other hother
            exact .trans (.part .itself hfind hshape hpart) (hmid.meets hother)
        simp only [bind_apply (unbinding _ _), unbinding]
        revert hparts
        cases (Name.Shape.ofName name).constituents.forM (linkPart id) mid with
        | ok u last => exact fun h => h
        -- Giving the name back does not touch the rows.
        | error err last =>
          rintro ⟨rows, hrows⟩
          exact ⟨rows, { toInserts := { hrows.toInserts with }, full := hrows.full
                         wanting := hrows.wanting }⟩

/-- Once a name denotes something, so does every name that its lookup has met. -/
theorem Adds.denotes_of_meets {kept : EntityId → Prop} {base limit : Nat}
    (h : Adds kept base limit before after) {ref : EntityRef}
    (hname : after.model.Denotes name ref) {other : String}
    (hmeets : before.model.Meets name other) : ∃ ref, after.model.Denotes other ref := by
  induction hmeets with
  | itself => exact ⟨ref, hname⟩
  | @part whole part _ hfree hkind hpart ih =>
    obtain ⟨target, hdenotes⟩ := ih
    cases hdenotes with
    | library _ hnone _ => exact absurd hnone hkind
    | placeholder _ hnone _ _ => exact absurd hnone hkind
    | bound hfind =>
      obtain ⟨slot, hslot, -⟩ := Option.map_eq_some_iff.1 hfind
      obtain ⟨-, kind, id, -, hlinked⟩ :=
        h.linked whole slot (Option.map_eq_none_iff.1 hfree) hslot
      have hparts : List.Forall₂ (fun part row => (∃ ref, after.model.Denotes part.2 ref) ∧
          Ties after id part row) (Name.Shape.ofName whole).constituents
          (after.corpus.store.relatedSince base id) := by
        refine hlinked.parts.imp fun part row hties => ⟨?_, hties⟩
        obtain ⟨ref, -, hdenotes, -⟩ := hties
        exact ⟨ref, hdenotes⟩
      exact ((List.forall₂_and_left _ _).1 hparts).1 part hpart

/-- A plain lookup that nothing fails inserts one row for each name that it meets and that
nothing stands for: that of a compound type, filed under the project, or that of a placeholder,
filed under the owner of the placeholders. It inserts no other row and changes none. It fails
only if more rows are due than there are ids left. -/
theorem Reached.inserts_due_rows (h : state.Reached) (hplan : state.corpus.plan = .none)
    (name : String) :
    match ProjectModel.getEntity name state with
    | .ok _ after => ∃ rows : List EntityRow,
        after.corpus.store.entities.toList = state.corpus.store.entities.toList ++ rows ∧
        state.corpus.store.relations.toList <+: after.corpus.store.relations.toList ∧
        (rows.map (·.name)).Nodup ∧
        ∀ entry, entry ∈ rows.map (·.toEntry) ↔
          ∃ other, state.model.Meets name other ∧ state.due? other = some entry
    | .error _ _ => ∃ names : List String, names.Nodup ∧
        (∀ other ∈ names, state.model.Meets name other ∧ (state.due? other).isSome) ∧
        Store.lastWord.toNat < state.corpus.store.nextId.toNat + names.length := by
  obtain ⟨⟨base, hready⟩, hshared⟩ := h.sound
  have haccounts := getEntity_accounts ⟨hready.store, hplan⟩ name
  cases hrun : ProjectModel.getEntity name state with
  | error err after =>
    rw [hrun] at haccounts
    obtain ⟨rows, hrows⟩ := haccounts
    obtain ⟨wanted, hmet, hdue, hnew⟩ := hrows.wanting
    refine ⟨wanted :: rows.map (·.name), List.nodup_cons.2 ⟨hnew, hrows.nodup⟩, ?_, ?_⟩
    · intro other hother
      rcases List.mem_cons.1 hother with rfl | hother
      · exact ⟨hmet, hdue⟩
      · obtain ⟨row, hrow, rfl⟩ := List.mem_map.1 hother
        obtain ⟨hmet, hdue⟩ := hrows.due row hrow
        exact ⟨hmet, by rw [hdue]; rfl⟩
    · have hnext := hrows.next
      rw [hrows.full] at hnext
      simp only [List.length_cons, List.length_map]
      omega
  | ok ref after =>
    rw [hrun] at haccounts
    obtain ⟨rows, hrows⟩ := haccounts
    refine ⟨rows, hrows.entities, hrows.relations, hrows.nodup, fun entry => ⟨?_, ?_⟩⟩
    · intro hentry
      obtain ⟨row, hrow, rfl⟩ := List.mem_map.1 hentry
      exact ⟨row.name, hrows.due row hrow⟩
    · rintro ⟨other, hmeets, hdue⟩
      obtain ⟨hadds, hdenotes⟩ := adds_of_getEntity hready hrun
      obtain ⟨target, htarget⟩ := hadds.denotes_of_meets hdenotes hmeets
      -- Nothing is due any more, so the row that was due has been inserted.
      have hafter : after.Shared := by
        have hkept := shared_upkeep.getEntity name ⟨hready.store, hshared⟩
        rw [leaving_of_ok hrun] at hkept
        exact hkept.2
      have hsettled := due?_of_denotes hafter htarget
      by_cases hinserted : other ∈ rows.map (·.name)
      · obtain ⟨row, hrow, rfl⟩ := List.mem_map.1 hinserted
        have hsame := (hrows.due row hrow).2
        rw [hdue] at hsame
        cases hsame
        exact List.mem_map_of_mem hrow
      · rw [hrows.others other hinserted, hdue] at hsettled
        cases hsettled

/-- The name `p.B` is met twice, as an argument of the whole and as the element of the array, and
gets one placeholder. -/
theorem Reached.inserts_one_placeholder :
    let state : LookupState :=
      { corpus := { store := ProjectModel.boxStore }, cache := { owner := ⟨9⟩ }
        model := ProjectModel.boxModel }
    state.Reached ∧ state.corpus.plan = .none ∧
      ∃ ref after rows, ProjectModel.getEntity "a.Box<p.B[],p.B>" state = .ok ref after ∧
        after.corpus.store.entities.toList = state.corpus.store.entities.toList ++ rows ∧
        (rows.map (·.name)).Nodup ∧
        { project := ⟨9⟩, name := "p.B", kind := .unknown } ∈ rows.map (·.toEntry) := by
  intro state
  have hstate : state.Reached :=
    .built _ ProjectModel.boxModel_built (Store.reached_ofRows _)
  have hok : succeeds (ProjectModel.getEntity "a.Box<p.B[],p.B>" state) = true := by
    decide +kernel
  have hfree : state.model.find? "a.Box<p.B[],p.B>" = none := by decide +kernel
  have hshape : Name.compoundKind? "a.Box<p.B[],p.B>" ≠ none := by decide +kernel
  have hpart : (RelationKind.hasTypeArgument, "p.B") ∈
      (Name.Shape.ofName "a.Box<p.B[],p.B>").constituents := by decide +kernel
  have hdue : state.due? "p.B" = some { project := ⟨9⟩, name := "p.B", kind := .unknown } := by
    decide +kernel
  obtain ⟨ref, after, hrun⟩ := exists_ok_of_succeeds hok
  have hrows := hstate.inserts_due_rows rfl "a.Box<p.B[],p.B>"
  rw [hrun] at hrows
  obtain ⟨rows, hentities, -, hnodup, hentry⟩ := hrows
  refine ⟨hstate, rfl, ref, after, rows, hrun, hentities, hnodup, ?_⟩
  exact (hentry _).2 ⟨"p.B", .part .itself hfree hshape hpart, hdue⟩

end LookupState

end Referent
