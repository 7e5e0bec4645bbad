import Referent.Proofs.Answers
import Referent.Proofs.Upkeep

/-!
# Placeholders and their rows

A placeholder has a row in the store and an entry in the cache, and a model that needs it gives it
a slot. The two are entered by one insertion, which may fail.

* **The ledger** (`Ledger`): the rows inserted so far and the entries of the cache say the same.
  An insertion that succeeds enters both (`Ledger.entered`); nothing else touches either.
* **A model** (`LookupState.Backed`): its placeholders are entries of the cache, for entries never
  change. Every step of a lookup keeps this and the ledger (`books_upkeep`).
* **Answers** (`LookupState.Serving.handed`): the placeholder that a question is answered with is
  that of the name asked for. A name that nobody has asked for gets what a call to the cache would
  give (`LookupState.Serving.lacking`).
-/

namespace Referent

open Lookup LookupState

/-! ## The ledger -/

/-- The row of a placeholder. -/
def placeholderRow (owner : ProjectId) (name : String) (id : EntityId) : EntityRow :=
  { project := owner, name, kind := .unknown, id }

/-- The names of the placeholders among some rows. -/
def placeholderNames (rows : List EntityRow) : List String :=
  (rows.filter (·.kind = .unknown)).map (·.name)

/-- The rows that have been inserted and the entries of a cache say the same of placeholders. -/
structure Ledger (inserted : List EntityRow) (cache : PlaceholderCache) : Prop where
  filed : ∀ row ∈ inserted, row.kind = .unknown → row = placeholderRow cache.owner row.name row.id
  once : (placeholderNames inserted).Nodup
  entries : ∀ (name : String) (id : EntityId), cache.entries[name]? = some id ↔
    placeholderRow cache.owner name id ∈ inserted

namespace Ledger

variable {inserted : List EntityRow} {cache : PlaceholderCache} {name : String}

theorem empty (owner : ProjectId) : Ledger [] { owner } where
  filed row hrow := by cases hrow
  once := List.nodup_nil
  entries name id := by simp

/-- Rows of other kinds are not in the ledger. -/
theorem other (h : Ledger inserted cache) {row : EntityRow} (hrow : row.kind ≠ .unknown) :
    Ledger (inserted ++ [row]) cache where
  filed found hfound hkind := by
    rcases List.mem_append.1 hfound with hold | hnew
    · exact h.filed found hold hkind
    · rw [List.mem_singleton.1 hnew] at hkind
      exact absurd hkind hrow
  once := by
    simpa [placeholderNames, hrow] using h.once
  entries name id := by
    rw [h.entries, List.mem_append, List.mem_singleton]
    constructor
    · exact .inl
    · rintro (hold | rfl)
      · exact hold
      · exact absurd rfl hrow

/-- A name that the cache lacks has no row. -/
theorem not_mem_names (h : Ledger inserted cache) (hmissing : cache.entries[name]? = none) :
    name ∉ placeholderNames inserted := by
  intro hmem
  obtain ⟨row, hrow, rfl⟩ := List.mem_map.1 hmem
  obtain ⟨hinserted, hkind⟩ := List.mem_filter.1 hrow
  have hfiled := h.filed row hinserted (of_decide_eq_true hkind)
  rw [hfiled, ← h.entries, hmissing] at hinserted
  cases hinserted

/-- A new placeholder enters the rows and the cache. -/
theorem entered (h : Ledger inserted cache) (hmissing : cache.entries[name]? = none)
    (id : EntityId) : Ledger (inserted ++ [placeholderRow cache.owner name id])
      { cache with entries := cache.entries.insert name id } where
  filed row hrow hkind := by
    rcases List.mem_append.1 hrow with hold | hnew
    · exact h.filed row hold hkind
    · rw [List.mem_singleton.1 hnew]
      rfl
  once := by
    have hnames : placeholderNames (inserted ++ [placeholderRow cache.owner name id]) =
        placeholderNames inserted ++ [name] := by
      simp [placeholderNames, placeholderRow]
    rw [hnames, List.nodup_append']
    refine ⟨h.once, List.nodup_singleton _, ?_⟩
    intro other hother hname
    rw [List.mem_singleton.1 hname] at hother
    exact h.not_mem_names hmissing hother
  entries other otherId := by
    simp only [Std.TreeMap.getElem?_insert, Std.LawfulEqOrd.compare_eq_iff_eq, List.mem_append,
      List.mem_singleton]
    by_cases hname : name = other
    · subst hname
      have hnone : placeholderRow cache.owner name otherId ∉ inserted := by
        rw [← h.entries, hmissing]
        simp
      have hsame : placeholderRow cache.owner name otherId = placeholderRow cache.owner name id ↔
          id = otherId := by
        simp [placeholderRow, eq_comm]
      simp [hnone, hsame]
    · have hne : ¬ placeholderRow cache.owner other otherId = placeholderRow cache.owner name id :=
        fun heq => hname (congrArg (·.name) heq).symm
      rw [if_neg hname, h.entries]
      simp only [hne, or_false]

end Ledger

/-! ## Calls that keep the ledger -/

/-- Rows come, and the ledger is kept: `inserted` is what had been inserted before. -/
structure Advances (inserted : List EntityRow) (before after : PlaceholderCache × Access)
    (rows : List EntityRow) : Prop where
  reached : after.2.store.Reached
  entities : after.2.store.entities.toList = before.2.store.entities.toList ++ rows
  relations : before.2.store.relations.toList <+: after.2.store.relations.toList
  owner : after.1.owner = before.1.owner
  entries : ∀ (name : String) (id : EntityId), before.1.entries[name]? = some id →
    after.1.entries[name]? = some id
  ledger : Ledger (inserted ++ rows) after.1

namespace Advances

variable {inserted rows more : List EntityRow} {before mid after : PlaceholderCache × Access}
  {cache : PlaceholderCache} {corpus corpus' : Access} {name : String}

theorem trans (h : Advances inserted before mid rows)
    (h' : Advances (inserted ++ rows) mid after more) :
    Advances inserted before after (rows ++ more) where
  reached := h'.reached
  entities := by rw [h'.entities, h.entities, List.append_assoc]
  relations := h.relations.trans h'.relations
  owner := h'.owner.trans h.owner
  entries name id hid := h'.entries name id (h.entries name id hid)
  ledger := by
    rw [← List.append_assoc]
    exact h'.ledger

/-- A call that fails leaves the books as they were. -/
theorem same_store (hstore : corpus.store.Reached) (hledger : Ledger inserted cache)
    (hsame : corpus'.store = corpus.store) :
    Advances inserted (cache, corpus) (cache, corpus') [] where
  reached := by simpa [hsame] using hstore
  entities := by simp [hsame]
  relations := by simp [hsame]
  owner := rfl
  entries _ _ h := h
  ledger := by simpa using hledger

theorem inserted_other (corpus' : Access) (hstore : corpus.store.Reached)
    (hledger : Ledger inserted cache) {entry : Entry} {id : EntityId}
    (hkind : entry.kind ≠ .unknown) (h : corpus.store.Inserted entry id corpus'.store) :
    Advances inserted (cache, corpus) (cache, corpus') [{ entry with id }] where
  reached := h.reached hstore
  entities := by simp [h.entities]
  relations := by simp [h.relations]
  owner := rfl
  entries _ _ h := h
  ledger := hledger.other hkind

theorem related (hstore : corpus.store.Reached) (hledger : Ledger inserted cache)
    {row : RelationRow} (h : corpus'.store = corpus.store.relate row) :
    Advances inserted (cache, corpus) (cache, corpus') [] where
  reached := by
    rw [h]
    exact hstore.relate row
  entities := by simp [h, Store.relate]
  relations := by simp [h, Store.relate]
  owner := rfl
  entries _ _ h := h
  ledger := by simpa using hledger

/-- A placeholder comes from the cache, or its row is inserted and entered; or the call fails. -/
theorem fetch_cases (books : PlaceholderCache × Access) (hstore : books.2.store.Reached)
    (hledger : Ledger inserted books.1) (name : String) :
    (∃ rows id last,
      PlaceholderCache.fetch name books = .ok (PlaceholderCache.entity name id) last ∧
        Advances inserted books last rows ∧ last.1.entries[name]? = some id) ∨
      ∃ err last, PlaceholderCache.fetch name books = .error err last ∧
        Advances inserted books last [] := by
  obtain ⟨cache, corpus⟩ := books
  cases hcached : cache.entries[name]? with
  | some id =>
    left
    refine ⟨[], id, (cache, corpus), ?_, same_store hstore hledger rfl, hcached⟩
    simp only [PlaceholderCache.fetch, hcached]
  | none =>
    have hcases := corpus.insert_cases { project := cache.owner, name, kind := .unknown }
    simp only [PlaceholderCache.fetch, hcached]
    revert hcases
    rcases corpus.insert _ with ⟨answer, corpus'⟩
    rintro (⟨id, rfl, hinsert⟩ | ⟨cause, rfl, hsame⟩)
    · have hinserted : corpus.store.Inserted _ id corpus'.store :=
        Store.inserted_of_insert hstore.sound hinsert
      left
      refine ⟨[placeholderRow cache.owner name id], id, _, rfl, ?_, by simp⟩
      constructor
      · exact hinserted.reached hstore
      · simp [hinserted.entities, placeholderRow]
      · simp [hinserted.relations]
      · rfl
      · intro other otherId hother
        simp only [Std.TreeMap.getElem?_insert, Std.LawfulEqOrd.compare_eq_iff_eq]
        rw [if_neg]
        · exact hother
        · rintro rfl
          rw [hcached] at hother
          cases hother
      · exact hledger.entered hcached id
    · right
      exact ⟨_, _, rfl, same_store hstore hledger hsame⟩

end Advances

/-! ## What a model does to the ledger -/

namespace LookupState

variable {inserted : List EntityRow} {before state : LookupState} {name : String}

/-- The cache and the store of a state. -/
def books (state : LookupState) : PlaceholderCache × Access :=
  (state.cache, state.corpus)

/-- Every placeholder that the model can see is one of the cache. -/
def Backed (state : LookupState) : Prop :=
  ∀ ref entity, state.model.entity? ref = some entity → entity.kind = .unknown →
    ∃ name id, entity = PlaceholderCache.entity name id ∧ state.cache.entries[name]? = some id

/-- Placeholders stay in the cache, and what is new is backed. -/
theorem Backed.grows (h : before.Backed)
    (hentries : ∀ (name : String) (id : EntityId), before.cache.entries[name]? = some id →
      state.cache.entries[name]? = some id)
    (hentity : ∀ ref entity, state.model.entity? ref = some entity →
      before.model.entity? ref = some entity ∨ entity.kind ≠ .unknown ∨
        ∃ name id, entity = PlaceholderCache.entity name id ∧
          state.cache.entries[name]? = some id) : state.Backed := by
  intro ref entity hseen hkind
  rcases hentity ref entity hseen with hold | hother | hnew
  · obtain ⟨name, id, rfl, hid⟩ := h ref entity hold hkind
    exact ⟨name, id, rfl, hentries name id hid⟩
  · exact absurd hkind hother
  · exact hnew

/-- What a model sees after an entity has been put into the next slot. -/
theorem entity?_allocate (model : ProjectModel) (new : Entity) {ref : EntityRef} {entity : Entity}
    (h : { model with table := model.table.allocate new }.entity? ref = some entity) :
    model.entity? ref = some entity ∨ entity = new := by
  cases ref with
  | library slot => exact .inl h
  | project slot =>
    rw [ProjectModel.entity?, Table.allocate, Array.getElem?_push] at h
    split at h
    · cases h
      exact .inr rfl
    · exact .inl h

/-- A model that has been built has no placeholders. -/
theorem backed_of_fresh (h : state.model.Fresh) : state.Backed := by
  intro ref entity hentity hkind
  exact absurd hkind (ne_unknown_of_declared (h.declared hentity))

end LookupState

namespace Lookup

variable {inserted : List EntityRow} {before state : LookupState} {name : String}

/-- A placeholder that the model lacks is fetched and given a slot. -/
theorem unknown_fetching (h : state.model.placeholders[name]? = none) :
    unknown name state = match PlaceholderCache.fetch name state.books with
      | .ok entity (cache, corpus) => .ok (.project state.model.table.size)
          { corpus, cache, model := { state.model with
              table := state.model.table.allocate entity
              placeholders := state.model.placeholders.insert name
                (.project state.model.table.size) } }
      | .error err (cache, corpus) => .error err { state with corpus, cache } := by
  simp only [unknown, get_bind_apply, h, bind_apply (fetchPlaceholder name), fetchPlaceholder,
    books]
  cases PlaceholderCache.fetch name (state.cache, state.corpus) with
  | ok entity last => rfl
  | error err last => rfl

/-- Every step of a lookup keeps the ledger, and the model backed. -/
theorem books_upkeep (inserted : List EntityRow) (before : LookupState) :
    Upkeep (fun state => (∃ rows, Advances inserted before.books state.books rows) ∧ state.Backed)
      fun _ => True where
  made {state name kind} hstate hfree hkind := by
    obtain ⟨⟨rows, hrows⟩, hbacked⟩ := hstate
    have hdeclared := ne_unknown_of_isSynthesized (isSynthesized_of_compoundKind? hkind)
    rcases synthesize_cases hrows.reached.sound hfree kind with
      ⟨id, corpus, hrun, hinserted⟩ | ⟨cause, corpus, hrun, hsame⟩
    · rw [hrun]
      have hnew := Advances.inserted_other corpus hrows.reached hrows.ledger hdeclared hinserted
      refine ⟨⟨⟨_, hrows.trans hnew⟩, hbacked.grows (fun _ _ h => h) ?_⟩, trivial⟩
      intro ref entity hentity
      rcases entity?_allocate state.model (compoundEntity name kind id) hentity with hold | rfl
      · exact .inl hold
      · exact .inr (.inl hdeclared)
    · rw [hrun]
      exact ⟨⟨_, hrows.trans (.same_store hrows.reached hrows.ledger hsame)⟩, hbacked⟩
  related {_ state id name part target} _ _ hstate _ _ := by
    obtain ⟨⟨rows, hrows⟩, hbacked⟩ := hstate
    rcases leaving_relateTo_cases id part.1 target state with
      ⟨corpus, hafter, hsame⟩ | ⟨entity, corpus, -, hafter, hrelated⟩
    · rw [hafter]
      exact ⟨⟨_, hrows.trans (.same_store hrows.reached hrows.ledger hsame)⟩, hbacked⟩
    · rw [hafter]
      exact ⟨⟨_, hrows.trans (.related hrows.reached hrows.ledger hrelated)⟩, hbacked⟩
  placeholder {state} name hstate := by
    obtain ⟨⟨rows, hrows⟩, hbacked⟩ := hstate
    cases hnew : state.model.placeholders[name]? with
    | some ref =>
      rw [leaving_of_ok (unknown_cached hnew)]
      exact ⟨⟨rows, hrows⟩, hbacked⟩
    | none =>
      have hrun := unknown_fetching hnew
      rcases Advances.fetch_cases state.books hrows.reached hrows.ledger name with
        ⟨more, id, last, hcall, hmore, hid⟩ | ⟨err, last, hcall, hsame⟩
      · rw [hcall] at hrun
        rw [leaving_of_ok hrun]
        refine ⟨⟨_, hrows.trans hmore⟩, hbacked.grows hmore.entries ?_⟩
        intro ref found hfound
        rcases entity?_allocate state.model (PlaceholderCache.entity name id) hfound with
          hold | rfl
        · exact .inl hold
        · exact .inr (.inr ⟨name, id, rfl, hid⟩)
      · rw [hcall] at hrun
        rw [leaving_of_error hrun]
        exact ⟨⟨_, hrows.trans hsame⟩, hbacked.grows hsame.entries fun _ _ h => .inl h⟩
  forgetting _ hstate := hstate
  noting _ hstate := hstate
  remembering _ _ hstate := hstate

end Lookup

/-! ## Answers -/

namespace LookupState

variable {inserted rows : List EntityRow} {base : Nat} {state after : LookupState} {name : String}

/-- The placeholders that some references lead to. -/
def placeholdersAmong (state : LookupState) (targets : List EntityRef) : List Entity :=
  (targets.filterMap state.model.entity?).filter (·.kind = .unknown)

theorem mem_placeholdersAmong {targets : List EntityRef} {entity : Entity} :
    entity ∈ state.placeholdersAmong targets ↔
      (∃ ref ∈ targets, state.model.entity? ref = some entity) ∧ entity.kind = .unknown := by
  simp [placeholdersAmong]

/-- The placeholders that a question is answered with. -/
def handed (state : LookupState) : Question → List Entity
  | .plain name => match ProjectModel.getEntity name state with
    | .ok ref after => after.placeholdersAmong [ref]
    | .error _ _ => []
  | .virtual name => match ProjectModel.getVirtualEntity name state with
    | .ok binding after => after.placeholdersAmong binding.targets
    | .error _ _ => []

/-- The model was built and has been asked questions since, and its placeholders are those of the
cache. -/
structure Serving (state : LookupState) : Prop where
  led : ∃ (model : ProjectModel) (corpus : Access) (cache : PlaceholderCache), model.Built ∧
    corpus.store.Reached ∧ Leads { corpus, cache, model } state
  backed : state.Backed

theorem Serving.ready (h : state.Serving) : ∃ base, Ready base state := by
  obtain ⟨model, corpus, cache, hbuilt, hstore, hleads⟩ := h.led
  obtain ⟨base, hready, -⟩ := hleads.grows (hbuilt.fresh.ready hstore cache)
  exact ⟨base, hready⟩

/-- A placeholder of the model is in the cache. -/
theorem Serving.cached (h : state.Serving) {ref : EntityRef}
    (href : state.model.placeholders[name]? = some ref) :
    ∃ id, state.cache.entries[name]? = some id := by
  obtain ⟨base, hready⟩ := h.ready
  obtain ⟨slot, id, rfl, hentity⟩ := hready.placeholder name ref href
  obtain ⟨other, cached, heq, hcached⟩ := h.backed (.project slot) _ hentity rfl
  cases heq
  exact ⟨id, hcached⟩

/-- What a lookup leaves is in the cache, if it is a placeholder. -/
theorem Serving.backed_after (h : state.Serving) (hstore : state.corpus.store.Reached)
    (hledger : Ledger inserted state.cache) (question : Question) :
    (state.leaving question.ask).Backed :=
  ((books_upkeep inserted state).question question
    ⟨⟨[], .same_store hstore hledger rfl⟩, h.backed⟩).2

/-- A placeholder that a plain lookup gives is that of the name. -/
theorem Serving.plain_placeholder (h : state.Serving) {ref : EntityRef} {entity : Entity}
    (hrun : ProjectModel.getEntity name state = .ok ref after)
    (hentity : after.model.entity? ref = some entity) (hkind : entity.kind = .unknown) :
    ∃ id, entity = PlaceholderCache.entity name id := by
  obtain ⟨model, corpus, cache, hbuilt, hreached, hleads⟩ := h.led
  have hfresh := hbuilt.fresh
  obtain ⟨base, hready, hgrows⟩ := hleads.grows (hfresh.ready hreached cache)
  obtain ⟨hadds, hdenotes⟩ := adds_of_getEntity hready hrun
  have hlater := hgrows.trans (hadds.grows.weaken fun _ => False.elim)
  have hbound (hfound : after.model.find? name = some ref ∨
      after.model.library.find? name = some ref) : entity.kind ≠ .unknown := by
    obtain ⟨found, hseen, hne⟩ := hlater.kind_of_bound hfresh hadds.ready hfound
    rw [hentity] at hseen
    cases hseen
    exact hne
  cases hdenotes with
  | bound hfind => exact absurd hkind (hbound (.inl hfind))
  | library _ _ hfind => exact absurd hkind (hbound (.inr hfind))
  | placeholder _ _ _ hplaced =>
    obtain ⟨slot, id, rfl, hseen⟩ := hadds.ready.placeholder name ref hplaced
    refine ⟨id, ?_⟩
    have hsame : some entity = some (PlaceholderCache.entity name id) := hentity.symm.trans hseen
    exact Option.some.inj hsame

/-- So is one that a virtual lookup gives. -/
theorem Serving.virtual_placeholder (h : state.Serving) (hbacked : after.Backed)
    {binding : Binding} {ref : EntityRef} {entity : Entity}
    (hrun : ProjectModel.getVirtualEntity name state = .ok binding after)
    (href : ref ∈ binding.targets) (hentity : after.model.entity? ref = some entity)
    (hkind : entity.kind = .unknown) : ∃ id, entity = PlaceholderCache.entity name id := by
  obtain ⟨model, corpus, cache, hbuilt, hreached, hleads⟩ := h.led
  have hanswer := hbuilt.answers_well_formed hreached cache hleads hrun after .here
  cases hanswer with
  | @resolved target found hseen hne =>
    rw [List.mem_singleton.1 href, hseen] at hentity
    cases hentity
    exact absurd hkind hne
  | @unresolved target found hseen _ _ hname _ =>
    rw [List.mem_singleton.1 href, hseen] at hentity
    cases hentity
    obtain ⟨other, id, rfl, -⟩ := hbacked target _ hseen hkind
    exact ⟨id, by rw [← hname]; rfl⟩
  | ambiguous _ _ hkinds =>
    obtain ⟨found, hseen, hne⟩ := hkinds ref href
    rw [hseen] at hentity
    cases hentity
    exact absurd hkind hne

/-- A placeholder that is handed out is that of the name asked for, with the id in the cache. -/
theorem Serving.handed (h : state.Serving) (hstore : state.corpus.store.Reached)
    (hledger : Ledger inserted state.cache) {question : Question} {entity : Entity}
    (hentity : entity ∈ state.handed question) :
    ∃ id, entity = PlaceholderCache.entity question.name id ∧
      (state.leaving question.ask).cache.entries[question.name]? = some id := by
  have hbacked := h.backed_after hstore hledger question
  have hcached {ref : EntityRef}
      (hseen : (state.leaving question.ask).model.entity? ref = some entity)
      (hname : ∃ id, entity = PlaceholderCache.entity question.name id) :
      ∃ id, entity = PlaceholderCache.entity question.name id ∧
        (state.leaving question.ask).cache.entries[question.name]? = some id := by
    obtain ⟨id, rfl⟩ := hname
    obtain ⟨other, cached, heq, hcached⟩ := hbacked ref _ hseen rfl
    cases heq
    exact ⟨id, rfl, hcached⟩
  unfold LookupState.handed at hentity
  cases question with
  | plain name =>
    rw [leaving_plain] at hbacked hcached ⊢
    cases hrun : ProjectModel.getEntity name state with
    | error err after => simp [hrun] at hentity
    | ok ref after =>
      simp only [hrun, mem_placeholdersAmong, List.mem_singleton, exists_eq_left] at hentity
      rw [leaving_of_ok hrun] at hcached ⊢
      exact hcached hentity.1 (h.plain_placeholder hrun hentity.1 hentity.2)
  | «virtual» name =>
    rw [leaving_virtual] at hbacked hcached ⊢
    cases hrun : ProjectModel.getVirtualEntity name state with
    | error err after => simp [hrun] at hentity
    | ok binding after =>
      simp only [hrun, mem_placeholdersAmong] at hentity
      obtain ⟨⟨ref, href, hseen⟩, hkind⟩ := hentity
      rw [leaving_of_ok hrun] at hbacked hcached ⊢
      exact hcached hseen (h.virtual_placeholder hbacked hrun href hseen hkind)

/-! ## Names that a model lacks -/

/-- Nothing stands for the name in the model, so a question is answered with its placeholder. -/
def Lacks (model : ProjectModel) : Question → Prop
  | .plain name => model.find? name = none ∧ Name.compoundKind? name = none ∧
      model.library.find? name = none
  | .virtual name => model.memoized? name = none ∧ model.findAny? name = none ∧
      Name.isCompoundType name = false ∧ (model.dispatch name).binding = none

/-- The placeholder for a name, fetched past all models. -/
def fetched (books : PlaceholderCache × Access) (name : String) : List Entity :=
  match PlaceholderCache.fetch name books with
  | .ok entity _ => [entity]
  | .error _ _ => []

/-- The cache and the store after that. -/
def booksAfter (books : PlaceholderCache × Access) (name : String) : PlaceholderCache × Access :=
  match PlaceholderCache.fetch name books with
  | .ok _ last => last
  | .error _ last => last

/-- A new placeholder comes out of the cache as it would past the model. -/
theorem unknown_handing (state : LookupState) (hstore : state.corpus.store.Reached)
    (hledger : Ledger inserted state.cache) (hnew : state.model.placeholders[name]? = none) :
    match unknown name state with
    | .ok ref after => after.placeholdersAmong [ref] = fetched state.books name ∧
        after.books = booksAfter state.books name
    | .error _ after => fetched state.books name = [] ∧
        after.books = booksAfter state.books name := by
  rw [unknown_fetching hnew]
  unfold fetched booksAfter
  rcases Advances.fetch_cases state.books hstore hledger name with
    ⟨rows, id, last, hcall, -⟩ | ⟨err, last, hcall, -⟩
  · rw [hcall]
    refine ⟨?_, rfl⟩
    have hplaced : (state.model.table.allocate
        (PlaceholderCache.entity name id)).arena[state.model.table.size]? = _ := allocate_size
    simp only [placeholdersAmong, List.filterMap_cons, List.filterMap_nil, ProjectModel.entity?,
      hplaced]
    rfl
  · rw [hcall]
    exact ⟨rfl, rfl⟩

/-- A question about a name that the model and the cache lack does what a call past the model
does. -/
theorem Serving.lacking (h : state.Serving) (hstore : state.corpus.store.Reached)
    (hledger : Ledger inserted state.cache) {question : Question}
    (hlacks : Lacks state.model question)
    (hmissing : state.cache.entries[question.name]? = none) :
    state.handed question = fetched state.books question.name ∧
      (state.leaving question.ask).books = booksAfter state.books question.name := by
  have hnew : state.model.placeholders[question.name]? = none := by
    cases hplaced : state.model.placeholders[question.name]? with
    | none => rfl
    | some ref =>
      obtain ⟨id, hid⟩ := h.cached hplaced
      rw [hmissing] at hid
      cases hid
  cases question with
  | plain name =>
    obtain ⟨hfree, hkind, hlibrary⟩ := hlacks
    have hhanding := unknown_handing state hstore hledger hnew
    rw [leaving_plain, LookupState.handed, leaving,
      ProjectModel.getEntity_unknown hfree hkind hlibrary]
    simp only [Question.name] at hhanding ⊢
    cases hrun : unknown name state with
    | ok ref after =>
      rw [hrun] at hhanding
      exact hhanding
    | error err after =>
      rw [hrun] at hhanding
      exact ⟨hhanding.1.symm, hhanding.2⟩
  | «virtual» name =>
    obtain ⟨hmemo, hany, hname, hbinding⟩ := hlacks
    have hhanding := unknown_handing (state.noting (state.model.dispatch name).anomaly) hstore
      hledger hnew
    rw [leaving_virtual, LookupState.handed, leaving,
      ProjectModel.getVirtualEntity_open hmemo hany hname hbinding]
    simp only [Question.name] at hhanding ⊢
    cases hrun : unknown name (state.noting (state.model.dispatch name).anomaly) with
    | ok ref after =>
      rw [hrun] at hhanding
      exact hhanding
    | error err after =>
      rw [hrun] at hhanding
      exact ⟨hhanding.1.symm, hhanding.2⟩

end LookupState

end Referent
