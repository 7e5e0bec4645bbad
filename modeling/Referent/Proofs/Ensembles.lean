import Referent.Proofs.Placeholders

/-!
# One row for each placeholder

Several models share a store and one cache of placeholders, each model remembers the placeholders
it has been given, and any insertion may fail. Whatever the models are asked, in whatever order,
and whatever else goes on in the store: a name has at most one placeholder row, all models hand
out that row, and a name whose row could not be inserted is as new as before
(`Ensemble.Run.one_row_per_placeholder`).

What one model does is, to any other one, something that goes on elsewhere (`Sound.moved`); so one
call keeps the account of the whole ensemble (`Sound.calling`).
-/

namespace Referent

open Lookup LookupState

/-! ## Ensembles -/

/-- Models that share a store and a cache of placeholders. -/
structure Ensemble where
  cache : PlaceholderCache
  corpus : Access
  models : List ProjectModel := []

/-- What the calls of an ensemble have come to: the rows that they have inserted, and the
placeholders that they have handed out, each with the name that was asked for. -/
structure Account where
  inserted : List EntityRow := []
  handed : List (String × Entity) := []

namespace Ensemble

/-- The cache and the store. -/
def books (ensemble : Ensemble) : PlaceholderCache × Access :=
  (ensemble.cache, ensemble.corpus)

/-- What one of the models works with. -/
def view (ensemble : Ensemble) (model : ProjectModel) : LookupState :=
  { corpus := ensemble.corpus, cache := ensemble.cache, model }

/-- The ensemble after one of its models has been asked a question. -/
def asking (ensemble : Ensemble) (i : Nat) (model : ProjectModel) (question : Question) :
    Ensemble :=
  let state := (ensemble.view model).leaving question.ask
  { cache := state.cache, corpus := state.corpus, models := ensemble.models.set i state.model }

/-- The ensemble after a placeholder has been fetched past its models. -/
def fetching (ensemble : Ensemble) (name : String) : Ensemble :=
  let books := booksAfter ensemble.books name
  { ensemble with cache := books.1, corpus := books.2 }

/-- The rows that a later ensemble has and this one lacks. -/
def newRows (ensemble later : Ensemble) : List EntityRow :=
  later.corpus.store.entities.toList.drop ensemble.corpus.store.entities.size

end Ensemble

/-- The account after a call about a name. -/
def Account.calling (account : Account) (ensemble later : Ensemble) (name : String)
    (handed : List Entity) : Account where
  inserted := account.inserted ++ ensemble.newRows later
  handed := account.handed ++ handed.map (name, ·)

namespace Ensemble

/-- What an ensemble gets to and what its calls have come to. It starts with an empty cache over
any store. Models join it; they are asked questions, and placeholders are fetched directly, whatever
becomes of these calls; and rows come into the store from elsewhere, with any plan of failures
from then on. -/
inductive Run (owner : ProjectId) : Account → Ensemble → Prop
  | start {corpus : Access} : corpus.store.Reached → Run owner {} { cache := { owner }, corpus }
  | joined {account : Account} {ensemble : Ensemble} {model : ProjectModel} :
      Run owner account ensemble → model.Built →
      Run owner account { ensemble with models := ensemble.models ++ [model] }
  | asked {account : Account} {ensemble : Ensemble} {i : Nat} {model : ProjectModel}
      (question : Question) : Run owner account ensemble → ensemble.models[i]? = some model →
      Run owner
        (account.calling ensemble (ensemble.asking i model question) question.name
          ((ensemble.view model).handed question))
        (ensemble.asking i model question)
  | fetched {account : Account} {ensemble : Ensemble} (name : String) :
      Run owner account ensemble →
      Run owner
        (account.calling ensemble (ensemble.fetching name) name
          (LookupState.fetched ensemble.books name))
        (ensemble.fetching name)
  | meanwhile {account : Account} {ensemble : Ensemble} {corpus : Access} :
      Run owner account ensemble → corpus.store.Reached →
      ensemble.corpus.store.entities.toList <+: corpus.store.entities.toList →
      ensemble.corpus.store.relations.toList <+: corpus.store.relations.toList →
      Run owner account { ensemble with corpus }

/-- What holds of an ensemble and its account at any time. -/
structure Sound (owner : ProjectId) (account : Account) (ensemble : Ensemble) : Prop where
  reached : ensemble.corpus.store.Reached
  owner : ensemble.cache.owner = owner
  ledger : Ledger account.inserted ensemble.cache
  stored : ∀ row ∈ account.inserted, row ∈ ensemble.corpus.store.entities.toList
  handed : ∀ name entity, (name, entity) ∈ account.handed →
    ∃ id, entity = PlaceholderCache.entity name id ∧ ensemble.cache.entries[name]? = some id
  serving : ∀ model ∈ ensemble.models, (ensemble.view model).Serving

variable {owner : ProjectId} {account : Account} {ensemble : Ensemble} {rows : List EntityRow}

/-- Another call, or something that goes on elsewhere: rows come, entries stay. -/
theorem Sound.moved (h : Sound owner account ensemble) {cache : PlaceholderCache}
    {corpus : Access} (hreached : corpus.store.Reached)
    (hentities : ensemble.corpus.store.entities.toList <+: corpus.store.entities.toList)
    (hrelations : ensemble.corpus.store.relations.toList <+: corpus.store.relations.toList)
    (howner : cache.owner = ensemble.cache.owner)
    (hentries : ∀ (name : String) (id : EntityId), ensemble.cache.entries[name]? = some id →
      cache.entries[name]? = some id)
    (hledger : Ledger (account.inserted ++ rows) cache)
    (hrows : ∀ row ∈ rows, row ∈ corpus.store.entities.toList) :
    Sound owner { account with inserted := account.inserted ++ rows }
      { ensemble with cache, corpus } where
  reached := hreached
  owner := howner.trans h.owner
  ledger := hledger
  stored row hrow := by
    rcases List.mem_append.1 hrow with hold | hnew
    · exact hentities.subset (h.stored row hold)
    · exact hrows row hnew
  handed name entity hmem := by
    obtain ⟨id, heq, hid⟩ := h.handed name entity hmem
    exact ⟨id, heq, hentries name id hid⟩
  serving model hmodel := by
    obtain ⟨⟨built, corpus', cache', hbuilt, hstore, hleads⟩, hbacked⟩ := h.serving model hmodel
    have helse : (ensemble.view model).Elsewhere corpus cache :=
      ⟨hreached, hentities, hrelations, howner, hentries⟩
    exact ⟨⟨built, corpus', cache', hbuilt, hstore, hleads.meanwhile helse⟩,
      hbacked.grows hentries fun _ _ hentity => .inl hentity⟩

/-- A call about a name keeps the account. -/
theorem Sound.calling (h : Sound owner account ensemble) {later : Ensemble} {name : String}
    {handed : List Entity}
    (hrows : Advances account.inserted ensemble.books later.books rows)
    (hmodels : ∀ model ∈ later.models, model ∈ ensemble.models ∨ (later.view model).Serving)
    (hhanded : ∀ entity ∈ handed, ∃ id, entity = PlaceholderCache.entity name id ∧
      later.cache.entries[name]? = some id) :
    Sound owner (account.calling ensemble later name handed) later := by
  have hentities : later.corpus.store.entities.toList =
      ensemble.corpus.store.entities.toList ++ rows := hrows.entities
  have hnew : ensemble.newRows later = rows := by
    rw [newRows, hentities, ← Array.length_toList, List.drop_left]
  have hstored : ∀ row ∈ rows, row ∈ later.corpus.store.entities.toList := by
    intro row hrow
    rw [hentities]
    exact List.mem_append_right _ hrow
  have hmoved := h.moved hrows.reached (hentities ▸ List.prefix_append _ _) hrows.relations
    hrows.owner hrows.entries hrows.ledger hstored
  rw [← hnew] at hmoved
  refine { hmoved with handed := ?_, serving := ?_ }
  · intro other entity hmem
    rcases List.mem_append.1 hmem with hold | hlate
    · exact hmoved.handed other entity hold
    · obtain ⟨found, hfound, heq⟩ := List.mem_map.1 hlate
      cases heq
      exact hhanded entity hfound
  · intro model hmodel
    rcases hmodels model hmodel with hold | hserving
    · exact hmoved.serving model hold
    · exact hserving

theorem Sound.asking (h : Sound owner account ensemble) {i : Nat} {model : ProjectModel}
    (hmodel : ensemble.models[i]? = some model) (question : Question) :
    Sound owner
      (account.calling ensemble (ensemble.asking i model question) question.name
        ((ensemble.view model).handed question))
      (ensemble.asking i model question) := by
  have hserving := h.serving model (List.mem_of_getElem? hmodel)
  have hstart : Advances account.inserted ensemble.books (ensemble.view model).books [] :=
    .same_store h.reached h.ledger rfl
  obtain ⟨⟨rows, hrows⟩, hbacked⟩ :=
    (books_upkeep account.inserted (ensemble.view model)).question question
      ⟨⟨[], hstart⟩, hserving.backed⟩
  refine h.calling hrows ?_ ?_
  · intro other hother
    rcases List.mem_or_eq_of_mem_set hother with hold | rfl
    · exact .inl hold
    · obtain ⟨built, corpus, cache, hbuilt, hstore, hleads⟩ := hserving.led
      exact .inr ⟨⟨built, corpus, cache, hbuilt, hstore, hleads.asked question⟩, hbacked⟩
  · intro entity hentity
    exact hserving.handed h.reached h.ledger hentity

/-- What a call past the models does. -/
theorem Sound.fetched_cases (h : Sound owner account ensemble) (name : String) :
    (∃ rows, Advances account.inserted ensemble.books (ensemble.fetching name).books rows) ∧
      ∀ entity ∈ LookupState.fetched ensemble.books name,
        ∃ id, entity = PlaceholderCache.entity name id ∧
          (ensemble.fetching name).cache.entries[name]? = some id := by
  unfold LookupState.fetched fetching booksAfter
  rcases Advances.fetch_cases ensemble.books h.reached h.ledger name with
    ⟨rows, id, last, hcall, hrows, hid⟩ | ⟨err, last, hcall, hsame⟩
  · rw [hcall]
    refine ⟨⟨rows, hrows⟩, ?_⟩
    intro entity hentity
    rw [List.mem_singleton.1 hentity]
    exact ⟨id, rfl, hid⟩
  · rw [hcall]
    exact ⟨⟨[], hsame⟩, by simp⟩

theorem Run.sound (h : Run owner account ensemble) : Sound owner account ensemble := by
  induction h with
  | start hstore =>
    exact {
      reached := hstore
      owner := rfl
      ledger := .empty owner
      stored := by simp
      handed := by simp
      serving := by simp }
  | @joined account ensemble model _ hbuilt ih =>
    refine { ih with serving := ?_ }
    intro other hother
    rcases List.mem_append.1 hother with hold | hnew
    · exact ih.serving other hold
    · rw [List.mem_singleton.1 hnew]
      exact ⟨⟨model, ensemble.corpus, ensemble.cache, hbuilt, ih.reached, .here⟩,
        backed_of_fresh hbuilt.fresh⟩
  | asked question _ hmodel ih => exact ih.asking hmodel question
  | fetched name _ ih =>
    obtain ⟨⟨rows, hrows⟩, hhanded⟩ := ih.fetched_cases name
    exact ih.calling hrows (fun model hmodel => .inl hmodel) hhanded
  | @meanwhile account ensemble corpus _ hreached hentities hrelations ih =>
    have hledger : Ledger (account.inserted ++ []) ensemble.cache := by
      simpa using ih.ledger
    have hmoved := ih.moved hreached hentities hrelations rfl (fun _ _ h => h) hledger (by simp)
    simpa using hmoved

/-- A direct call for a name that the cache lacks inserts its row, or leaves the cache and the
store as they were. -/
theorem fetching_missing (name : String) (hmissing : ensemble.cache.entries[name]? = none) :
    match ensemble.corpus.insert { project := ensemble.cache.owner, name, kind := .unknown } with
    | (.ok id, corpus) =>
      LookupState.fetched ensemble.books name = [PlaceholderCache.entity name id] ∧
      ensemble.fetching name = { ensemble with
        corpus, cache.entries := ensemble.cache.entries.insert name id }
    | (.error _, corpus) =>
      LookupState.fetched ensemble.books name = [] ∧
      ensemble.fetching name = { ensemble with corpus } := by
  simp only [LookupState.fetched, fetching, booksAfter, PlaceholderCache.fetch, books, hmissing]
  rcases ensemble.corpus.insert _ with ⟨answer, corpus⟩
  cases answer <;> exact ⟨rfl, rfl⟩

/-- Whatever the models of an ensemble have been asked and whatever has failed: the cache holds
the names whose placeholder rows have been inserted, each of them once and under the owner, with
the ids of these rows, which are distinct; every placeholder that was handed out has the id of its
name; and a name that is missing gets its row by the next call that can insert it, from whatever
model that comes, while a call that cannot leaves the cache and the rows as they were. -/
theorem Run.one_row_per_placeholder (h : Run owner account ensemble) :
    (∀ (name : String) (id : EntityId), ensemble.cache.entries[name]? = some id ↔
      placeholderRow owner name id ∈ account.inserted) ∧
    (∀ row ∈ account.inserted, row.kind = .unknown → row = placeholderRow owner row.name row.id) ∧
    (placeholderNames account.inserted).Nodup ∧
    (∀ (name other : String) (id : EntityId), ensemble.cache.entries[name]? = some id →
      ensemble.cache.entries[other]? = some id → name = other) ∧
    (∀ name entity, (name, entity) ∈ account.handed →
      ∃ id, entity = PlaceholderCache.entity name id ∧
        ensemble.cache.entries[name]? = some id) ∧
    ∀ name : String, ensemble.cache.entries[name]? = none →
      (match ensemble.corpus.insert { project := owner, name, kind := .unknown } with
      | (.ok id, corpus) =>
        corpus.store.entities =
          ensemble.corpus.store.entities.push (placeholderRow owner name id) ∧
        LookupState.fetched ensemble.books name = [PlaceholderCache.entity name id] ∧
        ensemble.fetching name = { ensemble with
          corpus, cache.entries := ensemble.cache.entries.insert name id }
      | (.error _, corpus) =>
        corpus.store = ensemble.corpus.store ∧
        LookupState.fetched ensemble.books name = [] ∧
        ensemble.fetching name = { ensemble with corpus }) ∧
      ∀ model ∈ ensemble.models, ∀ question : Question, question.name = name →
        LookupState.Lacks model question →
        (ensemble.view model).handed question = LookupState.fetched ensemble.books name ∧
        ((ensemble.view model).leaving question.ask).books = (ensemble.fetching name).books := by
  have hsound := h.sound
  have howner := hsound.owner
  subst howner
  refine ⟨hsound.ledger.entries, hsound.ledger.filed, hsound.ledger.once, ?_, hsound.handed, ?_⟩
  · intro name other id hname hother
    rw [hsound.ledger.entries] at hname hother
    have hsame := hsound.reached.sound.row_unique (hsound.stored _ hname)
      (hsound.stored _ hother) rfl
    exact congrArg (·.name) hsame
  · intro name hmissing
    constructor
    · have hfetching := fetching_missing name hmissing
      have hcases := ensemble.corpus.insert_cases
        { project := ensemble.cache.owner, name, kind := .unknown }
      revert hfetching hcases
      rcases ensemble.corpus.insert _ with ⟨answer, corpus⟩
      rintro hfetching (⟨id, rfl, hinsert⟩ | ⟨cause, rfl, hsame⟩)
      · have hinserted : ensemble.corpus.store.Inserted _ id corpus.store :=
          Store.inserted_of_insert hsound.reached.sound hinsert
        exact ⟨hinserted.entities, hfetching⟩
      · exact ⟨hsame, hfetching⟩
    · rintro model hmodel question rfl hlacks
      exact (hsound.serving model hmodel).lacking hsound.reached hsound.ledger hlacks hmissing

/-- The first insertion fails. The name is asked for again, then in another model and then
directly, and all are given the row that the second insertion has put in. -/
theorem Run.row_after_failure_shared :
    ∃ account ensemble, Run ⟨9⟩ account ensemble ∧ ensemble.models.length = 2 ∧
      ensemble.corpus.calls.insertEntity = 2 ∧
      account.inserted = [placeholderRow ⟨9⟩ "a.X" ⟨1⟩] ∧
      account.handed = List.replicate 3 ("a.X", PlaceholderCache.entity "a.X" ⟨1⟩) ∧
      ensemble.cache.entries["a.X"]? = some ⟨1⟩ := by
  let plan : FaultPlan := fun call made => call = .insertEntity ∧ made = 0
  let built (project : ProjectId) := ProjectModel.alone {} project
  let first : Ensemble :=
    { cache := { owner := ⟨9⟩ }, corpus := { plan }, models := [built ⟨1⟩, built ⟨2⟩] }
  have hfirst : Run ⟨9⟩ {} first :=
    ((Run.start .empty).joined (ProjectModel.alone_built {} ⟨1⟩)).joined
      (ProjectModel.alone_built {} ⟨2⟩)
  have hfailed := hfirst.asked (i := 0) (.plain "a.X") rfl
  have hplain := hfailed.asked (i := 0) (.plain "a.X") rfl
  have hvirtual := hplain.asked (i := 1) (.virtual "a.X") rfl
  have hdirect := hvirtual.fetched "a.X"
  refine ⟨_, _, hdirect, rfl, by decide +kernel, ?inserted, by decide +kernel, ?cached⟩
  case inserted => decide +kernel
  case cached =>
    refine (hdirect.one_row_per_placeholder.1 "a.X" ⟨1⟩).2 ?_
    decide +kernel

end Ensemble

end Referent
