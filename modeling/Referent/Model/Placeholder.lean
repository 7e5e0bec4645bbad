import Referent.Corpus.Access
import Referent.Model.Entity
import Referent.Model.Loading

/-!
# Placeholders for names that nothing declares

A relation may need a target that the corpus lacks. The cache gives every such name one row of
kind `unknown`, filed under one project, for as long as the cache lives and for every model
that shares it. A name is entered only once its row is in, so a failed insertion leaves the
cache as it was and can be tried again.
-/

namespace Referent

/-- The placeholder rows handed out so far. -/
structure PlaceholderCache where
  /-- The project that the rows are filed under. -/
  owner : ProjectId
  /-- The row of each name. -/
  entries : Std.TreeMap String EntityId := {}

namespace PlaceholderCache

/-- The number of names with a row. -/
def size (cache : PlaceholderCache) : Nat :=
  cache.entries.size

/-- The placeholder entity for a name whose row has this id. -/
def entity (name : String) (id : EntityId) : Entity :=
  { name, kind := .unknown, id, origin := .unknown }

/-- The placeholder for a name, with its row inserted on first use. -/
def fetch (name : String) : EStateM ModelError (PlaceholderCache × Access) Entity :=
  fun (cache, corpus) =>
    match cache.entries[name]? with
    | some id => .ok (entity name id) (cache, corpus)
    | none =>
      match corpus.insert { project := cache.owner, name, kind := .unknown } with
      | (.error cause, corpus) => .error (.store cause) (cache, corpus)
      | (.ok id, corpus) =>
        .ok (entity name id) ({ cache with entries := cache.entries.insert name id }, corpus)

end PlaceholderCache

end Referent
