import Referent.Model.Project

/-!
# Looking names up in a project

There are two questions. `getEntity` asks what a name denotes: an entity of the project, a
compound type, an entity of the library or a placeholder, in that order. `getVirtualEntity`
asks what a reference to a member denotes, with inheritance taken into account.

Both may write. A compound type gets its row when its name is first met, then a relation to
each of its constituents, which are looked up in turn; constituents are shorter than the name,
so this ends. The name is bound before its constituents are linked and unbound again if one of
them fails, so a name is never left bound to a type that is linked in part. Whatever else was
done before a failure stays done.
-/

namespace Referent

/-- What a lookup reads and changes. -/
structure LookupState where
  corpus : Access
  /-- The placeholders of the run. -/
  cache : PlaceholderCache
  model : ProjectModel

/-- A lookup. What it did before it failed stays done. -/
abbrev Lookup := EStateM ModelError LookupState

namespace Lookup

/-! ## Steps -/

/-- Ask the corpus. -/
def ask (question : Access → Except StoreError α × Access) : Lookup α := fun state =>
  let (answer, corpus) := question state.corpus
  match answer with
  | .ok a => .ok a { state with corpus }
  | .error cause => .error (.store cause) { state with corpus }

/-- Change the model. -/
def update (change : ProjectModel → ProjectModel) : Lookup Unit :=
  modify fun state => { state with model := change state.model }

/-- The placeholder for a name, from the cache. -/
def fetchPlaceholder (name : String) : Lookup Entity := fun state =>
  match PlaceholderCache.fetch name (state.cache, state.corpus) with
  | .ok entity (cache, corpus) => .ok entity { state with cache, corpus }
  | .error err (cache, corpus) => .error err { state with cache, corpus }

/-- Work, and on failure unbind a name. -/
def unbinding (name : String) (work : Lookup α) : Lookup α := fun state =>
  match work state with
  | .ok a state => .ok a state
  | .error err state =>
    .error err { state with model.table := state.model.table.forget name }

/-! ## Parts of a lookup -/

/-- The placeholder for a name, in a slot of its own. -/
def unknown (name : String) : Lookup EntityRef := do
  match (← get).model.placeholders[name]? with
  | some placeholder => return placeholder
  | none =>
    let entity ← fetchPlaceholder name
    let placeholder := EntityRef.project (← get).model.table.size
    update fun model => { model with
      table := model.table.allocate entity
      placeholders := model.placeholders.insert name placeholder }
    return placeholder

/-- Insert the row of a compound type and enter its entity. -/
def synthesize (name : String) (kind : EntityKind) : Lookup (EntityId × EntityRef) := do
  let project := (← get).model.project
  let dimensions := (Name.Shape.ofName name).dimensions?
  let id ← ask (·.insert { project, name, kind, dimensions })
  let (made, model) := (← get).model.enter name { name, kind, id, origin := .notApplicable }
  update fun _ => model
  return (id, made)

/-- Record what relates a compound type to a constituent. -/
def relateTo (left : EntityId) (kind : RelationKind) (target : EntityRef) : Lookup Unit := do
  let model := (← get).model
  match model.entity? target with
  | none => return ()
  | some entity =>
    ask (·.relate
      { kind, left, right := entity.id, project := model.project, origin := entity.origin })

end Lookup

namespace ProjectModel

open Lookup

/-! ## The two questions -/

/-- What a name denotes, without inheritance. -/
def getEntity (name : String) : Lookup EntityRef := do
  match (← get).model.find? name with
  | some found => return found
  | none =>
    match Name.compoundKind? name with
    | some kind =>
      -- The row stays in the corpus whatever becomes of the parts; only the name is given back.
      let (id, made) ← synthesize name kind
      unbinding name <| (Name.Shape.ofName name).constituents.attach.forM fun ⟨part, _⟩ => do
        relateTo id part.1 (← getEntity part.2)
      return made
    | none =>
      match (← get).model.library.find? name with
      | some found => return found
      | none => unknown name
termination_by name.length
decreasing_by exact Name.length_lt_of_mem_constituents ‹_›

/-- What a reference denotes that dispatch has to decide. The anomaly is recorded even if the
placeholder fails. -/
def resolveByDispatch (name : String) : Lookup Binding := do
  let dispatch := (← get).model.dispatch name
  update fun model => { model with diagnostics := model.diagnostics.recordAny dispatch.anomaly }
  match dispatch.binding with
  | some binding => return binding
  -- The name as a whole gets the placeholder, even if its receiver is a known type.
  | none => return .unresolved (← unknown name)

/-- What a reference denotes, with inheritance. Names that are bound denote themselves, compound
types are looked up plainly, and results of dispatch are kept. -/
def getVirtualEntity (name : String) : Lookup Binding := do
  let model := (← get).model
  match model.memoized? name with
  | some binding => return binding
  | none =>
    match model.findAny? name with
    | some found => return .resolved found
    | none =>
      if Name.isCompoundType name then return .resolved (← getEntity name)
      else
        let binding ← resolveByDispatch name
        update fun model => { model with bindings := model.bindings.insert name binding }
        return binding

end ProjectModel

end Referent
