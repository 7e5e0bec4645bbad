import Referent.Proofs.Choice
import Referent.Proofs.Steady

/-!
# The members that a type declares itself

A generic type is bound under its name with its signature attached, while its members are
declared under its name alone. Under its own name a type has the members that it declares. Under
any other name it has only those it inherits: the reference as a whole is no declaration, and the
walk starts with the supertypes, so a declaration of the type itself is passed over and an
ancestor's is answered (`Built.own_member_under_each_name`, `own_method_passed_over`).
-/

namespace Referent

open LookupState

/-- The text of the reference is read as this member of this receiver, which is no array, and
the member is one that types inherit. -/
structure Name.MemberRef.Inheritable (ref : Name.MemberRef) : Prop where
  read : ofName? ref.name = some ref
  inherited : ref.isConstructorOrInitializer = false
  noArray : isArray ref.receiver = false

/-- A type that is bound to the receiver of the reference declares the member under its own
name. -/
structure Owns (find? : String → Option EntityRef) (entity? : EntityRef → Option Entity)
    (ref : Name.MemberRef) (receiver : EntityRef) (type : Entity) (declaration : EntityRef) :
    Prop where
  bound : find? ref.receiver = some receiver
  behind : entity? receiver = some type
  classLike : type.kind.isClassLike = true
  declared : find? (Name.memberName type.name ref.member) = some declaration

namespace LibraryModel

variable {model : LibraryModel} {name : String} {ref : Name.MemberRef}
  {receiver target : EntityRef}

theorem dispatch_of_found (h : model.find? name = some target) :
    model.dispatch name = { binding := some (.resolved target) } := by
  simp only [dispatch, h]

/-- A reference that is no name itself resolves to what the receiver inherits. -/
theorem dispatch_eq_resolved_iff (hfree : model.find? ref.name = none) (href : ref.Inheritable)
    (hreceiver : model.find? ref.receiver = some receiver) :
    (model.dispatch ref.name).binding = some (.resolved target) ↔
      model.hierarchy.Sole ref receiver target := by
  rw [dispatch_of_known hfree href.read href.inherited href.noArray hreceiver]
  exact Hierarchy.resolve_eq_resolved_iff

end LibraryModel

namespace ProjectModel

variable {model : ProjectModel} {name : String} {ref : Name.MemberRef}
  {receiver target : EntityRef}

/-- What is bound in a project is a receiver for some view. -/
theorem exists_sees (h : model.findAny? name = some receiver) :
    ∃ view, model.Sees name view receiver := by
  rw [findAny?, Option.orElse_eq_orElse, Option.orElse_eq_or, Option.or_eq_some_iff] at h
  rcases h with hown | ⟨hfree, hshared⟩
  · exact ⟨_, .own hown⟩
  · exact ⟨_, .shared (by simpa using hfree) hshared⟩

/-- A reference that is not bound, no compound type and not remembered is up to dispatch. -/
theorem resolves_iff_dispatch {state : LookupState}
    (hmemo : state.model.memoized? name = none) (hany : state.model.findAny? name = none)
    (hname : Name.isCompoundType name = false) :
    (∃ after, getVirtualEntity name state = .ok (.resolved target) after) ↔
      (state.model.dispatch name).binding = some (.resolved target) := by
  cases hbinding : (state.model.dispatch name).binding with
  | some binding =>
    rw [getVirtualEntity_dispatched hmemo hany hname hbinding]
    constructor
    · rintro ⟨after, hrun⟩
      cases hrun
      rfl
    · intro heq
      cases heq
      exact ⟨_, rfl⟩
  | none =>
    rw [getVirtualEntity_open hmemo hany hname hbinding]
    constructor
    · rintro ⟨after, hrun⟩
      cases hunknown : Lookup.unknown name (state.noting (state.model.dispatch name).anomaly) with
      | ok ref last =>
        rw [hunknown] at hrun
        cases hrun
      | error err last =>
        rw [hunknown] at hrun
        cases hrun
    · intro heq
      cases heq

/-- A type has the members that it declares itself under its own name. Under another name of
the type a reference resolves to the one declaration that counts among those that the type
inherits, if there is one, whatever the type declares itself. This holds of a library and of a
project that has just been built alike. -/
theorem Built.own_member_under_each_name (hbuilt : model.Built) (library : LibraryModel)
    (corpus : Access) (cache : PlaceholderCache) (ref : Name.MemberRef)
    (receiver : EntityRef) (type : Entity) (declaration : EntityRef) :
    (Owns library.find? library.entity? ref receiver type declaration →
      (library.dispatch (Name.memberName type.name ref.member)).binding =
        some (.resolved declaration) ∧
      (library.find? ref.name = none → ref.Inheritable → ∀ target,
        (library.dispatch ref.name).binding = some (.resolved target) ↔
          library.hierarchy.Sole ref receiver target)) ∧
    (Owns model.findAny? model.entity? ref receiver type declaration →
      (∃ after, getVirtualEntity (Name.memberName type.name ref.member)
        { corpus, cache, model } = .ok (.resolved declaration) after) ∧
      (model.findAny? ref.name = none → Name.isCompoundType ref.name = false →
        ref.Inheritable → ∃ view, model.Sees ref.receiver view receiver ∧ ∀ target,
          (∃ after, getVirtualEntity ref.name { corpus, cache, model } =
            .ok (.resolved target) after) ↔ view.Sole ref receiver target)) := by
  have hfresh := hbuilt.fresh
  have hmemo := hfresh.memoized?_eq_none
  constructor
  · intro howns
    refine ⟨by rw [LibraryModel.dispatch_of_found howns.declared], ?_⟩
    intro hfree href target
    exact LibraryModel.dispatch_eq_resolved_iff hfree href howns.bound
  · intro howns
    refine ⟨⟨_, getVirtualEntity_found (hmemo _) howns.declared⟩, ?_⟩
    intro hany hname href
    obtain ⟨view, hsees⟩ := exists_sees howns.bound
    refine ⟨view, hsees, fun target => ?_⟩
    rw [resolves_iff_dispatch (hmemo _) hany hname]
    simp only
    rw [dispatch_of_sees (findAny?_eq_none.1 hany).2 href.read href.inherited href.noArray hsees]
    exact Hierarchy.resolve_eq_resolved_iff

/-! ## A generic type under its signature -/

/-- A store with a project whose `a.Box<T>` extends `a.Base`; both declare `m()`. -/
def overrideStore : Store :=
  (Store.ofRows
    [{ project := ⟨10⟩, name := "a.Base", kind := .class, id := ⟨1⟩ },
     { project := ⟨10⟩, name := "a.Base.m", kind := .method, params := some "()", id := ⟨2⟩ },
     { project := ⟨10⟩, name := "a.Box", kind := .class, params := some "<T+java.lang.Object>",
       rawParams := some "<T>", id := ⟨3⟩ },
     { project := ⟨10⟩, name := "a.Box.m", kind := .method, params := some "()",
       id := ⟨4⟩ }]).relate
    { kind := .extends, left := ⟨3⟩, right := ⟨1⟩, project := ⟨10⟩ }

/-- The rows of the store loaded as a library. -/
def overrideLibrary : LibraryModel :=
  { LibraryModel.empty .virtual with
    draft := (LibraryModel.empty .virtual).draft.fill .virtual overrideStore [⟨10⟩] }

/-- The rows of the store built as a project without libraries. -/
def overrideModel : ProjectModel :=
  alone overrideStore ⟨10⟩

theorem overrideStore_reached : overrideStore.Reached :=
  .relate _ (Store.reached_ofRows _)

theorem overrideLibrary_reached : overrideLibrary.Reached :=
  (LibraryModel.Reached.empty .virtual).filled overrideStore [⟨10⟩]

theorem overrideModel_built : overrideModel.Built :=
  alone_built overrideStore ⟨10⟩

/-- The method `m()` of `a.Box<T>`. -/
def boxMethod : Name.MemberRef where
  receiver := "a.Box<T>"
  member := "m()"

theorem boxMethod_inheritable : boxMethod.Inheritable := by
  constructor <;> decide +kernel

/-- The entity of `a.Box`, with its supertype. -/
def boxEntity (origin : Origin) (parent : EntityRef) : Entity where
  name := "a.Box"
  kind := .class
  id := ⟨3⟩
  origin := origin
  parents := [parent]

theorem overrideLibrary_owns : Owns overrideLibrary.find? overrideLibrary.entity? boxMethod
    (.library 2) (boxEntity .library (.library 0)) (.library 3) := by
  constructor <;> decide +kernel

theorem overrideModel_owns : Owns overrideModel.findAny? overrideModel.entity? boxMethod
    (.project 2) (boxEntity .internal (.project 0)) (.project 3) := by
  constructor <;> decide +kernel

/-- The method is found under the name of its class, and is not what `a.Box<T>` inherits. -/
theorem Built.own_method_under_class_name :
    overrideModel.Built ∧
    (overrideLibrary.dispatch "a.Box.m()").binding = some (.resolved (.library 3)) ∧
    (∃ after, getVirtualEntity "a.Box.m()"
      { corpus := {}, cache := { owner := ⟨9⟩ }, model := overrideModel } =
        .ok (.resolved (.project 3)) after) ∧
    overrideLibrary.hierarchy.Sole boxMethod (.library 2) (.library 1) ∧
    ∃ view, overrideModel.Sees "a.Box<T>" view (.project 2) ∧
      view.Sole boxMethod (.project 2) (.project 1) := by
  have hboth := overrideModel_built.own_member_under_each_name overrideLibrary {}
    { owner := ⟨9⟩ } boxMethod
  obtain ⟨hown, hinherited⟩ := (hboth _ _ _).1 overrideLibrary_owns
  have hlibrary := (hinherited (by decide +kernel) boxMethod_inheritable (.library 1)).1
    (by decide +kernel)
  obtain ⟨hfound, hother⟩ := (hboth _ _ _).2 overrideModel_owns
  obtain ⟨view, hsees, hsole⟩ :=
    hother (by decide +kernel) (by decide +kernel) boxMethod_inheritable
  refine ⟨overrideModel_built, hown, hfound, hlibrary, view, hsees, ?_⟩
  rw [← hsole, resolves_iff_dispatch (by decide +kernel) (by decide +kernel) (by decide +kernel)]
  decide +kernel

/-- Under the signature name of its class the method is passed over for that of the
superclass. -/
theorem own_method_passed_over :
    overrideLibrary.Reached ∧ overrideModel.Built ∧ boxMethod.Inheritable ∧
    (Owns overrideLibrary.find? overrideLibrary.entity? boxMethod (.library 2)
        (boxEntity .library (.library 0)) (.library 3) ∧
      overrideLibrary.find? boxMethod.name = none ∧
      overrideLibrary.find? "a.Base.m()" = some (.library 1) ∧
      (overrideLibrary.dispatch boxMethod.name).binding = some (.resolved (.library 1))) ∧
    (Owns overrideModel.findAny? overrideModel.entity? boxMethod (.project 2)
        (boxEntity .internal (.project 0)) (.project 3) ∧
      overrideModel.findAny? boxMethod.name = none ∧
      Name.isCompoundType boxMethod.name = false ∧
      overrideModel.findAny? "a.Base.m()" = some (.project 1) ∧
      ∃ after, getVirtualEntity boxMethod.name
        { corpus := {}, cache := { owner := ⟨9⟩ }, model := overrideModel } =
          .ok (.resolved (.project 1)) after) := by
  have hcompound : Name.isCompoundType boxMethod.name = false := by decide +kernel
  have hany : overrideModel.findAny? boxMethod.name = none := by decide +kernel
  refine ⟨overrideLibrary_reached, overrideModel_built, boxMethod_inheritable,
    ⟨overrideLibrary_owns, by decide +kernel, by decide +kernel, by decide +kernel⟩,
    overrideModel_owns, hany, hcompound, by decide +kernel, ?_⟩
  rw [resolves_iff_dispatch (by decide +kernel) hany hcompound]
  decide +kernel

end ProjectModel

end Referent
