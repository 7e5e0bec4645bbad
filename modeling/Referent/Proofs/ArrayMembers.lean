import Referent.Proofs.Joining
import Referent.Proofs.OwnMembers

/-!
# Members of arrays

Arrays have the members of the root type. A lookup takes a shortcut to them: it looks for the name
of the member in the root type, and does not go up from there. So an array has what the root type
declares under its own name (and lacks what the root type lacks), but misses what the root type
inherits, in a library and in a project alike (`Built.array_member_like_root_unless_inherited`,
`inherited_member_missed_by_array`).

* **Reading**: whether `receiver.member` is read as it was put together depends on the two halves
  separately (`Name.MemberRef.ofName?_name_iff`), so a member of an array is read as one of the root
  type, too.
* **Comparing** (`Binding.Alike`): the shortcut finds one declaration or nothing, and the walk from
  the root type finds nothing exactly if nothing is inherited (`Hierarchy.resolve_eq_none_iff`).
-/

namespace Referent

open LookupState

/-! ## References to members of arrays -/

namespace Name

/-- The reference is read as a member that types inherit, and its receiver is an array. -/
structure MemberRef.OfArray (ref : MemberRef) : Prop where
  read : ofName? ref.name = some ref
  inherited : ref.isConstructorOrInitializer = false
  array : isArray ref.receiver = true

end Name

/-! ## Alike -/

/-- Two references come out alike: they resolve to the same entity, are ambiguous over the same
entities, or do not resolve. -/
def Binding.Alike (first second : Binding) : Prop :=
  first.status = second.status ∧
    (first.status ≠ .unresolved → first.targets.Perm second.targets)

theorem Binding.Alike.refl (binding : Binding) : binding.Alike binding :=
  ⟨rfl, fun _ => .refl _⟩

namespace LibraryModel

variable {library : LibraryModel} {ref : Name.MemberRef} {receiver : EntityRef}

/-- The root type has a name that is no array's and can be a receiver. -/
structure Rooted (library : LibraryModel) : Prop where
  receiving : Name.Receiving library.rootType
  noArray : Name.isArray library.rootType = false

/-- The same member of the root type. -/
def ofRoot (library : LibraryModel) (ref : Name.MemberRef) : Name.MemberRef :=
  { ref with receiver := library.rootType }

theorem inheritable_ofRoot (hroot : library.Rooted) (href : ref.OfArray) :
    (library.ofRoot ref).Inheritable where
  read := Name.MemberRef.ofName?_name_iff.2
    ⟨hroot.receiving, (Name.MemberRef.ofName?_name_iff.1 href.read).2⟩
  inherited := href.inherited
  noArray := hroot.noArray

/-- A member of an array is looked up under the name of the root type's, and nowhere else. -/
theorem dispatch_of_array (hfree : library.find? ref.name = none) (href : ref.OfArray) :
    library.dispatch ref.name =
      { binding := (library.find? (library.ofRoot ref).name).map .resolved } := by
  simp only [dispatch, hfree, href.read, href.inherited, href.array, Bool.false_eq_true, if_false,
    if_true]
  rfl

/-- In a library, a member of an array comes out like that of the root type if the root type has it
under its own name, or does not have it at all, and never if it inherits it. -/
theorem array_member_alike_iff (hroot : library.Rooted) (href : ref.OfArray)
    (hbound : library.find? library.rootType = some receiver)
    (hfree : library.find? ref.name = none) :
    Option.Rel Binding.Alike (library.dispatch ref.name).binding
        (library.dispatch (library.ofRoot ref).name).binding ↔
      (library.find? (library.ofRoot ref).name).isSome = true ∨
        ¬ library.hierarchy.HasInherited ref.member receiver := by
  rw [dispatch_of_array hfree href]
  cases hfind : library.find? (library.ofRoot ref).name with
  | some target =>
    rw [dispatch_of_found hfind]
    simp [Binding.Alike.refl]
  | none =>
    obtain ⟨hread, hinit, hnoArray⟩ := inheritable_ofRoot hroot href
    have hnone : (library.hierarchy.resolve receiver (library.ofRoot ref).name
        (library.ofRoot ref)).binding = none ↔
          ¬ library.hierarchy.HasInherited ref.member receiver := Hierarchy.resolve_eq_none_iff
    rw [dispatch_of_known hfind hread hinit hnoArray hbound, ← hnone]
    constructor
    · intro halike
      cases hbinding : (library.hierarchy.resolve receiver (library.ofRoot ref).name
          (library.ofRoot ref)).binding with
      | none => exact .inr rfl
      | some binding =>
        rw [hbinding] at halike
        cases halike
    · rintro (hsome | hbinding)
      · cases hsome
      · rw [hbinding]
        exact .none

end LibraryModel

namespace ProjectModel

variable {model : ProjectModel} {name : String} {ref : Name.MemberRef}
  {receiver target : EntityRef} {binding first second : Binding}

/-- A virtual lookup in some copy of the model gives this answer. -/
def Answers (model : ProjectModel) (name : String) (binding : Binding) : Prop :=
  ∃ state after, state.model = model ∧ getVirtualEntity name state = .ok binding after

/-- A fresh model answers with what the name is bound to. -/
theorem Fresh.answers_bound (hfresh : model.Fresh) (hbound : model.findAny? name = some target)
    (h : model.Answers name binding) : binding = .resolved target := by
  obtain ⟨state, after, rfl, hrun⟩ := h
  rw [getVirtualEntity_found (hfresh.memoized?_eq_none name) hbound] at hrun
  cases hrun
  rfl

/-- If the name is not bound, a compound type is made, or dispatch decides, or there is a
placeholder. -/
theorem Fresh.answers_free (hfresh : model.Fresh) (hany : model.findAny? name = none)
    (h : model.Answers name binding) :
    Name.isCompoundType name = true ∧ binding.status = .resolved ∨
      Name.isCompoundType name = false ∧ ((model.dispatch name).binding = some binding ∨
        (model.dispatch name).binding = none ∧ binding.status = .unresolved) := by
  obtain ⟨state, after, rfl, hrun⟩ := h
  have hexit := getVirtualEntity_exit name state
  rw [hrun] at hexit
  cases hexit with
  | remembered hold =>
    rw [hfresh.memoized?_eq_none] at hold
    cases hold
  | bound _ hbound =>
    rw [hany] at hbound
    cases hbound
  | made _ _ hname _ => exact .inl ⟨hname, rfl⟩
  | decided _ _ hname hdecided => exact .inr ⟨hname, .inl hdecided⟩
  | placed _ _ hname hopen _ => exact .inr ⟨hname, .inr ⟨hopen, rfl⟩⟩

theorem Fresh.dispatch_of_array (hfresh : model.Fresh) (href : ref.OfArray) :
    model.dispatch ref.name =
      { binding := (model.findAny? (model.library.ofRoot ref).name).map .resolved } := by
  simp only [dispatch, href.read, href.inherited, href.array, Bool.false_eq_true, if_false, if_true,
    hfresh.declared?_eq]
  rfl

/-- In a project that has just been built, a member of an array comes out like that of the root
type if that is bound, or else is no compound type and is not inherited. -/
theorem Fresh.array_member_alike_iff (hfresh : model.Fresh) (hroot : model.library.Rooted)
    (href : ref.OfArray) {view : Hierarchy}
    (hsees : model.Sees model.library.rootType view receiver)
    (hfree : model.findAny? ref.name = none) (hname : Name.isCompoundType ref.name = false)
    (hfirst : model.Answers ref.name first)
    (hsecond : model.Answers (model.library.ofRoot ref).name second) :
    first.Alike second ↔
      (model.findAny? (model.library.ofRoot ref).name).isSome = true ∨
        Name.isCompoundType (model.library.ofRoot ref).name = false ∧
          ¬ view.HasInherited ref.member receiver := by
  have harray := hfresh.answers_free hfree hfirst
  rw [hname, hfresh.dispatch_of_array href] at harray
  cases hfind : model.findAny? (model.library.ofRoot ref).name with
  | some target =>
    rw [hfind] at harray
    have hresolved : first = .resolved target := by simpa [eq_comm] using harray
    rw [hresolved, hfresh.answers_bound hfind hsecond]
    simp [Binding.Alike.refl]
  | none =>
    rw [hfind] at harray
    have hunresolved : first.status = .unresolved := by simpa using harray
    have halike : first.Alike second ↔ second.status = .unresolved := by
      simp [Binding.Alike, hunresolved, eq_comm]
    rw [halike]
    rcases hfresh.answers_free hfind hsecond with
      ⟨hcompound, hresolved⟩ | ⟨hcompound, hdispatch⟩
    · simp [hcompound, hresolved]
    · obtain ⟨hread, hinit, hnoArray⟩ := LibraryModel.inheritable_ofRoot hroot href
      have hlibrary := (findAny?_eq_none.1 hfind).2
      have hnone : (view.resolve receiver (model.library.ofRoot ref).name
          (model.library.ofRoot ref)).binding = none ↔ ¬ view.HasInherited ref.member receiver :=
        Hierarchy.resolve_eq_none_iff
      rw [dispatch_of_sees hlibrary hread hinit hnoArray hsees] at hdispatch
      rcases hdispatch with hdecided | ⟨hopen, hstatus⟩
      · have hstatus := (Hierarchy.resolve_targets hdecided).1
        rw [hdecided] at hnone
        simp [hcompound, hstatus, ← hnone]
      · simp [hcompound, hstatus, hnone.1 hopen]

/-- Arrays have all members of a root type without supertypes. -/
theorem Fresh.array_member_alike_of_no_parents (hfresh : model.Fresh)
    (hroot : model.library.Rooted) (href : ref.OfArray) {view : Hierarchy}
    (hsees : model.Sees model.library.rootType view receiver) {type : Entity}
    (htype : view.entity? receiver = some type) (hparents : type.parents = [])
    (hfree : model.findAny? ref.name = none) (hname : Name.isCompoundType ref.name = false)
    (hnameOfRoot : Name.isCompoundType (model.library.ofRoot ref).name = false)
    (hfirst : model.Answers ref.name first)
    (hsecond : model.Answers (model.library.ofRoot ref).name second) : first.Alike second :=
  (hfresh.array_member_alike_iff hroot href hsees hfree hname hfirst hsecond).2
    (.inr ⟨hnameOfRoot, Hierarchy.not_hasInherited_of_no_parents htype hparents⟩)

/-- A member of an array comes out like the same member of the root type if that is bound under the
name of the root type itself, or if the root type does not inherit it; if it is not bound and is
inherited, it comes out otherwise. This holds of a library, and of a project that has just been
built, where each of the two lookups has a model of its own; there the member of the root type must
not read as a compound type, or it is made as one. While the store fails nothing and has ids left,
lookups have answers. -/
theorem Built.array_member_like_root_unless_inherited (hbuilt : model.Built)
    (library : LibraryModel) (href : ref.OfArray) (receiver : EntityRef) :
    (library.Rooted → library.find? library.rootType = some receiver →
      library.find? ref.name = none →
      (Option.Rel Binding.Alike (library.dispatch ref.name).binding
          (library.dispatch (library.ofRoot ref).name).binding ↔
        (library.find? (library.ofRoot ref).name).isSome = true ∨
          ¬ library.hierarchy.HasInherited ref.member receiver)) ∧
    (model.library.Rooted → model.findAny? model.library.rootType = some receiver →
      model.findAny? ref.name = none → Name.isCompoundType ref.name = false →
      ∃ view, model.Sees model.library.rootType view receiver ∧
        (∀ first second, model.Answers ref.name first →
          model.Answers (model.library.ofRoot ref).name second →
          (first.Alike second ↔
            (model.findAny? (model.library.ofRoot ref).name).isSome = true ∨
              Name.isCompoundType (model.library.ofRoot ref).name = false ∧
                ¬ view.HasInherited ref.member receiver)) ∧
        ∀ corpus cache name, corpus.Healthy (Name.weight name) →
          succeeds (getVirtualEntity name { corpus, cache, model }) = true) := by
  have hfresh := hbuilt.fresh
  constructor
  · intro hroot hbound hfree
    exact LibraryModel.array_member_alike_iff hroot href hbound hfree
  · intro hroot hbound hfree hname
    obtain ⟨view, hsees⟩ := exists_sees hbound
    refine ⟨view, hsees, fun first second hfirst hsecond =>
      hfresh.array_member_alike_iff hroot href hsees hfree hname hfirst hsecond, ?_⟩
    intro corpus cache name hhealthy
    have hsucceeds : Lookup.Succeeds 0 (getVirtualEntity name { corpus, cache, model }) :=
      getVirtualEntity_succeeds (by simpa using hhealthy)
    exact hsucceeds.succeeds_eq_true

/-- A library in which the root type `a.Root` declares one method and inherits another. -/
def rootStore : Store :=
  (Store.ofRows
    [{ project := ⟨10⟩, name := "a.Base", kind := .class, id := ⟨1⟩ },
     { project := ⟨10⟩, name := "a.Base.m", kind := .method, params := some "()", id := ⟨2⟩ },
     { project := ⟨10⟩, name := "a.Root", kind := .class, id := ⟨3⟩ },
     { project := ⟨10⟩, name := "a.Root.own", kind := .method, params := some "()",
       id := ⟨4⟩ }]).relate
    { kind := .extends, left := ⟨3⟩, right := ⟨1⟩, project := ⟨10⟩ }

def rootLibrary : LibraryModel :=
  let start := (LibraryModel.empty .virtual).withRootType "a.Root"
  { start with draft := start.draft.fill .virtual rootStore [⟨10⟩] }

/-- A project without declarations over that library. -/
def rootModel : ProjectModel :=
  atop rootStore rootLibrary ⟨1⟩

theorem rootLibrary_reached : rootLibrary.Reached :=
  ((LibraryModel.Reached.empty .virtual).withRootType "a.Root").filled rootStore [⟨10⟩]

theorem rootModel_built : rootModel.Built :=
  atop_built rootStore rootLibrary_reached ⟨1⟩

theorem rootLibrary_rooted : rootLibrary.Rooted := by
  constructor
  · constructor <;> decide +kernel
  · decide +kernel

/-- An array has the method that the root type declares. -/
theorem Built.array_has_method_of_root :
    let ref : Name.MemberRef := { receiver := "int[]", member := "own()" }
    rootLibrary.Reached ∧ rootModel.Built ∧
      Option.Rel Binding.Alike (rootLibrary.dispatch ref.name).binding
        (rootLibrary.dispatch (rootLibrary.ofRoot ref).name).binding ∧
      ∃ first second, rootModel.Answers ref.name first ∧
        rootModel.Answers (rootModel.library.ofRoot ref).name second ∧ first.Alike second := by
  intro ref
  let corpus : Access := { store := rootStore }
  have hstore : rootStore.Reached := .relate _ (Store.reached_ofRows _)
  have href : ref.OfArray := by constructor <;> decide +kernel
  obtain ⟨hlibrary, hproject⟩ :=
    rootModel_built.array_member_like_root_unless_inherited rootLibrary href (.library 2)
  have hshared := (hlibrary rootLibrary_rooted (by decide +kernel) (by decide +kernel)).2
    (.inl (by decide +kernel))
  obtain ⟨view, -, halike, hsucceeds⟩ := hproject rootLibrary_rooted (by decide +kernel)
    (by decide +kernel) (by decide +kernel)
  have hanswer : ∀ name, corpus.Healthy (Name.weight name) →
      ∃ binding, rootModel.Answers name binding := by
    intro name hhealthy
    obtain ⟨binding, after, hrun⟩ :=
      exists_ok_of_succeeds (hsucceeds corpus { owner := ⟨9⟩ } name hhealthy)
    exact ⟨binding, _, after, rfl, hrun⟩
  obtain ⟨first, hfirst⟩ := hanswer ref.name ⟨hstore.sound, rfl, by decide +kernel⟩
  obtain ⟨second, hsecond⟩ := hanswer (rootModel.library.ofRoot ref).name
    ⟨hstore.sound, rfl, by decide +kernel⟩
  exact ⟨rootLibrary_reached, rootModel_built, hshared, first, second, hfirst, hsecond,
    (halike first second hfirst hsecond).2 (.inl (by decide +kernel))⟩

/-- An array misses the method that the root type inherits. -/
theorem inherited_member_missed_by_array :
    let ref : Name.MemberRef := { receiver := "int[]", member := "m()" }
    rootLibrary.Reached ∧ rootModel.Built ∧ rootLibrary.Rooted ∧ ref.OfArray ∧
      (rootLibrary.find? "a.Root" = some (.library 2) ∧ rootLibrary.find? ref.name = none ∧
        (rootLibrary.dispatch ref.name).binding = none ∧
        (rootLibrary.dispatch (rootLibrary.ofRoot ref).name).binding =
          some (.resolved (.library 1))) ∧
      rootModel.findAny? "a.Root" = some (.library 2) ∧ rootModel.findAny? ref.name = none ∧
      Name.isCompoundType ref.name = false ∧
      ∃ first, rootModel.Answers ref.name first ∧ first.status = .unresolved ∧
        rootModel.Answers (rootModel.library.ofRoot ref).name (.resolved (.library 1)) := by
  intro ref
  let start : LookupState :=
    { corpus := { store := rootStore }, cache := { owner := ⟨9⟩ }, model := rootModel }
  let refOfRoot := rootModel.library.ofRoot ref
  have href : ref.OfArray := by constructor <;> decide +kernel
  obtain ⟨hbound, hfree, hname, hopen⟩ : rootModel.findAny? "a.Root" = some (.library 2) ∧
      rootModel.findAny? ref.name = none ∧ Name.isCompoundType ref.name = false ∧
      (rootModel.dispatch ref.name).binding = none := by decide +kernel
  obtain ⟨hfreeOfRoot, hnameOfRoot, hdecided⟩ : rootModel.findAny? refOfRoot.name = none ∧
      Name.isCompoundType refOfRoot.name = false ∧
      (rootModel.dispatch refOfRoot.name).binding = some (.resolved (.library 1)) := by
    decide +kernel
  have hmemo := rootModel_built.fresh.memoized?_eq_none
  have hok : succeeds (getVirtualEntity ref.name start) = true := by decide +kernel
  obtain ⟨first, after, hrun⟩ := exists_ok_of_succeeds hok
  have hfirst : rootModel.Answers ref.name first := ⟨start, after, rfl, hrun⟩
  have hunresolved : first.status = .unresolved := by
    simpa [hname, hopen] using rootModel_built.fresh.answers_free hfree hfirst
  have hsecond : rootModel.Answers refOfRoot.name (.resolved (.library 1)) :=
    ⟨start, _, rfl,
      getVirtualEntity_dispatched (hmemo refOfRoot.name) hfreeOfRoot hnameOfRoot hdecided⟩
  exact ⟨rootLibrary_reached, rootModel_built, rootLibrary_rooted, href, by decide +kernel, hbound,
    hfree, hname, first, hfirst, hunresolved, hsecond⟩

end ProjectModel

end Referent
