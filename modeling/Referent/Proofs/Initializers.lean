import Referent.Proofs.Grammar
import Referent.Proofs.Steady
import Referent.Proofs.Upkeep

/-!
# Constructors and initializers

Dispatch has nothing to say about `<init>` and `<clinit>`, so a lookup of an unbound constructor
comes to the placeholder of its name, and inserts no other row (`getVirtualEntity_placing`). This is
so for every name with a parameter list. Without one, the brackets of `a.A.<init>` are those of a
type argument: the name is read as a parameterized type before anything asks for its member
(`Name.isCompoundType_bracketed`), and is made as one (`getVirtualEntity_making`).

Which of the two happens depends on `Name.isCompoundType` and on nothing else
(`Built.initializer_unresolved_unless_compound`).
-/

namespace Referent

open LookupState

namespace Name

/-! ## Which of them are read as compound types -/

theorem isMethod_ofList (cs : List Char) : isMethod (String.ofList cs) = cs.contains '(' := by
  rw [isMethod, String.toList_ofList]

theorem not_isCompoundType_of_isMethod {name : String} (h : isMethod name = true) :
    isCompoundType name = false := by
  simp only [isCompoundType, h, Bool.not_true, Bool.false_and]

/-- A name with another one behind it in brackets is read as a parameterized type. -/
theorem isCompoundType_bracketed (base inner : SimpleName) :
    isCompoundType (String.ofList (base.chars ++ inBrackets inner.chars)) = true := by
  let type : Plain := .parameterized base
    (.one (.one (.plain (.simple inner))) ⟨[], by simp, by simp, by simp⟩)
  have hchars : base.chars ++ inBrackets inner.chars = type.chars := by
    simp [type, Plain.chars, Groups.chars, Terms.chars, Term.chars, inBrackets]
  have hmethod : (base.chars ++ inBrackets inner.chars).contains '(' = false := by
    have hbase : '(' ∉ base.chars := fun hmem => base.unmarked _ hmem (by decide)
    have hinner : '(' ∉ inner.chars := fun hmem => inner.unmarked _ hmem (by decide)
    simp [inBrackets, hbase, hinner]
  have hshape := type.ofName_name
  rw [Plain.name, ← hchars] at hshape
  have hlast : (base.chars ++ inBrackets inner.chars).getLast? = some '>' := by
    simp [inBrackets, List.getLast?_cons]
  rw [isCompoundType, isMethod_ofList, hmethod, hshape]
  simp [type, Plain.shape, hlast]

end Name

/-! ## Lookups that insert a placeholder at most -/

namespace ProjectModel

variable {model : ProjectModel} {name : String} {ref : Name.MemberRef}

/-- Dispatch decides nothing about constructors and initializers. -/
theorem dispatch_of_initializer (href : Name.MemberRef.ofName? name = some ref)
    (hinit : ref.isConstructorOrInitializer = true) : model.dispatch name = {} := by
  simp only [dispatch, href, hinit, if_true]

/-- A lookup that dispatch leaves open, in a state without placeholders, comes to the placeholder of
the name, if it comes to anything, and to no other row. -/
theorem getVirtualEntity_placing {state : LookupState} (hsound : state.corpus.store.Sound)
    (hmemo : state.model.memoized? name = none) (hnew : state.model.placeholders[name]? = none)
    (hany : state.model.findAny? name = none) (hname : Name.isCompoundType name = false)
    (hdispatch : state.model.dispatch name = {}) :
    (∀ row, state.corpus.store.New (state.leaving (getVirtualEntity name)).corpus.store row →
      row.kind = .unknown ∧ row.name = name) ∧
    ∀ binding after, getVirtualEntity name state = .ok binding after → ∃ slot id,
      binding = .unresolved (.project slot) ∧
        after.model.entity? (.project slot) = some (PlaceholderCache.entity name id) := by
  have hopen := getVirtualEntity_open hmemo hany hname (by rw [hdispatch])
  have hnoted : state.noting (state.model.dispatch name).anomaly = state := by
    rw [hdispatch]
    rfl
  rw [hnoted] at hopen
  rcases Lookup.unknown_cases hsound hnew with
    ⟨id, corpus, cache, hrun, hstore⟩ | ⟨cause, corpus, hrun, hstore⟩
  · rw [hrun] at hopen
    rw [leaving_of_ok hopen]
    constructor
    · rintro row ⟨hafter, hbefore⟩
      rcases hstore with hsame | hinserted
      · exact absurd (hsame ▸ hafter) hbefore
      · simp only [remembering, hinserted.entities, Array.toList_push] at hafter
        rcases List.mem_append.1 hafter with hold | hnew
        · exact absurd hold hbefore
        · rw [List.mem_singleton.1 hnew]
          exact ⟨rfl, rfl⟩
    · intro binding after hok
      rw [hopen] at hok
      cases hok
      refine ⟨_, id, rfl, ?_⟩
      simp [entity?, remembering, Table.allocate, Table.size]
  · rw [hrun] at hopen
    rw [leaving_of_error hopen]
    constructor
    · rintro row ⟨hafter, hbefore⟩
      exact absurd (hstore ▸ hafter) hbefore
    · intro binding after hok
      rw [hopen] at hok
      cases hok

/-- A lookup that makes a compound type resolves to it. -/
theorem getVirtualEntity_making {base : Nat} {state : LookupState} (h : Ready base state)
    (hmemo : state.model.memoized? name = none) (hany : state.model.findAny? name = none)
    (hname : Name.isCompoundType name = true) {binding : Binding} {after : LookupState}
    (hrun : getVirtualEntity name state = .ok binding after) :
    ∃ target, binding = .resolved target ∧ state.MadeSince after name target := by
  have hfree := (findAny?_eq_none.1 hany).1
  obtain ⟨kind, hkind⟩ := isSome_compoundKind? hname
  rw [getVirtualEntity_compound hmemo hany hname] at hrun
  cases hget : getEntity name state with
  | error err last =>
    rw [hget] at hrun
    cases hrun
  | ok ref last =>
    rw [hget] at hrun
    cases hrun
    exact ⟨ref, rfl, madeSince_of_getEntity h hfree hkind hget⟩

/-- Nothing that is called a constructor or initializer resolves, unless its name is bound or reads
as a compound type: there is a placeholder for it and no other row. A name that reads as a compound
type resolves to one, which is made of it. A name with parameters never reads as one, and a simple
name followed by another one in brackets does. While the store fails nothing and has ids left, there
is an answer. -/
theorem Built.initializer_unresolved_unless_compound (hbuilt : model.Built) {corpus : Access}
    (hstore : corpus.store.Reached) (cache : PlaceholderCache)
    (href : Name.MemberRef.ofName? name = some ref)
    (hinit : ref.isConstructorOrInitializer = true) (hfree : model.findAny? name = none) :
    let start : LookupState := { corpus, cache, model }
    let last := start.leaving (getVirtualEntity name)
    (Name.isMethod name = true → Name.isCompoundType name = false) ∧
    (∀ base inner : Name.SimpleName,
      name = String.ofList (base.chars ++ Name.inBrackets inner.chars) →
      Name.isCompoundType name = true) ∧
    (Name.isCompoundType name = false →
      (∀ binding after, getVirtualEntity name start = .ok binding after → ∃ slot id,
        binding = .unresolved (.project slot) ∧
          after.model.entity? (.project slot) = some (PlaceholderCache.entity name id)) ∧
      (∀ row, corpus.store.New last.corpus.store row → row.kind = .unknown ∧ row.name = name) ∧
      (corpus.Healthy 1 → succeeds (getVirtualEntity name start) = true)) ∧
    (Name.isCompoundType name = true →
      (∀ binding after, getVirtualEntity name start = .ok binding after → ∃ target,
        binding = .resolved target ∧ start.MadeSince after name target) ∧
      (corpus.Healthy (Name.weight name) → succeeds (getVirtualEntity name start) = true)) := by
  intro start last
  have hfresh := hbuilt.fresh
  have hmemo : start.model.memoized? name = none := hfresh.memoized?_eq_none name
  refine ⟨Name.not_isCompoundType_of_isMethod,
    fun base inner hspelled => hspelled ▸ Name.isCompoundType_bracketed base inner, ?_, ?_⟩
  · intro hname
    have hplacing := getVirtualEntity_placing hstore.sound hmemo
      (by simp [start, hfresh.placeholders]) hfree hname (dispatch_of_initializer href hinit)
    refine ⟨hplacing.2, hplacing.1, fun hhealthy => ?_⟩
    have hsucceeds : Lookup.Succeeds 0 (getVirtualEntity name start) :=
      getVirtualEntity_succeeds_unmade hhealthy hname
    exact hsucceeds.succeeds_eq_true
  · intro hname
    refine ⟨fun binding after hrun => ?_, fun hhealthy => ?_⟩
    · exact getVirtualEntity_making (hfresh.ready hstore cache) hmemo hfree hname hrun
    · have hsucceeds : Lookup.Succeeds 0 (getVirtualEntity name start) :=
        getVirtualEntity_succeeds (by simpa using hhealthy)
      exact hsucceeds.succeeds_eq_true

/-- A store with a class and nothing else. -/
def bareStore : Store :=
  .ofRows [{ project := ⟨1⟩, name := "a.A", kind := .class, id := ⟨1⟩ }]

/-- A constructor with parameters comes to its placeholder. -/
theorem Built.constructor_with_parameters_unresolved :
    let start : LookupState :=
      { corpus := { store := bareStore }, cache := { owner := ⟨9⟩ }, model := alone bareStore ⟨1⟩ }
    (alone bareStore ⟨1⟩).Built ∧ bareStore.Reached ∧
      ∃ binding after slot id, getVirtualEntity "a.A.<init>(int)" start = .ok binding after ∧
        binding = .unresolved (.project slot) ∧
        after.model.entity? (.project slot) = some (PlaceholderCache.entity "a.A.<init>(int)" id) ∧
        ∀ row, bareStore.New after.corpus.store row → row.kind = .unknown := by
  intro start
  have hbuilt : (alone bareStore ⟨1⟩).Built := alone_built bareStore ⟨1⟩
  have hstore : start.corpus.store.Reached := Store.reached_ofRows _
  have href : Name.MemberRef.ofName? "a.A.<init>(int)" = some ⟨"a.A", "<init>(int)"⟩ := by
    decide +kernel
  have hfree : (alone bareStore ⟨1⟩).findAny? "a.A.<init>(int)" = none := by decide +kernel
  obtain ⟨hmethod, -, hplain, -⟩ := hbuilt.initializer_unresolved_unless_compound hstore
    { owner := ⟨9⟩ } href (by decide +kernel) hfree
  obtain ⟨hanswer, hrows, hsucceeds⟩ := hplain (hmethod (by decide +kernel))
  have hhealthy : start.corpus.Healthy 1 := ⟨hstore.sound, rfl, by decide +kernel⟩
  obtain ⟨binding, after, hrun⟩ := exists_ok_of_succeeds (hsucceeds hhealthy)
  obtain ⟨slot, id, hbinding, hentity⟩ := hanswer binding after hrun
  refine ⟨hbuilt, hstore, binding, after, slot, id, hrun, hbinding, hentity, fun row hnew => ?_⟩
  rw [leaving_of_ok hrun] at hrows
  exact (hrows row hnew).1

/-- A constructor without parameters is told as a type, which the lookup has made. -/
theorem bare_constructor_made_type :
    let start : LookupState :=
      { corpus := { store := bareStore }, cache := { owner := ⟨9⟩ }, model := alone bareStore ⟨1⟩ }
    (alone bareStore ⟨1⟩).Built ∧ bareStore.Reached ∧
      Name.MemberRef.ofName? "a.A.<init>" = some ⟨"a.A", "<init>"⟩ ∧
      Name.MemberRef.isConstructorOrInitializer ⟨"a.A", "<init>"⟩ = true ∧
      (alone bareStore ⟨1⟩).findAny? "a.A.<init>" = none ∧
      start.told? "a.A.<init>" = some (.resolved,
        [some { name := "a.A.<init>", kind := .parameterizedType, origin := .notApplicable,
                declared := none }]) := by
  intro start
  refine ⟨alone_built bareStore ⟨1⟩, Store.reached_ofRows _, ?_⟩
  decide +kernel

end ProjectModel

end Referent
