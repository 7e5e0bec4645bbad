import Referent.Proofs.Leftovers

/-!
# Loading again after a failure

A load that fails leaves the model as far as it came, and the model may be told to load the same
list again. How far that makes up for the failure is settled by what the failed load has left
(`LibraryModel.retry_of_failed_load`). Names denote entities with the ids that they would have. What
was loaded before is declared a second time and clashes with itself, so the anomalies differ unless
the failed load has loaded nothing. A type that the failed load has entered in virtual mode is
stranded: its name stays with an entity that is not wired any more.
-/

namespace Referent

/-- What a run that has failed leaves. -/
def remains : EStateM.Result ε σ α → Option σ
  | .ok _ _ => none
  | .error _ s => some s

theorem exists_error_of_remains {result : EStateM.Result ε σ α} {p : σ → Bool}
    (h : (remains result).any p = true) : ∃ err s, result = .error err s ∧ p s = true := by
  cases result with
  | ok a s => cases h
  | error err s => exact ⟨err, s, rfl, h⟩

namespace LibraryModel

/-- A library model that is being built: what starting, seeding and loading can lead to, with loads
that may fail. -/
inductive Builder : LibraryModel → Prop
  | empty (mode : Mode) : Builder (empty mode)
  | withCore {model core : LibraryModel} :
      Builder model → core.Reached → Builder (model.withCore core)
  | withRootType {model : LibraryModel} (rootType : String) :
      Builder model → Builder (model.withRootType rootType)
  | loaded {model model' : LibraryModel} {libraries : List ProjectId} {desk desk' : Desk} :
      Builder model → load libraries (model, desk) = .ok () (model', desk') → Builder model'
  | failed {model model' : LibraryModel} {libraries : List ProjectId} {desk desk' : Desk}
      {err : ModelError} :
      Builder model → load libraries (model, desk) = .error err (model', desk') → Builder model'

theorem Builder.reached {model : LibraryModel} (h : model.Builder) : model.Reached := by
  induction h with
  | empty mode => exact .empty mode
  | withCore _ hcore ih => exact ih.withCore hcore
  | withRootType rootType _ ih => exact ih.withRootType rootType
  | loaded _ hload ih => exact ih.loaded hload
  | failed _ hload ih => exact ih.failed hload

/-- A virtual model tracks ids while it is being built. -/
theorem Builder.tracks {model : LibraryModel} (h : model.Builder) :
    model.mode = .virtual → model.draft.table.typeSlots.isSome = true := by
  induction h with
  | empty mode =>
    rintro rfl
    rfl
  | @withCore model core _ _ _ =>
    intro hmode
    show (prepare model.mode core.draft.table).typeSlots.isSome = true
    rw [show model.mode = .virtual from hmode]
    rfl
  | withRootType _ _ ih => exact ih
  | @loaded model model' libraries desk desk' _ hload ih =>
    obtain ⟨rfl, -⟩ := load_eq_ok hload
    rw [Draft.tracks_fill]
    exact ih
  | @failed model model' libraries desk desk' err _ hload ih =>
    obtain ⟨left, hleft, rfl⟩ := load_eq_error hload
    rw [hleft.tracks]
    exact ih

/-- A failed load has entered a type under a name that was free, in virtual mode. -/
structure Stranded (model left : LibraryModel) (name : String) : Prop where
  virtual : left.mode = .virtual
  free : model.find? name = none
  bound : ∃ ref entity, left.find? name = some ref ∧ left.entity? ref = some entity ∧
    entity.kind.isClassLike = true

/-! ## Both attempts -/

/-- A list whose load failed once is loaded again on what the failure has left, and, with no
failure before, on the model as it was. -/
structure Attempts (model : LibraryModel) (store : Store) (libraries : List ProjectId)
    (before : List EntityRow) (order : List ProjectId) (draft : Draft)
    (retried never : LibraryModel) : Prop where
  builder : model.Builder
  sound : store.Sound
  leaves : Draft.Leaves model.mode store libraries model.draft before order draft
  retried : retried = { model with draft := draft.fill model.mode store libraries }
  never : never = { model with draft := model.draft.fill model.mode store libraries }

namespace Attempts

variable {model retried never : LibraryModel} {store : Store} {libraries : List ProjectId}
  {before : List EntityRow} {order : List ProjectId} {draft : Draft}

theorem retried_eq (h : Attempts model store libraries before order draft retried never) :
    retried = Draft.Leaves.modelAgain model.mode model.rootType store libraries draft := by
  rw [h.retried, Draft.Leaves.modelAgain_eq]

theorem never_eq (h : Attempts model store libraries before order draft retried never) :
    never = Draft.Leaves.modelAgain model.mode model.rootType store libraries model.draft := by
  rw [h.never, Draft.Leaves.modelAgain_eq]

theorem id?_eq (h : Attempts model store libraries before order draft retried never)
    (name : String) : retried.id? name = never.id? name := by
  rw [h.retried_eq, h.never_eq]
  exact h.leaves.id?_again h.builder.reached.sound model.rootType name

/-! ### Anomalies -/

theorem anomalies_retried (h : Attempts model store libraries before order draft retried never) :
    retried.anomalies = draft.diagnostics.toList ++
      flaws model.mode store libraries draft.table fun _ => false := by
  rw [h.retried]
  exact Draft.toList_fill (fun hmode => h.leaves.typeSlots.trans (h.builder.tracks hmode)) _
    libraries

theorem anomalies_never (h : Attempts model store libraries before order draft retried never) :
    never.anomalies = model.draft.diagnostics.toList ++
      flaws model.mode store libraries model.draft.table fun _ => false := by
  rw [h.never]
  exact Draft.toList_fill h.builder.tracks _ libraries

/-- Anomalies that are the same show that the failed load has added and recorded nothing. -/
theorem nothing_left (h : Attempts model store libraries before order draft retried never)
    (heq : retried.anomalies = never.anomalies) :
    before = [] ∧ draft.diagnostics.toList = model.draft.diagnostics.toList := by
  rw [h.anomalies_retried, h.anomalies_never] at heq
  have hbefore : before = [] := by
    by_contra hne
    obtain ⟨name, hname⟩ := Draft.Leaves.exists_claimed hne
    have hmore := h.leaves.count_again h.builder.tracks hname
    rw [heq] at hmore
    exact Nat.lt_irrefl _ hmore
  have hleaves := h.leaves
  subst hbefore
  rw [hleaves.flaws_unchanged] at heq
  exact ⟨rfl, List.append_cancel_right heq⟩

theorem anomalies_eq_iff (h : Attempts model store libraries before order draft retried never) :
    retried.anomalies = never.anomalies ↔ draft.table.size = model.draft.table.size ∧
      draft.diagnostics.toList = model.draft.diagnostics.toList := by
  have hsize := h.leaves.size
  constructor
  · intro heq
    obtain ⟨hbefore, hdiagnostics⟩ := h.nothing_left heq
    rw [hbefore, List.length_nil, Nat.add_zero] at hsize
    exact ⟨hsize, hdiagnostics⟩
  · rintro ⟨hsizes, hdiagnostics⟩
    have hbefore : before = [] := by
      rw [← List.length_eq_zero_iff]
      omega
    have hleaves := h.leaves
    subst hbefore
    rw [h.anomalies_retried, h.anomalies_never, hleaves.flaws_unchanged, hdiagnostics]

theorem eq_of_anomalies_eq (h : Attempts model store libraries before order draft retried never)
    (heq : retried.anomalies = never.anomalies) : retried = never := by
  obtain ⟨hbefore, hdiagnostics⟩ := h.nothing_left heq
  have hleaves := h.leaves
  subst hbefore
  rw [h.retried, h.never, hleaves.fill_unchanged h.builder.tracks hdiagnostics]

/-! ### Lookups -/

/-- A name that the failed load has bound stays with its entity, and clashes once more. -/
theorem bound_stays (h : Attempts model store libraries before order draft retried never)
    {name : String} {slot : Nat} (hfree : model.draft.table.slot? name = none)
    (hslot : draft.table.slot? name = some slot) :
    retried.draft.table.slot? name = some slot ∧
      retried.draft.table.arena[slot]? = draft.table.arena[slot]? ∧
      never.anomalies.count (.duplicateName name) <
        retried.anomalies.count (.duplicateName name) := by
  have hclaimed := h.leaves.mem_claims_of_bound hfree (Option.isSome_of_eq_some hslot)
  have hbefore := h.leaves.slot? name
  rw [hslot, hfree, Option.none_or] at hbefore
  obtain ⟨hge, hlt⟩ := claimSlot?_bounds hbefore.symm
  rw [← h.leaves.size] at hlt
  refine ⟨?_, ?_, ?_⟩
  · rw [h.retried_eq, Draft.Leaves.modelAgain, slot?_assembled, hslot, Option.some_or]
  · rw [h.retried_eq]
    exact h.leaves.getElem?_again h.builder.reached.sound h.builder.tracks model.rootType hge hlt
  · rw [h.anomalies_retried, h.anomalies_never]
    exact h.leaves.count_again h.builder.tracks hclaimed

/-- A name that is not stranded leads to where its entity is wired. -/
theorem named_eq_wired (h : Attempts model store libraries before order draft retried never)
    {name : String} (hname : ¬ Stranded model { model with draft } name) {slot : Nat}
    (hslot : never.draft.table.slot? name = some slot) :
    namedAgain model.draft.table.size before slot =
      wiredAgain model.mode model.draft.table.size before slot := by
  rw [h.never_eq] at hslot
  apply h.leaves.named_eq_wired h.builder.reached.sound hslot
  intro hvirtual hfree other entity hbound hentity
  rw [← Bool.not_eq_true]
  intro hclass
  refine hname ⟨hvirtual, ?_, .library other, entity, ?_, hentity, hclass⟩
  · rw [find?, hfree, Option.map_none]
  · rw [find?, hbound, Option.map_some]

/-- Where the failed load gave no supertypes to what the model held, only stranded names make a
difference to supertypes and references. -/
theorem lookups_eq (h : Attempts model store libraries before order draft retried never)
    (hold : ∀ slot < model.draft.table.size,
      draft.table.arena[slot]? = model.draft.table.arena[slot]?) :
    (∀ name, ¬ Stranded model { model with draft } name →
      retried.parentIds name = never.parentIds name) ∧
    ∀ name, (∀ ref, never.Seeks name ref → ¬ Stranded model { model with draft } ref.receiver) →
      retried.outcome? name = never.outcome? name := by
  have hreplicated := h.leaves.replicated h.sound h.builder.reached.sound h.builder.tracks hold
    model.rootType
  rw [← h.retried_eq, ← h.never_eq] at hreplicated
  constructor
  · intro name hname
    exact hreplicated.parentIds fun slot hslot => h.named_eq_wired hname hslot
  · intro name hname
    exact hreplicated.outcome? fun ref hseeks slot hslot =>
      h.named_eq_wired (hname ref hseeks) hslot

end Attempts

/-- Loading a list again after it failed, once no call of the store fails any more, against loading
it with no failure. Names denote entities with the same ids. The anomalies are the same exactly if
the failed load has added no entity and no anomaly, and then so are the models. A name that the
failed load has bound stays with the entity that it got, as it was then, and clashes once more. All
other names show the same supertypes, and references come to the same unless their receiver is
stranded, if the failed load gave no supertypes to what the model held before. -/
theorem retry_of_failed_load {model left : LibraryModel} {libraries : List ProjectId}
    {desk after later : Desk} {err : ModelError} (hmodel : model.Builder)
    (hstore : desk.corpus.store.Reached)
    (hfailed : load libraries (model, desk) = .error err (left, after))
    (hsame : later.corpus.store = desk.corpus.store) (hhealthy : later.corpus.plan = .none) :
    ∃ retried never desk₁ desk₂, left.loaded libraries later = .ok retried desk₁ ∧
      model.loaded libraries later = .ok never desk₂ ∧
      (∀ name, retried.id? name = never.id? name) ∧
      (retried.anomalies = never.anomalies ↔
        left.size = model.size ∧ left.anomalies = model.anomalies) ∧
      (retried.anomalies = never.anomalies → retried = never) ∧
      (∀ name ref, model.find? name = none → left.find? name = some ref →
        retried.find? name = some ref ∧ retried.entity? ref = left.entity? ref ∧
        never.anomalies.count (.duplicateName name) <
          retried.anomalies.count (.duplicateName name)) ∧
      ((∀ slot < model.size, left.entity? (.library slot) = model.entity? (.library slot)) →
        (∀ name, ¬ Stranded model left name → retried.parentIds name = never.parentIds name) ∧
        ∀ name, (∀ ref, never.Seeks name ref → ¬ Stranded model left ref.receiver) →
          retried.outcome? name = never.outcome? name) := by
  obtain ⟨draft, hpartial, rfl⟩ := load_eq_error hfailed
  obtain ⟨before, order, hleaves⟩ := hpartial.leaves
  obtain ⟨retried, desk₁, hretried⟩ := exists_loaded { model with draft } libraries later hhealthy
  obtain ⟨never, desk₂, hnever⟩ := exists_loaded model libraries later hhealthy
  have h : Attempts model desk.corpus.store libraries before order draft retried never := by
    refine ⟨hmodel, hstore.sound, hleaves, ?_, ?_⟩
    · rw [(loaded_eq_ok hretried).1, hsame]
    · rw [(loaded_eq_ok hnever).1, hsame]
  refine ⟨retried, never, desk₁, desk₂, hretried, hnever, h.id?_eq, h.anomalies_eq_iff,
    h.eq_of_anomalies_eq, ?_, h.lookups_eq⟩
  intro name ref hfree hbound
  obtain ⟨slot, hslot, rfl⟩ := Option.map_eq_some_iff.1 hbound
  obtain ⟨hname, hentity, hcount⟩ := h.bound_stays (Option.map_eq_none_iff.1 hfree) hslot
  refine ⟨?_, hentity, hcount⟩
  rw [find?, hname, Option.map_some]

/-- The classes `a.Sub` of one library and `b.Sub` of another extend `a.Base`, which declares a
method. Both rows are filed under the other library. -/
def lateStore : Store :=
  ((Store.ofRows
    [{ project := ⟨10⟩, name := "a.Base", kind := .class, id := ⟨1⟩ },
     { project := ⟨10⟩, name := "a.Base.m", kind := .method, params := some "()", id := ⟨2⟩ },
     { project := ⟨10⟩, name := "a.Sub", kind := .class, id := ⟨3⟩ },
     { project := ⟨20⟩, name := "b.Sub", kind := .class, id := ⟨4⟩ }]).relate
    { kind := .extends, left := ⟨3⟩, right := ⟨1⟩, project := ⟨20⟩ }).relate
    { kind := .extends, left := ⟨4⟩, right := ⟨1⟩, project := ⟨20⟩ }

/-- The plan under which all reads of entities but the first fail. -/
def oneRead : FaultPlan :=
  .budget fun call => if call = .readEntities then some 1 else none

/-- The load of both libraries fails at the second one. Another attempt has `b.Sub` inherit the
method, as it was not entered before, and the anomalies differ. -/
theorem late_type_not_stranded :
    let broken : Desk := { corpus := { store := lateStore, plan := oneRead } }
    let healthy : Desk := { corpus := { store := lateStore } }
    lateStore.Reached ∧ ∃ err left after retried never desk₁ desk₂,
      load [⟨10⟩, ⟨20⟩] (empty .virtual, broken) = .error err (left, after) ∧
      left.loaded [⟨10⟩, ⟨20⟩] healthy = .ok retried desk₁ ∧
      (empty .virtual).loaded [⟨10⟩, ⟨20⟩] healthy = .ok never desk₂ ∧
      retried.id? "a.Sub" = never.id? "a.Sub" ∧
      retried.outcome? "b.Sub.m()" = never.outcome? "b.Sub.m()" ∧
      never.outcome? "b.Sub.m()" = some (.resolved, [some ⟨2⟩]) ∧
      retried.anomalies ≠ never.anomalies := by
  intro broken healthy
  have hreached : lateStore.Reached := .relate _ (.relate _ (Store.reached_ofRows _))
  have hrun : ((remains (load [⟨10⟩, ⟨20⟩] (empty .virtual, broken))).any fun state =>
      decide (state.1.size = 3 ∧ state.1.find? "b.Sub" = none)) = true := by
    decide +kernel
  obtain ⟨err, ⟨left, after⟩, hfailed, hstate⟩ := exists_error_of_remains hrun
  obtain ⟨hsize, hfree⟩ := of_decide_eq_true hstate
  obtain ⟨retried, never, desk₁, desk₂, hretried, hnever, hids, hanomalies, -, -, hothers⟩ :=
    retry_of_failed_load (.empty .virtual) hreached hfailed
      (show healthy.corpus.store = broken.corpus.store from rfl) rfl
  have hnew : (empty .virtual).size = 0 := rfl
  obtain ⟨-, houtcomes⟩ := hothers (by simp [hnew])
  refine ⟨hreached, err, left, after, retried, never, desk₁, desk₂, hfailed, hretried, hnever,
    hids "a.Sub", ?_, ?_, ?_⟩
  · apply houtcomes
    rintro ref ⟨-, hread, -, -⟩ ⟨-, -, found, -, hfound, -⟩
    have hreceiver : Name.MemberRef.ofName? "b.Sub.m()" =
        some { receiver := "b.Sub", member := "m()" } := by
      decide +kernel
    rw [hread, Option.some.injEq] at hreceiver
    rw [hreceiver, hfree] at hfound
    cases hfound
  · rw [eq_assembled_of_loaded hnever]
    decide +kernel
  · rw [Ne, hanomalies, hsize, hnew]
    simp

/-- After the same failure another attempt leaves `a.Sub`, which the first one has entered, without
what it inherits, and records what is declared again as clashes. What the failed load has left is
what a load of the first library alone makes. -/
theorem entered_type_stranded :
    let broken : Desk := { corpus := { store := lateStore, plan := oneRead } }
    let healthy : Desk := { corpus := { store := lateStore } }
    ∃ err left after retried never desk₁ desk₂ desk₃,
      load [⟨10⟩, ⟨20⟩] (empty .virtual, broken) = .error err (left, after) ∧
      (empty .virtual).loaded [⟨10⟩] healthy = .ok left desk₃ ∧
      left.loaded [⟨10⟩, ⟨20⟩] healthy = .ok retried desk₁ ∧
      (empty .virtual).loaded [⟨10⟩, ⟨20⟩] healthy = .ok never desk₂ ∧
      retried.parentIds "a.Sub" = [] ∧ never.parentIds "a.Sub" = [some ⟨1⟩] ∧
      retried.outcome? "a.Sub.m()" = none ∧
      never.outcome? "a.Sub.m()" = some (.resolved, [some ⟨2⟩]) ∧
      retried.anomalies =
        ["a.Base", "a.Base.m()", "a.Sub"].map .duplicateName ∧
      never.anomalies = [] := by
  intro broken healthy
  have hrun : ((remains (load [⟨10⟩, ⟨20⟩] (empty .virtual, broken))).any fun state =>
      decide (state.1.size = 3)) = true := by
    decide +kernel
  obtain ⟨err, ⟨left, after⟩, hfailed, hstate⟩ := exists_error_of_remains hrun
  have hsize : left.size = 3 := of_decide_eq_true hstate
  obtain ⟨never, desk₂, hnever⟩ := exists_loaded (empty .virtual) [⟨10⟩, ⟨20⟩] healthy rfl
  obtain ⟨first, desk₃, hfirst⟩ := exists_loaded (empty .virtual) [⟨10⟩] healthy rfl
  have hleft : left = first := by
    obtain ⟨draft, hpartial, rfl⟩ := load_eq_error hfailed
    obtain ⟨before, order, h⟩ := hpartial.leaves
    have hlength : before.length = 3 := by
      have hadded := h.size
      rw [show draft.table.size = 3 from hsize] at hadded
      exact (Nat.zero_add _).symm.trans hadded.symm
    have horder : order = [] := by
      by_contra hne
      rw [h.complete hne] at hlength
      revert hlength
      decide +kernel
    have hbefore : before = lateStore.declarationsOf [⟨10⟩] := by
      rw [List.prefix_iff_eq_take.1 h.added, hlength]
      decide +kernel
    -- No row is filed under the first library, so to wire it changes nothing.
    have hnone : lateStore.relationsOf ⟨10⟩ RelationKind.inheritance = [] := by decide +kernel
    have hdraft := h.left_eq
    rw [horder, hbefore, List.foldl_nil] at hdraft
    rw [(loaded_eq_ok hfirst).1, hdraft]
    show _ = { empty .virtual with
      draft := (empty .virtual).draft.fill .virtual lateStore [⟨10⟩] }
    rw [Draft.fill, Draft.declare_foldl, List.foldl_cons, List.foldl_nil, Draft.inherit, hnone]
    rfl
  subst hleft
  obtain ⟨retried, desk₁, hretried⟩ := exists_loaded left [⟨10⟩, ⟨20⟩] healthy rfl
  refine ⟨err, left, after, retried, never, desk₁, desk₂, desk₃, hfailed, hfirst, hretried, hnever,
    ?_⟩
  -- All three models are known from the rows.
  have hretriedAgain := eq_assembled_of_loaded hretried
  rw [eq_assembled_of_loaded hfirst] at hretriedAgain
  rw [hretriedAgain, eq_assembled_of_loaded hnever]
  decide +kernel

end LibraryModel

end Referent
