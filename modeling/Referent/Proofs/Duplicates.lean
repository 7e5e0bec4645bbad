import Referent.Proofs.Leftovers

/-!
# How often a name is recorded as a duplicate

One of the rows that claim a name gets it, and the others are its rivals (`Table.rivals`). The
diagnostics have one record of the name for each rival, and one more for each row whose signature
and erased signature are the same (`EntityRow.Repeats`): such a row asks for its name twice, and is
refused the second time although no other row is around (`repeated_signature_recorded`).

The number of records follows from the number of claims: adding rows records each claim but the one
that gets the name (`count_clashes`), and a row claims a name once or twice (`count_claims`). Wiring
adds no record of this kind (`count_missingIn`), so the number is the same for the tables of loads,
of loads that fail half-way and of builds (`duplicates_recorded`).
-/

namespace Referent

/-! ## Rows that claim a name -/

namespace EntityRow

variable {row : EntityRow} {name : String}

/-- The row claims the name under its signature, and once more under its erased signature, which is
the same. -/
def Repeats (row : EntityRow) (name : String) : Prop :=
  row.Claims name ∧ row.params.isSome ∧ row.rawParams = row.params

instance (row : EntityRow) (name : String) : Decidable (row.Repeats name) :=
  inferInstanceAs (Decidable (_ ∧ _))

/-- A row that repeats a name claims no other. -/
theorem claims_of_repeats (h : row.Repeats name) : row.claims = [name, name] := by
  obtain ⟨hclaims, hsigned, hsame⟩ := h
  obtain ⟨params, hparams⟩ := Option.isSome_iff_exists.1 hsigned
  have htwice : row.claims = [row.name ++ params, row.name ++ params] := by
    rw [claims, hsame, hparams]
    rfl
  rw [← mem_claims, htwice] at hclaims
  simp only [List.mem_cons, List.not_mem_nil, or_false, or_self] at hclaims
  rw [htwice, hclaims]

/-- A row whose signatures differ claims each name once. -/
theorem nodup_claims (h : row.params.isSome → row.rawParams ≠ row.params) : row.claims.Nodup := by
  unfold claims
  split
  · exact List.nodup_singleton _
  · rename_i params hparams
    rw [hparams] at h
    cases hraw : row.rawParams with
    | none => exact List.nodup_singleton _
    | some rawParams =>
      have hne : rawParams ≠ params := by simpa [hraw] using h
      simpa using hne

/-- A row claims a name once, and twice if it repeats it. -/
theorem count_claims (row : EntityRow) (name : String) :
    row.claims.count name =
      (if row.Claims name then 1 else 0) + if row.Repeats name then 1 else 0 := by
  by_cases hclaims : row.Claims name
  · by_cases hrepeats : row.Repeats name
    · rw [claims_of_repeats hrepeats, if_pos hclaims, if_pos hrepeats]
      simp
    · have hdiffer : row.params.isSome → row.rawParams ≠ row.params :=
        fun hsigned hsame => hrepeats ⟨hclaims, hsigned, hsame⟩
      rw [if_pos hclaims, if_neg hrepeats]
      exact List.count_eq_one_of_mem (nodup_claims hdiffer) (mem_claims.2 hclaims)
  · rw [if_neg hclaims, if_neg fun hrepeats => hclaims hrepeats.1]
    exact List.count_eq_zero.2 fun hmem => hclaims (mem_claims.1 hmem)

/-- Rows claim a name as often as there are rows that claim it and rows that repeat it. -/
theorem count_flatMap_claims (rows : List EntityRow) (name : String) :
    (rows.flatMap claims).count name =
      rows.countP (·.Claims name) + rows.countP (·.Repeats name) := by
  induction rows with
  | nil => rfl
  | cons row rows ih =>
    rw [List.flatMap_cons, List.count_append, ih, count_claims, List.countP_cons, List.countP_cons]
    simp only [decide_eq_true_eq]
    omega

end EntityRow

/-! ## Rivals -/

/-- How many of some rows, which fill the slots from `first` on, claim a name that is not theirs. -/
def Table.rivals (table : Table) (first : Nat) (rows : List EntityRow) (name : String) : Nat :=
  (rows.zipIdx first).countP fun (row, slot) => row.Claims name ∧ table.slot? name ≠ some slot

/-- Where a name is bound to an earlier slot, every row that claims it is a rival. -/
theorem Table.rivals_of_bound {table : Table} {name : String} {slot first : Nat}
    (hslot : table.slot? name = some slot) (hlt : slot < first) (rows : List EntityRow) :
    table.rivals first rows name = rows.countP (·.Claims name) := by
  unfold rivals
  rw [hslot]
  induction rows generalizing first with
  | nil => rfl
  | cons row rows ih =>
    rw [List.zipIdx_cons, List.countP_cons, List.countP_cons, ih (Nat.lt_succ_of_lt hlt)]
    simp [Nat.ne_of_lt hlt]

/-- Where a name is bound to the first row that claims it, all others are its rivals. -/
theorem Table.rivals_of_first {table : Table} {name : String} {first : Nat} {rows : List EntityRow}
    (hslot : table.slot? name = claimSlot? name first rows) :
    table.rivals first rows name = rows.countP (·.Claims name) - 1 := by
  induction rows generalizing first with
  | nil => rfl
  | cons row rows ih =>
    unfold rivals
    rw [claimSlot?] at hslot
    rw [List.zipIdx_cons, List.countP_cons, List.countP_cons]
    by_cases hclaims : row.Claims name
    · -- The row has the name, so the rows behind it that claim the name are rivals.
      rw [if_pos (EntityRow.mem_claims.2 hclaims), Option.some_or] at hslot
      have hrest := rivals_of_bound hslot (Nat.lt_succ_self first) rows
      unfold rivals at hrest
      rw [hrest]
      simp [hclaims, hslot]
    · rw [if_neg (mt EntityRow.mem_claims.1 hclaims), Option.none_or] at hslot
      have hrest := ih hslot
      unfold rivals at hrest
      rw [hrest]
      simp [hclaims]

/-! ## What is recorded -/

/-- How often a name has been recorded as a duplicate. -/
def Draft.duplicates (draft : Draft) (name : String) : Nat :=
  draft.diagnostics.toList.count (.duplicateName name)

/-- While rows are added to a draft, a name is recorded as a duplicate once for each row that claims
it and does not get it, and once for each row that claims it twice. -/
def Draft.Records (start : Draft) (rows : List EntityRow) (after : Draft) : Prop :=
  ∀ name, after.duplicates name = start.duplicates name +
    after.table.rivals start.table.size rows name + rows.countP (·.Repeats name)

/-- Inheritance misses ends and records no duplicates. -/
theorem count_missingIn (table : Table) (toRef : Nat → EntityRef)
    (elsewhere : EntityId → Option EntityRef) (store : Store) (project : ProjectId)
    (name : String) :
    (missingIn (table.edges toRef elsewhere store project)).count (.duplicateName name) = 0 := by
  rw [missingIn_edges, List.count_eq_zero]
  intro hmem
  obtain ⟨row, -, hrow⟩ := List.mem_filterMap.1 hmem
  simp only [RelationRow.missingEnd?] at hrow
  split at hrow
  · split at hrow <;> cases hrow
  · cases hrow

namespace Draft

variable {start : Draft} {name : String}

/-- Where no name is bound, none is bound out of range. -/
theorem slot_lt_of_no_names (h : start.table.slots = {}) :
    ∀ name slot, start.table.slot? name = some slot → slot < start.table.size := by
  simp [Table.slot?, h]

theorem records_addRows (origin : Origin) (rows : List EntityRow)
    (hstart : ∀ name slot, start.table.slot? name = some slot → slot < start.table.size) :
    start.Records rows (rows.foldl (addRow origin) start) := by
  intro name
  have hclaimed := EntityRow.count_flatMap_claims rows name
  have hslot := slot?_addRows origin start rows name
  unfold duplicates
  rw [toList_addRows, List.count_append, count_clashes, hclaimed, Table.binds]
  cases hbound : start.table.slot? name with
  | some slot =>
    rw [hbound, Option.some_or] at hslot
    rw [Table.rivals_of_bound hslot (hstart name slot hbound)]
    simp only [Option.isSome_some, if_true]
    omega
  | none =>
    rw [hbound, Option.none_or] at hslot
    rw [Table.rivals_of_first hslot]
    -- A row that repeats the name claims it, so there is a first claim if there is any.
    have hle : rows.countP (·.Repeats name) ≤ rows.countP (·.Claims name) :=
      List.countP_mono_left fun row _ hrepeats => by
        simp only [decide_eq_true_eq] at hrepeats ⊢
        exact hrepeats.1
    simp only [Option.isSome_none, Bool.false_eq_true, if_false]
    omega

theorem Records.inherit_foldl {rows : List EntityRow} {after : Draft}
    (h : start.Records rows after) (toRef : Nat → EntityRef)
    (elsewhere : EntityId → Option EntityRef) (store : Store) (projects : List ProjectId) :
    start.Records rows (projects.foldl (inherit toRef elsewhere store) after) := by
  intro name
  have hnone : (projects.flatMap fun project => missingIn
      (after.table.edges toRef elsewhere store project)).count (.duplicateName name) = 0 := by
    simp [List.count_flatMap, count_missingIn, Function.comp_def]
  have hsame : (projects.foldl (inherit toRef elsewhere store) after).table.rivals
      start.table.size rows name = after.table.rivals start.table.size rows name := by
    simp only [Table.rivals, slot?_inherit_foldl]
  rw [hsame, ← h name]
  unfold duplicates
  rw [toList_inherit_foldl, List.count_append, hnone]
  rfl

/-- Rows of which no two claim one name, and none repeats one, leave no record. -/
theorem duplicates_eq_zero (origin : Origin) {rows : List EntityRow} {name : String}
    (hone : rows.countP (·.Claims name) ≤ 1) (hnever : ∀ row ∈ rows, ¬ row.Repeats name) :
    (rows.foldl (addRow origin) {}).duplicates name = 0 := by
  have hempty : ({} : Draft).table.slot? name = none := by simp [Table.slot?]
  have hrecords : ({} : Draft).Records rows (rows.foldl (addRow origin) {}) :=
    records_addRows origin rows (slot_lt_of_no_names rfl)
  have hslot := slot?_addRows origin {} rows name
  have hrepeats : rows.countP (·.Repeats name) = 0 := by
    simpa [List.countP_eq_zero] using hnever
  rw [hempty, Option.none_or] at hslot
  rw [hrecords, Table.rivals_of_first hslot, hrepeats]
  simp only [duplicates, Diagnostics.toList, List.count_nil]
  omega

theorem records_fill (mode : Mode) (store : Store) (libraries : List ProjectId)
    (hstart : ∀ name slot, start.table.slot? name = some slot → slot < start.table.size) :
    start.Records (store.declarationsOf libraries) (start.fill mode store libraries) := by
  have hdeclared := records_addRows .library (store.declarationsOf libraries) hstart
  unfold fill
  rw [declare_foldl]
  cases mode with
  | plain => exact hdeclared
  | «virtual» => exact hdeclared.inherit_foldl _ _ store libraries

/-- What is left of a load that has failed records the clashes of the rows that it has added. -/
theorem Leaves.records {mode : Mode} {store : Store} {libraries order : List ProjectId}
    {before : List EntityRow} {left : Draft}
    (h : Leaves mode store libraries start before order left)
    (hstart : ∀ name slot, start.table.slot? name = some slot → slot < start.table.size) :
    start.Records before left := by
  rw [h.left_eq]
  exact (records_addRows .library before hstart).inherit_foldl _ _ store order

end Draft

theorem ProjectModel.records_contents (mode : Mode) (store : Store) (library : LibraryModel)
    (project : ProjectId) : ({} : Draft).Records (store.declarationsOf [project])
      (contents mode store library project) := by
  cases mode with
  | plain =>
    have hdeclared : ({} : Draft).Records (store.declarationsOf [project]) _ :=
      Draft.records_addRows .internal _ (Draft.slot_lt_of_no_names rfl)
    rw [← Draft.declare_foldl] at hdeclared
    exact hdeclared
  | «virtual» =>
    let tracked : Draft := { table := ({} : Table).trackIds }
    have hdeclared : tracked.Records (store.declarationsOf [project]) _ :=
      Draft.records_addRows .internal _ (Draft.slot_lt_of_no_names rfl)
    rw [← Draft.declare_foldl] at hdeclared
    exact hdeclared.inherit_foldl .project library.findById? store [project]

/-! ## Whole loads -/

/-- While rows are added to any draft, while libraries are loaded, even if the load fails half-way,
and while a project is built: a name is recorded as a duplicate once for each row that claims it
and is not the one that it is bound to, and once more for each row that claims it twice. Rows of
which no two claim one name, and none repeats a name, leave no record. -/
theorem duplicates_recorded {store : Store} (hstore : store.Reached) :
    (∀ (origin : Origin) (start : Draft) (rows : List EntityRow),
      (∀ name slot, start.table.slot? name = some slot → slot < start.table.size) →
      start.Records rows (rows.foldl (Draft.addRow origin) start)) ∧
    (∀ (model model' : LibraryModel) libraries desk desk', model.Reached →
      desk.corpus.store = store →
      (LibraryModel.load libraries (model, desk) = .ok () (model', desk') →
        model.draft.Records (store.stream libraries) model'.draft) ∧
      ∀ err, LibraryModel.load libraries (model, desk) = .error err (model', desk') →
        ∃ rows, rows <+: store.stream libraries ∧ model.draft.Records rows model'.draft) ∧
    (∀ mode project library soleHolder desk model desk', desk.corpus.store = store →
      ProjectModel.build mode project library soleHolder desk = .ok model desk' →
      ({} : Draft).Records (store.stream [project])
        { table := model.table, diagnostics := model.diagnostics }) ∧
    ∀ (origin : Origin) (rows : List EntityRow) name, rows.countP (·.Claims name) ≤ 1 →
      (∀ row ∈ rows, ¬ row.Repeats name) →
      (rows.foldl (Draft.addRow origin) {}).duplicates name = 0 := by
  have hsound := hstore.sound
  refine ⟨fun origin start rows => Draft.records_addRows origin rows, ?_, ?_,
    fun origin rows name => Draft.duplicates_eq_zero origin⟩
  · intro model model' libraries desk desk' hmodel hdesk
    have hslots := hmodel.sound.slot_lt
    constructor
    · intro hload
      obtain ⟨rfl, -⟩ := LibraryModel.load_eq_ok hload
      rw [hdesk, ← hsound.declarationsOf_eq]
      exact Draft.records_fill model.mode store libraries hslots
    · intro err hload
      obtain ⟨left, hpartial, rfl⟩ := LibraryModel.load_eq_error hload
      obtain ⟨before, order, hleaves⟩ := hpartial.leaves
      rw [hdesk] at hleaves
      rw [← hsound.declarationsOf_eq]
      exact ⟨before, hleaves.added, hleaves.records hslots⟩
  · intro mode project library soleHolder desk model desk' hdesk hbuild
    have hcontents := ProjectModel.records_contents mode store library project
    rw [hsound.declarationsOf_eq] at hcontents
    cases mode with
    | plain =>
      obtain ⟨rfl, -⟩ := ProjectModel.buildPlain_eq_ok hbuild
      rw [hdesk]
      exact hcontents
    | «virtual» =>
      obtain ⟨rfl, -⟩ := ProjectModel.buildVirtual_eq_ok hbuild
      rw [hdesk]
      -- Names do not depend on the index by id, which a project gives up.
      exact hcontents

/-- The class that has the name first has two rivals: the class of the second library, and itself
when the first library is loaded again. -/
theorem overlap_recorded_twice :
    let desk : Desk := { corpus := { store := overlapStore } }
    overlapStore.Reached ∧ ∃ model desk',
      LibraryModel.load [⟨10⟩, ⟨20⟩, ⟨10⟩] (.empty .virtual, desk) = .ok () (model, desk') ∧
      model.draft.duplicates "a.Box<T>" = 2 := by
  intro desk
  have hreached : overlapStore.Reached := Store.reached_ofRows _
  have hok : succeeds ((LibraryModel.empty .virtual).loaded [⟨10⟩, ⟨20⟩, ⟨10⟩] desk) = true := by
    decide +kernel
  obtain ⟨model, desk', hloaded⟩ := exists_ok_of_succeeds hok
  have hload := LibraryModel.load_of_loaded hloaded
  have hrecords := ((duplicates_recorded hreached).2.1 _ model [⟨10⟩, ⟨20⟩, ⟨10⟩] desk desk'
    (.empty .virtual) rfl).1 hload "a.Box<T>"
  obtain ⟨rfl, -⟩ := LibraryModel.load_eq_ok hload
  refine ⟨hreached, _, desk', hload, hrecords.trans ?_⟩
  decide +kernel

/-- A store with one method, whose erased signature is the same as its signature. -/
def erasedStore : Store :=
  Store.ofRows [{ project := ⟨10⟩, name := "a.A.m", kind := .method, params := some "(int)"
                  rawParams := some "(int)", id := ⟨1⟩ }]

/-- The only row of a store has its name, and yet the name is recorded as a duplicate. -/
theorem repeated_signature_recorded :
    let desk : Desk := { corpus := { store := erasedStore } }
    erasedStore.Reached ∧ erasedStore.entities.size = 1 ∧ ∃ model desk',
      LibraryModel.load [⟨10⟩] (.empty .virtual, desk) = .ok () (model, desk') ∧
      model.draft.table.slot? "a.A.m(int)" = some 0 ∧
      model.draft.table.rivals 0 (erasedStore.stream [⟨10⟩]) "a.A.m(int)" = 0 ∧
      model.draft.diagnostics.toList = [.duplicateName "a.A.m(int)"] := by
  intro desk
  have hok : succeeds ((LibraryModel.empty .virtual).loaded [⟨10⟩] desk) = true := by
    decide +kernel
  obtain ⟨model, desk', hloaded⟩ := exists_ok_of_succeeds hok
  have hload := LibraryModel.load_of_loaded hloaded
  obtain ⟨rfl, -⟩ := LibraryModel.load_eq_ok hload
  refine ⟨Store.reached_ofRows _, rfl, _, desk', hload, ?_, ?_, ?_⟩ <;> decide +kernel

end Referent
