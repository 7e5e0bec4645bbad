import Referent.Proofs.DocumentText
import Referent.Proofs.Restoring

/-!
# Saving and loading stores

The text of a snapshot is read as that very snapshot, whatever rows it holds: a record comes
back out of its document because its fields have different names, and an optional field because
it is left out exactly if there is nothing to write. Since the snapshot of a store loads as the
store, loading undoes saving. Both texts and rows may come from anywhere, so this is stated for
a store after any `Store.Action`s.
-/

namespace Referent

open Json (Value)

/-! ## Fields -/

namespace Json.Value

variable {name : String} {encode : α → Value} {read? : Value → Option α}

theorem wellSpelled_word (w : UInt32) : (word w).WellSpelled := by
  refine .number ?_
  rw [Nat.toString_eq_ofList_toDigits, String.toList_ofList]
  exact isNumber_toDigits w.toNat

theorem wellSpelled_field? (h : ∀ a, (encode a).WellSpelled) (x : Option α) :
    ∀ field ∈ field? name encode x, field.2.WellSpelled := by
  cases x with
  | none => simp [field?]
  | some a => simp [field?, h]

theorem wellSpelled_array_map (h : ∀ a, (encode a).WellSpelled) (xs : List α) :
    (array (xs.map encode)).WellSpelled := by
  refine .array fun item hitem => ?_
  obtain ⟨a, -, rfl⟩ := List.mem_map.1 hitem
  exact h a

theorem names_field?_sublist (name : String) (encode : α → Value) (x : Option α) :
    ((field? name encode x).map Prod.fst).Sublist [name] := by
  cases x with
  | none => exact List.nil_sublist _
  | some a => exact .refl _

theorem lookup_field? (key : String) (x : Option α) :
    (field? name encode x).lookup key = if key = name then x.map encode else none := by
  cases x with
  | none => simp [field?]
  | some a =>
    by_cases h : key = name
    · simp [field?, h]
    · simp [field?, List.lookup_cons, h, beq_false_of_ne h]

/-- Where no name stands twice, each field is looked up on its own. -/
theorem columns?_object {names : List String} {fields : List (String × Value)}
    (hnames : names.Nodup) (hfields : (fields.map Prod.fst).Sublist names) :
    columns? names false (.object fields) = some (names.map fun name => fields.lookup name) := by
  have hcount : ∀ name ∈ names, fields.countP (·.1 == name) ≤ 1 := by
    intro name _
    have h := List.nodup_iff_count.1 (hnames.sublist hfields) name
    rwa [List.count, List.countP_map] at h
  rw [columns?, if_pos (by simpa using hcount)]

theorem optional_map (hread : ∀ a, read? (encode a) = some a) (hnull : ∀ a, encode a ≠ .null)
    (x : Option α) : optional read? (x.map encode) = some x := by
  cases x with
  | none => rfl
  | some a =>
    rw [Option.map_some, optional, hread]
    · rfl
    · exact hnull a

theorem list?_map (hread : ∀ a, read? (encode a) = some a) (xs : List α) :
    list? read? (.array (xs.map encode)) = some xs := by
  rw [list?]
  induction xs with
  | nil => rfl
  | cons x xs ih => simp [List.mapM_cons, hread, ih]

end Json.Value

/-! ## Rows -/

namespace EntityRow

theorem wellSpelled_toDocument (row : EntityRow) : row.toDocument.WellSpelled := by
  refine .object fun field hfield => ?_
  simp only [List.mem_append] at hfield
  obtain ((hfield | hfield) | hfield) | hfield := hfield
  · simp only [List.mem_cons, List.not_mem_nil, or_false] at hfield
    rcases hfield with rfl | rfl | rfl | rfl
    · exact Value.wellSpelled_word _
    · exact Value.wellSpelled_word _
    · exact .string _
    · exact .string _
  · exact Value.wellSpelled_field? .string _ field hfield
  · exact Value.wellSpelled_field? .string _ field hfield
  · exact Value.wellSpelled_field? Value.wellSpelled_word _ field hfield

theorem ofDocument?_toDocument (row : EntityRow) : ofDocument? row.toDocument = some row := by
  have htext (x : Option String) : Value.optional Value.text? (x.map Value.string) = some x :=
    Value.optional_map (fun _ => by rfl) (fun _ h => by cases h) x
  have hword (x : Option UInt32) : Value.optional Value.word? (x.map Value.word) = some x :=
    Value.optional_map Value.word?_word (fun _ h => by cases h) x
  rw [ofDocument?, toDocument, Value.columns?_object (by decide)]
  · simp [List.lookup_append, Value.lookup_field?, List.lookup_cons, Value.required, Value.text?,
      Value.member?, EntityKind.ofName?_name, htext, hword]
  · simp only [List.map_append]
    exact (((List.Sublist.refl _).append (Value.names_field?_sublist _ _ _)).append
      (Value.names_field?_sublist _ _ _)).append (Value.names_field?_sublist _ _ _)

end EntityRow

namespace RelationRow

theorem wellSpelled_toDocument (row : RelationRow) : row.toDocument.WellSpelled := by
  refine .object fun field hfield => ?_
  simp only [List.mem_cons, List.not_mem_nil, or_false] at hfield
  rcases hfield with rfl | rfl | rfl | rfl | rfl
  · exact .string _
  · exact .string _
  all_goals exact Value.wellSpelled_word _

theorem ofDocument?_toDocument (row : RelationRow) : ofDocument? row.toDocument = some row := by
  rw [ofDocument?, toDocument, Value.columns?_object (by decide)]
  · simp [List.lookup_cons, Value.required, Value.member?, RelationKind.ofName?_name,
      Origin.ofName?_name]
  · exact .refl _

end RelationRow

/-! ## Snapshots -/

namespace Snapshot

theorem wellSpelled_toDocument (snapshot : Snapshot) : snapshot.toDocument.WellSpelled := by
  refine .object fun field hfield => ?_
  simp only [List.mem_cons, List.not_mem_nil, or_false] at hfield
  rcases hfield with rfl | rfl | rfl
  · exact Value.wellSpelled_word _
  · exact Value.wellSpelled_array_map EntityRow.wellSpelled_toDocument _
  · exact Value.wellSpelled_array_map RelationRow.wellSpelled_toDocument _

theorem ofDocument?_toDocument (snapshot : Snapshot) :
    ofDocument? snapshot.toDocument = some snapshot := by
  rw [ofDocument?, toDocument, Value.columns?_object (by decide)]
  · simp [List.lookup_cons, Value.required, Value.withDefault,
      Value.list?_map EntityRow.ofDocument?_toDocument,
      Value.list?_map RelationRow.ofDocument?_toDocument]
  · exact .refl _

end Snapshot

/-! ## Stores -/

namespace Store

/-- Loading the text of a snapshot is loading the snapshot, refusals included. -/
theorem ofText_snapshot (snapshot : Snapshot) : ofText snapshot.text = ofSnapshot snapshot := by
  rw [ofText, Snapshot.text, Value.page, snapshot.wellSpelled_toDocument.ofText?_write]
  show ofDocument snapshot.toDocument = _
  rw [ofDocument, snapshot.ofDocument?_toDocument]

theorem ofText_text {store : Store} (h : store.Reached) : ofText store.text = .ok store := by
  rw [text, ofText_snapshot, ofSnapshot_snapshot h]

/-- What is done to a store: another one is loaded in its place, or a row enters. A snapshot is
loaded through its text (`ofText_snapshot`). -/
inductive Action
  | load (text : String)
  | insert (entry : Entry)
  | relate (row : RelationRow)

/-- The store after an action, which is the same store if the action is refused. -/
def act (store : Store) : Action → Store
  | .load text => (ofText text).toOption.getD store
  | .insert entry => ((store.insert entry).map Prod.snd).toOption.getD store
  | .relate row => store.relate row

theorem Reached.act {store : Store} (h : store.Reached) (action : Action) :
    (store.act action).Reached := by
  cases action with
  | load text =>
    rw [Store.act]
    cases hload : ofText text with
    | error cause => exact h
    | ok loaded => exact reached_of_ofText hload
  | insert entry =>
    rw [Store.act, insert]
    cases hpush : store.push { entry with id := ⟨store.nextId⟩ } with
    | error cause => exact h
    | ok pushed => exact h.push hpush
  | relate row => exact h.relate row

theorem Reached.foldl_act {store : Store} (h : store.Reached) (actions : List Action) :
    (actions.foldl Store.act store).Reached := by
  induction actions generalizing store with
  | nil => exact h
  | cons action actions ih => exact ih (h.act action)

/-- Loading undoes saving. However a store came about, its text loads as the store itself: the
same rows in the same order, and also the same indexes, ids and next id, which the text does not
hold. So nothing that is asked or done afterwards tells the two apart. -/
theorem load_undoes_save (actions : List Action) :
    ofText (actions.foldl act {}).text = .ok (actions.foldl act {}) :=
  ofText_text (Reached.empty.foldl_act actions)

end Store

end Referent
