import Mathlib.Data.List.Induction
import Referent.Proofs.Restoring

/-!
# Which snapshots are loaded

A snapshot may come from anywhere, so loading one has to look for what no store can hold: a version
that is not supported, a row with the last id, which leaves no id for the next row, and a row with
the id of an earlier one. Nothing else is refused, and what is loaded is what was given
(`Store.snapshots_accepted_exactly`).

Rows enter one by one, and a row is refused for what it is and for the rows in front of it alone
(`push_eq_error_iff`). So the rows that enter before the first refusal are rows that a store can
hold together (`Holdable`), and the error is that of the first row that cannot join them.
-/

namespace Referent

/-- Why a row cannot enter behind others. The last id is refused as such, also where it comes a
second time. -/
inductive EntityRow.Refused (row : EntityRow) (earlier : List EntityRow) : StoreError → Prop
  | last : row.id.val = Store.lastWord → row.Refused earlier .idsExhausted
  | repeated {other : EntityRow} : row.id.val ≠ Store.lastWord → other ∈ earlier →
      other.id = row.id → row.Refused earlier (.duplicateId row.id)

namespace Store

variable {store filled : Store} {row : EntityRow} {rows front rest : List EntityRow}
  {cause : StoreError}

/-- Rows that a store can hold together: none has the last id, and no two share an id. -/
structure Holdable (rows : List EntityRow) : Prop where
  notLast : ∀ row ∈ rows, row.id.val ≠ lastWord
  nodup : (rows.map (·.id)).Nodup

theorem Holdable.nil : Holdable [] :=
  ⟨fun _ hrow => absurd hrow List.not_mem_nil, List.nodup_nil⟩

/-- Behind rows that a store can hold, each row joins them or is refused. -/
theorem holdable_concat_iff :
    Holdable (rows ++ [row]) ↔ Holdable rows ∧ ∀ cause, ¬ row.Refused rows cause := by
  constructor
  · rintro ⟨hlast, hnodup⟩
    rw [List.map_append, List.nodup_append'] at hnodup
    obtain ⟨hrows, -, hdisjoint⟩ := hnodup
    refine ⟨⟨fun other hother => hlast other (List.mem_append_left _ hother), hrows⟩, ?_⟩
    rintro cause (hrow | ⟨-, hother, hid⟩)
    · exact hlast row (List.mem_append_right _ (List.mem_singleton_self row)) hrow
    · exact hdisjoint (List.mem_map_of_mem hother) (by simp [hid])
  · rintro ⟨⟨hlast, hnodup⟩, hjoins⟩
    have hroom : row.id.val ≠ lastWord := fun hrow => hjoins _ (.last hrow)
    constructor
    · intro other hother
      rcases List.mem_append.1 hother with hother | hother
      · exact hlast other hother
      · rwa [List.mem_singleton.1 hother]
    · rw [List.map_append, List.nodup_append']
      refine ⟨hnodup, List.nodup_singleton _, fun id hid hrow => ?_⟩
      obtain ⟨other, hother, rfl⟩ := List.mem_map.1 hid
      exact hjoins _ (.repeated hroom hother (by simpa using hrow))

/-! ## One row -/

/-- A row is refused for what it is and for the rows that are there. -/
theorem push_eq_error_iff (hs : store.Sound) :
    store.push row = .error cause ↔ row.Refused store.entities.toList cause := by
  have hpresent : store.ids.contains row.id = true ↔
      ∃ other ∈ store.entities.toList, other.id = row.id := by
    rw [hs.mem_ids, List.mem_map]
  unfold push
  constructor
  · intro h
    split at h
    · rename_i hlast
      cases h
      exact .last hlast
    · rename_i hroom
      split at h
      · rename_i hrepeated
        obtain ⟨other, hother, hid⟩ := hpresent.1 hrepeated
        cases h
        exact .repeated hroom hother hid
      · cases h
  · rintro (hlast | ⟨hroom, hother, hid⟩)
    · rw [if_pos hlast]
    · rw [if_neg hroom, if_pos (hpresent.2 ⟨_, hother, hid⟩)]

/-! ## All rows -/

/-- What has entered is what was given, in order. -/
theorem entities_of_foldlM_push (h : rows.foldlM push store = .ok filled) :
    filled.entities.toList = store.entities.toList ++ rows ∧
      filled.relations = store.relations := by
  induction rows generalizing store with
  | nil =>
    cases h
    exact ⟨(List.append_nil _).symm, rfl⟩
  | cons row rows ih =>
    rw [List.foldlM_cons] at h
    cases hpush : store.push row with
    | error cause =>
      rw [hpush] at h
      cases h
    | ok next =>
      rw [hpush] at h
      obtain ⟨-, -, rfl⟩ := push_eq_ok hpush
      obtain ⟨hentities, hrelations⟩ := ih h
      refine ⟨?_, hrelations⟩
      rw [hentities, Array.toList_push, List.append_assoc, List.singleton_append]

/-- Behind rows that have entered, one more enters or is refused. -/
theorem foldlM_push_concat (h : rows.foldlM push {} = .ok filled) :
    (rows ++ [row]).foldlM push {} = filled.push row := by
  rw [List.foldlM_append, h]
  show [row].foldlM push filled = _
  rw [List.foldlM_cons]
  cases filled.push row <;> rfl

theorem push_eq_error_iff_of_entered (h : rows.foldlM push {} = .ok filled) :
    filled.push row = .error cause ↔ row.Refused rows cause := by
  have hsound : filled.Sound := (reached_of_foldlM_push .empty h).sound
  obtain ⟨hentities, -⟩ := entities_of_foldlM_push h
  rw [push_eq_error_iff hsound, hentities]
  exact Iff.rfl

/-- Rows enter an empty store if a store can hold them, and only then. The induction is on the
rows from behind, since what becomes of a row depends on those in front of it. -/
theorem exists_foldlM_push_iff :
    (∃ filled, rows.foldlM push {} = .ok filled) ↔ Holdable rows := by
  induction rows using List.reverseRecOn with
  | nil => exact ⟨fun _ => .nil, fun _ => ⟨{}, rfl⟩⟩
  | append_singleton rows row ih =>
    rw [holdable_concat_iff, ← ih]
    constructor
    · rintro ⟨filled, hfilled⟩
      cases hrows : rows.foldlM push {} with
      | error cause =>
        rw [List.foldlM_append, hrows] at hfilled
        cases hfilled
      | ok before =>
        refine ⟨⟨before, rfl⟩, fun cause hrefused => ?_⟩
        rw [foldlM_push_concat hrows, (push_eq_error_iff_of_entered hrows).2 hrefused] at hfilled
        cases hfilled
    · rintro ⟨⟨before, hrows⟩, hjoins⟩
      rw [foldlM_push_concat hrows]
      cases hpush : before.push row with
      | error cause => exact absurd ((push_eq_error_iff_of_entered hrows).1 hpush) (hjoins cause)
      | ok filled => exact ⟨filled, rfl⟩

/-- Why the first of the rows that is refused cannot enter behind those in front of it. -/
def FirstRefused (rows : List EntityRow) (cause : StoreError) : Prop :=
  ∃ front row rest, rows = front ++ row :: rest ∧ Holdable front ∧ row.Refused front cause

theorem foldlM_push_eq_error_iff :
    rows.foldlM push {} = .error cause ↔ FirstRefused rows cause := by
  constructor
  · intro h
    induction rows using List.reverseRecOn with
    | nil => cases h
    | append_singleton rows row ih =>
      -- The rows in front of the last one fail already, or else it is the last one that fails.
      cases hrows : rows.foldlM push {} with
      | error early =>
        rw [List.foldlM_append, hrows] at h
        cases h
        obtain ⟨front, first, rest, rfl, hfront, hrefused⟩ := ih hrows
        exact ⟨front, first, rest ++ [row], by simp, hfront, hrefused⟩
      | ok before =>
        rw [foldlM_push_concat hrows, push_eq_error_iff_of_entered hrows] at h
        exact ⟨rows, row, [], rfl, exists_foldlM_push_iff.1 ⟨before, hrows⟩, h⟩
  · rintro ⟨front, row, rest, rfl, hfront, hrefused⟩
    obtain ⟨before, hbefore⟩ := exists_foldlM_push_iff.2 hfront
    rw [List.foldlM_append, hbefore]
    show (row :: rest).foldlM push before = _
    rw [List.foldlM_cons, (push_eq_error_iff_of_entered hbefore).2 hrefused]
    rfl

/-! ## Snapshots -/

/-- Relations are never refused. -/
theorem tables_foldl_relate (store : Store) (links : List RelationRow) :
    (links.foldl relate store).entities = store.entities ∧
      (links.foldl relate store).relations.toList = store.relations.toList ++ links := by
  induction links generalizing store with
  | nil => exact ⟨rfl, (List.append_nil _).symm⟩
  | cons link links ih =>
    obtain ⟨hentities, hrelations⟩ := ih (store.relate link)
    refine ⟨hentities, ?_⟩
    rw [List.foldl_cons, hrelations, relate, Array.toList_push, List.append_assoc,
      List.singleton_append]

end Store

/-- What is wrong with a snapshot. Its version is looked at first, and then one row after the
other. -/
inductive Snapshot.Fault (snapshot : Snapshot) : StoreError → Prop
  | version : snapshot.version ≠ supportedVersion →
      snapshot.Fault (.schemaMismatch snapshot.version supportedVersion)
  | row {cause : StoreError} : snapshot.version = supportedVersion →
      Store.FirstRefused snapshot.entities cause → snapshot.Fault cause

namespace Store

variable {snapshot : Snapshot} {store : Store} {cause : StoreError}

theorem exists_ofSnapshot_iff : (∃ store, ofSnapshot snapshot = .ok store) ↔
    snapshot.version = Snapshot.supportedVersion ∧ Holdable snapshot.entities := by
  simp only [ofSnapshot_eq_ok, ← exists_foldlM_push_iff]
  constructor
  · rintro ⟨store, hversion, filled, hfilled, -⟩
    exact ⟨hversion, filled, hfilled⟩
  · rintro ⟨hversion, filled, hfilled⟩
    exact ⟨_, hversion, filled, hfilled, rfl⟩

theorem snapshot_of_ofSnapshot (h : ofSnapshot snapshot = .ok store) :
    store.snapshot = snapshot := by
  obtain ⟨hversion, filled, hfilled, rfl⟩ := ofSnapshot_eq_ok.1 h
  obtain ⟨hentities, hrelations⟩ := entities_of_foldlM_push hfilled
  obtain ⟨hsame, hlinks⟩ := tables_foldl_relate filled snapshot.relations
  obtain ⟨version, entities, relations⟩ := snapshot
  obtain rfl : version = Snapshot.supportedVersion := hversion
  simp only [Store.snapshot, hsame, hentities, hlinks, hrelations]
  rfl

theorem ofSnapshot_eq_error_iff : ofSnapshot snapshot = .error cause ↔ snapshot.Fault cause := by
  constructor
  · intro h
    unfold ofSnapshot at h
    split at h
    · rename_i hversion
      cases h
      exact .version hversion
    · rename_i hversion
      refine .row (Decidable.not_not.1 hversion) (foldlM_push_eq_error_iff.1 ?_)
      cases hrows : snapshot.entities.foldlM push {} with
      | error early =>
        rw [hrows] at h
        cases h
        rfl
      | ok filled =>
        rw [hrows] at h
        cases h
  · rintro (hversion | ⟨hversion, hrefused⟩)
    · rw [ofSnapshot, if_pos hversion]
    · rw [ofSnapshot, if_neg (not_not_intro hversion), foldlM_push_eq_error_iff.2 hrefused]
      rfl

/-- A snapshot is loaded exactly if it has the supported version, none of its rows has the last id,
and no two share an id. Then the store has the rows and relations of the snapshot, all of them and
in order. Otherwise the error is that of the version, or of the first row that has the last id or
the id of a row in front of it. -/
theorem snapshots_accepted_exactly (snapshot : Snapshot) :
    ((∃ store, ofSnapshot snapshot = .ok store) ↔
      snapshot.version = Snapshot.supportedVersion ∧ Holdable snapshot.entities) ∧
    (∀ store, ofSnapshot snapshot = .ok store → store.snapshot = snapshot) ∧
    ∀ cause, ofSnapshot snapshot = .error cause ↔ snapshot.Fault cause :=
  ⟨exists_ofSnapshot_iff, fun _ => snapshot_of_ofSnapshot, fun _ => ofSnapshot_eq_error_iff⟩

/-- Of two bad rows, the first is reported. -/
example :
    let row (id : UInt32) (name : String) : EntityRow :=
      { project := ⟨1⟩, name, kind := .class, id := ⟨id⟩ }
    (ofSnapshot { version := 1, entities := [row 4 "a.A", row 7 "a.B", row 4 "a.C",
      row lastWord "a.D"] }).map (fun _ => ()) = .error (.duplicateId ⟨4⟩) := by
  decide +kernel

end Store

end Referent
