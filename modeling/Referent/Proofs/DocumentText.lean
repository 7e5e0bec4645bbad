import Referent.Json.Reader
import Referent.Proofs.NumberText
import Referent.Proofs.StringText

/-!
# Documents are read as they were written

The reader has no recursion over values: an open container is a frame, and what has been read of
it is in its state. So the text of a value is characterised by what it does to a run. Wherever a
value may begin (`State.Awaits`), the run goes on behind that text with the value complete
(`Reads`), which says nothing about the frames. The two kinds of containers differ in their
brackets and in the states between their members and are otherwise read alike, so a
`Container` keeps what is particular to one and `Container.reads_enclose` is about either.

Strings, words and brackets end by themselves. A number does not, so every statement about a run
asks that what follows the text ends a number. What the printer puts behind a value does: a
comma, a closing bracket, or blanks before one.
-/

namespace Referent.Json

/-! ## Steps of the reader -/

theorem isSpace_cases {c : Char} (hc : isSpace c = true) :
    c = ' ' ∨ c = '\t' ∨ c = '\n' ∨ c = '\r' := by
  simpa only [isSpace, Bool.or_eq_true, decide_eq_true_eq, or_assoc] using hc

theorem readToken_space {c : Char} (hc : isSpace c = true) (cs : List Char) :
    readToken (c :: cs) = none := by
  rcases isSpace_cases hc with rfl | rfl | rfl | rfl <;> rfl

namespace State

theorem run_eq (state : State) (cs : List Char) :
    state.run cs =
      if (cs.dropWhile isSpace).isEmpty then state.result?
      else (readToken (cs.dropWhile isSpace)).bind fun (token, rest) =>
        (state.step token).bind fun next => next.run rest := by
  rw [run]
  split
  · rfl
  · split
    · simp [*]
    · rename_i hread
      simp only [hread, Option.bind_some]
      split <;> simp [*]

theorem run_spaces {state : State} {blanks cs : List Char} (h : ∀ c ∈ blanks, isSpace c = true) :
    state.run (blanks ++ cs) = state.run cs := by
  rw [run_eq, run_eq, List.dropWhile_append_of_pos h]

theorem run_token {state next : State} {cs rest : List Char} {token : Token}
    (hread : readToken cs = some (token, rest)) (hstep : state.step token = some next) :
    state.run cs = next.run rest := by
  obtain _ | ⟨c, cs⟩ := cs
  · cases hread
  have hc : isSpace c = false := by
    cases hc : isSpace c with
    | false => rfl
    | true =>
      rw [readToken_space hc] at hread
      cases hread
  simp [run_eq state, hc, hread, hstep]

/-- The state takes the first token of a value in `frames`. -/
def Awaits (state : State) (frames : List Frame) : Prop :=
  ∀ {token next}, enter frames token = some next → state.step token = some next

theorem firstItem_awaits {frames : List Frame} :
    (State.firstItem frames).Awaits (.array [] :: frames) := by
  intro token next h
  cases token with
  | closeArray => cases h
  | _ => exact h

end State

/-! ## Values without inner structure -/

/-- Wherever a value is due, the reader takes the characters for that value. -/
def Reads (chars : List Char) (value : Value) : Prop :=
  ∀ {state : State} {frames : List Frame} {rest : List Char},
    state.Awaits frames → EndsNumber rest →
      state.run (chars ++ rest) = (State.complete value frames).run rest

theorem reads_scalar {chars : List Char} {value : Value}
    (h : ∀ rest, EndsNumber rest → readToken (chars ++ rest) = some (.scalar value, rest)) :
    Reads chars value :=
  fun hstate hrest => State.run_token (h _ hrest) (hstate rfl)

theorem reads_unpaired : Reads "\"\\ud800\"".toList .unpaired := by
  refine reads_scalar fun rest _ => ?_
  show readToken ('"' :: (unitEscape 0xd800 ++ '"' :: rest)) = _
  rw [readToken, readString, readPieces_unitEscape (by decide)]
  rfl

/-! ## Blanks -/

theorem endsNumber_cons {c : Char} (hc : isDigit c = false ∧ c ∉ ['.', 'e', 'E'])
    (rest : List Char) : EndsNumber (c :: rest) := by
  rintro _ ⟨⟩
  exact hc

theorem EndsNumber.after_blanks {blanks rest : List Char} (hrest : EndsNumber rest)
    (h : ∀ c ∈ blanks, isSpace c = true) : EndsNumber (blanks ++ rest) := by
  obtain _ | ⟨c, blanks⟩ := blanks
  · exact hrest
  · refine endsNumber_cons ?_ _
    rcases isSpace_cases (h c List.mem_cons_self) with rfl | rfl | rfl | rfl <;> decide

theorem Layout.isSpace_of_mem_break {layout : Layout} {depth : Nat} {c : Char}
    (h : c ∈ (layout.break depth).toList) : isSpace c = true := by
  unfold Layout.break at h
  split at h
  · simp only [String.toList_append, List.mem_append, String.toList_ofList] at h
    obtain h | h := h
    · rw [List.mem_singleton.1 h]
      rfl
    · rw [List.eq_of_mem_replicate h]
      rfl
  · simp at h

theorem Layout.colon_eq (layout : Layout) :
    ∃ blanks, (∀ c ∈ blanks, isSpace c = true) ∧ layout.colon.toList = ':' :: blanks := by
  unfold Layout.colon
  split
  · exact ⟨[' '], by simp [isSpace], rfl⟩
  · exact ⟨[], by simp, rfl⟩

/-! ## Containers -/

theorem intercalate_cons (sep : List α) (x : List α) (xs : List (List α)) :
    sep.intercalate (x :: xs) = x ++ xs.flatMap (sep ++ ·) := by
  induction xs generalizing x with
  | nil => simp
  | cons y xs ih => simp [ih]

theorem toList_enclose_cons (layout : Layout) (depth : Nat) (opening closing item : String)
    (items : List String) :
    (enclose layout depth opening closing (item :: items)).toList =
      opening.toList ++ ((layout.break (depth + 1)).toList ++ (item.toList ++
        (items.flatMap (fun item => ',' :: ((layout.break (depth + 1)).toList ++ item.toList)) ++
          ((layout.break depth).toList ++ closing.toList)))) := by
  simp [enclose, String.toList_intercalate, intercalate_cons, List.flatMap_map]

/-- A kind of container: its brackets, what its members make, and how the reader goes through
it. -/
structure Container (β : Type) where
  opening : String
  closing : String
  build : List β → Value
  /-- The state behind the opening bracket. -/
  first : List Frame → State
  /-- The state behind a member, with those before it, last first. -/
  filled : β → List β → List Frame → State
  /-- The state behind the comma that follows a member. -/
  due : β → List β → List Frame → State
  run_opening {state : State} {frames : List Frame} (h : state.Awaits frames) (cs : List Char) :
    state.run (opening.toList ++ cs) = (first frames).run cs
  run_comma (m : β) (done : List β) (frames : List Frame) (cs : List Char) :
    (filled m done frames).run (',' :: cs) = (due m done frames).run cs
  run_closing (m : β) (done : List β) (frames : List Frame) (cs : List Char) :
    (filled m done frames).run (closing.toList ++ cs) =
      (State.complete (build (m :: done).reverse) frames).run cs
  run_empty (frames : List Frame) (cs : List Char) :
    (first frames).run (closing.toList ++ cs) = (State.complete (build []) frames).run cs
  endsNumber_closing (cs : List Char) : EndsNumber (closing.toList ++ cs)

namespace Container

def array : Container Value where
  opening := "["
  closing := "]"
  build := .array
  first := .firstItem
  filled v done frames := .complete v (.array done :: frames)
  due v done frames := .due (.array (v :: done) :: frames)
  run_opening h cs := State.run_token rfl (h rfl)
  run_comma _ _ _ _ := State.run_token rfl rfl
  run_closing _ _ _ _ := State.run_token rfl rfl
  run_empty _ _ := State.run_token rfl rfl
  endsNumber_closing _ := endsNumber_cons (by decide) _

/-- A field as the reader keeps it. -/
def keyed (field : String × Value) : Key × Value :=
  (some field.1, field.2)

def object : Container (String × Value) where
  opening := "\x7b"
  closing := "\x7d"
  build := .object
  first := .firstKey
  filled field done frames := .complete field.2 (.object (done.map keyed) (some field.1) :: frames)
  due field done frames := .nextKey ((field :: done).map keyed) frames
  run_opening h cs := State.run_token rfl (h rfl)
  run_comma _ _ _ _ := State.run_token rfl rfl
  run_closing field done frames cs := by
    refine State.run_token rfl ?_
    rw [← Value.ofFields_map_some, List.map_reverse]
    rfl
  run_empty _ _ := State.run_token rfl rfl
  endsNumber_closing _ := endsNumber_cons (by decide) _

variable {kind : Container β}

/-- Wherever a member is due, the reader takes the characters for that member. -/
structure Takes (kind : Container β) (chars : List Char) (m : β) : Prop where
  run_first (frames : List Frame) {rest : List Char} (hrest : EndsNumber rest) :
    (kind.first frames).run (chars ++ rest) = (kind.filled m [] frames).run rest
  run_due (before : β) (done : List β) (frames : List Frame) {rest : List Char}
    (hrest : EndsNumber rest) :
    (kind.due before done frames).run (chars ++ rest) =
      (kind.filled m (before :: done) frames).run rest

section Members

variable {text : β → List Char} {blanks last : List Char}
  (hblanks : ∀ c ∈ blanks, isSpace c = true) (hlast : ∀ c ∈ last, isSpace c = true)
  {more : List β}

include hlast in
theorem endsNumber_more (rest : List Char) :
    EndsNumber (more.flatMap (fun m => ',' :: (blanks ++ text m)) ++
      (last ++ (kind.closing.toList ++ rest))) := by
  cases more with
  | nil => exact (kind.endsNumber_closing rest).after_blanks hlast
  | cons next more => exact endsNumber_cons (by decide) _

include hblanks hlast in
/-- The members behind the first one, up to the closing bracket. -/
theorem run_more (hmore : ∀ m ∈ more, kind.Takes (text m) m) (m : β) (done : List β)
    (frames : List Frame) (rest : List Char) :
    (kind.filled m done frames).run
        (more.flatMap (fun m => ',' :: (blanks ++ text m)) ++
          (last ++ (kind.closing.toList ++ rest))) =
      (State.complete (kind.build ((m :: done).reverse ++ more)) frames).run rest := by
  induction more generalizing m done with
  | nil =>
    rw [List.flatMap_nil, List.nil_append, State.run_spaces hlast, kind.run_closing,
      List.append_nil]
  | cons next more ih =>
    obtain ⟨hnext, hmore⟩ := List.forall_mem_cons.1 hmore
    rw [List.flatMap_cons, List.append_assoc, List.cons_append, kind.run_comma, List.append_assoc,
      State.run_spaces hblanks, hnext.run_due m done frames (endsNumber_more hlast rest), ih hmore,
      List.reverse_cons, List.append_assoc, List.singleton_append]

end Members

theorem reads_enclose (kind : Container β) (layout : Layout) (depth : Nat) {text : β → String}
    {members : List β} (h : ∀ m ∈ members, kind.Takes (text m).toList m) :
    Reads (enclose layout depth kind.opening kind.closing (members.map text)).toList
      (kind.build members) := by
  intro state frames rest hstate hrest
  cases members with
  | nil =>
    simp [enclose, List.append_assoc, kind.run_opening hstate, kind.run_empty]
  | cons m more =>
    obtain ⟨hm, hmore⟩ := List.forall_mem_cons.1 h
    have hbreak (depth : Nat) : ∀ c ∈ (layout.break depth).toList, isSpace c = true := fun _ =>
      Layout.isSpace_of_mem_break
    rw [List.map_cons, toList_enclose_cons, List.flatMap_map]
    simp only [List.append_assoc]
    rw [kind.run_opening hstate, State.run_spaces (hbreak _),
      hm.run_first frames (endsNumber_more (hbreak _) _), run_more (hbreak _) (hbreak _) hmore]
    rfl

theorem takes_item {chars : List Char} {item : Value} (h : Reads chars item) :
    array.Takes chars item where
  run_first _ _ hrest := h State.firstItem_awaits hrest
  run_due _ _ _ _ hrest := h id hrest

theorem takes_field (layout : Layout) {chars : List Char} {field : String × Value}
    (h : Reads chars field.2) :
    object.Takes ((writeString layout field.1).toList ++ (layout.colon.toList ++ chars))
      field := by
  have hcolon {done frames rest} (hrest : EndsNumber rest) :
      (State.colon done (some field.1) frames).run (layout.colon.toList ++ (chars ++ rest)) =
        (State.complete field.2 (.object done (some field.1) :: frames)).run rest := by
    obtain ⟨blanks, hblanks, hcolon⟩ := layout.colon_eq
    rw [hcolon, List.cons_append, State.run_token rfl rfl, State.run_spaces hblanks]
    exact h id hrest
  constructor
  · intro frames rest hrest
    rw [List.append_assoc, State.run_token (readToken_writeString _ _ _) rfl, List.append_assoc]
    exact hcolon hrest
  · intro before done frames rest hrest
    rw [List.append_assoc, State.run_token (readToken_writeString _ _ _) rfl, List.append_assoc]
    exact hcolon hrest

end Container

/-! ## Documents -/

/-- Every number in the document is one. -/
inductive Value.WellSpelled : Value → Prop
  | null : WellSpelled .null
  | bool (b : Bool) : WellSpelled (.bool b)
  | number {spelling : String} (h : IsNumber spelling.toList) : WellSpelled (.number spelling)
  | string (text : String) : WellSpelled (.string text)
  | unpaired : WellSpelled .unpaired
  | array {items : List Value} (h : ∀ item ∈ items, WellSpelled item) : WellSpelled (.array items)
  | object {fields : List (String × Value)} (h : ∀ field ∈ fields, WellSpelled field.2) :
    WellSpelled (.object fields)

namespace Value.WellSpelled

theorem reads {value : Value} (h : value.WellSpelled) (layout : Layout) (depth : Nat) :
    Reads (value.write layout depth).toList value := by
  induction h generalizing depth with
  | null =>
    rw [write]
    exact reads_scalar fun rest _ => rfl
  | bool b =>
    cases b <;>
    · rw [write]
      exact reads_scalar fun rest _ => rfl
  | number hspelling =>
    rw [write]
    refine reads_scalar fun rest hrest => ?_
    rw [hspelling.readToken_append hrest, String.ofList_toList]
  | string text =>
    rw [write]
    exact reads_scalar fun rest _ => readToken_writeString layout text rest
  | unpaired =>
    rw [write]
    exact reads_unpaired
  | array _ ih =>
    rw [write]
    exact Container.array.reads_enclose layout depth fun item hitem =>
      Container.takes_item (ih item hitem (depth + 1))
  | object _ ih =>
    rw [write]
    refine Container.object.reads_enclose layout depth fun field hfield => ?_
    rw [String.toList_append, String.toList_append, List.append_assoc]
    exact Container.takes_field layout (ih field hfield (depth + 1))

/-- Reading undoes writing, in every layout. -/
theorem ofText?_write {value : Value} (h : value.WellSpelled) (layout : Layout) (depth : Nat) :
    ofText? (value.write layout depth) = some value := by
  have hends : EndsNumber [] := by
    rintro _ ⟨⟩
  have hrun : (State.due []).run ((value.write layout depth).toList ++ []) =
      (State.complete value []).run [] := h.reads layout depth id hends
  rw [List.append_nil] at hrun
  rw [ofText?, hrun, State.run_eq]
  rfl

end Value.WellSpelled

end Referent.Json
