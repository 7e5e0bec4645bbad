import Mathlib.Data.List.Induction
import Mathlib.Data.List.TakeWhile
import Referent.Settings
import Referent.Proofs.Grammar
import Referent.Proofs.NumberText

/-!
# Lists of ids are read as they are written

A list of project ids may be written in many ways: with zeros and a plus sign in front of each id,
with white space around it, and with blank items anywhere between the commas. `ListItem` is the
grammar of such items and `ListItem.text` writes them down. Every list so written is read as its
ids, and no other text is read at all. The error is the first item that is neither blank nor an
id, as it stands (`ProjectId.lists_read_exactly`).

* **White space**: trimming leaves the one part of a text that has white space around it and none
  at its own ends (`Text.trim_eq_iff`).
* **Numerals**: a number is read from digits that have its value, with a plus sign in front or
  without one (`Text.readWord_eq_some_iff`). These are its decimal digits behind any number of
  zeros (`Text.numeral_iff`).
* **Items**: what becomes of an item does not depend on the others. A written one comes to its id,
  if it has one (`ProjectId.readItem_chars`), and an item that is not refused is a written one
  (`ProjectId.exists_written`).
* **Lists**: items are refused at the first that is, or else all of them are written ones
  (`ProjectId.items_cases`), and cutting at the commas gives the items back
  (`ProjectId.splitOn_text`).
-/

namespace Referent

namespace Text

variable {cs core : List Char} {sep : Char} {n high : Nat} {w : UInt32}

/-! ## White space -/

/-- White space, maybe none. -/
structure Space where
  chars : List Char
  blank : ∀ c ∈ chars, isBlank c = true

/-- The core of a text is what is left of it without the white space at its ends. -/
structure Trimmed (cs core : List Char) : Prop where
  around : ∃ before after : Space, cs = before.chars ++ core ++ after.chars
  solid : Name.Solid core

theorem trimStart_append (before : Space) (cs : List Char) :
    trimStart (before.chars ++ cs) = trimStart cs :=
  List.dropWhile_append_of_pos before.blank

theorem trimEnd_append (cs : List Char) (after : Space) :
    trimEnd (cs ++ after.chars) = trimEnd cs := by
  have hblank : ∀ c ∈ after.chars.reverse, isBlank c = true :=
    fun c hc => after.blank c (List.mem_reverse.1 hc)
  rw [trimEnd, List.reverse_append, List.dropWhile_append_of_pos hblank, trimEnd]

theorem head_trimStart (cs : List Char) : ∀ c ∈ (trimStart cs).head?, isBlank c = false := by
  intro c hc
  have hnot := List.head?_dropWhile_not isBlank cs
  rw [trimStart, Option.mem_def] at hc
  rwa [hc] at hnot

theorem last_trimEnd (cs : List Char) : ∀ c ∈ (trimEnd cs).getLast?, isBlank c = false := by
  rw [trimEnd, List.getLast?_reverse]
  exact head_trimStart cs.reverse

theorem trimmed_trim (cs : List Char) : Trimmed cs (trim cs) where
  around := by
    refine ⟨⟨cs.takeWhile isBlank, fun _ => List.mem_takeWhile_imp⟩,
      ⟨((trimStart cs).reverse.takeWhile isBlank).reverse,
        fun c hc => List.mem_takeWhile_imp (List.mem_reverse.1 hc)⟩, ?_⟩
    rw [trim, trimEnd, List.append_assoc, ← List.reverse_append, List.takeWhile_append_dropWhile,
      List.reverse_reverse, trimStart, List.takeWhile_append_dropWhile]
  solid.head := by
    -- What trimming at the end leaves begins as the text did.
    obtain ⟨behind, hbehind⟩ := trimEnd_initial (trimStart cs)
    intro c hc
    refine head_trimStart cs c ?_
    rw [Option.mem_def] at hc
    rw [← hbehind, List.head?_append, Option.mem_def, ← trim, hc]
    rfl
  solid.last := last_trimEnd (trimStart cs)

theorem Trimmed.trim_eq (h : Trimmed cs core) : trim cs = core := by
  obtain ⟨⟨before, after, rfl⟩, hsolid⟩ := h
  rw [List.append_assoc, trim, trimStart_append]
  cases core with
  | nil =>
    rw [List.nil_append, ← List.append_nil after.chars, trimStart_append]
    rfl
  | cons c core =>
    have hstart : trimStart (c :: core ++ after.chars) = c :: core ++ after.chars :=
      trimStart_of_head hsolid.head
    rw [hstart, trimEnd_append, trimEnd_of_last hsolid.last]

theorem trim_eq_iff : trim cs = core ↔ Trimmed cs core := by
  constructor
  · rintro rfl
    exact trimmed_trim cs
  · exact Trimmed.trim_eq

/-- Nothing is left of white space alone. -/
theorem trimmed_nil_iff : Trimmed cs [] ↔ ∀ c ∈ cs, isBlank c = true := by
  constructor
  · rintro ⟨⟨before, after, rfl⟩, -⟩ c hc
    rw [List.append_nil] at hc
    exact (List.mem_append.1 hc).elim (before.blank c) (after.blank c)
  · intro hblank
    exact ⟨⟨⟨cs, hblank⟩, ⟨[], by simp⟩, by simp⟩, ⟨by simp, by simp⟩⟩

/-! ## Numerals -/

/-- ASCII digits with a value, at least one. -/
structure Digits (n : Nat) (cs : List Char) : Prop where
  nonempty : cs ≠ []
  digits : ∀ c ∈ cs, c.isDigit = true
  value : Nat.ofDigitChars 10 cs 0 = n

/-- A numeral of a number: its digits, with a plus sign in front or without one. -/
inductive Numeral (n : Nat) : List Char → Prop
  | bare {cs : List Char} : Digits n cs → Numeral n cs
  | signed {cs : List Char} : Digits n cs → Numeral n ('+' :: cs)

theorem digitsFrom_eq_some_iff : digitsFrom high cs = some n ↔
    (∀ c ∈ cs, c.isDigit = true) ∧ Nat.ofDigitChars 10 cs high = n := by
  constructor
  · intro h
    have hdigits : ∀ c ∈ cs, c.isDigit = true := by
      induction cs generalizing high with
      | nil => exact fun _ hc => absurd hc List.not_mem_nil
      | cons c cs ih =>
        obtain ⟨d, hd, hrest⟩ := Option.bind_eq_some_iff.1 h
        have hc : '0' ≤ c ∧ c ≤ '9' := (Option.ite_none_right_eq_some.1 hd).1
        intro other hother
        rcases List.mem_cons.1 hother with rfl | hother
        · simpa [Char.isDigit, Char.le_def] using hc
        · exact ih hrest other hother
    rw [Json.digitsFrom_of_all hdigits] at h
    exact ⟨hdigits, Option.some.inj h⟩
  · rintro ⟨hdigits, rfl⟩
    exact Json.digitsFrom_of_all hdigits high

theorem digitsValue_eq_some_iff : digitsValue cs = some n ↔ Digits n cs := by
  rw [digitsValue, Option.ite_none_left_eq_some, digitsFrom_eq_some_iff, List.isEmpty_iff]
  constructor
  · rintro ⟨hne, hdigits, hvalue⟩
    exact ⟨hne, hdigits, hvalue⟩
  · rintro ⟨hne, hdigits, hvalue⟩
    exact ⟨hne, hdigits, hvalue⟩

theorem narrow_eq_some_iff : narrow n = some w ↔ n = w.toNat := by
  rw [narrow, Option.ite_none_right_eq_some, Option.some.injEq]
  constructor
  · rintro ⟨hn, rfl⟩
    exact (UInt32.toNat_ofNat_of_lt hn).symm
  · rintro rfl
    exact ⟨w.toNat_lt_size, UInt32.ofNat_toNat⟩

theorem not_digits_plus : ¬ Digits n ('+' :: cs) :=
  fun h => absurd (h.digits '+' List.mem_cons_self) (by decide)

theorem readWord_eq_some_iff : readWord cs = some w ↔ Numeral w.toNat cs := by
  have hread (digits : List Char) : digitsValue digits >>= narrow = some w ↔
      Digits w.toNat digits := by
    rw [← digitsValue_eq_some_iff]
    simp [Option.bind_eq_some_iff, narrow_eq_some_iff]
  unfold readWord
  split
  · rw [hread]
    constructor
    · exact .signed
    · rintro (h | h)
      · exact absurd h not_digits_plus
      · exact h
  · rename_i hplus
    rw [hread]
    constructor
    · exact .bare
    · rintro (h | h)
      · exact h
      · exact absurd rfl (hplus _)

theorem readWord_eq_none_iff : readWord cs = none ↔ ∀ n < UInt32.size, ¬ Numeral n cs := by
  rw [Option.eq_none_iff_forall_ne_some]
  constructor
  · intro h n hn hnumeral
    refine h (UInt32.ofNat n) (readWord_eq_some_iff.2 ?_)
    rwa [UInt32.toNat_ofNat_of_lt' hn]
  · intro h w hw
    exact h w.toNat w.toNat_lt_size (readWord_eq_some_iff.1 hw)

/-- A number as it may be written: its decimal digits with zeros in front, and perhaps a plus sign
in front of these. -/
def spelled (plus : Bool) (zeros n : Nat) : List Char :=
  (if plus then ['+'] else []) ++ List.replicate zeros '0' ++ Nat.toDigits 10 n

theorem digits_zeros (zeros n : Nat) :
    Digits n (List.replicate zeros '0' ++ Nat.toDigits 10 n) where
  nonempty := List.append_ne_nil_of_right_ne_nil _ Nat.toDigits_ne_nil
  digits c hc := by
    rcases List.mem_append.1 hc with hc | hc
    · rw [List.eq_of_mem_replicate hc]
      rfl
    · exact Json.isDigit_of_mem_toDigits hc
  value := by
    rw [Nat.ofDigitChars_append, Nat.ofDigitChars_replicate_zero, Nat.mul_zero,
      Nat.ofDigitChars_ten_toDigits]

theorem exists_digitChar {c : Char} (hc : c.isDigit = true) :
    ∃ d < 10, c = d.digitChar ∧ c.toNat - '0'.toNat = d := by
  obtain ⟨hlow, hhigh⟩ : 48 ≤ c.toNat ∧ c.toNat ≤ 57 := Char.isDigit_iff_toNat.1 hc
  refine ⟨c.toNat - 48, by omega, ?_, rfl⟩
  rw [← Char.toNat_inj, Nat.toNat_digitChar_of_lt_ten (by omega)]
  omega

/-- There are no digits of a number but its decimal digits and zeros in front of them. The
induction is on the digits from behind, since the last one is what is left by division. -/
theorem Digits.exists_zeros (h : Digits n cs) :
    ∃ zeros, cs = List.replicate zeros '0' ++ Nat.toDigits 10 n := by
  induction cs using List.reverseRecOn generalizing n with
  | nil => exact absurd rfl h.nonempty
  | append_singleton front last ih =>
    obtain ⟨d, hd, rfl, hvalue⟩ := exists_digitChar (h.digits last (by simp))
    have hn : 10 * Nat.ofDigitChars 10 front 0 + d = n := by
      rw [← h.value, Nat.ofDigitChars_append, Nat.ofDigitChars_cons, hvalue]
      rfl
    by_cases hfront : front = []
    · subst hfront
      refine ⟨0, ?_⟩
      rw [← hn, Nat.ofDigitChars_nil, Nat.mul_zero, Nat.zero_add, Nat.toDigits_of_lt_base hd]
      rfl
    · obtain ⟨zeros, hzeros⟩ := ih ⟨hfront, fun c hc => h.digits c (by simp [hc]), rfl⟩
      obtain hm | hm := Nat.eq_zero_or_pos (Nat.ofDigitChars 10 front 0)
      · -- All digits in front are zeros.
        refine ⟨zeros + 1, ?_⟩
        rw [← hn, hm, Nat.mul_zero, Nat.zero_add, Nat.toDigits_of_lt_base hd,
          List.replicate_succ', hzeros, hm, Nat.toDigits_zero]
      · refine ⟨zeros, ?_⟩
        have hdiv : n / 10 = Nat.ofDigitChars 10 front 0 := by omega
        have hmod : n % 10 = d := by omega
        rw [Nat.toDigits_of_base_le (by decide) (by omega), hdiv, hmod, ← List.append_assoc,
          ← hzeros]

theorem numeral_spelled (plus : Bool) (zeros n : Nat) : Numeral n (spelled plus zeros n) := by
  cases plus with
  | false => exact .bare (digits_zeros zeros n)
  | true => exact .signed (digits_zeros zeros n)

theorem numeral_iff : Numeral n cs ↔ ∃ plus zeros, cs = spelled plus zeros n := by
  constructor
  · rintro (h | h)
    · obtain ⟨zeros, rfl⟩ := h.exists_zeros
      exact ⟨false, zeros, rfl⟩
    · obtain ⟨zeros, rfl⟩ := h.exists_zeros
      exact ⟨true, zeros, rfl⟩
  · rintro ⟨plus, zeros, rfl⟩
    exact numeral_spelled plus zeros n

theorem Numeral.sign_or_digit (h : Numeral n cs) : ∀ c ∈ cs, c = '+' ∨ c.isDigit = true := by
  intro c hc
  cases h with
  | bare h => exact .inr (h.digits c hc)
  | signed h => exact (List.mem_cons.1 hc).imp id (h.digits c)

theorem Numeral.ne_nil (h : Numeral n cs) : cs ≠ [] := by
  cases h with
  | bare h => exact h.nonempty
  | signed h => exact List.cons_ne_nil _ _

/-- Digits and signs are not blank, being between the space and the next blank code point. -/
theorem isBlank_of_between {c : Char} (hlow : 0x20 < c.toNat) (hhigh : c.toNat < 0x85) :
    isBlank c = false := by
  have hpoints : ∀ point ∈ blankPoints, point ≤ 0x20 ∨ 0x85 ≤ point := by decide
  rw [isBlank, List.contains_eq_mem, decide_eq_false_iff_not]
  intro hmem
  have hpoint := hpoints _ hmem
  omega

theorem Numeral.not_blank (h : Numeral n cs) : ∀ c ∈ cs, isBlank c = false := by
  intro c hc
  rcases h.sign_or_digit c hc with rfl | hdigit
  · decide
  · obtain ⟨hlow, hhigh⟩ : 48 ≤ c.toNat ∧ c.toNat ≤ 57 := Char.isDigit_iff_toNat.1 hdigit
    exact isBlank_of_between (by omega) (by omega)

theorem Numeral.solid (h : Numeral n cs) : Name.Solid cs where
  head c hc := h.not_blank c (List.mem_of_head? hc)
  last c hc := h.not_blank c (List.mem_of_getLast? hc)

/-! ## Commas -/

theorem split_eq_splitOn : split sep cs = cs.splitOn sep := by
  induction cs with
  | nil => rfl
  | cons c cs ih =>
    rw [split, List.splitOn_cons_eq_if_modifyHead, ← ih]
    by_cases hc : c = sep
    · rw [if_pos hc, if_pos (beq_iff_eq.2 hc)]
    · rw [if_neg hc, if_neg (by simpa using hc)]
      cases hpieces : split sep cs with
      | nil => exact absurd (ih.symm.trans hpieces) (List.splitOn_ne_nil sep cs)
      | cons piece later => rfl

end Text

/-! ## Written items -/

/-- An item of a list as it may be written: white space, or an id with zeros in front of it and
perhaps a plus sign, and with white space around it. -/
inductive ListItem
  | blank (space : Text.Space)
  | id (before : Text.Space) (plus : Bool) (zeros : Nat) (project : ProjectId)
      (after : Text.Space)

namespace ListItem

/-- What is written for an item. -/
def chars : ListItem → List Char
  | blank space => space.chars
  | id before plus zeros project after =>
    before.chars ++ Text.spelled plus zeros project.val.toNat ++ after.chars

/-- The id that an item is written for, if it is not blank. -/
def project? : ListItem → Option ProjectId
  | blank _ => none
  | id _ _ _ project _ => some project

/-- The items with commas between them. -/
def text (items : List ListItem) : String :=
  String.ofList ([','].intercalate (items.map chars))

/-- The ids that items are written for, in order. -/
def projects (items : List ListItem) : List ProjectId :=
  items.filterMap project?

end ListItem

namespace ProjectId

variable {key text : String} {item core : List Char} {items : List (List Char)}
  {cause : SettingsError} {ids : List ProjectId}

/-! ## One item -/

/-- The item is neither blank nor an id: what is left of it without the white space at its ends is
not empty, and it is no numeral of a 32-bit number. -/
def Refused (item : List Char) : Prop :=
  ∃ core, Text.Trimmed item core ∧ core ≠ [] ∧ ∀ n < UInt32.size, ¬ Text.Numeral n core

theorem refused_iff : Refused item ↔
    Text.trim item ≠ [] ∧ Text.readWord (Text.trim item) = none := by
  simp only [Refused, ← Text.trim_eq_iff, Text.readWord_eq_none_iff, exists_eq_left']

instance : DecidablePred Refused := fun _ => decidable_of_iff _ refused_iff.symm

/-- What an item comes to: nothing if it is blank. -/
def readItem (key : String) (item : List Char) : Except SettingsError (Option ProjectId) :=
  if (Text.trim item).isEmpty then .ok none
  else (ProjectId.read key (String.ofList item)).map some

theorem readItem_of_blank (h : Text.Trimmed item []) : readItem key item = .ok none := by
  rw [readItem, h.trim_eq]
  rfl

theorem readItem_of_numeral {w : UInt32} (h : Text.Trimmed item core)
    (hcore : Text.Numeral w.toNat core) : readItem key item = .ok (some ⟨w⟩) := by
  rw [readItem, ProjectId.read, String.toList_ofList, h.trim_eq,
    if_neg (by simpa using hcore.ne_nil), Text.readWord_eq_some_iff.2 hcore]
  rfl

theorem readItem_of_refused (h : Refused item) :
    readItem key item = .error (.invalidValue key (String.ofList item)) := by
  obtain ⟨hne, hnone⟩ := refused_iff.1 h
  rw [readItem, ProjectId.read, String.toList_ofList, if_neg (by simpa using hne), hnone]
  rfl

/-- An item that is not refused is a written one. -/
theorem exists_written (h : ¬ Refused item) : ∃ written : ListItem, item = written.chars := by
  have htrimmed := Text.trimmed_trim item
  by_cases hempty : Text.trim item = []
  · rw [hempty, Text.trimmed_nil_iff] at htrimmed
    exact ⟨.blank ⟨item, htrimmed⟩, rfl⟩
  · cases hread : Text.readWord (Text.trim item) with
    | none => exact absurd (refused_iff.2 ⟨hempty, hread⟩) h
    | some w =>
      obtain ⟨before, after, haround⟩ := htrimmed.around
      obtain ⟨plus, zeros, hspelled⟩ := Text.numeral_iff.1 (Text.readWord_eq_some_iff.1 hread)
      refine ⟨.id before plus zeros ⟨w⟩ after, ?_⟩
      rw [ListItem.chars, ← hspelled, ← haround]

theorem readItem_chars (written : ListItem) :
    readItem key written.chars = .ok written.project? := by
  cases written with
  | blank space => exact readItem_of_blank (Text.trimmed_nil_iff.2 space.blank)
  | id before plus zeros project after =>
    have hnumeral := Text.numeral_spelled plus zeros project.val.toNat
    exact readItem_of_numeral ⟨⟨before, after, rfl⟩, hnumeral.solid⟩ hnumeral

/-! ## All items -/

/-- Items are read one after the other. -/
def readItems (key : String) (items : List (List Char)) : Except SettingsError (List ProjectId) :=
  (items.filter fun item => !(Text.trim item).isEmpty).mapM fun item =>
    ProjectId.read key (String.ofList item)

theorem readList_eq (key text : String) :
    ProjectId.readList key text = readItems key (text.toList.splitOn ',') := by
  rw [← Text.split_eq_splitOn]
  rfl

/-- Reading one item more, in front of others. -/
theorem readItems_cons : readItems key (item :: items) =
    readItem key item >>= fun found => (readItems key items).map (found.toList ++ ·) := by
  cases hblank : (Text.trim item).isEmpty with
  | true =>
    have hskip : readItems key (item :: items) = readItems key items := by
      rw [readItems, List.filter_cons_of_neg (by simp [hblank]), readItems]
    rw [hskip, readItem, if_pos hblank]
    cases readItems key items <;> rfl
  | false =>
    have htake : readItems key (item :: items) =
        (ProjectId.read key (String.ofList item) >>= fun id =>
          readItems key items >>= fun later => pure (id :: later)) := by
      rw [readItems, List.filter_cons_of_pos (by simp [hblank]), List.mapM_cons]
      rfl
    rw [htake, readItem, if_neg (by simp [hblank])]
    cases ProjectId.read key (String.ofList item) with
    | error cause => rfl
    | ok id => cases readItems key items <;> rfl

theorem readItems_chars (written : List ListItem) :
    readItems key (written.map ListItem.chars) = .ok (ListItem.projects written) := by
  induction written with
  | nil => rfl
  | cons first written ih =>
    rw [List.map_cons, readItems_cons, readItem_chars, ih]
    cases hfirst : first.project? <;>
      simp [ListItem.projects, hfirst, bind, Except.bind, Except.map]

/-- Items of which none is refused are written ones. -/
theorem exists_written_all (h : ∀ item ∈ items, ¬ Refused item) :
    ∃ written : List ListItem, items = written.map ListItem.chars := by
  induction items with
  | nil => exact ⟨[], rfl⟩
  | cons item items ih =>
    obtain ⟨first, rfl⟩ := exists_written (h item List.mem_cons_self)
    obtain ⟨written, rfl⟩ := ih fun other hother => h other (List.mem_cons_of_mem _ hother)
    exact ⟨first :: written, rfl⟩

theorem readItems_of_firstRefused (h : items.find? (fun item => Refused item) = some item) :
    readItems key items = .error (.invalidValue key (String.ofList item)) := by
  induction items with
  | nil => cases h
  | cons first items ih =>
    rw [readItems_cons]
    by_cases hfirst : Refused first
    · rw [List.find?_cons_of_pos (by simpa using hfirst)] at h
      cases h
      rw [readItem_of_refused hfirst]
      rfl
    · rw [List.find?_cons_of_neg (by simpa using hfirst)] at h
      obtain ⟨written, rfl⟩ := exists_written hfirst
      rw [readItem_chars, ih h]
      rfl

/-- Items are refused at the first that is, or else they are written ones. -/
theorem items_cases (key : String) (items : List (List Char)) :
    (∃ item, items.find? (fun item => Refused item) = some item ∧
      readItems key items = .error (.invalidValue key (String.ofList item))) ∨
    ∃ written : List ListItem, items = written.map ListItem.chars ∧
      readItems key items = .ok (ListItem.projects written) := by
  cases hfirst : items.find? (fun item => Refused item) with
  | some item => exact .inl ⟨item, rfl, readItems_of_firstRefused hfirst⟩
  | none =>
    obtain ⟨written, rfl⟩ := exists_written_all (by simpa using hfirst)
    exact .inr ⟨written, rfl, readItems_chars written⟩

theorem readItems_eq_error_iff : readItems key items = .error cause ↔
    ∃ item, items.find? (fun item => Refused item) = some item ∧
      cause = .invalidValue key (String.ofList item) := by
  constructor
  · intro h
    rcases items_cases key items with ⟨item, hfirst, hread⟩ | ⟨written, -, hread⟩
    · exact ⟨item, hfirst, Except.error.inj (h.symm.trans hread)⟩
    · cases h.symm.trans hread
  · rintro ⟨item, hfirst, rfl⟩
    exact readItems_of_firstRefused hfirst

theorem readItems_eq_ok_iff : readItems key items = .ok ids ↔
    ∃ written : List ListItem,
      items = written.map ListItem.chars ∧ ids = ListItem.projects written := by
  constructor
  · intro h
    rcases items_cases key items with ⟨item, -, hread⟩ | ⟨written, hitems, hread⟩
    · cases h.symm.trans hread
    · exact ⟨written, hitems, Except.ok.inj (h.symm.trans hread)⟩
  · rintro ⟨written, rfl, rfl⟩
    exact readItems_chars written

/-! ## Whole lists -/

theorem comma_not_mem_chars (written : ListItem) : ',' ∉ written.chars := by
  have hspace (space : Text.Space) : ',' ∉ space.chars :=
    fun hmem => absurd (space.blank ',' hmem) (by decide)
  cases written with
  | blank space => exact hspace space
  | id before plus zeros project after =>
    have hnumeral := Text.numeral_spelled plus zeros project.val.toNat
    intro hmem
    rcases List.mem_append.1 hmem with hmem | hmem
    · rcases List.mem_append.1 hmem with hmem | hmem
      · exact hspace before hmem
      · exact absurd (hnumeral.sign_or_digit ',' hmem) (by decide)
    · exact hspace after hmem

/-- A written list is cut into its items. -/
theorem splitOn_text {written : List ListItem} (h : written ≠ []) :
    (ListItem.text written).toList.splitOn ',' = written.map ListItem.chars := by
  rw [ListItem.text, String.toList_ofList]
  refine List.splitOn_intercalate ',' (fun item hitem => ?_) (by simpa using h)
  obtain ⟨first, -, rfl⟩ := List.mem_map.1 hitem
  exact comma_not_mem_chars first

theorem readList_text (key : String) (written : List ListItem) :
    readList key (ListItem.text written) = .ok (ListItem.projects written) := by
  cases written with
  | nil => rfl
  | cons first written =>
    rw [readList_eq, splitOn_text (List.cons_ne_nil _ _), readItems_chars]

theorem readList_eq_ok_iff : readList key text = .ok ids ↔
    ∃ written : List ListItem,
      text = ListItem.text written ∧ ids = ListItem.projects written := by
  constructor
  · intro h
    rw [readList_eq, readItems_eq_ok_iff] at h
    obtain ⟨written, hitems, rfl⟩ := h
    refine ⟨written, ?_, rfl⟩
    rw [ListItem.text, ← hitems, List.intercalate_splitOn, String.ofList_toList]
  · rintro ⟨written, rfl, rfl⟩
    exact readList_text key written

/-- A list of ids is read from every text in which it is written, however many zeros and perhaps a
plus sign are in front of each id, whatever white space is around it and wherever blank items are,
and from no other text. Reading fails exactly if there is an item between the commas that is
neither blank nor the numeral of a 32-bit number with white space around it. The error is the first
such item with its white space. -/
theorem lists_read_exactly (key text : String) :
    (∀ ids, readList key text = .ok ids ↔
      ∃ written : List ListItem,
        text = ListItem.text written ∧ ids = ListItem.projects written) ∧
    ((∃ cause, readList key text = .error cause) ↔
      ∃ item ∈ text.toList.splitOn ',', Refused item) ∧
    ∀ cause, readList key text = .error cause ↔
      ∃ item, (text.toList.splitOn ',').find? (fun item => Refused item) = some item ∧
        cause = .invalidValue key (String.ofList item) := by
  have herror (cause : SettingsError) : readList key text = .error cause ↔
      ∃ item, (text.toList.splitOn ',').find? (fun item => Refused item) = some item ∧
        cause = .invalidValue key (String.ofList item) := by
    rw [readList_eq, readItems_eq_error_iff]
  refine ⟨fun _ => readList_eq_ok_iff, ?_, herror⟩
  -- There is an error exactly if there is a first refused item, so exactly if there is any.
  simp only [herror]
  rw [exists_comm]
  simp only [exists_and_left, exists_eq, and_true]
  rw [← Option.isSome_iff_exists, List.find?_isSome]
  simp only [decide_eq_true_eq]

/-- Blank items and zeros do not matter. -/
example : readList "k" " 1,\u00a0,,+007 " = .ok [⟨1⟩, ⟨7⟩] := by
  decide +kernel

/-- The first item that is refused is one without a digit. The next one would be refused too. -/
example : readList "k" "3, + ,4294967296" = .error (.invalidValue "k" " + ") := by
  decide +kernel

end ProjectId

end Referent
