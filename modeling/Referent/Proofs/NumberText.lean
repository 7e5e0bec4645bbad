import Referent.Json.Record

/-!
# Numbers are read as they were written

A number has no end of its own: the reader takes all that could still belong to it. So a number
is read as it stands by itself only if what follows does not go on with it (`EndsNumber`), and
each part of the reader is shown to stop there by itself. The numerals that are written are the
decimal ones of natural numbers. They are numbers because only zero begins with a zero, and
their digits give the number back.
-/

namespace Referent.Json

/-- No number goes on with these characters. -/
def EndsNumber (rest : List Char) : Prop :=
  ∀ c ∈ rest.head?, isDigit c = false ∧ c ∉ ['.', 'e', 'E']

/-- The characters are one number, from the first to the last. -/
def IsNumber (cs : List Char) : Prop :=
  readNumber cs = some (cs, [])

variable {cs left rest : List Char}

/-! ## The parts of a number end where the number ends -/

theorem takeWhile_isDigit_append (hrest : EndsNumber rest) (cs : List Char) :
    (cs ++ rest).takeWhile isDigit = cs.takeWhile isDigit := by
  induction cs with
  | nil =>
    cases rest with
    | nil => rfl
    | cons c rest => exact List.takeWhile_cons_of_neg (by simp [(hrest c rfl).1])
  | cons c cs ih => simp only [List.cons_append, List.takeWhile_cons, ih]

theorem dropWhile_isDigit_append (hrest : EndsNumber rest) (cs : List Char) :
    (cs ++ rest).dropWhile isDigit = cs.dropWhile isDigit ++ rest := by
  induction cs with
  | nil =>
    cases rest with
    | nil => rfl
    | cons c rest => exact List.dropWhile_cons_of_neg (by simp [(hrest c rfl).1])
  | cons c cs ih =>
    simp only [List.cons_append, List.dropWhile_cons, ih]
    split <;> rfl

theorem readDigits_append {digits : List Char} (hrest : EndsNumber rest)
    (h : readDigits cs = some (digits, left)) :
    readDigits (cs ++ rest) = some (digits, left ++ rest) := by
  rw [readDigits] at h ⊢
  rw [takeWhile_isDigit_append hrest, dropWhile_isDigit_append hrest]
  split at h
  · cases h
  · cases h
    rw [if_neg ‹_›]

theorem readWhole_append {whole : List Char} (hrest : EndsNumber rest)
    (h : readWhole cs = some (whole, left)) :
    readWhole (cs ++ rest) = some (whole, left ++ rest) := by
  unfold readWhole at h
  split at h
  · cases h
    rfl
  · rename_i hzero
    obtain _ | ⟨c, cs⟩ := cs
    · cases h
    · rw [List.cons_append, readWhole, ← List.cons_append]
      · exact readDigits_append hrest h
      · rintro _ ⟨⟩
        exact hzero cs rfl

theorem readFraction_append {fraction : List Char} (hrest : EndsNumber rest)
    (h : readFraction cs = some (fraction, left)) :
    readFraction (cs ++ rest) = some (fraction, left ++ rest) := by
  unfold readFraction at h
  split at h
  · obtain ⟨⟨digits, left⟩, hdigits, ⟨⟩⟩ := Option.map_eq_some_iff.1 h
    rw [List.cons_append, readFraction, readDigits_append hrest hdigits]
    rfl
  · rename_i hpoint
    cases h
    rw [readFraction]
    rintro after heq
    obtain _ | ⟨c, cs⟩ := cs
    · exact (hrest '.' (by rw [← List.nil_append rest, heq]; rfl)).2 (by decide)
    · cases heq
      exact hpoint cs rfl

theorem readSign_append (hcs : cs ≠ []) :
    readSign (cs ++ rest) = ((readSign cs).1, (readSign cs).2 ++ rest) := by
  obtain ⟨c, cs, rfl⟩ := List.exists_cons_of_ne_nil hcs
  unfold readSign
  rw [List.cons_append]
  split <;> simp_all

theorem readExponent_append {exponent : List Char} (hrest : EndsNumber rest)
    (h : readExponent cs = some (exponent, left)) :
    readExponent (cs ++ rest) = some (exponent, left ++ rest) := by
  obtain _ | ⟨e, cs⟩ := cs
  · cases h
    obtain _ | ⟨c, rest⟩ := rest
    · rfl
    · have hc := (hrest c rfl).2
      simp_all [readExponent]
  · by_cases he : e = 'e' ∨ e = 'E'
    · simp only [readExponent, if_pos he, Option.map_eq_some_iff] at h
      obtain ⟨⟨digits, left⟩, hdigits, heq⟩ := h
      have hcs : cs ≠ [] := by
        rintro rfl
        cases hdigits
      cases heq
      simp only [List.cons_append, readExponent, if_pos he, readSign_append hcs,
        readDigits_append hrest hdigits, Option.map_some]
    · simp only [readExponent, if_neg he] at h
      cases h
      rw [List.cons_append, readExponent, if_neg he]

theorem readNumber_append {number : List Char} (hrest : EndsNumber rest)
    (h : readNumber cs = some (number, left)) :
    readNumber (cs ++ rest) = some (number, left ++ rest) := by
  simp only [readNumber, Option.bind_eq_bind, Option.bind_eq_some_iff, Option.pure_def,
    Option.some.injEq, Prod.mk.injEq] at h
  obtain ⟨⟨whole, r1⟩, hwhole, ⟨fraction, r2⟩, hfraction, ⟨exponent, r3⟩, hexponent, rfl, rfl⟩ := h
  obtain _ | ⟨c, cs⟩ := cs
  · cases hwhole
  have hwhole' := readWhole_append hrest hwhole
  have hfraction' := readFraction_append hrest hfraction
  have hexponent' := readExponent_append hrest hexponent
  by_cases hc : c = '-'
  · subst hc
    simp_all [readNumber]
  · simp_all [readNumber]

/-! ## Numbers are tokens -/

theorem readDigits_head {digits : List Char} (h : readDigits cs = some (digits, left)) :
    ∃ c tail, cs = c :: tail ∧ isDigit c = true := by
  rw [readDigits] at h
  obtain _ | ⟨c, cs⟩ := cs
  · cases h
  · refine ⟨c, cs, rfl, ?_⟩
    cases hc : isDigit c with
    | true => rfl
    | false => simp [hc] at h

theorem readNumber_head {number : List Char} (h : readNumber cs = some (number, left)) :
    ∃ c tail, cs = c :: tail ∧ (c = '-' ∨ isDigit c = true) := by
  obtain _ | ⟨c, cs⟩ := cs
  · cases h
  · refine ⟨c, cs, rfl, ?_⟩
    by_cases hc : c = '-'
    · exact .inl hc
    refine .inr ?_
    cases hwhole : readWhole (c :: cs) with
    | none => simp [readNumber, hc, hwhole] at h
    | some read =>
      unfold readWhole at hwhole
      split at hwhole
      · rename_i heq
        cases heq
        rfl
      · obtain ⟨_, _, ⟨⟩, hdigit⟩ := readDigits_head hwhole
        exact hdigit

/-- A number is the token that is read, if nothing goes on with it. -/
theorem IsNumber.readToken_append (h : IsNumber cs) (hrest : EndsNumber rest) :
    readToken (cs ++ rest) = some (.scalar (.number (String.ofList cs)), rest) := by
  have hread := readNumber_append hrest h
  obtain ⟨c, tail, rfl, hc⟩ := readNumber_head h
  rw [List.cons_append] at hread ⊢
  have hword : readWord (c :: (tail ++ rest)) = none := by
    have hletters : 'n' ≠ c ∧ 't' ≠ c ∧ 'f' ≠ c := by
      refine ⟨?_, ?_, ?_⟩ <;>
      · rintro rfl
        revert hc
        decide
    simp [readWord, words, Text.dropFront?, hletters]
  rw [readToken]
  · rw [hword, hread]
    rfl
  all_goals
    rintro _ ⟨⟩
    revert hc
    decide

/-! ## Decimal numerals -/

theorem isDigit_of_mem_toDigits {n : Nat} {c : Char} (h : c ∈ Nat.toDigits 10 n) :
    isDigit c = true :=
  Nat.isDigit_of_mem_toDigits (by decide) (by decide) h

/-- No numeral but that of zero begins with a zero. -/
theorem head?_toDigits_ne_zero {n : Nat} (h : n ≠ 0) : (Nat.toDigits 10 n).head? ≠ some '0' := by
  induction n using Nat.strongRecOn with
  | ind n ih =>
    by_cases hn : n < 10
    · rw [Nat.toDigits_of_lt_base hn]
      intro hzero
      have hdigit : n.digitChar.toNat = 48 + n := Nat.toNat_digitChar_of_lt_ten hn
      rw [Option.some.inj hzero] at hdigit
      change 48 = 48 + n at hdigit
      omega
    · have hfront : Nat.toDigits 10 (n / 10) ≠ [] := Nat.toDigits_ne_nil
      obtain ⟨c, cs, hcs⟩ := List.exists_cons_of_ne_nil hfront
      have hc := ih (n / 10) (by omega) (by omega)
      rw [hcs] at hc
      rw [Nat.toDigits_of_base_le (by decide) (by omega), hcs]
      exact hc

theorem readDigits_of_all (hcs : cs ≠ []) (h : ∀ c ∈ cs, isDigit c = true) :
    readDigits cs = some (cs, []) := by
  have htake : cs.takeWhile isDigit = cs := by
    rw [← List.append_nil cs, List.takeWhile_append_of_pos h, List.takeWhile_nil]
  have hdrop : cs.dropWhile isDigit = [] := by
    rw [← List.append_nil cs, List.dropWhile_append_of_pos h, List.dropWhile_nil]
  rw [readDigits, htake, hdrop, if_neg (by simpa using hcs)]

theorem isNumber_toDigits (n : Nat) : IsNumber (Nat.toDigits 10 n) := by
  have hne : Nat.toDigits 10 n ≠ [] := Nat.toDigits_ne_nil
  have hdigits : ∀ c ∈ Nat.toDigits 10 n, isDigit c = true := fun _ => isDigit_of_mem_toDigits
  have hwhole : readWhole (Nat.toDigits 10 n) = some (Nat.toDigits 10 n, []) := by
    obtain rfl | hn := Nat.eq_zero_or_pos n
    · rfl
    · have hhead := head?_toDigits_ne_zero (Nat.ne_of_gt hn)
      unfold readWhole
      split
      · simp_all
      · exact readDigits_of_all hne hdigits
  obtain ⟨c, cs, hcs⟩ := List.exists_cons_of_ne_nil hne
  have hminus : c ≠ '-' := by
    rintro rfl
    exact absurd (hdigits '-' (hcs ▸ List.mem_cons_self)) (by decide)
  rw [hcs] at hwhole ⊢
  simp [IsNumber, readNumber, hminus, hwhole, readFraction, readExponent]

theorem digitsFrom_of_all (h : ∀ c ∈ cs, isDigit c = true) (high : Nat) :
    Text.digitsFrom high cs = some (Nat.ofDigitChars 10 cs high) := by
  induction cs generalizing high with
  | nil => rfl
  | cons c cs ih =>
    have hc : '0' ≤ c ∧ c ≤ '9' := by simpa [isDigit] using h c List.mem_cons_self
    rw [Text.digitsFrom, Text.digitValue, if_pos hc, Nat.ofDigitChars_cons]
    exact ih (fun c hc => h c (List.mem_cons_of_mem _ hc)) _

theorem digitsValue_toString (n : Nat) : Text.digitsValue (toString n).toList = some n := by
  have hne : ¬ (Nat.toDigits 10 n).isEmpty = true := by simp
  rw [Nat.toString_eq_ofList_toDigits, String.toList_ofList, Text.digitsValue, if_neg hne,
    digitsFrom_of_all fun _ => isDigit_of_mem_toDigits, Nat.ofDigitChars_ten_toDigits]

/-- The document of a word is read as the word. -/
@[simp]
theorem Value.word?_word (w : UInt32) : (Value.word w).word? = some w := by
  simp only [word, nat, word?, nat?, digitsValue_toString, Option.bind_eq_bind, Option.bind_some,
    Text.narrow, if_pos w.toNat_lt_size, UInt32.ofNat_toNat]

end Referent.Json
