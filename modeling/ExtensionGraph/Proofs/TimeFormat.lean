import Mathlib.Algebra.Group.Nat.Defs
import Mathlib.Data.List.Induction
import ExtensionGraph.Number.Decimal
import ExtensionGraph.Proofs.Calendar

/-!
# Reading points in time that have been written

A point in time is written with all digits of its fields, and each field is followed by a mark that
is no digit. So the reader, which also takes shorter fields and blanks between them, finds every
field again. Only some points in time can be read: a leap second comes at the end of a minute and is
one second long, and the day must be in a year that is represented. These are read back as they were
written.

## Main definitions

* `ExtensionGraph.Timestamp.Regular` — the points in time that can be read.

## Main results

* `ExtensionGraph.Timestamp.ofChars?_text` — a regular point in time is read back.
* `ExtensionGraph.Timestamp.regular_of_ofChars?` — what is read is regular.
-/

namespace ExtensionGraph

/-! ## Digits -/

/-- All characters are decimal digits. -/
def AllDigits (cs : List Char) : Prop := ∀ c ∈ cs, c.isDigit

/-- A text goes on with something that is no digit, or ends. -/
def NoDigitNext (cs : List Char) : Prop := ∀ c ∈ cs.head?, c.isDigit = false

/-- The value of digits is the one of the standard library. -/
lemma digitsValue_eq_ofDigitChars (cs : List Char) : digitsValue cs = Nat.ofDigitChars 10 cs 0 := by
  unfold digitsValue Nat.ofDigitChars digitValue
  simp only [Nat.mul_comm]

/-- A digit is less than ten. -/
lemma digitValue_lt {c : Char} (h : c.isDigit) : digitValue c < 10 := by
  have hlt : c.toNat ≤ 57 := by
    simp only [Char.isDigit, Bool.and_eq_true, decide_eq_true_eq] at h
    exact h.2
  have hzero : '0'.toNat = 48 := rfl
  unfold digitValue
  omega

/-- Digits denote a number that has no more digits. -/
lemma digitsValue_lt {cs : List Char} (h : AllDigits cs) : digitsValue cs < 10 ^ cs.length := by
  induction cs using List.reverseRecOn with
  | nil => exact Nat.one_pos
  | append_singleton cs c ih =>
    have hc := digitValue_lt (h c (List.mem_append_right _ List.mem_cons_self))
    have hcs := ih fun c' hc' => h c' (List.mem_append_left _ hc')
    have hvalue : digitsValue (cs ++ [c]) = digitsValue cs * 10 + digitValue c := by
      simp only [digitsValue, List.foldl_append, List.foldl_cons, List.foldl_nil]
    rw [hvalue, List.length_append, List.length_singleton, Nat.pow_succ]
    omega

/-- Where no digit comes next, none is read. -/
lemma takeWhile_of_noDigitNext {cs : List Char} (h : NoDigitNext cs) :
    cs.takeWhile Char.isDigit = [] := by
  cases cs with
  | nil => rfl
  | cons c cs => exact List.takeWhile_cons_of_neg (by simp [h c rfl])

/-- A digit is not white space. -/
lemma isWhiteSpace_of_isDigit {c : Char} (h : c.isDigit) : isWhiteSpace c = false := by
  simp only [Char.isDigit, Bool.and_eq_true, decide_eq_true_eq] at h
  have hlow : 48 ≤ c.toNat := h.1
  have hhigh : c.toNat ≤ 57 := h.2
  simp only [isWhiteSpace, Bool.or_eq_false_iff, Bool.and_eq_false_iff, decide_eq_false_iff_not,
    beq_eq_false_iff_ne]
  omega

namespace Timestamp

variable {width n : Nat} {rest : List Char}

/-! ## Writing numbers -/

/-- A padded number has nothing but digits. -/
lemma allDigits_padded : AllDigits (padded width n) := by
  intro c hc
  rcases List.mem_append.1 hc with hc | hc
  · rw [List.eq_of_mem_replicate hc]
    rfl
  · exact Nat.isDigit_of_mem_toDigits (by decide) (by decide) hc

/-- A padded number is not empty. -/
lemma padded_ne_nil : padded width n ≠ [] :=
  List.append_ne_nil_of_right_ne_nil _ Nat.toDigits_ne_nil

/-- A padded number is as long as it should be, if it fits. -/
lemma length_padded (hwidth : 0 < width) (h : n < 10 ^ width) :
    (padded width n).length = width := by
  have hlen : (decimalDigits n).length ≤ width :=
    (Nat.length_toDigits_le_iff (by decide) hwidth).2 h
  rw [padded, List.length_append, List.length_replicate]
  omega

/-- A padded number has its value. -/
lemma digitsValue_padded : digitsValue (padded width n) = n := by
  rw [digitsValue_eq_ofDigitChars, padded, Nat.ofDigitChars_append, Nat.ofDigitChars_replicate_zero,
    Nat.mul_zero]
  exact Nat.ofDigitChars_ten_toDigits

/-! ## Reading numbers -/

/-- Of the characters that are wanted, digits are taken up to the first one that is none. -/
lemma takeWhile_take_append {most : Nat} {digits : List Char} (hdigits : AllDigits digits)
    (hlen : digits.length ≤ most) (hrest : NoDigitNext rest) :
    ((digits ++ rest).take most).takeWhile Char.isDigit = digits := by
  have hnext : (rest.take (most - digits.length)).takeWhile Char.isDigit = [] := by
    refine takeWhile_of_noDigitNext fun c hc => ?_
    rw [List.head?_take] at hc
    split at hc
    · cases hc
    · exact hrest c hc
  rw [List.take_append, List.take_of_length_le hlen, List.takeWhile_append_of_pos hdigits, hnext,
    List.append_nil]

/-- Digits are read as a number, up to the first character that is none. -/
lemma number?_append {most : Nat} {digits : List Char} (hne : digits ≠ [])
    (hdigits : AllDigits digits) (hlen : digits.length ≤ most) (hrest : NoDigitNext rest) :
    number? most (digits ++ rest) = some (digitsValue digits, rest) := by
  unfold number?
  simp only [takeWhile_take_append hdigits hlen hrest, List.isEmpty_iff, hne, if_false,
    List.drop_left]
  rfl

/-- A number that has been written is read back if no more digits are there than are wanted. -/
lemma number?_padded {most : Nat} (h : (padded width n).length ≤ most) (hrest : NoDigitNext rest) :
    number? most (padded width n ++ rest) = some (n, rest) := by
  rw [number?_append padded_ne_nil allDigits_padded h hrest, digitsValue_padded]

/-- Nothing is trimmed before a character that is not white space. -/
lemma trimStart_cons {c : Char} {cs : List Char} (h : isWhiteSpace c = false) :
    trimStart (c :: cs) = c :: cs := List.dropWhile_cons_of_neg (by simp [h])

/-- The first character of a number that has been written. -/
lemma exists_padded (width n : Nat) : ∃ c cs, padded width n = c :: cs ∧ c.isDigit := by
  have hne : padded width n ≠ [] := padded_ne_nil
  have hdigits : AllDigits (padded width n) := allDigits_padded
  obtain ⟨c, cs, hcs⟩ := List.exists_cons_of_ne_nil hne
  exact ⟨c, cs, hcs, hdigits c (hcs ▸ List.mem_cons_self)⟩

/-- Nothing is trimmed before a number. -/
lemma trimStart_padded : trimStart (padded width n ++ rest) = padded width n ++ rest := by
  obtain ⟨c, cs, hcs, hc⟩ := exists_padded width n
  rw [hcs]
  exact trimStart_cons (isWhiteSpace_of_isDigit hc)

/-- A field of two digits is read back. -/
lemma field?_padded (h : n < 100) (hrest : NoDigitNext rest) :
    field? (padded 2 n ++ rest) = some (n, rest) := by
  rw [field?, trimStart_padded]
  exact number?_padded (Nat.le_of_eq (length_padded (by decide) h)) hrest

/-- A mark is read where it stands. -/
lemma mark?_cons (mark : Char) (h : isWhiteSpace mark = false) :
    mark? mark (mark :: rest) = some rest := by
  rw [mark?, trimStart_cons h]
  exact if_pos rfl

/-- A year without a sign is read back.

**Proof sketch.** A padded number begins with a digit, so that it is read without a sign. -/
lemma year?_padded (h : n < 10000) (hrest : NoDigitNext rest) :
    year? (padded 4 n ++ rest) = some ((n : Int), rest) := by
  have hread : number? 4 (padded 4 n ++ rest) = some (n, rest) :=
    number?_padded (Nat.le_of_eq (length_padded (by decide) h)) hrest
  obtain ⟨c, cs, hcs, hc⟩ := exists_padded 4 n
  unfold year?
  rw [trimStart_padded]
  rw [hcs] at hread ⊢
  split
  · next heq =>
    cases heq
    cases hc
  · next heq =>
    cases heq
    cases hc
  · rw [hread]
    rfl

/-- A year is read back, whether or not it has a sign.

**Proof sketch.** A year of four digits has no sign. Any other has one, and its digits are read up
to the next mark. -/
lemma year?_yearText (y : Int) (hrest : NoDigitNext rest) :
    year? (yearText y ++ rest) = some (y, rest) := by
  have hread : number? (padded 4 y.natAbs ++ rest).length (padded 4 y.natAbs ++ rest) =
      some (y.natAbs, rest) :=
    number?_padded (by rw [List.length_append]; omega) hrest
  unfold yearText
  split
  · next h =>
    rw [year?_padded (by omega) hrest, Int.toNat_of_nonneg h.1]
  · next h =>
    split
    · next hneg =>
      rw [List.cons_append, year?, trimStart_cons (by decide)]
      show Option.map _ (number? _ _) = _
      rw [hread]
      exact congrArg some (Prod.ext (show -(y.natAbs : Int) = y by omega) rfl)
    · next hpos =>
      rw [List.cons_append, year?, trimStart_cons (by decide)]
      show Option.map _ (number? _ _) = _
      rw [hread]
      exact congrArg some (Prod.ext (show (y.natAbs : Int) = y by omega) rfl)

/-- Up to nine digits behind a point are a fraction of a second. -/
lemma fraction?_padded (width : Nat) (hwidth : 0 < width) (hwidth' : width ≤ 9) (h : n < 10 ^ width)
    (hrest : NoDigitNext rest) :
    fraction? ('.' :: (padded width n ++ rest)) = some (n * tenPow (9 - width), rest) := by
  have hlen := length_padded hwidth h
  have hread : number? 9 (padded width n ++ rest) = some (n, rest) :=
    number?_padded (hlen.symm ▸ hwidth') hrest
  have hdigits : ((padded width n ++ rest).take 9).takeWhile Char.isDigit = padded width n :=
    takeWhile_take_append allDigits_padded (hlen.symm ▸ hwidth') hrest
  have hdrop : rest.dropWhile Char.isDigit = rest := by
    cases rest with
    | nil => rfl
    | cons c rest => exact List.dropWhile_cons_of_neg (by simp [hrest c rfl])
  unfold fraction?
  simp only [hdigits, hread, hlen, Option.map_some, hdrop]

/-- The fraction of a second is read back.

**Proof sketch.** By the number of digits that are written: none, three, six or nine. The digits
that are left out are zeros. -/
lemma fraction?_fractionText {nanos : Nat} (h : nanos < 10 ^ 9) (hrest : NoDigitNext rest)
    (hpoint : ∀ cs, rest ≠ '.' :: cs) :
    fraction? (fractionText nanos ++ rest) = some (nanos, rest) := by
  unfold fractionText
  split
  · next hzero =>
    rw [hzero, List.nil_append, fraction?]
    exact fun cs hcs => hpoint cs hcs
  · split
    · next hmilli =>
      refine (fraction?_padded 3 (by decide) (by decide) (by omega) hrest).trans ?_
      rw [show nanos / 1000000 * tenPow (9 - 3) = nanos from Nat.div_mul_cancel
        (Nat.dvd_of_mod_eq_zero hmilli)]
    · split
      · next hmicro =>
        refine (fraction?_padded 6 (by decide) (by decide) (by omega) hrest).trans ?_
        rw [show nanos / 1000 * tenPow (9 - 6) = nanos from Nat.div_mul_cancel
          (Nat.dvd_of_mod_eq_zero hmicro)]
      · refine (fraction?_padded 9 (by decide) (by decide) h hrest).trans ?_
        rw [show nanos * tenPow (9 - 9) = nanos from Nat.mul_one nanos]

/-! ## Reading what has been written -/

/-- **The points in time that can be read.** A leap second is one second long, and the second before
it is the last one of a minute. -/
structure Regular (t : Timestamp) : Prop where
  date : (Date.ofDays (t.seconds.fdiv 86400)).isValid
  nanos : t.nanos < 2 * 10 ^ 9
  leap : 10 ^ 9 ≤ t.nanos → t.seconds % 60 = 59

/-- A mark is no digit. -/
lemma noDigitNext_cons {c : Char} (h : c.isDigit = false) : NoDigitNext (c :: rest) := by
  rintro _ ⟨⟩
  exact h

/-- After a fraction no digit comes next. -/
lemma noDigitNext_fractionText {nanos : Nat} (hrest : NoDigitNext rest) :
    NoDigitNext (fractionText nanos ++ rest) := by
  have hpoint (cs : List Char) : NoDigitNext ('.' :: cs) := noDigitNext_cons rfl
  unfold fractionText
  split
  · exact hrest
  · split
    · exact hpoint _
    · split
      · exact hpoint _
      · exact hpoint _

/-- The month and the day of a date are written with two digits. -/
lemma lt_of_isValid {d : Date} (h : d.isValid) : d.month < 100 ∧ d.day < 100 := by
  have hlength : Date.monthLength d.year d.month ≤ 31 := by
    unfold Date.monthLength
    split
    · split
      · decide
      · decide
    · split
      · decide
      · decide
  simp only [Date.isValid, Bool.and_eq_true, decide_eq_true_eq] at h
  omega

/-- A date is read back. -/
lemma date?_append {d : Date} (h : d.isValid) (hrest : NoDigitNext rest) :
    date? (yearText d.year ++ '-' :: (padded 2 d.month ++ '-' :: (padded 2 d.day ++ rest))) =
      some (d, rest) := by
  obtain ⟨hmonth, hday⟩ := lt_of_isValid h
  unfold date?
  simp only [year?_yearText _ (noDigitNext_cons (c := '-') rfl), mark?_cons '-' rfl,
    field?_padded hmonth (noDigitNext_cons (c := '-') rfl), field?_padded hday hrest,
    Option.bind_some, bind]

/-- A time of day is read back. -/
lemma timeOfDay?_append {hour minute second nanos : Nat} (hhour : hour < 24) (hminute : minute < 60)
    (hsecond : second ≤ 60) (hnanos : nanos < 10 ^ 9) (hrest : NoDigitNext rest)
    (hpoint : ∀ cs, rest ≠ '.' :: cs) :
    timeOfDay? (padded 2 hour ++ ':' :: (padded 2 minute ++ ':' :: (padded 2 second ++
      (fractionText nanos ++ rest)))) =
      some ((hour * 3600 + minute * 60 + second - second / 60,
        nanos + second / 60 * 1000000000), rest) := by
  have hcolon (cs : List Char) : NoDigitNext (':' :: cs) := noDigitNext_cons rfl
  unfold timeOfDay?
  simp only [field?_padded (Nat.lt_trans hhour (by decide)) (hcolon _), mark?_cons ':' rfl,
    field?_padded (Nat.lt_trans hminute (by decide)) (hcolon _),
    field?_padded (Nat.lt_of_le_of_lt hsecond (by decide)) (noDigitNext_fractionText hrest),
    fraction?_fractionText hnanos hrest hpoint, Option.bind_some, bind]
  exact if_pos ⟨hhour, hminute, hsecond⟩

/-- What is written of a point in time. -/
lemma toList_text (t : Timestamp) :
    let date := Date.ofDays (t.seconds.fdiv 86400)
    let second := (t.seconds - t.seconds.fdiv 86400 * 86400).toNat
    t.text.toList = yearText date.year ++ '-' :: (padded 2 date.month ++ '-' ::
      (padded 2 date.day ++ 'T' :: (padded 2 (second / 3600) ++ ':' ::
        (padded 2 (second / 60 % 60) ++ ':' :: (padded 2 (second % 60 + t.nanos / 1000000000) ++
          (fractionText (t.nanos % 1000000000) ++ ['Z'])))))) := by
  simp only [text, String.toList_ofList, List.append_assoc, List.cons_append, List.nil_append]

/-- **A regular point in time is read back.**

**Proof sketch.** The date and the time of day are read back by their lemmas, and the mark at the
end is universal time. What remains is arithmetic: the parts make up the seconds and the nanoseconds
again, where a leap second shows in the nanoseconds. -/
theorem ofChars?_text {t : Timestamp} (h : t.Regular) : ofChars? t.text.toList = some t := by
  obtain ⟨hdate, hnanos, hleap⟩ := h
  have hmark : NoDigitNext ['Z'] := noDigitNext_cons rfl
  have hdays : t.seconds.fdiv 86400 = t.seconds / 86400 :=
    Int.fdiv_eq_ediv_of_nonneg _ (by decide)
  rw [toList_text]
  generalize hsecond : (t.seconds - t.seconds.fdiv 86400 * 86400).toNat = second
  unfold ofChars?
  simp only [date?_append hdate (noDigitNext_cons (c := 'T') rfl), Option.bind_some, bind]
  rw [timeOfDay?_append (by omega) (by omega) (by omega) (by omega) hmark (by simp)]
  simp only [true_or, if_true, Option.bind_some, Date.toDays_ofDays]
  have hoffset : offset? (trimStart ['Z']) = some (0, []) := rfl
  have hcount : (second % 60 + t.nanos / 1000000000) / 60 = t.nanos / 1000000000 := by omega
  have hseconds : t.seconds.fdiv 86400 * 86400 + ((second / 3600 * 3600 +
      second / 60 % 60 * 60 + (second % 60 + t.nanos / 1000000000) -
        t.nanos / 1000000000 : Nat) : Int) - 0 = t.seconds := by
    omega
  have htotal : t.nanos % 1000000000 + t.nanos / 1000000000 * 1000000000 = t.nanos := by omega
  rw [hoffset]
  simp only [Option.bind_some, hcount, hseconds, htotal]
  exact if_pos ⟨rfl, hdate, hdate⟩

/-! ## What can be read -/

/-- A number that is read is as small as its digits allow. -/
lemma number?_eq_some {most n : Nat} {cs : List Char} (h : number? most cs = some (n, rest)) :
    n < 10 ^ ((cs.take most).takeWhile Char.isDigit).length := by
  unfold number? at h
  simp only [Option.ite_none_left_eq_some] at h
  obtain ⟨-, h⟩ := h
  cases h
  exact digitsValue_lt (List.all_eq_true.1 List.all_takeWhile)

/-- A fraction is less than a second.

**Proof sketch.** At most nine digits are read, and the value of `len` digits is less than `10 ^
len`. -/
lemma fraction?_lt {nanos : Nat} {cs : List Char} (h : fraction? cs = some (nanos, rest)) :
    nanos < 10 ^ 9 := by
  unfold fraction? at h
  split at h
  · next cs =>
    obtain ⟨⟨n, rest'⟩, hn, h⟩ := Option.map_eq_some_iff.1 h
    cases h
    have hlt := number?_eq_some hn
    generalize hlen : ((cs.take 9).takeWhile Char.isDigit).length = len at hlt ⊢
    have hle : len ≤ 9 := hlen ▸ Nat.le_trans (List.takeWhile_sublist _).length_le
      (List.length_take_le 9 cs)
    calc n * tenPow (9 - len) < 10 ^ len * tenPow (9 - len) :=
          Nat.mul_lt_mul_of_pos_right hlt (tenPow_pos _)
      _ = 10 ^ 9 := by
          rw [show tenPow (9 - len) = 10 ^ (9 - len) from rfl, ← Nat.pow_add]
          congr 1
          omega
  · cases h
    decide

/-- The offset from universal time is a number of minutes.

**Proof sketch.** By the ways in which an offset is written. Each counts hours and minutes. -/
lemma offset?_mod {offset : Int} {cs : List Char} (h : offset? cs = some (offset, rest)) :
    offset % 60 = 0 := by
  have hmod {n : Nat} {cs rest : List Char} (h : hoursMinutes? cs = some (n, rest)) :
      (n : Int) % 60 = 0 := by
    unfold hoursMinutes? at h
    obtain ⟨⟨hours, cs'⟩, -, h⟩ := Option.bind_eq_some_iff.1 h
    obtain ⟨⟨minutes, cs''⟩, -, h⟩ := Option.bind_eq_some_iff.1 h
    simp only [Option.ite_none_right_eq_some] at h
    obtain ⟨-, h⟩ := h
    cases h
    omega
  unfold offset? at h
  split at h
  case h_1 | h_2 =>
    cases h
    rfl
  case h_3 | h_4 | h_5 =>
    obtain ⟨⟨n, _⟩, hn, h⟩ := Option.map_eq_some_iff.1 h
    have hzero := hmod hn
    cases h
    omega
  case h_6 =>
    simp only [Option.ite_none_right_eq_some] at h
    cases h.2
    rfl
  case h_7 => cases h

/-- A second that is read is the last one of a minute if the fraction is more than a second.

**Proof sketch.** A fraction is less than a second, and a second more is added exactly for the
second 60, which is read as 59. -/
lemma timeOfDay?_spec {second nanos : Nat} {cs : List Char}
    (h : timeOfDay? cs = some ((second, nanos), rest)) :
    nanos < 2 * 10 ^ 9 ∧ (10 ^ 9 ≤ nanos → second % 60 = 59) := by
  unfold timeOfDay? at h
  obtain ⟨⟨hour, _⟩, -, h⟩ := Option.bind_eq_some_iff.1 h
  obtain ⟨_, -, h⟩ := Option.bind_eq_some_iff.1 h
  obtain ⟨⟨minute, _⟩, -, h⟩ := Option.bind_eq_some_iff.1 h
  obtain ⟨_, -, h⟩ := Option.bind_eq_some_iff.1 h
  obtain ⟨⟨second', _⟩, -, h⟩ := Option.bind_eq_some_iff.1 h
  obtain ⟨⟨nanos', _⟩, hnanos, h⟩ := Option.bind_eq_some_iff.1 h
  simp only [Option.ite_none_right_eq_some] at h
  obtain ⟨⟨hhour, hminute, hsecond⟩, h⟩ := h
  cases h
  have hlt := fraction?_lt hnanos
  rcases Nat.lt_or_eq_of_le hsecond with hsecond | rfl
  · rw [Nat.div_eq_of_lt hsecond]
    omega
  · omega

/-- **What is read is regular.**

**Proof sketch.** The date is checked when it is read. A leap second is only read as the sixtieth
second of a minute, and the offset, a number of minutes, does not move it. -/
theorem regular_of_ofChars? {t : Timestamp} {cs : List Char} (h : ofChars? cs = some t) :
    t.Regular := by
  unfold ofChars? at h
  obtain ⟨⟨date, behind⟩, -, h⟩ := Option.bind_eq_some_iff.1 h
  simp only at h
  -- the date is followed by a mark, or else nothing is read
  split at h
  case h_2 => cases h
  split at h
  case isFalse => cases h
  obtain ⟨_, -, h⟩ := Option.bind_eq_some_iff.1 h
  obtain ⟨⟨⟨second, nanos⟩, _⟩, htime, h⟩ := Option.bind_eq_some_iff.1 h
  obtain ⟨⟨offset, _⟩, hoffset, h⟩ := Option.bind_eq_some_iff.1 h
  simp only [Option.ite_none_right_eq_some] at h
  obtain ⟨⟨-, -, hvalid⟩, h⟩ := h
  cases h
  obtain ⟨hnanos, hleap⟩ := timeOfDay?_spec htime
  have hmod := offset?_mod hoffset
  refine ⟨hvalid, hnanos, fun hle => ?_⟩
  have hlast : second % 60 = 59 := hleap hle
  show (date.toDays * 86400 + second - offset) % 60 = 59
  omega

end Timestamp

end ExtensionGraph
