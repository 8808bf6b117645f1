import Mathlib.Tactic.Common
import ExtensionGraph.Timestamp

/-!
# The calendar

Days are numbered through. The number of a day is split into eras of four hundred years, years that
begin in March, and months, and put together again from them. A year has one day for every 365 that
have passed before it, except that leap days do not count; that this is a year of the era, and that
it has at most 366 days, is shown one century at a time.

## Main results

* `ExtensionGraph.Date.toDays_ofDays` — a day is put together again from its year, month and day.
-/

namespace ExtensionGraph.Date

/-- The year and the day of a day of a century, but for the last day of four centuries. Years are
counted through the era.

**Proof sketch.** There are as many leap days before a year as there are groups of 1460 days, or one
less. With bounds on the year from its century, everything else is linear. -/
lemma year_of_century (doe century : Int) (h₀ : 0 ≤ century) (h₃ : century ≤ 3)
    (hfirst : 36524 * century ≤ doe) (hlast : doe < 36524 * century + 36524) :
    let yoe := (doe - doe / 1460 + century) / 365
    yoe / 100 = century ∧ 0 ≤ doe - (365 * yoe + yoe / 4 - century) ∧
      doe - (365 * yoe + yoe / 4 - century) ≤ 365 := by
  intro yoe
  have hlow : 100 * century ≤ yoe := by omega
  have hhigh : yoe ≤ 100 * century + 99 := by omega
  -- there are as many leap days before the year as groups of 1460 days, or one less
  have hleap : yoe / 4 ≤ doe / 1460 := by omega
  have hleap' : doe / 1460 ≤ yoe / 4 + 1 := by omega
  refine ⟨?_, ?_, ?_⟩
  · omega
  · omega
  · omega

/-- The year and the day of a day of an era. -/
lemma year_of_era (doe : Int) (h₀ : 0 ≤ doe) (h : doe < 146097) :
    let yoe := (doe - doe / 1460 + doe / 36524 - doe / 146096) / 365
    let doy := doe - (365 * yoe + yoe / 4 - yoe / 100)
    0 ≤ yoe ∧ yoe < 400 ∧ 0 ≤ doy ∧ doy ≤ 365 := by
  intro yoe doy
  rcases (show doe ≤ 146095 ∨ doe = 146096 by omega) with hlt | rfl
  · have hlast : doe / 146096 = 0 := by omega
    obtain ⟨hcentury, hlow, hhigh⟩ := year_of_century doe (doe / 36524)
      (by omega) (by omega) (by omega) (by omega)
    simp only [yoe, doy, hlast, Int.sub_zero, hcentury]
    omega
  · decide

/-- The month and the day of a day of a year. -/
lemma month_of_year {doy : Int} (h₀ : 0 ≤ doy) (h : doy ≤ 365) :
    let mp := (5 * doy + 2) / 153
    let month := (if mp < 10 then mp + 3 else mp - 9).toNat
    let day := (doy - (153 * mp + 2) / 5 + 1).toNat
    (if month ≤ 2 then (month : Int) + 9 else (month : Int) - 3) = mp ∧
      (153 * mp + 2) / 5 + (day : Int) - 1 = doy := by
  intro mp month day
  refine ⟨?_, ?_⟩
  · simp only [month]
    omega
  · omega

/-- The number of a day of a year that begins in March, in its era.

**Proof sketch.** The year of the calendar and the year that begins in March differ in January and
February only, and there both definitions shift by one. -/
lemma toDays_of_era {era yoe mp doy : Int} {month day : Nat} (h₀ : 0 ≤ yoe) (h : yoe < 400)
    (hmonth : (if month ≤ 2 then (month : Int) + 9 else (month : Int) - 3) = mp)
    (hday : (153 * mp + 2) / 5 + (day : Int) - 1 = doy) :
    toDays ⟨yoe + era * 400 + (if month ≤ 2 then 1 else 0), month, day⟩ =
      era * 146097 + (yoe * 365 + yoe / 4 - yoe / 100 + doy) - 719468 := by
  have hyear : (if month ≤ 2 then yoe + era * 400 + (if month ≤ 2 then 1 else 0) - 1
      else yoe + era * 400 + (if month ≤ 2 then 1 else 0)) = yoe + era * 400 := by
    split
    · omega
    · omega
  have hera : (yoe + era * 400).fdiv 400 = era := by
    rw [Int.fdiv_eq_ediv_of_nonneg _ (by decide)]
    omega
  have hyoe : yoe + era * 400 - era * 400 = yoe := by omega
  simp only [toDays, hyear, hera, hyoe, hmonth, hday]

/-- **A day is put together again from its year, month and day.** -/
theorem toDays_ofDays (n : Int) : (ofDays n).toDays = n := by
  unfold ofDays
  simp only [Int.fdiv_eq_ediv_of_nonneg _ (show (0 : Int) ≤ 146097 by decide)]
  generalize hera : (n + 719468) / 146097 = era
  generalize hdoe : n + 719468 - era * 146097 = doe
  obtain ⟨hyoe₀, hyoe, hdoy₀, hdoy⟩ := year_of_era doe (by omega) (by omega)
  generalize (doe - doe / 1460 + doe / 36524 - doe / 146096) / 365 = yoe at *
  generalize hyear : doe - (365 * yoe + yoe / 4 - yoe / 100) = doy at *
  obtain ⟨hmonth, hday⟩ := month_of_year hdoy₀ hdoy
  rw [toDays_of_era hyoe₀ hyoe hmonth hday]
  omega

end ExtensionGraph.Date
