import Turnstile.Time.Rfc3339

/-!
# The calendar inverts itself

The date of a day is one that the calendar has, and it has that day's number.
The day of an era is taken apart into whole centuries, four-year groups and
years, counted from the first of March; in these parts the division that finds
the year is exact, and the leap day is the last day of its year.

Main results:

- Theorem `exists_parts`: the year of an era that the division finds.
- Theorem `dayNumber_ofDayNumber`: the date of a day has that day's number.
- Theorem `isValid_ofDayNumber`: the date of a day is one that the calendar has.
- Theorem `year_ofDayNumber`: the days of the representable instants fall into
  the years that the calendar reaches.
-/

namespace Turnstile.Date

/-! ## Parts of an era -/

/-- A day of an era in whole centuries, groups of four years and years, and the
day of the year that is left. -/
structure Parts where
  centuries : Int
  groups : Int
  years : Int
  day : Int

namespace Parts

/-- The year of the era. -/
def year (p : Parts) : Int :=
  100 * p.centuries + 4 * p.groups + p.years

/-- The day of the era. -/
def dayOfEra (p : Parts) : Int :=
  36524 * p.centuries + 1461 * p.groups + 365 * p.years + p.day

/-- The parts are those of a day: only the last year of a group has a leap day,
and not the last group of a century, unless that is the last of its era. -/
structure Valid (p : Parts) : Prop where
  centuries : 0 ≤ p.centuries ∧ p.centuries ≤ 3
  groups : 0 ≤ p.groups ∧ p.groups ≤ 24
  years : 0 ≤ p.years ∧ p.years ≤ 3
  day : 0 ≤ p.day ∧ p.day ≤ 365
  leap : p.day = 365 → p.years = 3 ∧ (p.groups = 24 → p.centuries = 3)

end Parts

/-- The year that is found for a day of an era. -/
def yearFound (dayOfEra : Int) : Int :=
  (dayOfEra - dayOfEra / 1460 + dayOfEra / 36524 - dayOfEra / 146096) / 365

theorem yearFound_dayOfEra {p : Parts} (hp : p.Valid) : yearFound p.dayOfEra = p.year := by
  rcases p with ⟨d, q, t, u⟩
  rcases hp with ⟨⟨hd0, hd⟩, ⟨hq0, hq⟩, ⟨ht0, ht⟩, ⟨hu0, hu⟩, hleap⟩
  dsimp only at *
  unfold yearFound Parts.dayOfEra Parts.year
  dsimp only
  by_cases hlast : u = 365 ∧ q = 24
  · have hall : d = 3 ∧ t = 3 := by
      have hparts := hleap hlast.1
      exact ⟨hparts.2 hlast.2, hparts.1⟩
    rw [hall.1, hall.2, hlast.1, hlast.2]
    rfl
  · have hshort : u = 365 → t = 3 ∧ q ≤ 23 := by
      intro h365
      exact ⟨(hleap h365).1, by omega⟩
    have hcentury : (36524 * d + 1461 * q + 365 * t + u) / 36524 = d := by omega
    have hera : (36524 * d + 1461 * q + 365 * t + u) / 146096 = 0 := by omega
    have hgroup : (36524 * d + 1461 * q + 365 * t + u) / 1460 =
        25 * d + q + (24 * d + q + 365 * t + u) / 1460 := by omega
    -- The days that the group count is late by never reach a second group.
    have hlate : (24 * d + q + 365 * t + u) / 1460 = 0 ∨
        ((24 * d + q + 365 * t + u) / 1460 = 1 ∧ t = 3) := by omega
    rw [hcentury, hera, hgroup]
    rcases hlate with hlate | ⟨hlate, hlastYear⟩
    · rw [hlate]
      omega
    · rw [hlate]
      omega

/-- Every day of an era has parts. -/
theorem exists_parts (doe : Int) (hlow : 0 ≤ doe) (hhigh : doe < 146097) :
    ∃ p : Parts, p.Valid ∧ p.dayOfEra = doe := by
  by_cases hend : doe = 146096
  · subst hend
    exact ⟨⟨3, 24, 3, 365⟩, ⟨by decide, by decide, by decide, by decide, by decide⟩, rfl⟩
  · have hcentury : ∃ d r : Int, doe = 36524 * d + r ∧ 0 ≤ r ∧ r < 36524 :=
      ⟨doe / 36524, doe % 36524, by omega, by omega, by omega⟩
    rcases hcentury with ⟨d, r, rfl, hr0, hr⟩
    have hgroup : ∃ q s : Int, r = 1461 * q + s ∧ 0 ≤ s ∧ s < 1461 :=
      ⟨r / 1461, r % 1461, by omega, by omega, by omega⟩
    rcases hgroup with ⟨q, s, rfl, hs0, hs⟩
    by_cases hleap : s = 1460
    · have hthree : (0 : Int) ≤ 3 ∧ (3 : Int) ≤ 3 := by decide
      have hday : (0 : Int) ≤ 365 ∧ (365 : Int) ≤ 365 := by decide
      refine ⟨⟨d, q, 3, 365⟩, ⟨?_, ?_, hthree, hday, ?_⟩, ?_⟩
      · dsimp only
        omega
      · dsimp only
        omega
      · intro _
        exact ⟨rfl, fun _ => by dsimp only at *; omega⟩
      · unfold Parts.dayOfEra
        dsimp only
        omega
    · have hyear : ∃ t u : Int, s = 365 * t + u ∧ 0 ≤ u ∧ u < 365 :=
        ⟨s / 365, s % 365, by omega, by omega, by omega⟩
      rcases hyear with ⟨t, u, rfl, hu0, hu⟩
      refine ⟨⟨d, q, t, u⟩, ⟨?_, ?_, ?_, ?_, ?_⟩, ?_⟩
      · dsimp only
        omega
      · dsimp only
        omega
      · dsimp only
        omega
      · dsimp only
        omega
      · intro hday
        dsimp only at hday
        omega
      · unfold Parts.dayOfEra
        dsimp only
        omega

/-! ## Dates from parts -/

/-- The date of a day of the year, counted from the first of March of a year. -/
def ofMarch (year day : Int) : Date :=
  let month := (5 * day + 2) / 153
  { year := year + (if (if month < 10 then month + 3 else month - 9) ≤ 2 then 1 else 0)
    month := (if month < 10 then month + 3 else month - 9).toNat
    day := (day - (153 * month + 2) / 5 + 1).toNat }

/-- A day is an era with the parts of a day of it. -/
theorem ofDayNumber_parts {era : Int} {p : Parts} (hp : p.Valid) :
    ofDayNumber (era * 146097 + p.dayOfEra - 719468) = ofMarch (era * 400 + p.year) p.day := by
  have hyear := yearFound_dayOfEra hp
  have hrange : 0 ≤ p.dayOfEra ∧ p.dayOfEra < 146097 := by
    rcases hp with ⟨hd, hq, ht, hu, hleap⟩
    unfold Parts.dayOfEra
    omega
  have hshift : era * 146097 + p.dayOfEra - 719468 + 719468 = era * 146097 + p.dayOfEra := by omega
  have hera : (era * 146097 + p.dayOfEra) / 146097 = era := by omega
  have hdoe : (era * 146097 + p.dayOfEra) % 146097 = p.dayOfEra := by omega
  have hday : p.dayOfEra - (365 * p.year + p.year / 4 - p.year / 100) = p.day := by
    rcases hp with ⟨hd, hq, ht, hu, hleap⟩
    unfold Parts.dayOfEra Parts.year
    have hfour : (100 * p.centuries + 4 * p.groups + p.years) / 4 =
        25 * p.centuries + p.groups := by omega
    have hhundred : (100 * p.centuries + 4 * p.groups + p.years) / 100 = p.centuries := by omega
    rw [hfour, hhundred]
    omega
  unfold yearFound at hyear
  unfold ofDayNumber ofMarch
  simp only [hshift, hera, hdoe, hyear, hday]
  congr 1
  omega

/-- The month that a day of the year falls into, and the day of the month. -/
theorem ofMarch_month (year : Int) {day : Int} (hlow : 0 ≤ day) (hhigh : day ≤ 365) :
    ∃ month : Int, 0 ≤ month ∧ month ≤ 11 ∧ (153 * month + 2) / 5 ≤ day ∧
      day < (153 * (month + 1) + 2) / 5 ∧
      ofMarch year day =
        if month < 10 then ⟨year, (month + 3).toNat, (day - (153 * month + 2) / 5 + 1).toNat⟩
        else ⟨year + 1, (month - 9).toNat, (day - (153 * month + 2) / 5 + 1).toNat⟩ := by
  refine ⟨(5 * day + 2) / 153, by omega, by omega, by omega, by omega, ?_⟩
  unfold ofMarch
  by_cases hmonth : (5 * day + 2) / 153 < 10
  · have hlate : ¬ (5 * day + 2) / 153 + 3 ≤ 2 := by omega
    simp [hmonth, hlate]
  · have hearly : (5 * day + 2) / 153 - 9 ≤ 2 := by omega
    simp [hmonth, hearly]

/-- The number of the day of a date that was counted from March. -/
theorem dayNumber_ofMarch {era : Int} {p : Parts} (hp : p.Valid) :
    (ofMarch (era * 400 + p.year) p.day).dayNumber = era * 146097 + p.dayOfEra - 719468 := by
  rcases ofMarch_month (era * 400 + p.year) hp.day.1 hp.day.2 with
    ⟨month, hlow, hhigh, hfirst, hlast, hdate⟩
  have hyear : 0 ≤ p.year ∧ p.year ≤ 399 := by
    rcases hp with ⟨hd, hq, ht, hu, hleap⟩
    unfold Parts.year
    omega
  have hera : (era * 400 + p.year) / 400 = era := by omega
  have hyoe : (era * 400 + p.year) % 400 = p.year := by omega
  have hfour : p.year / 4 = 25 * p.centuries + p.groups := by
    rcases hp with ⟨hd, hq, ht, hu, hleap⟩
    unfold Parts.year
    omega
  have hhundred : p.year / 100 = p.centuries := by
    rcases hp with ⟨hd, hq, ht, hu, hleap⟩
    unfold Parts.year
    omega
  rw [hdate]
  by_cases hmonth : month < 10
  · have hafter : ¬ (month + 3).toNat ≤ 2 := by omega
    have hback : (((month + 3).toNat : Nat) : Int) - 3 = month := by omega
    have hday : (((p.day - (153 * month + 2) / 5 + 1).toNat : Nat) : Int) =
        p.day - (153 * month + 2) / 5 + 1 := by omega
    simp only [dayNumber, if_pos hmonth, if_neg hafter, hback, hday, hera, hyoe, hfour, hhundred]
    unfold Parts.dayOfEra Parts.year
    omega
  · have hbefore : (month - 9).toNat ≤ 2 := by omega
    have hback : (((month - 9).toNat : Nat) : Int) + 9 = month := by omega
    have hday : (((p.day - (153 * month + 2) / 5 + 1).toNat : Nat) : Int) =
        p.day - (153 * month + 2) / 5 + 1 := by omega
    have hyearBack : era * 400 + p.year + 1 - 1 = era * 400 + p.year := by omega
    simp only [dayNumber, if_neg hmonth, if_pos hbefore, hback, hday, hyearBack, hera, hyoe, hfour,
      hhundred]
    unfold Parts.dayOfEra Parts.year
    omega

/-- Every day lies in an era. -/
theorem exists_era (n : Int) :
    ∃ era : Int, ∃ p : Parts, p.Valid ∧ n = era * 146097 + p.dayOfEra - 719468 := by
  rcases exists_parts ((n + 719468) % 146097) (by omega) (by omega) with ⟨p, hp, hdoe⟩
  exact ⟨(n + 719468) / 146097, p, hp, by omega⟩

/-- The date of a day has that day's number. -/
theorem dayNumber_ofDayNumber (n : Int) : (ofDayNumber n).dayNumber = n := by
  rcases exists_era n with ⟨era, p, hp, rfl⟩
  rw [ofDayNumber_parts hp, dayNumber_ofMarch hp]

/-! ## Valid dates -/

/-- The year after a leap day is counted from March is a leap year. -/
theorem isLeapYear_of_parts {era : Int} {p : Parts} (hp : p.Valid) (hday : p.day = 365) :
    isLeapYear (era * 400 + p.year + 1) = true := by
  rcases hp with ⟨hd, hq, ht, hu, hleap⟩
  rcases hleap hday with ⟨hyears, hcentury⟩
  unfold isLeapYear Parts.year
  simp only [Bool.and_eq_true, Bool.or_eq_true, beq_iff_eq, bne_iff_ne]
  refine ⟨by omega, ?_⟩
  by_cases hlast : p.groups = 24
  · have hthree := hcentury hlast
    right
    omega
  · left
    omega

/-- The days of the months other than February. -/
theorem daysInMonth_of_ne (year : Int) (month : Nat) (hlow : 1 ≤ month) (hhigh : month ≤ 12)
    (hfeb : month ≠ 2) :
    daysInMonth year month = if month = 4 ∨ month = 6 ∨ month = 9 ∨ month = 11 then 30 else 31 := by
  unfold daysInMonth
  by_cases hshort : month = 4 ∨ month = 6 ∨ month = 9 ∨ month = 11
  · rw [if_neg hfeb, if_pos hshort, if_pos hshort]
  · rw [if_neg hfeb, if_neg hshort, if_neg hshort, if_pos ⟨hlow, hhigh⟩]

/-- The date of a day is one that the calendar has. -/
theorem isValid_ofDayNumber (n : Int) : (ofDayNumber n).isValid = true := by
  rcases exists_era n with ⟨era, p, hp, rfl⟩
  rcases ofMarch_month (era * 400 + p.year) hp.day.1 hp.day.2 with
    ⟨month, hlow, hhigh, hfirst, hlast, hdate⟩
  rw [ofDayNumber_parts hp, hdate]
  unfold isValid
  simp only [Bool.and_eq_true, decide_eq_true_eq]
  by_cases hmonth : month < 10
  · rw [if_pos hmonth]
    have hdays := daysInMonth_of_ne (era * 400 + p.year) (month + 3).toNat (by omega)
      (by omega) (by omega)
    dsimp only
    rw [hdays]
    refine ⟨by omega, ?_⟩
    split
    · omega
    · omega
  · rw [if_neg hmonth]
    by_cases hfeb : month = 11
    · subst hfeb
      refine ⟨by simp only; omega, ?_⟩
      have hdays : daysInMonth (era * 400 + p.year + 1) ((11 : Int) - 9).toNat =
          if isLeapYear (era * 400 + p.year + 1) then 29 else 28 := rfl
      simp only [hdays]
      by_cases hleap : p.day = 365
      · rw [if_pos (isLeapYear_of_parts hp hleap)]
        omega
      · have hmax := hp.day.2
        split
        · omega
        · omega
    · have hten : month = 10 := by omega
      subst hten
      have hdays : daysInMonth (era * 400 + p.year + 1) ((10 : Int) - 9).toNat = 31 := rfl
      simp only [hdays]
      omega

/-- The years before the first that the calendar reaches end before the first
representable day. -/
theorem dayOfEra_lt_of_year (era : Int) {p : Parts} (hp : p.Valid)
    (hyear : era * 400 + p.year < -262144 ∨ (era * 400 + p.year = -262144 ∧ p.day ≤ 305)) :
    era * 146097 + p.dayOfEra - 719468 < -96465292 := by
  rcases p with ⟨d, q, t, u⟩
  rcases hp with ⟨⟨hd0, hd⟩, ⟨hq0, hq⟩, ⟨ht0, ht⟩, ⟨hu0, hu⟩, hleap⟩
  unfold Parts.year at hyear
  unfold Parts.dayOfEra
  dsimp only at *
  have hera : era ≤ -656 := by omega
  by_cases hlast : era = -656
  · subst hlast
    have hcentury : d = 0 ∨ d = 1 ∨ d = 2 := by omega
    rcases hcentury with rfl | rfl | rfl <;> omega
  · omega

/-- The years after the last that the calendar reaches begin after the last
representable day. -/
theorem lt_dayOfEra_of_year (era : Int) {p : Parts} (hp : p.Valid)
    (hyear : 262142 < era * 400 + p.year ∨ (era * 400 + p.year = 262142 ∧ 306 ≤ p.day)) :
    95026236 < era * 146097 + p.dayOfEra - 719468 := by
  rcases p with ⟨d, q, t, u⟩
  rcases hp with ⟨⟨hd0, hd⟩, ⟨hq0, hq⟩, ⟨ht0, ht⟩, ⟨hu0, hu⟩, hleap⟩
  unfold Parts.year at hyear
  unfold Parts.dayOfEra
  dsimp only at *
  have hera : 655 ≤ era := by omega
  by_cases hfirst : era = 655
  · subst hfirst
    have hcentury : d = 1 ∨ d = 2 ∨ d = 3 := by omega
    rcases hcentury with rfl | rfl | rfl <;> omega
  · omega

/-- The days of the representable instants fall into the years that the calendar
reaches. -/
theorem year_ofDayNumber {n : Int} (hlow : -96465292 ≤ n) (hhigh : n ≤ 95026236) :
    Rfc3339.minYear ≤ (ofDayNumber n).year ∧ (ofDayNumber n).year ≤ Rfc3339.maxYear := by
  rcases exists_era n with ⟨era, p, hp, rfl⟩
  rcases ofMarch_month (era * 400 + p.year) hp.day.1 hp.day.2 with
    ⟨month, hmlow, hmhigh, hfirst, hlast, hdate⟩
  have hbefore := fun hyear => dayOfEra_lt_of_year era hp hyear
  have hafter := fun hyear => lt_dayOfEra_of_year era hp hyear
  rw [ofDayNumber_parts hp, hdate]
  unfold Rfc3339.minYear Rfc3339.maxYear
  by_cases hmonth : month < 10
  · rw [if_pos hmonth]
    have hday : p.day ≤ 305 := by omega
    dsimp only
    refine ⟨?_, ?_⟩
    · apply Int.not_lt.1
      intro hyear
      have hlt := hbefore (by omega)
      omega
    · apply Int.not_lt.1
      intro hyear
      have hlt := hafter (by omega)
      omega
  · rw [if_neg hmonth]
    have hday : 306 ≤ p.day := by omega
    dsimp only
    refine ⟨?_, ?_⟩
    · apply Int.not_lt.1
      intro hyear
      have hlt := hbefore (by omega)
      omega
    · apply Int.not_lt.1
      intro hyear
      have hlt := hafter (by omega)
      omega

end Turnstile.Date
