import LinkTest.Timestamp

/-!
# Days and dates

Each day has one date, which exists and whose day it is. Within an era of 400 years the years begin
in March, so that a leap day is the last day of its year.
-/

namespace LinkTest.Timestamp

/-- The first day of a year within an era. -/
def yearStart (y : Int) : Int := 365 * y + y / 4 - y / 100 + y / 400

theorem isLeapYear_iff (y : Int) :
    isLeapYear y = true ↔ y % 4 = 0 ∧ (y % 100 ≠ 0 ∨ y % 400 = 0) := by
  simp [isLeapYear]

/-- A year that begins in March is long if the next one is a leap year. -/
theorem yearStart_succ (y : Int) :
    yearStart (y + 1) = yearStart y + if isLeapYear (y + 1) then 366 else 365 := by
  unfold yearStart
  split
  · next h =>
    rw [isLeapYear_iff] at h
    omega
  · next h =>
    rw [isLeapYear_iff] at h
    omega

theorem yearStart_mono {y y' : Int} (h : y ≤ y') : yearStart y ≤ yearStart y' := by
  unfold yearStart
  omega

/-- The days of an era without its leap days, roughly: 365 of them make up a year. -/
def plainDays (d : Int) : Int := d - d / 1460 + d / 36524 - d / 146096

theorem plainDays_le_succ (d : Int) : plainDays d ≤ plainDays (d + 1) := by
  unfold plainDays
  omega

theorem plainDays_mono {d d' : Int} (h : d ≤ d') : plainDays d ≤ plainDays d' := by
  obtain ⟨n, rfl⟩ := Int.le.dest h
  clear h
  induction n with
  | zero => simp
  | succ n ih =>
    have hs := plainDays_le_succ (d + n)
    rw [Int.add_assoc] at hs
    exact Int.le_trans ih hs

/-- The count of plain days passes a multiple of 365 with the beginning of each year. -/
theorem plainDays_yearStart {y : Nat} (h : y < 400) :
    365 * (y : Int) ≤ plainDays (yearStart y) ∧
      plainDays (yearStart (y + 1) - 1) < 365 * ((y : Int) + 1) := by
  have hall : ∀ y : Nat, y < 400 → 365 * (y : Int) ≤ plainDays (yearStart y) ∧
      plainDays (yearStart ((y : Int) + 1) - 1) < 365 * ((y : Int) + 1) := by
    decide +kernel
  exact hall y h

/-- The year of a day of an era. -/
theorem year_of_day {d : Int} (h0 : 0 ≤ d) (h : d < 146097) :
    ∃ y : Nat, y < 400 ∧ plainDays d / 365 = y ∧ yearStart y ≤ d ∧ d < yearStart (y + 1) := by
  have hlow : 0 ≤ plainDays d := plainDays_mono h0
  have hhigh : plainDays d ≤ 145999 := plainDays_mono (show d ≤ 146096 by omega)
  obtain ⟨y, hy⟩ := Int.eq_ofNat_of_zero_le (show 0 ≤ plainDays d / 365 by omega)
  refine ⟨y, by omega, hy, ?_, ?_⟩
  · -- Otherwise the day stands before the end of the year before.
    refine Int.not_lt.1 fun hlt => ?_
    cases y with
    | zero => simp [yearStart] at hlt; omega
    | succ y =>
      have hbefore := (plainDays_yearStart (show y < 400 by omega)).2
      have hle := plainDays_mono (show d ≤ yearStart (y + 1) - 1 by simp at hlt; omega)
      omega
  · refine Int.not_le.1 fun hle => ?_
    by_cases hlast : y = 399
    · subst hlast
      have : yearStart ((399 : Nat) + 1) = 146097 := by decide
      omega
    · have hafter := (plainDays_yearStart (show y + 1 < 400 by omega)).1
      have hle := plainDays_mono hle
      rw [Int.natCast_succ] at hafter
      omega

/-- The month that begins so many months after March. -/
def monthOf (m : Nat) : Nat := if m < 10 then m + 3 else m - 9

/-- The days of a year before the month that begins so many months after March. -/
def daysBefore (m : Nat) : Nat := (153 * m + 2) / 5

/-- A day by its era, its year of the era, the months after March and the days of its month that
have gone by. -/
structure Parts where
  era : Int
  year : Nat
  month : Nat
  day : Nat

namespace Parts

def days (p : Parts) : Int := p.era * 146097 + yearStart p.year + (daysBefore p.month + p.day : Nat)

/-- January and February belong to the next year. -/
def date (p : Parts) : Date :=
  ⟨p.year + p.era * 400 + (if p.month < 10 then 0 else 1), monthOf p.month, p.day + 1⟩

/-- The day is one of its month, and of its year. -/
structure Proper (p : Parts) : Prop where
  year : p.year < 400
  month : p.month < 12
  day : daysBefore p.month + p.day < daysBefore (p.month + 1)
  dayOfYear : yearStart p.year + (daysBefore p.month + p.day : Nat) < yearStart (p.year + 1)

end Parts

/-- Each day has its parts. -/
theorem exists_parts (days : Int) : ∃ p : Parts, p.Proper ∧ p.days = days := by
  obtain ⟨d, hd⟩ : ∃ d, d = days - days / 146097 * 146097 := ⟨_, rfl⟩
  obtain ⟨y, hy, -, hstart, hnext⟩ := year_of_day (d := d) (by omega) (by omega)
  obtain ⟨n, hn⟩ := Int.eq_ofNat_of_zero_le (show 0 ≤ d - yearStart y by omega)
  have hn' : n < 366 := by
    rw [yearStart_succ] at hnext
    split at hnext <;> omega
  obtain ⟨m, hm⟩ : ∃ m, (5 * n + 2) / 153 = m := ⟨_, rfl⟩
  obtain ⟨k, rfl⟩ : ∃ k, n = daysBefore m + k := by
    refine Nat.exists_eq_add_of_le ?_
    unfold daysBefore
    omega
  refine ⟨⟨days / 146097, y, m, k⟩, ⟨hy, ?_, ?_, ?_⟩, ?_⟩
  · dsimp only
    omega
  · dsimp only [daysBefore] at *
    omega
  · dsimp only
    omega
  · rw [Parts.days]
    dsimp only
    omega

/-- The year of a day is that of its parts, since years do not overlap. -/
theorem plainDays_div {p : Parts} (h : p.Proper) :
    plainDays (yearStart p.year + (daysBefore p.month + p.day : Nat)) / 365 = p.year := by
  have hy := h.year
  have hnext := h.dayOfYear
  have hstart : 0 ≤ yearStart p.year ∧ yearStart (p.year + 1) ≤ 146097 := by
    unfold yearStart
    omega
  obtain ⟨y, -, hyear, hle, hlt⟩ :=
    year_of_day (d := yearStart p.year + (daysBefore p.month + p.day : Nat)) (by omega) (by omega)
  have heq : y = p.year := by
    refine Nat.le_antisymm (Nat.not_lt.1 fun hgt => ?_) (Nat.not_lt.1 fun hgt => ?_)
    · have := yearStart_mono (show (p.year : Int) + 1 ≤ y by omega)
      omega
    · have := yearStart_mono (show (y : Int) + 1 ≤ p.year by omega)
      omega
  rw [hyear, heq]

theorem dateOfDays_days {p : Parts} (h : p.Proper) : dateOfDays p.days = p.date := by
  have hyear := plainDays_div h
  obtain ⟨era, y, m, k⟩ := p
  obtain ⟨hy, hm, hk, hnext⟩ := h
  dsimp only at hyear hy hm hk hnext
  have hstart : 0 ≤ yearStart y ∧ yearStart (y + 1) ≤ 146097 := by
    unfold yearStart
    omega
  rw [Parts.days]
  dsimp only
  generalize hn : daysBefore m + k = n at hyear hk hnext ⊢
  have hera : (era * 146097 + yearStart y + (n : Int)) / 146097 = era := by omega
  have hday : era * 146097 + yearStart y + (n : Int) - era * 146097 = yearStart y + n := by omega
  have hdayOfYear : yearStart y + n - (365 * y + y / 4 - y / 100) = n := by
    unfold yearStart
    omega
  have hmonth : (5 * (n : Int) + 2) / 153 = m := by
    unfold daysBefore at hn hk
    omega
  have hdayOfMonth : (n : Int) - (153 * m + 2) / 5 + 1 = (k + 1 : Nat) := by
    unfold daysBefore at hn
    omega
  unfold plainDays at hyear
  rw [dateOfDays, hera, hday, hyear, hdayOfYear, hmonth, hdayOfMonth, Parts.date, monthOf]
  dsimp only
  by_cases h : m < 10
  · have h' : (m : Int) < 10 := by omega
    rw [if_pos h, if_pos h, if_pos h', if_neg (by omega), Int.add_zero, Int.toNat_natCast,
      show ((m : Int) + 3).toNat = m + 3 by omega]
  · have h' : ¬ (m : Int) < 10 := by omega
    rw [if_neg h, if_neg h, if_neg h', if_pos (by omega), Int.toNat_natCast,
      show ((m : Int) - 9).toNat = m - 9 by omega]

theorem toDays_date {p : Parts} (h : p.Proper) : p.date.toDays = p.days := by
  obtain ⟨era, y, m, k⟩ := p
  obtain ⟨hy, hm, -, -⟩ := h
  dsimp only at hy hm
  have hmonth : (monthOf m + 9) % 12 = m := by
    unfold monthOf
    split <;> omega
  have hyear : (if monthOf m ≤ 2 then
      (y : Int) + era * 400 + (if m < 10 then 0 else 1) - 1
      else (y : Int) + era * 400 + (if m < 10 then 0 else 1)) = y + era * 400 := by
    unfold monthOf
    split <;> split <;> omega
  have hera : ((y : Int) + era * 400) / 400 = era := by omega
  rw [Parts.days, Parts.date, Date.toDays]
  dsimp only
  rw [hmonth, hyear, hera]
  unfold yearStart daysBefore
  omega

theorem day_le_daysInMonth {p : Parts} (h : p.Proper) :
    p.date.day ≤ daysInMonth p.date.year p.date.month := by
  obtain ⟨era, y, m, k⟩ := p
  obtain ⟨hy, hm, hk, hlast⟩ := h
  dsimp only [Parts.date, daysBefore] at *
  rw [yearStart_succ] at hlast
  unfold daysInMonth monthOf
  by_cases hm10 : m < 10
  · rw [if_pos hm10, if_pos hm10]
    split
    · omega
    · split <;> omega
  · rw [if_neg hm10, if_neg hm10]
    by_cases hm11 : m = 11
    · subst hm11
      have hleap : isLeapYear (y + era * 400 + 1) = isLeapYear (y + 1) := by
        rw [Bool.eq_iff_iff, isLeapYear_iff, isLeapYear_iff]
        omega
      rw [if_pos rfl, hleap]
      split at hlast
      · next h =>
        rw [if_pos h]
        omega
      · next h =>
        rw [if_neg h]
        omega
    · obtain rfl : m = 10 := by omega
      rw [if_neg (by decide), if_neg (by decide)]
      omega

/-- A date that exists. -/
structure Date.Exists (d : Date) : Prop where
  month : 1 ≤ d.month ∧ d.month ≤ 12
  day : 1 ≤ d.day ∧ d.day ≤ daysInMonth d.year d.month

/-- The date of a day exists. -/
theorem exists_dateOfDays (days : Int) : (dateOfDays days).Exists := by
  obtain ⟨p, hp, rfl⟩ := exists_parts days
  have hm := hp.month
  rw [dateOfDays_days hp]
  refine ⟨?_, Nat.le_add_left _ _, day_le_daysInMonth hp⟩
  dsimp only [Parts.date, monthOf]
  split <;> omega

/-- A day is the day of its date. -/
@[simp] theorem toDays_dateOfDays (days : Int) : (dateOfDays days).toDays = days := by
  obtain ⟨p, hp, rfl⟩ := exists_parts days
  rw [dateOfDays_days hp, toDays_date hp]

end LinkTest.Timestamp
