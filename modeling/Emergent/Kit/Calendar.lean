import Mathlib.Order.Monotone.Basic
import Mathlib.Order.SuccPred.Basic
import Mathlib.Tactic

/-!
# The proleptic Gregorian calendar

A day is an integer and a civil date a year, a month and a day of the month. A
year, and a month within one, is the interval between two values of a strictly
increasing function, so a day lies in exactly one of them.
-/

namespace Kit

/-- A point lies between two consecutive values of such a function only once. -/
theorem bracket_unique {β : Type} [Preorder β] {f : ℤ → β} (hf : StrictMono f) {d : β} {y z : ℤ}
    (hy : f y ≤ d ∧ d < f (y + 1)) (hz : f z ≤ d ∧ d < f (z + 1)) : y = z := by
  have hyz : y < z + 1 := hf.lt_iff_lt.mp (lt_of_le_of_lt hy.1 hz.2)
  have hzy : z < y + 1 := hf.lt_iff_lt.mp (lt_of_le_of_lt hz.1 hy.2)
  omega

namespace Calendar

def isLeap (year : ℤ) : Bool := decide (year % 4 = 0 ∧ (year % 100 ≠ 0 ∨ year % 400 = 0))

def daysInMonth (leap : Bool) (month : ℕ) : ℕ :=
  if month = 2 then (if leap then 29 else 28)
  else if month = 4 ∨ month = 6 ∨ month = 9 ∨ month = 11 then 30 else 31

/-- The days from the first of January of year one to that of the year. -/
def daysBeforeYear (year : ℤ) : ℤ :=
  365 * (year - 1) + (year - 1) / 4 - (year - 1) / 100 + (year - 1) / 400

/-- How much shorter January and February are than a month in the formula below. -/
def februaryGap (leap : Bool) : ℕ := if leap then 1 else 2

def daysBeforeMonth (leap : Bool) (month : ℕ) : ℕ :=
  (367 * month - 362) / 12 - if month ≤ 2 then 0 else februaryGap leap

structure Civil where
  year : ℤ
  month : ℕ
  day : ℕ
  monthOfYear : 1 ≤ month ∧ month ≤ 12
  dayOfMonth : 1 ≤ day ∧ day ≤ daysInMonth (isLeap year) month
  deriving DecidableEq

def fromYmd (year : ℤ) (month day : ℕ) : Option Civil :=
  if hmonth : 1 ≤ month ∧ month ≤ 12 then
    if hday : 1 ≤ day ∧ day ≤ daysInMonth (isLeap year) month then
      some ⟨year, month, day, hmonth, hday⟩
    else none
  else none

theorem fromYmd_self (c : Civil) : fromYmd c.year c.month c.day = some c := by
  rw [fromYmd, dif_pos c.monthOfYear, dif_pos c.dayOfMonth]

/-- The days from the first of January of the year. -/
def Civil.ordinal (c : Civil) : ℕ := daysBeforeMonth (isLeap c.year) c.month + (c.day - 1)

/-- The days from the first of January of year one. -/
def Civil.toDay (c : Civil) : ℤ := daysBeforeYear c.year + c.ordinal

/-! ### Years -/

theorem daysBeforeYear_succ (year : ℤ) :
    daysBeforeYear (year + 1) = daysBeforeYear year + 365 + if isLeap year then 1 else 0 := by
  unfold daysBeforeYear isLeap
  by_cases h : year % 4 = 0 ∧ (year % 100 ≠ 0 ∨ year % 400 = 0)
  · rw [if_pos (decide_eq_true h)]
    omega
  · rw [decide_eq_false h, if_neg Bool.false_ne_true]
    omega

theorem daysBeforeYear_strictMono : StrictMono daysBeforeYear := by
  apply strictMono_int_of_lt_succ
  intro year
  have hsucc := daysBeforeYear_succ year
  split_ifs at hsucc <;> omega

/-- The mean year has 146097 / 400 days and its estimate is off by one at most. -/
def yearOf (day : ℤ) : ℤ :=
  let estimate := day * 400 / 146097 + 1
  if day < daysBeforeYear estimate then estimate - 1
  else if daysBeforeYear (estimate + 1) ≤ day then estimate + 1
  else estimate

theorem yearOf_bracket (day : ℤ) :
    daysBeforeYear (yearOf day) ≤ day ∧ day < daysBeforeYear (yearOf day + 1) := by
  simp only [yearOf]
  split_ifs with hbefore hafter
  · have hsame : day * 400 / 146097 + 1 - 1 + 1 = day * 400 / 146097 + 1 := by omega
    rw [hsame]
    refine ⟨?_, hbefore⟩
    unfold daysBeforeYear
    omega
  · refine ⟨hafter, ?_⟩
    unfold daysBeforeYear
    omega
  · omega

/-! ### Months -/

theorem daysBeforeMonth_succ (leap : Bool) {month : ℕ} (h : 1 ≤ month ∧ month ≤ 12) :
    daysBeforeMonth leap (month + 1) = daysBeforeMonth leap month + daysInMonth leap month := by
  obtain ⟨hlow, hhigh⟩ := h
  cases leap <;> interval_cases month <;> decide

theorem daysBeforeMonth_mono (leap : Bool) {m n : ℕ} (h : m ≤ n) :
    daysBeforeMonth leap m ≤ daysBeforeMonth leap n := by
  unfold daysBeforeMonth februaryGap
  cases leap <;> split_ifs <;> omega

def yearLength (leap : Bool) : ℕ := if leap then 366 else 365

def monthOf (leap : Bool) (ordinal : ℕ) : ℕ :=
  (12 * (ordinal + if ordinal < daysBeforeMonth leap 3 then 0 else februaryGap leap) + 373) / 367

theorem monthOf_bracket (leap : Bool) {ordinal : ℕ} (h : ordinal < yearLength leap) :
    (1 ≤ monthOf leap ordinal ∧ monthOf leap ordinal ≤ 12) ∧
      daysBeforeMonth leap (monthOf leap ordinal) ≤ ordinal ∧
      ordinal < daysBeforeMonth leap (monthOf leap ordinal + 1) := by
  have hmarch : daysBeforeMonth leap 3 = 61 - februaryGap leap := by cases leap <;> decide
  unfold monthOf
  rw [hmarch]
  unfold daysBeforeMonth februaryGap
  unfold yearLength at h
  cases leap <;> simp only [if_true, if_false, Bool.false_eq_true] at h ⊢ <;> split_ifs <;> omega

theorem month_unique (leap : Bool) {m n ordinal : ℕ}
    (hm : daysBeforeMonth leap m ≤ ordinal ∧ ordinal < daysBeforeMonth leap (m + 1))
    (hn : daysBeforeMonth leap n ≤ ordinal ∧ ordinal < daysBeforeMonth leap (n + 1)) : m = n := by
  rcases lt_trichotomy m n with hlt | heq | hgt
  · have hle := daysBeforeMonth_mono leap (Nat.succ_le_of_lt hlt)
    have hsucc : m.succ = m + 1 := rfl
    rw [hsucc] at hle
    omega
  · exact heq
  · have hle := daysBeforeMonth_mono leap (Nat.succ_le_of_lt hgt)
    have hsucc : n.succ = n + 1 := rfl
    rw [hsucc] at hle
    omega

theorem Civil.ordinal_bracket (c : Civil) :
    daysBeforeMonth (isLeap c.year) c.month ≤ c.ordinal ∧
      c.ordinal < daysBeforeMonth (isLeap c.year) (c.month + 1) := by
  have hday := c.dayOfMonth
  rw [daysBeforeMonth_succ (isLeap c.year) c.monthOfYear]
  unfold ordinal
  omega

theorem Civil.ordinal_lt (c : Civil) : c.ordinal < yearLength (isLeap c.year) := by
  have hmonth := (c.ordinal_bracket).2
  have hend := daysBeforeMonth_mono (isLeap c.year) (Nat.succ_le_succ c.monthOfYear.2)
  have hyear : daysBeforeMonth (isLeap c.year) 13 = yearLength (isLeap c.year) := by
    cases isLeap c.year <;> decide
  have hle : daysBeforeMonth (isLeap c.year) (c.month + 1) ≤ yearLength (isLeap c.year) := by
    rw [← hyear]
    exact hend
  omega

theorem Civil.year_bracket (c : Civil) :
    daysBeforeYear c.year ≤ c.toDay ∧ c.toDay < daysBeforeYear (c.year + 1) := by
  have hlt := c.ordinal_lt
  rw [daysBeforeYear_succ]
  unfold toDay
  cases hleap : isLeap c.year with
  | true =>
    rw [hleap, yearLength, if_pos rfl] at hlt
    rw [if_pos rfl]
    omega
  | false =>
    rw [hleap, yearLength, if_neg Bool.false_ne_true] at hlt
    rw [if_neg Bool.false_ne_true]
    omega

/-! ### Both ways -/

theorem yearOf_ordinal (day : ℤ) :
    (day - daysBeforeYear (yearOf day)).toNat < yearLength (isLeap (yearOf day)) := by
  have hbracket := yearOf_bracket day
  rw [daysBeforeYear_succ] at hbracket
  unfold yearLength
  split_ifs at hbracket ⊢ <;> omega

theorem dayOfMonth_bracket (leap : Bool) {ordinal : ℕ} (h : ordinal < yearLength leap) :
    1 ≤ ordinal - daysBeforeMonth leap (monthOf leap ordinal) + 1 ∧
      ordinal - daysBeforeMonth leap (monthOf leap ordinal) + 1 ≤
        daysInMonth leap (monthOf leap ordinal) := by
  have hmonth := monthOf_bracket leap h
  have hsucc := daysBeforeMonth_succ leap hmonth.1
  omega

def Civil.ofDay (day : ℤ) : Civil :=
  let year := yearOf day
  let ordinal := (day - daysBeforeYear year).toNat
  let month := monthOf (isLeap year) ordinal
  ⟨year, month, ordinal - daysBeforeMonth (isLeap year) month + 1,
    (monthOf_bracket (isLeap year) (yearOf_ordinal day)).1,
    dayOfMonth_bracket (isLeap year) (yearOf_ordinal day)⟩

theorem Civil.toDay_ofDay (day : ℤ) : (Civil.ofDay day).toDay = day := by
  have hmonth := (monthOf_bracket (isLeap (yearOf day)) (yearOf_ordinal day)).2.1
  have hyear := (yearOf_bracket day).1
  simp only [toDay, ordinal, ofDay]
  omega

theorem Civil.toDay_injective : Function.Injective Civil.toDay := by
  intro c d h
  have hyear : c.year = d.year := by
    have hd := d.year_bracket
    rw [← h] at hd
    exact bracket_unique daysBeforeYear_strictMono c.year_bracket hd
  have hordinal : c.ordinal = d.ordinal := by
    unfold toDay at h
    rw [hyear] at h
    omega
  have hmonth : c.month = d.month := by
    have hd := d.ordinal_bracket
    rw [← hordinal, ← hyear] at hd
    exact month_unique (isLeap c.year) c.ordinal_bracket hd
  have hday : c.day = d.day := by
    have hc := c.dayOfMonth.1
    have hd := d.dayOfMonth.1
    unfold ordinal at hordinal
    rw [hyear, hmonth] at hordinal
    omega
  cases c
  cases d
  cases hyear
  cases hmonth
  cases hday
  rfl

theorem Civil.ofDay_toDay (c : Civil) : Civil.ofDay c.toDay = c :=
  Civil.toDay_injective (Civil.toDay_ofDay c.toDay)

end Calendar

end Kit
