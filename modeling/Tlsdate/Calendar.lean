import Mathlib.Algebra.Order.BigOperators.Group.List
import Mathlib.Algebra.Order.Ring.Int

namespace Tlsdate.Calendar

/-- Which of consecutive stretches of these lengths holds the offset `d`, and
how far into it. -/
def locate : List Int → Int → Nat × Int
  | [], d => (0, d)
  | l :: ls, d => if d < l then (0, d) else ((locate ls (d - l)).1 + 1, (locate ls (d - l)).2)

theorem locate_sum (ls : List Int) (d : Int) :
    (ls.take (locate ls d).1).sum + (locate ls d).2 = d := by
  induction ls generalizing d with
  | nil => simp [locate]
  | cons l ls ih =>
      rw [locate]
      split_ifs with hd
      · simp
      · have h := ih (d - l)
        rw [List.take_succ_cons, List.sum_cons]
        omega

theorem locate_bound {ls : List Int} {d : Int} (h0 : 0 ≤ d) (hd : d < ls.sum) :
    0 ≤ (locate ls d).2 ∧ ∃ l ∈ ls[(locate ls d).1]?, (locate ls d).2 < l := by
  induction ls generalizing d with
  | nil => exact absurd hd (not_lt_of_ge h0)
  | cons l ls ih =>
      rw [List.sum_cons] at hd
      rw [locate]
      split_ifs with hl
      · exact ⟨h0, l, rfl, hl⟩
      · exact ih (by omega) (by omega)

theorem locate_eq {ls : List Int} (hls : ∀ l ∈ ls, 0 ≤ l) {i : Nat} {l r : Int}
    (hi : ls[i]? = some l) (h0 : 0 ≤ r) (hr : r < l) :
    locate ls ((ls.take i).sum + r) = (i, r) := by
  induction ls generalizing i with
  | nil => cases hi
  | cons k ls ih =>
      have hk := hls k (List.mem_cons_self ..)
      cases i with
      | zero =>
          obtain rfl : k = l := by simpa using hi
          rw [locate, List.take_zero, List.sum_nil, zero_add, if_pos hr]
      | succ i =>
          have hrest := ih (fun x hx => hls x (List.mem_cons_of_mem _ hx)) (by simpa using hi)
          have hsum : 0 ≤ (ls.take i).sum := by
            refine List.sum_nonneg fun x hx => ?_
            exact hls x (List.mem_cons_of_mem _ (List.mem_of_mem_take hx))
          have hge : ¬ k + (ls.take i).sum + r < k := by omega
          have hsub : k + (ls.take i).sum + r - k = (ls.take i).sum + r := by omega
          rw [List.take_succ_cons, List.sum_cons, locate, if_neg hge, hsub, hrest]

def isLeap (year : Int) : Bool := year % 4 == 0 && (year % 100 != 0 || year % 400 == 0)

def monthLengths (leap : Bool) : List Int :=
  [31, if leap then 29 else 28, 31, 30, 31, 30, 31, 31, 30, 31, 30, 31]

def monthLength (leap : Bool) (month : Fin 12) : Int := (monthLengths leap).getD month 0

def daysBeforeMonth (leap : Bool) (month : Fin 12) : Int := ((monthLengths leap).take month).sum

def yearLength (leap : Bool) : Int := if leap then 366 else 365

def daysBeforeYear (year : Int) : Int :=
  365 * (year - 1) + (year - 1) / 4 - (year - 1) / 100 + (year - 1) / 400

theorem daysBeforeYear_succ (year : Int) :
    daysBeforeYear (year + 1) = daysBeforeYear year + yearLength (isLeap year) := by
  by_cases h : isLeap year = true
  · have h' : year % 4 = 0 ∧ (year % 100 ≠ 0 ∨ year % 400 = 0) := by simpa [isLeap] using h
    rw [yearLength, if_pos h, daysBeforeYear, daysBeforeYear]
    omega
  · have h' : ¬ (year % 4 = 0 ∧ (year % 100 ≠ 0 ∨ year % 400 = 0)) := by simpa [isLeap] using h
    rw [yearLength, if_neg h, daysBeforeYear, daysBeforeYear]
    omega

theorem sum_monthLengths (leap : Bool) : (monthLengths leap).sum = yearLength leap := by
  cases leap <;> rfl

/-- An estimate from the mean length of a year is wrong by one at most. -/
def yearOf (day : Int) : Int :=
  let year := 400 * day / 146097 + 1
  if day < daysBeforeYear year then year - 1
  else if daysBeforeYear (year + 1) ≤ day then year + 1
  else year

theorem yearOf_bounds (day : Int) :
    daysBeforeYear (yearOf day) ≤ day ∧ day < daysBeforeYear (yearOf day + 1) := by
  rw [yearOf]
  generalize hy : 400 * day / 146097 + 1 = year
  split_ifs with hlow hhigh
  · rw [daysBeforeYear] at hlow ⊢
    exact ⟨by omega, by rw [daysBeforeYear]; omega⟩
  · rw [daysBeforeYear] at hlow hhigh
    exact ⟨by rw [daysBeforeYear]; omega, by rw [daysBeforeYear]; omega⟩
  · exact ⟨Int.not_lt.mp hlow, Int.not_le.mp hhigh⟩

theorem daysBeforeYear_mono {a b : Int} (h : a ≤ b) : daysBeforeYear a ≤ daysBeforeYear b := by
  rw [daysBeforeYear, daysBeforeYear]
  omega

theorem le_yearOf {year day : Int} (h : daysBeforeYear year ≤ day) : year ≤ yearOf day := by
  by_contra hlt
  have hmono := daysBeforeYear_mono (Int.add_one_le_of_lt (Int.not_le.mp hlt))
  have hhigh := (yearOf_bounds day).2
  omega

theorem yearOf_le {year day : Int} (h : day < daysBeforeYear (year + 1)) : yearOf day ≤ year := by
  by_contra hlt
  have hmono := daysBeforeYear_mono (Int.add_one_le_of_lt (Int.not_le.mp hlt))
  have hlow := (yearOf_bounds day).1
  omega

theorem yearOf_eq {year day : Int} (h : daysBeforeYear year ≤ day)
    (h' : day < daysBeforeYear (year + 1)) : yearOf day = year :=
  le_antisymm (yearOf_le h') (le_yearOf h)

/-- A broken-down time of the proleptic Gregorian calendar. Its fields but the
month may be out of their ranges. -/
@[ext] structure DateTime where
  year : Int
  month : Fin 12
  day : Int
  hour : Int
  minute : Int
  second : Int
  deriving DecidableEq, Repr

structure DateTime.Valid (c : DateTime) : Prop where
  day : 1 ≤ c.day ∧ c.day ≤ monthLength (isLeap c.year) c.month
  hour : 0 ≤ c.hour ∧ c.hour < 24
  minute : 0 ≤ c.minute ∧ c.minute < 60
  second : 0 ≤ c.second ∧ c.second < 60

def dayNumber (year : Int) (month : Fin 12) (day : Int) : Int :=
  daysBeforeYear year + daysBeforeMonth (isLeap year) month + (day - 1)

def epochDay : Int := 719162

/-- Seconds since the epoch; fields out of range are carried over. -/
def toSeconds (c : DateTime) : Int :=
  86400 * (dayNumber c.year c.month c.day - epochDay) + 3600 * c.hour + 60 * c.minute + c.second

def dateOf (day : Int) : Int × Fin 12 × Int :=
  let year := yearOf day
  let place := locate (monthLengths (isLeap year)) (day - daysBeforeYear year)
  (year, Fin.ofNat 12 place.1, place.2 + 1)

def ofSeconds (t : Int) : DateTime :=
  let date := dateOf (t / 86400 + epochDay)
  ⟨date.1, date.2.1, date.2.2, t % 86400 / 3600, t % 3600 / 60, t % 60⟩

theorem monthLengths_get (leap : Bool) (month : Fin 12) :
    (monthLengths leap)[month.val]? = some (monthLength leap month) := by
  revert leap month
  decide

theorem monthLengths_nonneg (leap : Bool) : ∀ l ∈ monthLengths leap, 0 ≤ l := by
  cases leap <;> decide

theorem locate_month (leap : Bool) {d : Int} (h0 : 0 ≤ d) (hd : d < yearLength leap) :
    ∃ month : Fin 12, (locate (monthLengths leap) d).1 = month ∧
      0 ≤ (locate (monthLengths leap) d).2 ∧
      (locate (monthLengths leap) d).2 < monthLength leap month := by
  obtain ⟨hpos, l, hl, hlt⟩ := locate_bound h0 (hd.trans_eq (sum_monthLengths leap).symm)
  have hlen : (locate (monthLengths leap) d).1 < 12 :=
    (List.getElem?_eq_some_iff.mp (Option.mem_def.mp hl)).1
  refine ⟨⟨_, hlen⟩, rfl, hpos, ?_⟩
  have hget := monthLengths_get leap ⟨_, hlen⟩
  rw [Option.mem_def.mp hl] at hget
  rwa [← Option.some.inj hget]

theorem dayNumber_dateOf (day : Int) :
    dayNumber (dateOf day).1 (dateOf day).2.1 (dateOf day).2.2 = day := by
  obtain ⟨hlow, hhigh⟩ := yearOf_bounds day
  rw [daysBeforeYear_succ] at hhigh
  obtain ⟨month, hm, -, -⟩ := locate_month (isLeap (yearOf day))
    (show 0 ≤ day - daysBeforeYear (yearOf day) by omega) (by omega)
  have hsum := locate_sum (monthLengths (isLeap (yearOf day))) (day - daysBeforeYear (yearOf day))
  simp only [dateOf, dayNumber, daysBeforeMonth, hm, Fin.ofNat_val_eq_self] at hsum ⊢
  omega

theorem dateOf_bounds (day : Int) : 1 ≤ (dateOf day).2.2 ∧
    (dateOf day).2.2 ≤ monthLength (isLeap (dateOf day).1) (dateOf day).2.1 := by
  obtain ⟨hlow, hhigh⟩ := yearOf_bounds day
  rw [daysBeforeYear_succ] at hhigh
  obtain ⟨month, hm, hpos, hlt⟩ := locate_month (isLeap (yearOf day))
    (show 0 ≤ day - daysBeforeYear (yearOf day) by omega) (by omega)
  simp only [dateOf, hm, Fin.ofNat_val_eq_self]
  omega

theorem toSeconds_ofSeconds (t : Int) : toSeconds (ofSeconds t) = t := by
  simp only [toSeconds, ofSeconds, dayNumber_dateOf]
  omega

theorem valid_ofSeconds (t : Int) : (ofSeconds t).Valid where
  day := dateOf_bounds _
  hour := by
    simp only [ofSeconds]
    omega
  minute := by
    simp only [ofSeconds]
    omega
  second := by
    simp only [ofSeconds]
    omega

theorem month_le_year (leap : Bool) (month : Fin 12) :
    daysBeforeMonth leap month + monthLength leap month ≤ yearLength leap := by
  revert leap month
  decide

theorem daysBeforeMonth_nonneg (leap : Bool) (month : Fin 12) :
    0 ≤ daysBeforeMonth leap month := by
  revert leap month
  decide

theorem dateOf_dayNumber {year day : Int} {month : Fin 12} (h : 1 ≤ day)
    (h' : day ≤ monthLength (isLeap year) month) :
    dateOf (dayNumber year month day) = (year, month, day) := by
  have hbefore := daysBeforeMonth_nonneg (isLeap year) month
  have hwithin := month_le_year (isLeap year) month
  have hyear : yearOf (dayNumber year month day) = year := by
    refine yearOf_eq ?_ ?_
    · rw [dayNumber]
      omega
    · rw [daysBeforeYear_succ, dayNumber]
      omega
  have hoff : dayNumber year month day - daysBeforeYear year =
      ((monthLengths (isLeap year)).take month).sum + (day - 1) := by
    rw [dayNumber, daysBeforeMonth]
    omega
  have hplace := locate_eq (r := day - 1) (monthLengths_nonneg (isLeap year))
    (monthLengths_get (isLeap year) month) (by omega) (by omega)
  simp only [dateOf, hyear, hoff, hplace, Fin.ofNat_val_eq_self, sub_add_cancel]

theorem ofSeconds_toSeconds {c : DateTime} (h : c.Valid) : ofSeconds (toSeconds c) = c := by
  obtain ⟨hday, hhour, hminute, hsecond⟩ := h
  have hquot : toSeconds c / 86400 + epochDay = dayNumber c.year c.month c.day := by
    rw [toSeconds]
    omega
  have hdate := dateOf_dayNumber hday.1 hday.2
  simp only [ofSeconds, hquot, hdate]
  ext <;> simp only [toSeconds] <;> omega

def weekday (t : Int) : Fin 7 := Fin.ofNat 7 ((t / 86400 + 4) % 7).toNat

end Tlsdate.Calendar
