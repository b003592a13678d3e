import Delivery.Time.Instant
import Mathlib.Tactic.Common

/-! The day of a number has that number. -/

namespace Delivery
namespace CalendarDay

/-- A day of the cycle of 400 years by centuries, spans of four years and years. Only the last of each has
a day more. -/
lemma exists_split {day : Nat} (h : day < 146097) : ∃ c q k r, c ≤ 3 ∧ q ≤ 24 ∧ k ≤ 3 ∧ r ≤ 365 ∧
    (r = 365 → k = 3 ∧ (q = 24 → c = 3)) ∧ day = 36524 * c + 1461 * q + 365 * k + r := by
  obtain ⟨c, r, hc, hr, hlast, rfl⟩ : ∃ c r, c ≤ 3 ∧ r ≤ 36524 ∧ (r = 36524 → c = 3) ∧ day = 36524 * c + r := by
    refine ⟨min 3 (day / 36524), day - 36524 * min 3 (day / 36524), ?_⟩
    omega
  obtain ⟨k, s, hk, hs, hday, hr⟩ : ∃ k s, k ≤ 3 ∧ s ≤ 365 ∧ (s = 365 → k = 3) ∧
      r % 1461 = 365 * k + s := by
    refine ⟨min 3 (r % 1461 / 365), r % 1461 - 365 * min 3 (r % 1461 / 365), ?_⟩
    omega
  refine ⟨c, r / 1461, k, s, ?_⟩
  omega

section

variable {c q k r : Nat}

lemma div_span (hc : c ≤ 3) (hq : q ≤ 24) (hk : k ≤ 3) (hr : r ≤ 365) (hlast : r = 365 → k = 3) :
    (24 * c + q + 365 * k + r) / 1460 ≤ 1 ∧
      ((24 * c + q + 365 * k + r) / 1460 = 1 → 1 ≤ r) ∧
      (r = 365 → (24 * c + q + 365 * k + r) / 1460 = 1) := by
  omega

lemma div_century (hc : c ≤ 3) (hq : q ≤ 24) (hk : k ≤ 3) (hr : r ≤ 365)
    (hlast : r = 365 → k = 3 ∧ (q = 24 → c = 3)) :
    (1461 * q + 365 * k + r) / 36524 = (36524 * c + 1461 * q + 365 * k + r) / 146096 := by
  obtain rfl | hlt : c = 3 ∨ c < 3 := by omega
  · omega
  · rw [Nat.div_eq_of_lt, Nat.div_eq_of_lt] <;> omega

lemma div_year {year span : Nat} (hr : r ≤ 365) (hspan : span ≤ 1) (hlast : r = 365 → span = 1) :
    (365 * year + (r - span)) / 365 = year := by
  omega

lemma year_of_split (hc : c ≤ 3) (hq : q ≤ 24) (hk : k ≤ 3) (hr : r ≤ 365)
    (hlast : r = 365 → k = 3 ∧ (q = 24 → c = 3)) {day : Nat} (hday : day = 36524 * c + 1461 * q + 365 * k + r) :
    (day - day / 1460 + day / 36524 - day / 146096) / 365 = 100 * c + 4 * q + k := by
  have h1460 : day / 1460 = 25 * c + q + (24 * c + q + 365 * k + r) / 1460 := by
    clear hlast
    omega
  have h36524 : day / 36524 = c + (1461 * q + 365 * k + r) / 36524 := by
    clear hlast
    omega
  obtain ⟨hle, hone, hyear⟩ := div_span hc hq hk hr fun h => (hlast h).1
  rw [h1460, h36524, div_century hc hq hk hr hlast, ← hday]
  generalize (24 * c + q + 365 * k + r) / 1460 = span at hle hone hyear
  generalize day / 146096 = last
  have hsum : day - (25 * c + q + span) + (c + last) - last = 365 * (100 * c + 4 * q + k) + (r - span) := by
    clear hlast hyear
    omega
  rw [hsum, div_year hr hle hyear]

lemma days_of_split (hk : k ≤ 3) (hq : q ≤ 24) :
    365 * (100 * c + 4 * q + k) + (100 * c + 4 * q + k) / 4 - (100 * c + 4 * q + k) / 100 =
      36524 * c + 1461 * q + 365 * k := by
  omega

lemma month_of_day (hr : r ≤ 365) :
    (5 * r + 2) / 153 ≤ 11 ∧ (153 * ((5 * r + 2) / 153) + 2) / 5 ≤ r := by
  omega

def calendarMonth (month : Nat) : Nat := if month < 10 then month + 3 else month - 9

lemma calendarMonth_add (h : r ≤ 11) : (calendarMonth r + 9) % 12 = r := by
  unfold calendarMonth
  split <;> omega

lemma ofNumber_of_split {n cycle : Int} (hc : c ≤ 3) (hq : q ≤ 24) (hk : k ≤ 3) (hr : r ≤ 365)
    (hlast : r = 365 → k = 3 ∧ (q = 24 → c = 3))
    (hn : n + 719468 = cycle * 146097 + (36524 * c + 1461 * q + 365 * k + r : Nat)) :
    ofNumber n =
      ⟨if calendarMonth ((5 * r + 2) / 153) ≤ 2 then ((100 * c + 4 * q + k : Nat) : Int) + cycle * 400 + 1
        else ((100 * c + 4 * q + k : Nat) : Int) + cycle * 400,
        calendarMonth ((5 * r + 2) / 153), r - (153 * ((5 * r + 2) / 153) + 2) / 5 + 1⟩ := by
  obtain ⟨day, hday⟩ : ∃ day, day = 36524 * c + 1461 * q + 365 * k + r := ⟨_, rfl⟩
  have hcycle : (n + 719468) / 146097 = cycle := by omega
  have hrest : (n + 719468 - cycle * 146097).toNat = day := by omega
  have hyear := year_of_split hc hq hk hr hlast hday
  have hdays : day - (365 * (100 * c + 4 * q + k) + (100 * c + 4 * q + k) / 4 -
      (100 * c + 4 * q + k) / 100) = r := by
    rw [days_of_split hk hq, hday, Nat.add_sub_cancel_left]
  unfold ofNumber
  simp only [hcycle, hrest, hyear, hdays]
  rfl

lemma number_of_year {d : CalendarDay} (cycle : Int) {month : Nat} (hc : c ≤ 3) (hq : q ≤ 24) (hk : k ≤ 3)
    (hmonth : (d.month + 9) % 12 = month)
    (hyear : (if d.month ≤ 2 then d.year - 1 else d.year) = (100 * c + 4 * q + k : Nat) + cycle * 400) :
    d.number = cycle * 146097 + (36524 * c + 1461 * q + 365 * k : Nat) +
      (((153 * month + 2) / 5 + d.day : Nat) - 1) - 719468 := by
  unfold number
  simp only [hyear, hmonth]
  have hcycle : ((100 * c + 4 * q + k : Nat) + cycle * 400 : Int) / 400 = cycle := by omega
  have hdays := days_of_split (c := c) hk hq
  rw [hcycle, ← hdays]
  generalize 100 * c + 4 * q + k = year
  have hof : (year : Int) + cycle * 400 - cycle * 400 = year := by omega
  rw [hof]
  omega

theorem number_ofNumber (n : Int) : (ofNumber n).number = n := by
  obtain ⟨cycle, day, hday, hn⟩ : ∃ (cycle : Int) (day : Nat), day < 146097 ∧
      n + 719468 = cycle * 146097 + day := by
    refine ⟨(n + 719468) / 146097, ((n + 719468) % 146097).toNat, ?_⟩
    omega
  obtain ⟨c, q, k, r, hc, hq, hk, hr, hlast, rfl⟩ := exists_split hday
  obtain ⟨hmonth, hday⟩ := month_of_day hr
  rw [ofNumber_of_split hc hq hk hr hlast hn,
    number_of_year cycle hc hq hk (calendarMonth_add hmonth)]
  · generalize (153 * ((5 * r + 2) / 153) + 2) / 5 = before at hday ⊢
    clear hlast
    simp only
    omega
  · simp only
    split <;> omega

end

end CalendarDay
end Delivery
