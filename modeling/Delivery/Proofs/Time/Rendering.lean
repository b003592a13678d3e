import Delivery.Time.Reader
import Delivery.Proofs.Json.Reading
import Delivery.Proofs.Time.Calendar
import Mathlib

/-! The text of an instant that was read from a text is read as that instant. -/

namespace Delivery
namespace Instant

variable {rest text after : List Char} {n width most : Nat}

/-! ### Numbers of fixed width -/

lemma not_isBlank_of_isDigit {c : Char} (h : c.isDigit = true) : Text.isBlank c = false := by
  rw [Char.isDigit_iff_toNat] at h
  simp at h
  simp only [Text.isBlank, Bool.or_eq_false_iff, Bool.and_eq_false_iff, decide_eq_false_iff_not, beq_eq_false_iff_ne]
  omega

lemma skipBlanks_cons {c : Char} (h : Text.isBlank c = false) (rest : List Char) :
    skipBlanks (c :: rest) = c :: rest := by
  rw [skipBlanks, List.dropWhile_cons_of_neg (by rw [h]; decide)]

lemma toList_padded (width n : Nat) : (padded width n).toList =
    List.replicate (width - (Nat.toDigits 10 n).length) '0' ++ Nat.toDigits 10 n := by
  rw [padded, String.toList_append, toList_pushn, String.toList_empty, List.nil_append, ← String.length_toList,
    toList_toString]

def spelled (digits : List Char) : Nat := digits.foldl (fun n c => n * 10 + (c.toNat - '0'.toNat)) 0

lemma spelled_padded (width n : Nat) : spelled (padded width n).toList = n := by
  have hzeros : ∀ k, (List.replicate k '0').foldl (fun n c => n * 10 + (c.toNat - '0'.toNat)) 0 = 0 := by
    intro k
    induction k with
    | zero => rfl
    | succ k ih =>
      rw [List.replicate_succ, List.foldl_cons]
      exact ih
  have hdigits := Draft.ofDigits_toDigits n
  rw [Number.ofDigits, List.foldl_map] at hdigits
  rw [spelled, toList_padded, List.foldl_append, hzeros, hdigits]

lemma isDigit_of_mem_padded {c : Char} (h : c ∈ (padded width n).toList) : c.isDigit = true := by
  rw [toList_padded, List.mem_append] at h
  rcases h with h | h
  · obtain rfl := List.eq_of_mem_replicate h
    decide
  · exact Nat.isDigit_of_mem_toDigits (by decide) (by decide) h

lemma length_padded (h : n < 10 ^ width) (hwidth : 0 < width) : (padded width n).toList.length = width := by
  have hle : (Nat.toDigits 10 n).length ≤ width := (Nat.length_toDigits_le_iff (by decide) hwidth).mpr h
  rw [toList_padded, List.length_append, List.length_replicate]
  omega

lemma padded_ne_nil (width n : Nat) : (padded width n).toList ≠ [] := by
  rw [toList_padded]
  exact List.append_ne_nil_of_right_ne_nil _ Nat.toDigits_ne_nil

def Ends (rest : List Char) : Prop := ∀ c ∈ rest.head?, c.isDigit = false

lemma ends_cons {c : Char} (h : c.isDigit = false) (rest : List Char) : Ends (c :: rest) := by
  simpa [Ends] using h

lemma takeWhile_ends (h : Ends rest) (n : Nat) : (rest.take n).takeWhile Char.isDigit = [] := by
  cases rest with
  | nil => rw [List.take_nil]; rfl
  | cons c rest =>
    cases n with
    | zero => rfl
    | succ n => rw [List.take_succ_cons, List.takeWhile_cons_of_neg (by simp [h c rfl])]

lemma takeNumber_padded (hlength : (padded width n).toList.length ≤ most) (hn : n < twoPower 63)
    (h : Ends rest) : takeNumber most ((padded width n).toList ++ rest) = .ok (n, rest) := by
  have hdigits : (((padded width n).toList ++ rest).take most).takeWhile Char.isDigit =
      (padded width n).toList := by
    rw [List.take_append, List.take_of_length_le hlength,
      List.takeWhile_append_of_pos fun c hc => isDigit_of_mem_padded hc, takeWhile_ends h, List.append_nil]
  have hne := padded_ne_nil width n
  have hvalue := spelled_padded width n
  rw [spelled] at hvalue
  simp only [takeNumber, hdigits, hvalue, List.isEmpty_iff, List.append_eq_nil_iff, hne, false_and, if_false,
    Nat.not_le.mpr hn, List.drop_left]

lemma skipBlanks_padded (width n : Nat) (rest : List Char) :
    skipBlanks ((padded width n).toList ++ rest) = (padded width n).toList ++ rest := by
  obtain ⟨c, digits, hc⟩ := List.exists_cons_of_ne_nil (padded_ne_nil width n)
  have hd : c.isDigit = true := isDigit_of_mem_padded (by rw [hc]; exact List.mem_cons_self)
  rw [hc, List.cons_append, skipBlanks_cons (not_isBlank_of_isDigit hd)]

lemma takeTwo_padded {least greatest : Nat} (hleast : least ≤ n) (hgreatest : n ≤ greatest)
    (h99 : greatest ≤ 99) (h : Ends rest) :
    takeTwo least greatest ((padded 2 n).toList ++ rest) = .ok (n, rest) := by
  have hlength := length_padded (show n < 10 ^ 2 by omega) (by decide)
  have hbound : 99 < twoPower 63 := by decide
  rw [takeTwo, skipBlanks_padded, takeNumber_padded (Nat.le_of_eq hlength) (by omega) h]
  exact if_pos ⟨hleast, hgreatest⟩

/-! ### The parts of an instant -/

lemma takeMark_self {mark : Char} (h : Text.isBlank mark = false) (rest : List Char) :
    takeMark mark (mark :: rest) = .ok rest := by
  rw [takeMark, skipBlanks_cons h]
  exact if_pos rfl

lemma takeYear_plain (hn : n < 10 ^ 4) (h : Ends rest) :
    takeYear ((padded 4 n).toList ++ rest) = .ok ((n : Int), rest) := by
  have hlength := length_padded hn (by decide)
  have hbound : 10 ^ 4 < twoPower 31 ∧ 10 ^ 4 < twoPower 63 := by decide
  have hread := takeNumber_padded (Nat.le_of_eq hlength) (show n < twoPower 63 by omega) h
  have hrange : -(twoPower 31 : Int) ≤ n ∧ (n : Int) < twoPower 31 := by omega
  obtain ⟨c, digits, hc⟩ := List.exists_cons_of_ne_nil (padded_ne_nil 4 n)
  have hd : c.isDigit = true := isDigit_of_mem_padded (by rw [hc]; exact List.mem_cons_self)
  rw [takeYear, skipBlanks_padded]
  generalize twoPower 31 = bound at hrange ⊢
  split
  · next heq =>
    rw [hc] at heq
    cases heq
    cases hd
  · next heq =>
    rw [hc] at heq
    cases heq
    cases hd
  · refine bind_eq_ok.mpr ⟨_, hread, bind_eq_ok.mpr ⟨_, rfl, ?_⟩⟩
    simp only
    rw [if_pos hrange]
    rfl

lemma takeYear_below (hn : n < twoPower 31) (h : Ends rest) :
    takeYear ('-' :: ((padded 4 n).toList ++ rest)) = .ok (-(n : Int), rest) := by
  have hbound : twoPower 31 < twoPower 63 := by decide
  have hread : takeNumber ((padded 4 n).toList ++ rest).length ((padded 4 n).toList ++ rest) = .ok (n, rest) :=
    takeNumber_padded (by simp) (by omega) h
  have hrange : -(twoPower 31 : Int) ≤ -n ∧ -(n : Int) < twoPower 31 := by omega
  rw [takeYear, skipBlanks_cons (by decide)]
  generalize twoPower 31 = bound at hrange ⊢
  refine bind_eq_ok.mpr ⟨_, hread, bind_eq_ok.mpr ⟨_, rfl, ?_⟩⟩
  simp only
  rw [if_pos hrange]
  rfl

lemma takeYear_above (hn : n < twoPower 31) (h : Ends rest) :
    takeYear ('+' :: ((padded 4 n).toList ++ rest)) = .ok ((n : Int), rest) := by
  have hbound : twoPower 31 < twoPower 63 := by decide
  have hread : takeNumber ((padded 4 n).toList ++ rest).length ((padded 4 n).toList ++ rest) = .ok (n, rest) :=
    takeNumber_padded (by simp) (by omega) h
  have hrange : -(twoPower 31 : Int) ≤ n ∧ (n : Int) < twoPower 31 := by omega
  rw [takeYear, skipBlanks_cons (by decide)]
  generalize twoPower 31 = bound at hrange ⊢
  refine bind_eq_ok.mpr ⟨_, hread, bind_eq_ok.mpr ⟨_, rfl, ?_⟩⟩
  simp only
  rw [if_pos hrange]
  rfl

lemma takeYear_yearText {year : Int} (hfirst : CalendarDay.firstYear ≤ year) (hlast : year ≤ CalendarDay.lastYear)
    (h : Ends rest) : takeYear ((yearText year).toList ++ rest) = .ok (year, rest) := by
  rw [CalendarDay.firstYear] at hfirst
  rw [CalendarDay.lastYear] at hlast
  have hbound : 262143 < twoPower 31 := by decide
  rw [yearText]
  split
  · rw [takeYear_plain (by omega) h, Int.toNat_of_nonneg (by omega)]
  · split
    · have hread := takeYear_below (show year.natAbs < twoPower 31 by omega) h
      rw [show -(year.natAbs : Int) = year by omega] at hread
      simpa using hread
    · have hread := takeYear_above (show year.natAbs < twoPower 31 by omega) h
      rw [show (year.natAbs : Int) = year by omega] at hread
      simpa using hread

lemma takeFraction_padded (hn : n < 10 ^ width) (hwidth : 0 < width) (hnine : width ≤ 9) (h : Ends rest) :
    takeFraction ('.' :: ((padded width n).toList ++ rest)) = .ok (n * tenPower (9 - width), rest) := by
  have hlength := length_padded hn hwidth
  have hbound : 10 ^ 9 < twoPower 63 := by decide
  have hlt : n < twoPower 63 := Nat.lt_trans (Nat.lt_of_lt_of_le hn (Nat.pow_le_pow_right (by decide) hnine)) hbound
  have hdrop : rest.dropWhile Char.isDigit = rest := by
    cases rest with
    | nil => rfl
    | cons c rest => rw [List.dropWhile_cons_of_neg (by simp [h c rfl])]
  have hcount : ((padded width n).toList ++ rest).length - rest.length = width := by
    rw [List.length_append, hlength]
    omega
  rw [takeFraction, takeNumber_padded (by omega) hlt h]
  refine bind_eq_ok.mpr ⟨_, rfl, ?_⟩
  simp only [hcount, hdrop]
  rfl

lemma takeFraction_fractionText (hn : n < Span.second) (h : Ends rest) (hpoint : rest.head? ≠ some '.') :
    takeFraction ((fractionText n).toList ++ rest) = .ok (n, rest) := by
  have hread : ∀ {width value}, value < 10 ^ width → 0 < width → width ≤ 9 → value * tenPower (9 - width) = n →
      takeFraction (("." ++ padded width value).toList ++ rest) = .ok (n, rest) := by
    intro width value hvalue hwidth hnine hn
    have hsplit : ("." ++ padded width value).toList ++ rest = '.' :: ((padded width value).toList ++ rest) := by
      simp
    rw [hsplit, takeFraction_padded hvalue hwidth hnine h, hn]
  have hsecond : n < 1000000000 := hn
  rw [fractionText]
  split
  · next hzero =>
    rw [hzero, String.toList_empty, List.nil_append]
    unfold takeFraction
    split
    · exact absurd rfl hpoint
    · rfl
  · split
    · next hmod =>
      exact hread (show n / 1000000 < 10 ^ 3 by omega) (by decide) (by decide)
        (Nat.div_mul_cancel (Nat.dvd_of_mod_eq_zero hmod))
    · split
      · next hmod =>
        exact hread (show n / 1000 < 10 ^ 6 by omega) (by decide) (by decide)
          (Nat.div_mul_cancel (Nat.dvd_of_mod_eq_zero hmod))
      · exact hread hn (by decide) (by decide) (Nat.mul_one n)

/-! ### What a text holds -/

lemma parts_of_ofText {text : String} {t : Instant} (h : ofText text = .ok t) :
    ∃ (date : CalendarDay) (hour minute second leap fraction : Nat) (offset : Int) (r₁ r₂ r₃ r₄ : List Char),
      takeFraction r₁ = .ok (fraction, r₂) ∧ takeOffset r₃ = .ok (offset, r₄) ∧
      (if second = 60 then 1 else 0) = leap ∧
      t.seconds = date.number * 86400 + ((hour * 3600 + minute * 60 + (second - leap) : Nat) : Int) - offset ∧
      t.nanos = fraction + leap * Span.second ∧ (CalendarDay.ofNumber (t.seconds / 86400)).isValid = true := by
  unfold ofText at h
  obtain ⟨⟨year, _⟩, _, h⟩ := bind_eq_ok.mp h
  obtain ⟨_, _, h⟩ := bind_eq_ok.mp h
  obtain ⟨⟨month, _⟩, _, h⟩ := bind_eq_ok.mp h
  obtain ⟨_, _, h⟩ := bind_eq_ok.mp h
  obtain ⟨⟨day, rest⟩, _, h⟩ := bind_eq_ok.mp h
  cases rest with
  | nil =>
    obtain ⟨_, hthrow, _⟩ := bind_eq_ok.mp h
    cases hthrow
  | cons c rest =>
    by_cases hc : c = 'T' ∨ c = 't' ∨ c = ' '
    · obtain ⟨_, _, h⟩ := bind_eq_ok.mp ((if_pos hc).symm.trans h)
      obtain ⟨⟨hour, _⟩, _, h⟩ := bind_eq_ok.mp h
      obtain ⟨_, _, h⟩ := bind_eq_ok.mp h
      obtain ⟨⟨minute, _⟩, _, h⟩ := bind_eq_ok.mp h
      obtain ⟨_, _, h⟩ := bind_eq_ok.mp h
      obtain ⟨⟨second, _⟩, _, h⟩ := bind_eq_ok.mp h
      obtain ⟨⟨fraction, _⟩, hfraction, h⟩ := bind_eq_ok.mp h
      obtain ⟨⟨offset, _⟩, hoffset, h⟩ := bind_eq_ok.mp h
      obtain ⟨_, h⟩ := if_throw_eq_ok.mp h
      obtain ⟨_, h⟩ := if_throw_eq_ok.mp h
      obtain ⟨_, h⟩ := if_throw_eq_ok.mp h
      obtain ⟨hvalid, h⟩ := if_throw_eq_ok.mp h
      obtain rfl := pure_eq_ok.mp h
      exact ⟨⟨year, month, day⟩, hour, minute, second, _, fraction, offset, _, _, _, _, hfraction, hoffset, rfl,
        rfl, rfl, by simpa using hvalid⟩
    · obtain ⟨_, hthrow, _⟩ := bind_eq_ok.mp ((if_neg hc).symm.trans h)
      cases hthrow

lemma foldl_digits_lt {digits : List Char} (h : ∀ c ∈ digits, c.isDigit = true) (n : Nat) :
    digits.foldl (fun n c => n * 10 + (c.toNat - '0'.toNat)) n < (n + 1) * 10 ^ digits.length := by
  induction digits generalizing n with
  | nil => simp
  | cons c digits ih =>
    obtain ⟨hc, hdigits⟩ := List.forall_mem_cons.mp h
    have hd : c.toNat - '0'.toNat ≤ 9 := by
      rw [Char.isDigit_iff_toNat] at hc
      simp at hc ⊢
      omega
    calc (c :: digits).foldl (fun n c => n * 10 + (c.toNat - '0'.toNat)) n
        < (n * 10 + (c.toNat - '0'.toNat) + 1) * 10 ^ digits.length := ih hdigits _
      _ ≤ ((n + 1) * 10) * 10 ^ digits.length := Nat.mul_le_mul_right _ (by omega)
      _ = (n + 1) * 10 ^ (c :: digits).length := by rw [List.length_cons, Nat.pow_succ']; ac_rfl

lemma takeNumber_lt {value : Nat} (h : takeNumber most text = .ok (value, after)) :
    text.length - after.length ≤ most ∧ value < 10 ^ (text.length - after.length) := by
  simp only [takeNumber] at h
  split at h
  · cases h
  split at h
  · cases h
  split at h
  · cases h
  cases h
  have hprefix : ((text.take most).takeWhile Char.isDigit).length ≤ min most text.length := by
    rw [← List.length_take]
    exact (List.takeWhile_prefix _).length_le
  have hcount : text.length - (text.drop ((text.take most).takeWhile Char.isDigit).length).length =
      ((text.take most).takeWhile Char.isDigit).length := by
    rw [List.length_drop]
    omega
  rw [hcount]
  refine ⟨by omega, ?_⟩
  have hlt := foldl_digits_lt (List.all_eq_true.mp (List.all_takeWhile (l := text.take most))) 0
  simpa using hlt

lemma takeFraction_lt {value : Nat} (h : takeFraction text = .ok (value, after)) : value < Span.second := by
  unfold takeFraction at h
  split at h
  · obtain ⟨⟨n, left⟩, hn, h⟩ := bind_eq_ok.mp h
    obtain ⟨hcount, hlt⟩ := takeNumber_lt hn
    cases h
    calc n * tenPower (9 - _) < 10 ^ _ * 10 ^ (9 - _) := Nat.mul_lt_mul_of_pos_right hlt (Nat.pow_pos (by decide))
      _ = Span.second := by rw [← Nat.pow_add, Nat.add_sub_cancel' hcount]
  · cases h
    decide

lemma takeOffset_mod {offset : Int} (h : takeOffset text = .ok (offset, after)) : offset % 60 = 0 := by
  unfold takeOffset at h
  split at h
  · cases h
  split at h
  · cases h
    rfl
  split at h
  · cases h
    rfl
  split at h
  case' isFalse => split at h
  all_goals
    obtain ⟨_, hsign, h⟩ := bind_eq_ok.mp h
    cases hsign
  all_goals
    obtain ⟨⟨h1, h2, _⟩, _, h⟩ := bind_eq_ok.mp h
    obtain ⟨⟨m1, m2, _⟩, _, h⟩ := bind_eq_ok.mp h
    obtain ⟨_, h⟩ := if_throw_eq_ok.mp h
    cases h
    simp only [if_true, Bool.false_eq_true, if_false]
    omega

/-- The instant lies on a day of the calendar, and more than a full second of nanoseconds stands only in
the last second of a minute. -/
structure Proper (t : Instant) : Prop where
  day : (CalendarDay.ofNumber (t.seconds / 86400)).isValid = true
  nanos : t.nanos < 2 * Span.second
  leap : Span.second ≤ t.nanos → t.seconds % 60 = 59

theorem proper_of_ofText {text : String} {t : Instant} (h : ofText text = .ok t) : t.Proper := by
  obtain ⟨date, hour, minute, second, leap, fraction, offset, _, _, _, _, hfraction, hoffset, hleap, hseconds,
    hnanos, hvalid⟩ := parts_of_ofText h
  have hlt := takeFraction_lt hfraction
  have hmod := takeOffset_mod hoffset
  refine ⟨hvalid, ?_, ?_⟩
  · rw [hnanos]
    split at hleap <;> simp only [Span.second] at * <;> omega
  · intro hle
    rw [hseconds]
    split at hleap <;> simp only [Span.second] at * <;> omega

lemma isValid_iff {d : CalendarDay} : d.isValid = true ↔
    CalendarDay.firstYear ≤ d.year ∧ d.year ≤ CalendarDay.lastYear ∧ 1 ≤ d.month ∧ d.month ≤ 12 ∧ 1 ≤ d.day ∧
      d.day ≤ CalendarDay.daysIn d.year d.month := by
  simp only [CalendarDay.isValid, Bool.and_eq_true, decide_eq_true_eq, and_assoc]

lemma daysIn_le (year : Int) (month : Nat) : CalendarDay.daysIn year month ≤ 31 := by
  unfold CalendarDay.daysIn
  split
  · split <;> omega
  all_goals omega

lemma takeOffset_utc (rest : List Char) : takeOffset ('Z' :: rest) = .ok (0, rest) := by
  rw [takeOffset, skipBlanks_cons (by decide)]
  rfl

lemma ofText_of_parts {text : String} {date : CalendarDay} {hour minute second leap fraction : Nat} (seconds : Int)
    (htext : text.toList = (yearText date.year).toList ++ '-' :: ((padded 2 date.month).toList ++ '-' ::
      ((padded 2 date.day).toList ++ 'T' :: ((padded 2 hour).toList ++ ':' :: ((padded 2 minute).toList ++ ':' ::
        ((padded 2 second).toList ++ ((fractionText fraction).toList ++ ['Z'])))))))
    (hdate : date.isValid = true) (hhour : hour ≤ 23) (hminute : minute ≤ 59) (hsecond : second ≤ 60)
    (hleap : (if second = 60 then 1 else 0) = leap) (hfraction : fraction < Span.second)
    (hseconds : date.number * 86400 + ((hour * 3600 + minute * 60 + (second - leap) : Nat) : Int) = seconds)
    (hcalendar : CalendarDay.ofNumber (seconds / 86400) = date) :
    ofText text = .ok ⟨seconds, fraction + leap * Span.second⟩ := by
  obtain ⟨hfirst, hlast, hmonth, hmonths, hday, hdays⟩ := isValid_iff.mp hdate
  have h31 := daysIn_le date.year date.month
  have hpoint : Ends ((fractionText fraction).toList ++ ['Z']) := by
    have hdot : ∀ s : String, Ends (("." ++ s).toList ++ ['Z']) := by
      intro s
      rw [String.toList_append, show ".".toList = ['.'] by simp]
      exact ends_cons (by decide) _
    rw [fractionText]
    split
    · rw [String.toList_empty]
      exact ends_cons (by decide) _
    · split
      · exact hdot _
      · split <;> exact hdot _
  unfold ofText
  rw [htext]
  refine bind_eq_ok.mpr ⟨_, takeYear_yearText hfirst hlast (ends_cons (by decide) _), ?_⟩
  refine bind_eq_ok.mpr ⟨_, takeMark_self (by decide) _, ?_⟩
  refine bind_eq_ok.mpr ⟨_, takeTwo_padded hmonth hmonths (by decide) (ends_cons (by decide) _), ?_⟩
  refine bind_eq_ok.mpr ⟨_, takeMark_self (by decide) _, ?_⟩
  refine bind_eq_ok.mpr ⟨_, takeTwo_padded hday (Nat.le_trans hdays h31) (by decide) (ends_cons (by decide) _), ?_⟩
  refine bind_eq_ok.mpr ⟨_, rfl, ?_⟩
  refine bind_eq_ok.mpr ⟨_, takeTwo_padded (Nat.zero_le _) hhour (by decide) (ends_cons (by decide) _), ?_⟩
  refine bind_eq_ok.mpr ⟨_, takeMark_self (by decide) _, ?_⟩
  refine bind_eq_ok.mpr ⟨_, takeTwo_padded (Nat.zero_le _) hminute (by decide) (ends_cons (by decide) _), ?_⟩
  refine bind_eq_ok.mpr ⟨_, takeMark_self (by decide) _, ?_⟩
  refine bind_eq_ok.mpr ⟨_, takeTwo_padded (Nat.zero_le _) hsecond (by decide) hpoint, ?_⟩
  refine bind_eq_ok.mpr ⟨_, takeFraction_fractionText hfraction (ends_cons (by decide) _) (by decide), ?_⟩
  refine bind_eq_ok.mpr ⟨_, takeOffset_utc _, ?_⟩
  refine if_throw_eq_ok.mpr ⟨by decide, ?_⟩
  refine if_throw_eq_ok.mpr ⟨by simp [hdate], ?_⟩
  refine if_throw_eq_ok.mpr ⟨by decide, ?_⟩
  simp only [hleap, hseconds, Int.sub_zero, hcalendar, hdate, Bool.not_true, Bool.false_eq_true, if_false]
  rfl

lemma toList_render {t : Instant} {leap : Nat} (hleap : (if Span.second ≤ t.nanos then 1 else 0) = leap) :
    t.render.toList = (yearText (CalendarDay.ofNumber (t.seconds / 86400)).year).toList ++ '-' ::
      ((padded 2 (CalendarDay.ofNumber (t.seconds / 86400)).month).toList ++ '-' ::
        ((padded 2 (CalendarDay.ofNumber (t.seconds / 86400)).day).toList ++ 'T' ::
          ((padded 2 ((t.seconds % 86400).toNat / 3600)).toList ++ ':' ::
            ((padded 2 ((t.seconds % 86400).toNat / 60 % 60)).toList ++ ':' ::
              ((padded 2 ((t.seconds % 86400).toNat % 60 + leap)).toList ++
                ((fractionText (t.nanos - leap * Span.second)).toList ++ ['Z'])))))) := by
  simp [render, hleap]

theorem ofText_render_of_proper {t : Instant} (h : t.Proper) : ofText t.render = .ok t := by
  obtain ⟨leap, hleap, hone⟩ : ∃ leap, (if Span.second ≤ t.nanos then 1 else 0) = leap ∧
      (leap = 0 ∧ t.nanos < Span.second ∨ leap = 1 ∧ Span.second ≤ t.nanos) := by
    refine ⟨_, rfl, ?_⟩
    split <;> omega
  have hnanos := h.nanos
  have hlast := h.leap
  simp only [Span.second] at hone hnanos hlast
  have hread : ofText t.render = .ok ⟨t.seconds, t.nanos - leap * Span.second + leap * Span.second⟩ := by
    refine ofText_of_parts t.seconds (toList_render hleap) h.day ?_ ?_ ?_ ?_ ?_ ?_ rfl
    · omega
    · omega
    · omega
    · split <;> omega
    · simp only [Span.second]
      omega
    · rw [CalendarDay.number_ofNumber]
      omega
  rw [hread, Nat.sub_add_cancel (by simp only [Span.second]; omega)]

theorem ofText_render {text : String} {t : Instant} (h : ofText text = .ok t) : ofText t.render = .ok t :=
  ofText_render_of_proper (proper_of_ofText h)

end Instant
end Delivery
