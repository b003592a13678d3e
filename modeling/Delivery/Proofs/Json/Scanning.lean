import Delivery.Json.Printer
import Delivery.Proofs.Json.Grammar

/-! Strings and numbers are read as the grammar says; as they are printed, they are in the grammar. -/

namespace Delivery
namespace Draft

open Grammar (CodeUnit High Low Letter Letters Quoted Digits Fraction Exponent Numeral Scalar)

variable {text gap after rest done : List Char} {cs : List Char} {s : String}

/-! ### Gaps -/

lemma isBlank_nil : IsBlank [] := List.forall_mem_nil _

lemma skipGap_cons {c : Char} (h : isGap c = false) (rest : List Char) : skipGap (c :: rest) = c :: rest := by
  simp [skipGap, h]

lemma skipGap_append (h : IsBlank gap) (text : List Char) : skipGap (gap ++ text) = skipGap text := by
  induction gap with
  | nil => rfl
  | cons c gap ih =>
    obtain ⟨hc, hgap⟩ := List.forall_mem_cons.mp h
    rw [List.cons_append, skipGap, if_pos hc, ih hgap]

lemma skipGap_split (text : List Char) : ∃ gap, IsBlank gap ∧ text = gap ++ skipGap text ∧
    ∀ c ∈ (skipGap text).head?, isGap c = false := by
  induction text with
  | nil => exact ⟨[], isBlank_nil, rfl, nofun⟩
  | cons c text ih =>
    by_cases hc : isGap c = true
    · obtain ⟨gap, hgap, htext, hhead⟩ := ih
      rw [skipGap, if_pos hc]
      exact ⟨c :: gap, List.forall_mem_cons.mpr ⟨hc, hgap⟩, congrArg (c :: ·) htext, hhead⟩
    · have hnone := Bool.of_not_eq_true hc
      rw [skipGap_cons hnone]
      refine ⟨[], isBlank_nil, rfl, ?_⟩
      rintro _ ⟨⟩
      exact hnone

lemma not_isGap_of_isDigit {c : Char} (h : c.isDigit = true) : isGap c = false := by
  by_contra hn
  simp only [isGap, Bool.not_eq_false, Bool.or_eq_true, beq_iff_eq] at hn
  rcases hn with ((rfl | rfl) | rfl) | rfl <;> exact absurd h (by decide)

/-! ### Strings -/

lemma scanString_unit {high : Option Nat} {unit : Nat} (h : CodeUnit text unit) (rest : List Char) :
    scanString false high done (text ++ rest) =
      scanString (joinUnit high unit).1 (joinUnit high unit).2.1 ((joinUnit high unit).2.2 ++ done) rest := by
  obtain ⟨hhex⟩ := h
  simp only [List.cons_append, List.nil_append, scanString, hhex, Bool.false_or]

lemma joinUnit_whole {unit : Nat} (hhigh : ¬ High unit) (hlow : ¬ Low unit) :
    joinUnit none unit = (false, none, [Char.ofNat unit]) :=
  (if_neg hlow).trans (if_neg hhigh)

lemma joinUnit_high {unit : Nat} (h : High unit) : joinUnit none unit = (false, some unit, []) := by
  have hlow : ¬ Low unit := fun hlow => by
    have := h.2
    have := hlow.1
    omega
  exact (if_neg hlow).trans (if_pos h)

lemma joinUnit_low {high low : Nat} (h : Low low) : joinUnit (some high) low =
    (false, none, [Char.ofNat (0x10000 + (high - 0xd800) * 0x400 + (low - 0xdc00))]) :=
  if_pos h

lemma scanString_letter {c : Char} (h : Letter text c) (rest : List Char) :
    scanString false none done (text ++ rest) = scanString false none (c :: done) rest := by
  cases h with
  | plain hplain hquote hslash =>
    rw [List.singleton_append, scanString.eq_7 _ _ _ _ _ hquote (fun h => absurd h hslash)
      (fun _ _ _ _ _ h => absurd h hslash) (fun _ h => absurd h hslash) (fun _ _ h => absurd h hslash), if_neg hplain]
    rfl
  | @escape e _ hescape =>
    have hu : e ≠ 'u' := by
      rintro rfl
      cases hescape
    have hsplit : ['\\', e] ++ rest = '\\' :: e :: rest := rfl
    rw [hsplit, scanString.eq_6 _ _ _ _ _ (fun _ _ _ _ _ h => absurd h hu) hu, hescape]
    rfl
  | unit hunit hhigh hlow =>
    rw [scanString_unit hunit, joinUnit_whole hhigh hlow]
    rfl
  | pair hfirst hhigh hsecond hlow =>
    rw [List.append_assoc, scanString_unit hfirst, joinUnit_high hhigh, scanString_unit hsecond, joinUnit_low hlow]
    rfl

lemma scanString_letters (h : Letters text cs) (rest : List Char) :
    scanString false none done (text ++ '"' :: rest) = .whole (some (String.ofList (done.reverse ++ cs))) rest := by
  induction h generalizing done with
  | nil =>
    rw [List.nil_append, scanString, List.append_nil]
    rfl
  | cons hletter _ ih =>
    rw [List.append_assoc, scanString_letter hletter, ih, List.reverse_cons, List.append_assoc, List.singleton_append]

/-- What stands between quotes, behind the first half of a character or not. -/
def Continues (high : Option Nat) (text cs : List Char) : Prop :=
  match high with
  | none => Letters text cs
  | some high => ∀ first, CodeUnit first high → Letters (first ++ text) cs

lemma high_of_joinUnit {high next : Option Nat} {unit u : Nat} {lone : Bool} {more : List Char}
    (hjoin : joinUnit high unit = (lone, next, more)) (hu : next = some u) : High u := by
  subst hu
  by_cases hlow : Low unit
  · cases high with
    | some h => cases (joinUnit_low hlow).symm.trans hjoin
    | none => cases (if_pos hlow).symm.trans hjoin
  · cases high with
    | some h => cases (if_neg hlow).symm.trans hjoin
    | none =>
      by_cases hhigh : High unit
      · cases (joinUnit_high hhigh).symm.trans hjoin
        exact hhigh
      · cases (joinUnit_whole hhigh hlow).symm.trans hjoin

lemma Continues.unit {high next : Option Nat} {unit : Nat} {more : List Char} (hhigh : ∀ u, high = some u → High u)
    (hunit : CodeUnit text unit) (hjoin : joinUnit high unit = (false, next, more))
    (hrest : Continues next rest cs) : Continues high (text ++ rest) (more.reverse ++ cs) := by
  by_cases hlow : Low unit
  · cases high with
    | some u =>
      cases (joinUnit_low hlow).symm.trans hjoin
      intro first hfirst
      rw [← List.append_assoc]
      exact .cons (.pair hfirst (hhigh u rfl) hunit hlow) hrest
    | none => cases (if_pos hlow).symm.trans hjoin
  · cases high with
    | some u => cases (if_neg hlow).symm.trans hjoin
    | none =>
      by_cases hfirst : High unit
      · cases (joinUnit_high hfirst).symm.trans hjoin
        exact hrest text hunit
      · cases (joinUnit_whole hfirst hlow).symm.trans hjoin
        exact .cons (.unit hunit hfirst hlow) hrest

lemma continues_of_scanString {halved : Bool} {high : Option Nat} (hhigh : ∀ u, high = some u → High u)
    (h : scanString halved high done text = .whole (some s) rest) :
    halved = false ∧ ∃ body cs, text = body ++ '"' :: rest ∧ Continues high body cs ∧
      s = String.ofList (done.reverse ++ cs) := by
  -- a letter comes behind no half character
  have hletter : ∀ {halved : Bool} {high : Option Nat} {done left piece : List Char} {c : Char}, Letter piece c →
      ((halved || high.isSome) = false ∧ ∃ body cs, left = body ++ '"' :: rest ∧ Continues none body cs ∧
        s = String.ofList ((c :: done).reverse ++ cs)) →
      halved = false ∧ ∃ body cs, piece ++ left = body ++ '"' :: rest ∧ Continues high body cs ∧
        s = String.ofList (done.reverse ++ cs) := by
    rintro halved high done left piece c hpiece ⟨hnone, body, cs, rfl, hbody, rfl⟩
    obtain ⟨rfl, hnone⟩ := Bool.or_eq_false_iff.mp hnone
    obtain rfl : high = none := by simpa using hnone
    refine ⟨rfl, piece ++ body, c :: cs, (List.append_assoc _ _ _).symm, .cons hpiece hbody, ?_⟩
    rw [List.reverse_cons, List.append_assoc, List.singleton_append]
  fun_induction scanString halved high done text with
  | case2 halved high done left value =>
    cases hvalue : value with
    | none =>
      rw [hvalue] at h
      cases h
    | some s' =>
      rw [hvalue] at h
      cases h
      simp only [value] at hvalue
      split at hvalue
      · cases hvalue
      · next hwhole =>
        cases hvalue
        obtain ⟨rfl, hnone⟩ := Bool.or_eq_false_iff.mp (Bool.of_not_eq_true hwhole)
        obtain rfl : high = none := by simpa using hnone
        exact ⟨rfl, [], [], rfl, .nil, congrArg String.ofList (List.append_nil _).symm⟩
  | case5 halved high done a b c d left unit hunit lone next more hjoin ih =>
    obtain ⟨hwhole, body, cs, rfl, hbody, rfl⟩ := ih (fun _ => high_of_joinUnit hjoin) h
    obtain ⟨rfl, rfl⟩ := Bool.or_eq_false_iff.mp hwhole
    refine ⟨rfl, _, _, rfl, .unit hhigh (.mk hunit) hjoin hbody, ?_⟩
    rw [List.reverse_append, List.append_assoc]
  | case9 halved high done e left _ _ c hescape ih => exact hletter (.escape hescape) (ih nofun h)
  | case11 halved high done c left hquote hlone _ _ hslash hplain ih =>
    have hslash : c ≠ '\\' := by
      rintro rfl
      cases left with
      | nil => exact hlone rfl rfl
      | cons e left => exact hslash e left rfl rfl
    exact hletter (.plain hplain hquote hslash) (ih nofun h)
  | _ => cases h

lemma scanString_quoted (h : Quoted text s) : ∃ body, text = '"' :: body ∧
    ∀ rest, scanString false none [] (body ++ rest) = .whole (some s) rest := by
  obtain @⟨letters, cs, hletters⟩ := h
  refine ⟨letters ++ ['"'], rfl, fun rest => ?_⟩
  rw [List.append_assoc]
  exact scanString_letters hletters rest

lemma quoted_of_scanString (h : scanString false none [] text = .whole (some s) rest) :
    ∃ body, text = body ++ rest ∧ Quoted ('"' :: body) s := by
  have hnone : ∀ u, (none : Option Nat) = some u → High u := nofun
  obtain ⟨_, letters, cs, rfl, hletters, rfl⟩ := continues_of_scanString hnone h
  exact ⟨letters ++ ['"'], List.append_cons _ _ _, .mk hletters⟩

def IsBroken (d : Draft) : Prop := ∃ wanted skipped variant, d = .broken wanted skipped variant

lemma scanString_broken {halved : Bool} {high : Option Nat} {d : Draft}
    (h : scanString halved high done text = .broken d) : d.IsBroken := by
  fun_induction scanString halved high done text <;> grind [IsBroken, unclosedString, brokenBy]

/-! ### Strings as they are printed -/

lemma hexNumber?_control : ∀ n < 32,
    hexNumber? ['0', '0', Nat.digitChar (n / 16), Nat.digitChar (n % 16)] = some n ∧ ¬ High n ∧ ¬ Low n := by
  simp only [High, Low]
  decide

lemma letter_control {c : Char} (h : c < ' ') : Letter ("\\u00" ++ Json.hexPair c.toNat).toList c := by
  obtain ⟨hhex, hhigh, hlow⟩ := hexNumber?_control c.toNat h
  have hletter : Letter _ (Char.ofNat c.toNat) := .unit (.mk hhex) hhigh hlow
  rw [Char.ofNat_toNat] at hletter
  simpa [Json.hexPair] using hletter

lemma letter_escapedChar (c : Char) : Letter (Json.escapedChar c).toList c := by
  unfold Json.escapedChar
  split
  · exact .escape rfl
  · exact .escape rfl
  · exact .escape rfl
  · exact .escape rfl
  · exact .escape rfl
  · exact .escape rfl
  · exact .escape rfl
  · next hquote hslash _ _ _ _ _ =>
    split
    · next hc => exact letter_control hc
    · next hc => simpa using Letter.plain hc hquote hslash

lemma letters_escaped (cs : List Char) : Letters (cs.flatMap fun c => (Json.escapedChar c).toList) cs := by
  induction cs with
  | nil => exact .nil
  | cons c cs ih => exact .cons (letter_escapedChar c) ih

lemma quoted_stringText (s : String) : Quoted (Json.stringText s).toList s := by
  have hquoted := Quoted.mk (letters_escaped s.toList)
  rw [String.ofList_toList] at hquoted
  simpa [Json.stringText, List.flatMap_map] using hquoted

/-! ### Numbers -/

/-- What follows does not go on with a number. -/
def Stops (rest : List Char) : Prop :=
  ∀ c ∈ rest.head?, c.isDigit = false ∧ c ≠ '.' ∧ c ≠ 'e' ∧ c ≠ 'E'

instance (rest : List Char) : Decidable (Stops rest) := Option.decidableForallMem rest.head?

lemma stops_nil : Stops [] := by simp [Stops]

lemma stops_cons {c : Char} (hd : c.isDigit = false) (hp : c ≠ '.') (he : c ≠ 'e') (hE : c ≠ 'E') :
    Stops (c :: rest) := by
  simp [Stops, hd, hp, he, hE]

lemma stops_of_isGap {c : Char} (h : isGap c = true) : Stops (c :: rest) := by
  simp only [isGap, Bool.or_eq_true, beq_iff_eq] at h
  rcases h with ((rfl | rfl) | rfl) | rfl <;>
    exact stops_cons (by decide) (by decide) (by decide) (by decide)

lemma stops_append (h : IsBlank gap) (hr : Stops rest) : Stops (gap ++ rest) := by
  cases gap with
  | nil => exact hr
  | cons c gap => exact stops_of_isGap (h c List.mem_cons_self)

variable {digits : List Nat} {fraction : Option (List Nat)} {exponent : Option (Bool × List Nat)}

lemma takeDigits_append (h : ∀ c ∈ text, c.isDigit = true) (hr : ∀ c ∈ rest.head?, c.isDigit = false) :
    takeDigits (text ++ rest) = (text.map (·.toNat - '0'.toNat), rest) := by
  induction text with
  | nil =>
    cases rest with
    | nil => rfl
    | cons c rest => simp [takeDigits, hr c rfl]
  | cons c text ih =>
    obtain ⟨hc, htext⟩ := List.forall_mem_cons.mp h
    simp only [List.cons_append, takeDigits, hc, if_true, ih htext, List.map_cons]

lemma takeDigits_split (text : List Char) : ∃ body, text = body ++ (takeDigits text).2 ∧
    (∀ c ∈ body, c.isDigit = true) ∧ (takeDigits text).1 = body.map (·.toNat - '0'.toNat) := by
  induction text with
  | nil => exact ⟨[], rfl, List.forall_mem_nil _, rfl⟩
  | cons c text ih =>
    obtain ⟨body, htext, hbody, hdigits⟩ := ih
    rw [takeDigits]
    split
    · next hc =>
      exact ⟨c :: body, congrArg (c :: ·) htext, List.forall_mem_cons.mpr ⟨hc, hbody⟩,
        congrArg ((c.toNat - '0'.toNat) :: ·) hdigits⟩
    · exact ⟨[], rfl, List.forall_mem_nil _, rfl⟩

lemma takeDigits_digits (h : Digits text digits) (hr : ∀ c ∈ rest.head?, c.isDigit = false) :
    takeDigits (text ++ rest) = (digits, rest) ∧ digits ≠ [] := by
  obtain ⟨hne, hdigits⟩ := h
  exact ⟨takeDigits_append hdigits hr, List.map_eq_nil_iff.not.mpr hne⟩

lemma digits_of_takeDigits (h : takeDigits text = (digits, after)) (hne : digits ≠ []) :
    ∃ body, text = body ++ after ∧ Digits body digits := by
  obtain ⟨body, htext, hbody, hdigits⟩ := takeDigits_split text
  rw [h] at htext hdigits
  obtain rfl : digits = _ := hdigits
  exact ⟨body, htext, .mk (List.map_eq_nil_iff.not.mp hne) hbody⟩

lemma takeFraction_fraction (h : Fraction text fraction)
    (hr : ∀ c ∈ rest.head?, c.isDigit = false ∧ c ≠ '.') :
    takeFraction (text ++ rest) = .ok (fraction, rest) := by
  cases h with
  | none =>
    cases rest with
    | nil => rfl
    | cons c rest =>
      rw [List.nil_append, takeFraction]
      rintro _ heq
      cases heq
      exact (hr _ rfl).2 rfl
  | some hdigits =>
    obtain ⟨htake, hne⟩ := takeDigits_digits hdigits fun c hc => (hr c hc).1
    simp only [List.cons_append, takeFraction, htake, List.isEmpty_iff, hne, if_false]

lemma fraction_of_takeFraction (h : takeFraction text = .ok (fraction, after)) :
    ∃ body, text = body ++ after ∧ Fraction body fraction := by
  unfold takeFraction at h
  split at h
  · dsimp only at h
    split at h
    · cases h
    · next hne =>
      cases h
      obtain ⟨body, htext, hbody⟩ := digits_of_takeDigits rfl (mt List.isEmpty_iff.mpr hne)
      exact ⟨'.' :: body, congrArg ('.' :: ·) htext, .some hbody⟩
  · cases h
    exact ⟨[], rfl, .none⟩

lemma takeSigned_digits (h : Digits text digits) (hr : ∀ c ∈ rest.head?, c.isDigit = false) (below : Bool) :
    takeSigned below (text ++ rest) = .ok (some (below, digits), rest) := by
  obtain ⟨htake, hne⟩ := takeDigits_digits h hr
  simp only [takeSigned, htake, List.isEmpty_iff, hne, if_false]

lemma digits_of_takeSigned {below : Bool} (h : takeSigned below text = .ok (exponent, after)) :
    ∃ body digits, text = body ++ after ∧ Digits body digits ∧ exponent = some (below, digits) := by
  simp only [takeSigned] at h
  split at h
  · cases h
  · next hne =>
    cases h
    obtain ⟨body, htext, hbody⟩ := digits_of_takeDigits rfl (mt List.isEmpty_iff.mpr hne)
    exact ⟨body, _, htext, hbody, rfl⟩

lemma takeExponent_exponent (h : Exponent text exponent) (hr : Stops rest) :
    takeExponent (text ++ rest) = .ok (exponent, rest) := by
  cases h with
  | none =>
    cases rest with
    | nil => rfl
    | cons c rest =>
      obtain ⟨_, _, he, hE⟩ := hr c rfl
      simp [takeExponent, he, hE]
  | @some mark sign digits below _ hmark hsign hdigits =>
    have hread := takeSigned_digits hdigits (fun c hc => (hr c hc).1) below
    simp only [List.cons_append, List.append_assoc, takeExponent, if_pos hmark]
    cases hsign with
    | plus => exact hread
    | minus => exact hread
    | none =>
      obtain ⟨hne, hdigit⟩ := hdigits
      obtain ⟨d, digits, rfl⟩ := List.exists_cons_of_ne_nil hne
      have hd := hdigit d List.mem_cons_self
      simp only [List.nil_append, List.cons_append] at hread ⊢
      split
      · next heq =>
        cases heq
        cases hd
      · next heq =>
        cases heq
        cases hd
      · exact hread

lemma exponent_of_takeExponent (h : takeExponent text = .ok (exponent, after)) :
    ∃ body, text = body ++ after ∧ Exponent body exponent := by
  cases text with
  | nil =>
    cases h
    exact ⟨[], rfl, .none⟩
  | cons c text =>
    simp only [takeExponent] at h
    split at h
    · next hmark =>
      split at h
      · obtain ⟨body, digits, rfl, hbody, rfl⟩ := digits_of_takeSigned h
        exact ⟨c :: '+' :: body, rfl, .some hmark .plus hbody⟩
      · obtain ⟨body, digits, rfl, hbody, rfl⟩ := digits_of_takeSigned h
        exact ⟨c :: '-' :: body, rfl, .some hmark .minus hbody⟩
      · obtain ⟨body, digits, rfl, hbody, rfl⟩ := digits_of_takeSigned h
        exact ⟨c :: body, rfl, .some hmark .none hbody⟩
    · cases h
      exact ⟨[], rfl, .none⟩

lemma head_exponent (h : Exponent text exponent) (hr : Stops rest) :
    ∀ c ∈ (text ++ rest).head?, c.isDigit = false ∧ c ≠ '.' := by
  cases h with
  | none => exact fun c hc => ⟨(hr c hc).1, (hr c hc).2.1⟩
  | some hmark _ _ =>
    rintro _ ⟨⟩
    rcases hmark with rfl | rfl <;> decide

lemma head_fraction (h : Fraction text fraction) (hr : ∀ c ∈ rest.head?, c.isDigit = false) :
    ∀ c ∈ (text ++ rest).head?, c.isDigit = false := by
  cases h with
  | none => exact hr
  | some _ =>
    rintro _ ⟨⟩
    decide

lemma takeNumeral_eq_ok {negative : Bool} {numeral : Number.Numeral} :
    takeNumeral negative text = .ok (numeral, after) ↔
      ∃ whole fraction exponent middle last, takeDigits text = (whole, middle) ∧ whole ≠ [] ∧
        ¬ (whole.head? = some 0 ∧ 1 < whole.length) ∧ takeFraction middle = .ok (fraction, last) ∧
        takeExponent last = .ok (exponent, after) ∧ numeral = ⟨negative, whole, fraction, exponent⟩ := by
  simp only [takeNumeral]
  obtain ⟨whole, middle⟩ := takeDigits text
  by_cases hne : whole = []
  · subst hne
    simp [bind, Except.bind, throw, throwThe, MonadExceptOf.throw]
  by_cases hzero : whole.head? = some 0 ∧ 1 < whole.length
  · simp only [hzero, List.isEmpty_iff, hne, if_false, bind, Except.bind, throw, throwThe,
      MonadExceptOf.throw]
    grind
  simp only [hzero, List.isEmpty_iff, hne, if_false, bind, Except.bind, pure, Except.pure]
  cases hf : takeFraction middle with
  | error draft => grind
  | ok x =>
    cases he : takeExponent x.2 <;> grind

lemma takeNumeral_numeral {negative : Bool} {numeral : Number.Numeral} (h : Numeral negative text numeral)
    (hr : Stops rest) : takeNumeral negative (text ++ rest) = .ok (numeral, rest) := by
  obtain ⟨hwhole, hzero, hfraction, hexponent⟩ := h
  have hlast := head_exponent hexponent hr
  obtain ⟨hdigits, hne⟩ := takeDigits_digits hwhole (head_fraction hfraction fun c hc => (hlast c hc).1)
  rw [List.append_assoc, List.append_assoc]
  exact takeNumeral_eq_ok.mpr ⟨_, _, _, _, _, hdigits, hne, hzero, takeFraction_fraction hfraction hlast,
    takeExponent_exponent hexponent hr, rfl⟩

lemma numeral_of_takeNumeral {negative : Bool} {numeral : Number.Numeral}
    (h : takeNumeral negative text = .ok (numeral, after)) :
    ∃ body, text = body ++ after ∧ Numeral negative body numeral := by
  obtain ⟨whole, fraction, exponent, middle, last, hw, hne, hzero, hf, he, rfl⟩ := takeNumeral_eq_ok.mp h
  obtain ⟨first, rfl, hfirst⟩ := digits_of_takeDigits hw hne
  obtain ⟨second, rfl, hsecond⟩ := fraction_of_takeFraction hf
  obtain ⟨third, rfl, hthird⟩ := exponent_of_takeExponent he
  exact ⟨first ++ (second ++ third), by simp only [List.append_assoc], .mk hfirst hzero hsecond hthird⟩

lemma readNumber_numeral {negative : Bool} {numeral : Number.Numeral} (h : Numeral negative text numeral)
    (hr : Stops rest) : readNumber negative (text ++ rest) = (.number (Number.ofNumeral numeral), some rest) := by
  rw [readNumber, takeNumeral_numeral h hr]

/-! ### Numbers that cannot be read -/

lemma takeFraction_error {d : Draft} (h : takeFraction text = .error d) : d.IsBroken := by
  unfold takeFraction at h
  split at h
  · simp only at h
    split at h
    · cases h
      exact ⟨_, _, _, rfl⟩
    · cases h
  · cases h

lemma takeSigned_error {below : Bool} {d : Draft} (h : takeSigned below text = .error d) :
    d.IsBroken := by
  simp only [takeSigned] at h
  split at h
  · cases h
    exact ⟨_, _, _, rfl⟩
  · cases h

lemma takeExponent_error {d : Draft} (h : takeExponent text = .error d) : d.IsBroken := by
  cases text with
  | nil => cases h
  | cons c text =>
    simp only [takeExponent] at h
    split at h
    · split at h <;> exact takeSigned_error h
    · cases h

lemma takeNumeral_error {negative : Bool} {d : Draft} (h : takeNumeral negative text = .error d) :
    d.IsBroken := by
  simp only [takeNumeral] at h
  generalize takeDigits text = x at h
  obtain ⟨whole, middle⟩ := x
  simp only [bind, Except.bind, throw, throwThe, MonadExceptOf.throw, pure, Except.pure] at h
  split at h
  · cases h
    exact ⟨_, _, _, rfl⟩
  · split at h
    · cases h
      exact ⟨_, _, _, rfl⟩
    · cases hf : takeFraction middle with
      | error d' =>
        simp only [hf] at h
        cases h
        exact takeFraction_error hf
      | ok x =>
        simp only [hf] at h
        cases he : takeExponent x.2 with
        | error d' =>
          simp only [he] at h
          cases h
          exact takeExponent_error he
        | ok y => simp [he] at h

lemma readNumber_eq {negative : Bool} {d : Draft} {left : Option (List Char)}
    (h : readNumber negative text = (d, left)) :
    d.IsBroken ∨ ∃ numeral body after, d = .number (Number.ofNumeral numeral) ∧ left = some after ∧
      text = body ++ after ∧ Numeral negative body numeral := by
  rw [readNumber] at h
  split at h
  · next htake =>
    cases h
    exact Or.inl (takeNumeral_error htake)
  · next htake =>
    cases h
    obtain ⟨body, htext, hbody⟩ := numeral_of_takeNumeral htake
    exact Or.inr ⟨_, body, _, rfl, rfl, htext, hbody⟩

/-! ### Integers as they are printed -/

lemma ofDigits_toDigits (n : Nat) :
    Number.ofDigits ((Nat.toDigits 10 n).map (·.toNat - '0'.toNat)) = n := by
  conv_rhs => rw [← Nat.ofDigitChars_ten_toDigits (n := n)]
  rw [Number.ofDigits, Nat.ofDigitChars_eq_foldl, List.foldl_map]
  congr 1
  funext m c
  rw [Nat.mul_comm]

lemma head?_toDigits {n : Nat} (h : 0 < n) : (Nat.toDigits 10 n).head? ≠ some '0' := by
  induction n using Nat.strongRecOn with
  | ind n ih =>
    by_cases hn : n < 10
    · rw [Nat.toDigits_of_lt_base hn]
      simp
      omega
    · rw [Nat.toDigits_of_base_le (by decide) (by omega), List.head?_append]
      have hne := ih (n / 10) (by omega) (by omega)
      cases hd : (Nat.toDigits 10 (n / 10)).head? with
      | none => simp [List.head?_eq_none_iff] at hd
      | some c => simpa [hd] using hne

lemma not_zero_toDigits (n : Nat) : ¬ (((Nat.toDigits 10 n).map (·.toNat - '0'.toNat)).head? = some 0 ∧
    1 < ((Nat.toDigits 10 n).map (·.toNat - '0'.toNat)).length) := by
  rintro ⟨hzero, hlength⟩
  rcases Nat.eq_zero_or_pos n with rfl | hn
  · simp at hlength
  · apply head?_toDigits hn
    rw [List.head?_map, Option.map_eq_some_iff] at hzero
    obtain ⟨c, hc, hsub⟩ := hzero
    have hd := Nat.isDigit_of_mem_toDigits (by decide) (by decide) (List.mem_of_mem_head? hc)
    rw [Char.isDigit_iff_toNat] at hd
    have hval : c.toNat = '0'.toNat := by
      simp at hsub hd ⊢
      omega
    rw [hc, Char.toNat_inj.mp hval]

lemma numeral_toDigits (negative : Bool) (n : Nat) : Numeral negative (Nat.toDigits 10 n)
    ⟨negative, (Nat.toDigits 10 n).map (·.toNat - '0'.toNat), none, none⟩ := by
  have hdigits : ∀ c ∈ Nat.toDigits 10 n, c.isDigit = true :=
    fun c hc => Nat.isDigit_of_mem_toDigits (by decide) (by decide) hc
  have hnumeral : Numeral negative (Nat.toDigits 10 n ++ ([] ++ [])) _ :=
    .mk (.mk Nat.toDigits_ne_nil hdigits) (not_zero_toDigits n) .none .none
  rwa [List.append_nil, List.append_nil] at hnumeral

lemma ofNumeral_whole {n : Nat} (h : (n : Int) ≤ Number.greatestInteger) :
    Number.ofNumeral ⟨false, (Nat.toDigits 10 n).map (·.toNat - '0'.toNat), none, none⟩ = some (.integer n) := by
  have hlt : n < twoPower 64 := by
    simp only [Number.greatestInteger] at h
    omega
  simp only [Number.ofNumeral, ofDigits_toDigits, Bool.false_eq_true, if_false, if_pos hlt]

lemma ofNumeral_negative {n : Nat} (h0 : n ≠ 0) (h : Number.leastInteger ≤ -(n : Int)) :
    Number.ofNumeral ⟨true, (Nat.toDigits 10 n).map (·.toNat - '0'.toNat), none, none⟩ = some (.integer (-n)) := by
  have hle : n ≤ twoPower 63 := by
    simp only [Number.leastInteger] at h
    omega
  simp only [Number.ofNumeral, ofDigits_toDigits, if_true, ne_eq, h0, not_false_eq_true, hle, and_self]

lemma scalar_integer {n : Int} (hlow : Number.leastInteger ≤ n) (hhigh : n ≤ Number.greatestInteger) :
    Scalar (toString n).toList (.number (.integer n)) := by
  rw [Int.toString_eq_repr, Int.repr_eq_if]
  split
  · next h0 =>
    obtain ⟨k, rfl⟩ := Int.eq_ofNat_of_zero_le h0
    rw [Nat.toList_repr, Int.toNat_natCast]
    exact .positive (numeral_toDigits false k) (ofNumeral_whole hhigh)
  · next h0 =>
    obtain ⟨k, rfl⟩ : ∃ k : Nat, n = -k := ⟨(-n).toNat, by omega⟩
    have htext : ("-" ++ (- -(k : Int)).toNat.repr).toList = '-' :: Nat.toDigits 10 k := by
      simp
    rw [htext]
    exact .negative (numeral_toDigits true k) (ofNumeral_negative (by omega) hlow)

end Draft
end Delivery
