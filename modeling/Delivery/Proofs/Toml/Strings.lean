import Delivery.Toml.Writer
import Mathlib.Data.List.Basic
import Mathlib.Tactic.Common
import Mathlib.Tactic.Lemma

/-! Strings of a TOML document. In whichever form a string is written, it is read as it was. -/

namespace Delivery.Toml.Text

variable {c d : Char} {text done rest : List Char} {lines : Bool} {q : ℕ}

/-! ### Characters -/

lemma isPlain_of_not_isControl (h : isControl c = false) (hend : c ≠ '\n') : isPlain c = true := by
  simp only [isControl, isPlain, Bool.or_eq_false_iff, Bool.and_eq_false_iff, decide_eq_false_iff_not, Char.not_lt,
    Bool.or_eq_true, Bool.and_eq_true, decide_eq_true_eq, bne_eq_false_iff_eq, beq_iff_eq, bne_iff_ne,
    beq_eq_false_iff_ne] at h ⊢
  obtain ⟨(hle | rfl) | hend', hdelete⟩ := h
  · exact .inr ⟨hle, hdelete⟩
  · exact .inl rfl
  · exact absurd hend' hend

lemma toNat_of_isControl (h : isControl c = true) : c.toNat < 128 := by
  simp only [isControl, Bool.or_eq_true, Bool.and_eq_true, decide_eq_true_eq, beq_iff_eq] at h
  obtain ⟨⟨hlt, _⟩, _⟩ | rfl := h
  · exact Nat.lt_trans (Char.lt_def.mp hlt) (by decide)
  · decide

lemma charOfHex_code (h : isControl c = true) : charOfHex [hexDigit (c.toNat / 4096 % 16),
    hexDigit (c.toNat / 256 % 16), hexDigit (c.toNat / 16 % 16), hexDigit (c.toNat % 16)] = some c := by
  have hcode : ∀ n < 128, charOfHex [hexDigit (n / 4096 % 16), hexDigit (n / 256 % 16), hexDigit (n / 16 % 16),
      hexDigit (n % 16)] = some (Char.ofNat n) := by
    decide +kernel
  rw [hcode _ (toNat_of_isControl h), Char.ofNat_toNat]

lemma escape_cons (hquote : c ≠ '"') : escape lines q (c :: text) = escapedChar lines c ++ escape lines 0 text := by
  rw [escape]
  exact hquote

/-! ### Strings on one line -/

lemma takeBasic_plain (hplain : isPlain c = true) (hquote : c ≠ '"') (hslash : c ≠ '\\') :
    takeBasic done (c :: rest) = takeBasic (c :: done) rest := by
  rw [takeBasic.eq_def]
  split <;> simp_all

lemma takeBasic_escapedChar (hquote : c ≠ '"') :
    takeBasic done (escapedChar false c ++ rest) = takeBasic (c :: done) rest := by
  rw [escapedChar.eq_def]
  split
  case h_7 hback htab hend hfeed hreturn hslash =>
    split
    · next hcontrol =>
      simp only [codeEscape, List.cons_append, List.nil_append, takeBasic, charOfHex_code hcontrol]
      rfl
    · next hcontrol =>
      exact takeBasic_plain (isPlain_of_not_isControl (by simpa using hcontrol) hend) hquote hslash
  all_goals rfl

lemma takeBasic_escape : takeBasic done (escape false q text ++ '"' :: rest) = finish (text.reverse ++ done) rest := by
  induction text generalizing done q with
  | nil => rfl
  | cons c text ih =>
    rw [List.reverse_cons, List.append_assoc, List.singleton_append, ← ih (q := 0)]
    by_cases hquote : c = '"'
    · subst hquote
      rw [escape, if_neg Bool.false_ne_true, if_pos (Nat.succ_pos q)]
      rfl
    · rw [escape_cons hquote, List.append_assoc, takeBasic_escapedChar hquote]

lemma takeLiteral_plain (h : ∀ c ∈ text, isPlain c = true ∧ c ≠ '\'') :
    takeLiteral done (text ++ '\'' :: rest) = finish (text.reverse ++ done) rest := by
  induction text generalizing done with
  | nil => rfl
  | cons c text ih =>
    obtain ⟨⟨hplain, hmark⟩, htext⟩ := List.forall_mem_cons.mp h
    rw [List.cons_append, takeLiteral, if_pos hplain, ih htext]
    · simp
    · exact hmark

/-! ### Blocks -/

lemma takeBasicBlock_plain (hplain : isPlain c = true) (hquote : c ≠ '"') (hslash : c ≠ '\\') :
    takeBasicBlock .closed done (c :: rest) = takeBasicBlock .closed (c :: done) rest := by
  have hreturn : c ≠ '\r' := by
    rintro rfl
    cases hplain
  rw [takeBasicBlock.eq_def]
  split <;> simp_all

lemma takeBasicBlock_escapedChar (hquote : c ≠ '"') :
    takeBasicBlock .closed done (escapedChar true c ++ rest) = takeBasicBlock .closed (c :: done) rest := by
  rw [escapedChar.eq_def]
  split
  case h_7 hback htab hend hfeed hreturn hslash =>
    split
    · next hcontrol =>
      simp only [codeEscape, List.cons_append, List.nil_append, takeBasicBlock, charOfHex_code hcontrol]
      rfl
    · next hcontrol =>
      exact takeBasicBlock_plain (isPlain_of_not_isControl (by simpa using hcontrol) hend) hquote hslash
  all_goals rfl

lemma takeBasicBlock_quotes (hq : q ≤ 2) (hd : d ≠ '"') :
    takeBasicBlock .closed done (List.replicate q '"' ++ d :: rest) =
      takeBasicBlock .closed (List.replicate q '"' ++ done) (d :: rest) := by
  have hplain : isPlain '"' = true := rfl
  have hone {done : List Char} : takeBasicBlock .closed done ('"' :: d :: rest) =
      takeBasicBlock .closed ('"' :: done) (d :: rest) := by
    rw [takeBasicBlock] <;> simp [hd, hplain]
  have htwo : takeBasicBlock .closed done ('"' :: '"' :: d :: rest) =
      takeBasicBlock .closed ('"' :: done) ('"' :: d :: rest) := by
    rw [takeBasicBlock] <;> simp [hd, hplain]
  match q with
  | 0 => rfl
  | 1 => exact hone
  | 2 => exact htwo.trans hone

lemma takeBasicBlock_close (hq : q ≤ 2) (hd : d ≠ '"') :
    takeBasicBlock .closed done (List.replicate q '"' ++ '"' :: '"' :: '"' :: d :: rest) =
      finish (List.replicate q '"' ++ done) (d :: rest) := by
  have hthree : takeBasicBlock .closed done ('"' :: '"' :: '"' :: d :: rest) = finish done (d :: rest) := by
    rw [takeBasicBlock] <;> simp [hd]
  have hfour : takeBasicBlock .closed done ('"' :: '"' :: '"' :: '"' :: d :: rest) =
      finish ('"' :: done) (d :: rest) := by
    rw [takeBasicBlock] <;> simp [hd]
  match q with
  | 0 => exact hthree
  | 1 => exact hfour
  | 2 => rfl

lemma exists_escapedChar (lines : Bool) (hquote : c ≠ '"') : ∃ d tail, escapedChar lines c = d :: tail ∧ d ≠ '"' ∧
    (c ≠ '\n' → d ≠ '\n') ∧ d ≠ '\r' := by
  have hslash : '\\' ≠ '"' ∧ (c ≠ '\n' → '\\' ≠ '\n') ∧ '\\' ≠ '\r' := ⟨by decide, fun _ => by decide, by decide⟩
  rw [escapedChar.eq_def]
  split
  case h_3 => 
    split
    · exact ⟨_, _, rfl, by decide⟩
    · exact ⟨_, _, rfl, hslash⟩
  case h_7 =>
    split
    · exact ⟨_, _, rfl, hslash⟩
    · exact ⟨_, _, rfl, hquote, id, by assumption⟩
  all_goals exact ⟨_, _, rfl, hslash⟩

/-- The quotes just before stand as they are, and there are at most two of them. -/
lemma takeBasicBlock_escape (hq : q ≤ 2) (hd : d ≠ '"') :
    takeBasicBlock .closed done (List.replicate q '"' ++ (escape true q text ++ '"' :: '"' :: '"' :: d :: rest)) =
      finish (text.reverse ++ (List.replicate q '"' ++ done)) (d :: rest) := by
  induction text generalizing done q with
  | nil => exact takeBasicBlock_close hq hd
  | cons c text ih =>
    have hnext {done : List Char} : takeBasicBlock .closed done (escape true 0 text ++ '"' :: '"' :: '"' :: d :: rest) =
        finish (text.reverse ++ done) (d :: rest) := ih (Nat.zero_le 2)
    rw [List.reverse_cons, List.append_assoc, List.singleton_append]
    by_cases hquote : c = '"'
    · subst hquote
      rw [escape, if_pos rfl]
      split
      · -- the third quote is escaped, and a new run begins
        rw [← hnext]
        exact takeBasicBlock_quotes hq (by decide)
      · next hroom =>
        rw [List.cons_append, List.append_cons, ← List.replicate_succ', ih (by omega)]
        rfl
    · obtain ⟨d', tail, hc, hd', _⟩ := exists_escapedChar true hquote
      rw [escape_cons hquote, List.append_assoc, ← hnext, ← takeBasicBlock_escapedChar hquote, hc, List.cons_append,
        takeBasicBlock_quotes hq hd']

/-! ### Literal blocks -/

lemma takeLiteralBlock_plain (hplain : isPlain c = true ∨ c = '\n') (hmark : c ≠ '\'') :
    takeLiteralBlock done (c :: rest) = takeLiteralBlock (c :: done) rest := by
  have hreturn : c ≠ '\r' := by
    rintro rfl
    revert hplain
    decide
  rw [takeLiteralBlock.eq_def]
  split <;> simp_all

lemma takeLiteralBlock_marks (hq : q ≤ 2) (hd : d ≠ '\'') :
    takeLiteralBlock done (List.replicate q '\'' ++ d :: rest) =
      takeLiteralBlock (List.replicate q '\'' ++ done) (d :: rest) := by
  have hplain : isPlain '\'' = true := rfl
  have hone {done : List Char} : takeLiteralBlock done ('\'' :: d :: rest) =
      takeLiteralBlock ('\'' :: done) (d :: rest) := by
    rw [takeLiteralBlock] <;> simp [hd, hplain]
  have htwo : takeLiteralBlock done ('\'' :: '\'' :: d :: rest) =
      takeLiteralBlock ('\'' :: done) ('\'' :: d :: rest) := by
    rw [takeLiteralBlock] <;> simp [hd, hplain]
  match q with
  | 0 => rfl
  | 1 => exact hone
  | 2 => exact htwo.trans hone

lemma takeLiteralBlock_close (hq : q ≤ 2) (hd : d ≠ '\'') :
    takeLiteralBlock done (List.replicate q '\'' ++ '\'' :: '\'' :: '\'' :: d :: rest) =
      finish (List.replicate q '\'' ++ done) (d :: rest) := by
  have hthree : takeLiteralBlock done ('\'' :: '\'' :: '\'' :: d :: rest) = finish done (d :: rest) := by
    rw [takeLiteralBlock] <;> simp [hd]
  have hfour : takeLiteralBlock done ('\'' :: '\'' :: '\'' :: '\'' :: d :: rest) =
      finish ('\'' :: done) (d :: rest) := by
    rw [takeLiteralBlock]
    simp [hd]
  match q with
  | 0 => exact hthree
  | 1 => exact hfour
  | 2 => rfl

lemma le_longestRun : q ≤ longestRun c q text := by
  induction text generalizing q with
  | nil => exact Nat.le_refl q
  | cons d text ih =>
    rw [longestRun]
    split
    · exact Nat.le_trans (Nat.le_succ q) ih
    · exact Nat.le_max_left _ _

/-- No run of marks is longer than two, the marks just before included. -/
lemma takeLiteralBlock_text (hmarks : longestRun '\'' q text ≤ 2) (hplain : ∀ c ∈ text, isPlain c = true ∨ c = '\n')
    (hd : d ≠ '\'') :
    takeLiteralBlock done (List.replicate q '\'' ++ (text ++ '\'' :: '\'' :: '\'' :: d :: rest)) =
      finish (text.reverse ++ (List.replicate q '\'' ++ done)) (d :: rest) := by
  have hq : q ≤ 2 := Nat.le_trans le_longestRun hmarks
  induction text generalizing done q with
  | nil => exact takeLiteralBlock_close hq hd
  | cons c text ih =>
    obtain ⟨hc, htext⟩ := List.forall_mem_cons.mp hplain
    rw [List.reverse_cons, List.append_assoc, List.singleton_append]
    rw [longestRun] at hmarks
    by_cases hmark : c = '\''
    · subst hmark
      rw [if_pos rfl] at hmarks
      rw [List.cons_append, List.append_cons, ← List.replicate_succ',
        ih hmarks htext (Nat.le_trans le_longestRun hmarks)]
      rfl
    · rw [if_neg hmark] at hmarks
      have hnext {done : List Char} : takeLiteralBlock done (text ++ '\'' :: '\'' :: '\'' :: d :: rest) =
          finish (text.reverse ++ done) (d :: rest) :=
        ih (Nat.le_trans (Nat.le_max_right _ _) hmarks) htext (Nat.zero_le 2)
      rw [← hnext, List.cons_append, takeLiteralBlock_marks hq hmark, takeLiteralBlock_plain hc hmark]

/-! ### Forms -/

lemma longestRun_pos (h : c ∈ text) : 0 < longestRun c q text := by
  induction text generalizing q with
  | nil => cases h
  | cons d text ih =>
    rw [longestRun]
    split
    · exact Nat.lt_of_lt_of_le (Nat.succ_pos q) le_longestRun
    · next hne =>
      obtain rfl | hmem := List.mem_cons.mp h
      · exact absurd rfl hne
      · exact Nat.lt_of_lt_of_le (ih hmem) (Nat.le_max_right _ _)

lemma of_form_literal (h : form text = .literal) :
    text ≠ [] ∧ ∀ c ∈ text, isPlain c = true ∧ c ≠ '\'' := by
  simp only [form] at h
  split at h
  · cases h
  · split at h
    · next hbasic hliteral =>
      simp only [Bool.and_eq_true, Bool.not_eq_true', List.any_eq_false, beq_iff_eq] at hliteral
      obtain ⟨⟨hcontrols, hlines⟩, hmarks⟩ := hliteral
      constructor
      · rintro rfl
        exact hbasic rfl
      · intro c hc
        constructor
        · refine isPlain_of_not_isControl (by simpa using hcontrols c hc) ?_
          rintro rfl
          simp [hc] at hlines
        · rintro rfl
          exact absurd hmarks (Nat.ne_of_gt (longestRun_pos hc))
    · split at h
      · cases h
      · split at h
        · cases h
        · split at h <;> cases h

/-- A block of literal lines needs no escape, and its marks stand two in a row at most. -/
lemma of_form_literalBlock (h : form text = .literalBlock) :
    longestRun '\'' 0 text ≤ 2 ∧ ∀ c ∈ text, isPlain c = true ∨ c = '\n' := by
  simp only [form] at h
  split at h
  · cases h
  · split at h
    · cases h
    · split at h
      · cases h
      · split at h
        · next hblock =>
          simp only [Bool.and_eq_true, Bool.not_eq_true', List.any_eq_false, decide_eq_true_eq] at hblock
          refine ⟨hblock.2, fun c hc => ?_⟩
          by_cases hend : c = '\n'
          · exact .inr hend
          · exact .inl (isPlain_of_not_isControl (by simpa using hblock.1 c hc) hend)
        · split at h <;> cases h

lemma take_basic : take ('"' :: (escape false 0 text ++ '"' :: '\n' :: rest)) =
    takeBasic [] (escape false 0 text ++ '"' :: '\n' :: rest) := by
  have hother {d : Char} {rest : List Char} (hd : d ≠ '"') : take ('"' :: d :: rest) = takeBasic [] (d :: rest) := by
    rw [take]
    simp [hd]
  cases text with
  | nil => rfl
  | cons c text =>
    by_cases hquote : c = '"'
    · subst hquote
      exact hother (by decide)
    · obtain ⟨d, tail, hc, hd, _⟩ := exists_escapedChar false hquote
      rw [escape_cons hquote, hc]
      exact hother hd

lemma take_literal (hne : text ≠ []) (hmark : ∀ c ∈ text, c ≠ '\'') :
    take ('\'' :: (text ++ '\'' :: rest)) = takeLiteral [] (text ++ '\'' :: rest) := by
  cases text with
  | nil => exact absurd rfl hne
  | cons c text =>
    rw [List.cons_append, take]
    simp [hmark c List.mem_cons_self]

lemma dropLineEnd_cons (hend : d ≠ '\n') (hreturn : d ≠ '\r') : dropLineEnd (d :: rest) = d :: rest := by
  rw [dropLineEnd.eq_def]
  split <;> simp_all

lemma dropLineEnd_start (h : '\n' ∉ text → dropLineEnd rest = rest) :
    dropLineEnd ((if text.contains '\n' then "\n" else "").toList ++ rest) = rest := by
  split
  · rfl
  · next hlines => exact h (by simpa using hlines)

lemma dropLineEnd_escape (h : '\n' ∉ text) :
    dropLineEnd (escape true 0 text ++ '"' :: rest) = escape true 0 text ++ '"' :: rest := by
  cases text with
  | nil => rfl
  | cons c text =>
    by_cases hquote : c = '"'
    · subst hquote
      rfl
    · obtain ⟨d, tail, hc, _, hend, hreturn⟩ := exists_escapedChar true hquote
      rw [escape_cons hquote, hc]
      exact dropLineEnd_cons (hend (List.ne_of_not_mem_cons h).symm) hreturn

lemma dropLineEnd_text (hplain : ∀ c ∈ text, isPlain c = true ∨ c = '\n') (h : '\n' ∉ text) :
    dropLineEnd (text ++ '\'' :: rest) = text ++ '\'' :: rest := by
  cases text with
  | nil => rfl
  | cons c text =>
    refine dropLineEnd_cons (List.ne_of_not_mem_cons h).symm ?_
    rintro rfl
    revert hplain
    simp [isPlain]

theorem take_write (s : String) (rest : List Char) :
    take ((write s).toList ++ '\n' :: rest) = some (s, '\n' :: rest) := by
  have hfinish : finish (s.toList.reverse ++ []) ('\n' :: rest) = some (s, '\n' :: rest) := by simp [finish]
  rw [write]
  cases hform : form s.toList with
  | basic =>
    rw [← hfinish, ← takeBasic_escape, ← take_basic]
    simp
  | literal =>
    obtain ⟨hne, hplain⟩ := of_form_literal hform
    rw [← hfinish, ← takeLiteral_plain hplain, ← take_literal hne fun c hc => (hplain c hc).2]
    simp
  | basicBlock =>
    rw [← hfinish]
    refine .trans ?_ (takeBasicBlock_escape (Nat.zero_le 2) (by decide))
    rw [List.replicate_zero, List.nil_append, ← dropLineEnd_start fun h => dropLineEnd_escape h]
    simp only [String.toList_append, String.toList_ofList, List.append_assoc]
    rfl
  | literalBlock =>
    obtain ⟨hmarks, hplain⟩ := of_form_literalBlock hform
    rw [← hfinish]
    refine .trans ?_ (takeLiteralBlock_text hmarks hplain (by decide))
    rw [List.replicate_zero, List.nil_append, ← dropLineEnd_start fun h => dropLineEnd_text hplain h]
    simp only [String.toList_append, List.append_assoc]
    rfl

lemma exists_write (s : String) : ∃ tail, (write s).toList = '"' :: tail ∨ (write s).toList = '\'' :: tail := by
  rw [write]
  cases form s.toList with
  | basic => exact ⟨_, .inl (by simp; rfl)⟩
  | literal => exact ⟨_, .inr (by simp; rfl)⟩
  | basicBlock => exact ⟨_, .inl (by simp; rfl)⟩
  | literalBlock => exact ⟨_, .inr (by simp; rfl)⟩

end Delivery.Toml.Text
