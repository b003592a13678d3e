import Delivery.Proofs.Json.Reading

/-! The integers that a text gives are those that read back. -/

namespace Delivery
namespace Number

def InRange : Number → Prop
  | integer n => leastInteger ≤ n ∧ n ≤ greatestInteger
  | real _ => True

instance : (n : Number) → Decidable n.InRange
  | integer n => inferInstanceAs (Decidable (leastInteger ≤ n ∧ n ≤ greatestInteger))
  | real _ => .isTrue trivial

theorem readsBack_integer {n : Int} (h : InRange (integer n)) : ReadsBack (integer n) := by
  have hspells : Grammar.Padded (Grammar.Value 127) ([] ++ ((toString n).toList ++ [])) (.number (.integer n)) :=
    .mk Draft.isBlank_nil (Or.inl (Draft.scalar_integer h.1 h.2)) Draft.isBlank_nil
  rw [List.nil_append, List.append_nil] at hspells
  exact Codec.ofText_json_eq_ok.mpr hspells

theorem inRange_ofNumeral {numeral : Numeral} {n : Number} (h : ofNumeral numeral = some n) : InRange n := by
  have hreal : ∀ {x : Option Binary64}, x.map real = some n → InRange n := by
    intro x hx
    obtain ⟨_, _, rfl⟩ := Option.map_eq_some_iff.mp hx
    trivial
  simp only [ofNumeral] at h
  split at h
  · split at h
    · split at h
      · next hle =>
        cases h
        simp only [InRange, leastInteger, greatestInteger]
        omega
      · exact hreal h
    · split at h
      · next hlt =>
        cases h
        simp only [InRange, leastInteger, greatestInteger]
        omega
      · exact hreal h
  · exact hreal h

end Number

namespace Draft

def InRange (d : Draft) : Prop := ∀ n ∈ d.numbers, n.InRange

instance (d : Draft) : Decidable d.InRange := inferInstanceAs (Decidable (∀ n ∈ d.numbers, n.InRange))

lemma inRange_of_numbers_eq_nil {d : Draft} (h : d.numbers = []) : d.InRange := by
  rw [InRange, h]
  exact List.forall_mem_nil _

lemma IsBroken.inRange {d : Draft} (h : d.IsBroken) : d.InRange := by
  obtain ⟨_, _, _, rfl⟩ := h
  exact inRange_of_numbers_eq_nil rfl

lemma inRange_readNumber (negative : Bool) (text : List Char) : (readNumber negative text).1.InRange := by
  cases htake : takeNumeral negative text with
  | error d =>
    rw [readNumber, htake]
    exact (takeNumeral_error htake).inRange
  | ok x =>
    rw [readNumber, htake]
    show ∀ n ∈ (Draft.number (Number.ofNumeral x.1)).numbers, n.InRange
    cases hnumber : Number.ofNumeral x.1 with
    | none => exact List.forall_mem_nil _
    | some m => exact List.forall_mem_singleton.mpr (Number.inRange_ofNumeral hnumber)

lemma inRange_readLiteral {value : Draft} (h : value.InRange) (word text : List Char) :
    (readLiteral value word text).1.InRange := by
  induction word generalizing text with
  | nil => exact h
  | cons w word ih =>
    cases text with
    | nil => exact IsBroken.inRange ⟨_, _, _, rfl⟩
    | cons c text =>
      rw [readLiteral]
      split
      · exact ih text
      · exact IsBroken.inRange ⟨_, _, _, rfl⟩

lemma inRange_badKey {value : Draft} (h : value.InRange) : (badKey value).2.InRange := by
  cases value with
  | broken => exact IsBroken.inRange ⟨_, _, _, rfl⟩
  | _ => exact h

mutual

theorem inRange_readValue : ∀ (fuel : Nat) (text : List Char), (readValue fuel text).1.InRange
  | 0, _ => IsBroken.inRange ⟨_, _, _, rfl⟩
  | fuel + 1, text => by
    rw [readValue]
    split
    · exact IsBroken.inRange ⟨_, _, _, rfl⟩
    · exact inRange_readItems fuel true _
    · exact inRange_readMembers fuel true _
    · split
      · exact List.forall_mem_nil _
      · next hscan => exact (scanString_broken hscan).inRange
    · exact inRange_readLiteral (inRange_of_numbers_eq_nil rfl) _ _
    · exact inRange_readLiteral (inRange_of_numbers_eq_nil rfl) _ _
    · exact inRange_readLiteral (inRange_of_numbers_eq_nil rfl) _ _
    · exact inRange_readNumber true _
    · split
      · exact inRange_readNumber false _
      · exact IsBroken.inRange ⟨_, _, _, rfl⟩

theorem inRange_readItems : ∀ (fuel : Nat) (first : Bool) (text : List Char),
    ∀ n ∈ numbersOfItems (readItems fuel first text).1, n.InRange
  | 0, _, _ => List.forall_mem_nil _
  | fuel + 1, first, text => by
    rw [readItems]
    split
    · exact List.forall_mem_nil _
    · exact List.forall_mem_nil _
    · next c rest _ _ =>
      split
      · exact List.forall_mem_nil _
      · have hitem := inRange_readValue fuel (if first then c :: rest else rest)
        split
        · next hread =>
          rw [hread] at hitem
          exact List.forall_mem_append.mpr ⟨hitem, List.forall_mem_nil _⟩
        · next hread =>
          rw [hread] at hitem
          exact List.forall_mem_append.mpr ⟨hitem, inRange_readItems fuel false _⟩

theorem inRange_readMembers : ∀ (fuel : Nat) (first : Bool) (text : List Char),
    ∀ n ∈ numbersOfMembers (readMembers fuel first text).1, n.InRange
  | 0, _, _ => List.forall_mem_nil _
  | fuel + 1, first, text => by
    rw [readMembers]
    split
    · exact List.forall_mem_nil _
    · exact List.forall_mem_nil _
    · split
      · split
        · exact inRange_readMember fuel _
        · exact List.forall_mem_nil _
      · split
        · split
          · exact List.forall_mem_nil _
          · exact inRange_readMember fuel _
          · exact List.forall_mem_nil _
        · exact List.forall_mem_nil _

theorem inRange_readMember : ∀ (fuel : Nat) (text : List Char),
    ∀ n ∈ numbersOfMembers (readMember fuel text).1, n.InRange
  | 0, _ => List.forall_mem_nil _
  | fuel + 1, text => by
    rw [readMember]
    split
    · next hscan =>
      exact List.forall_mem_append.mpr
        ⟨(scanString_broken hscan).inRange, List.forall_mem_nil _⟩
    · next key rest _ =>
      split
      next value left heq =>
      have hvalue : value.InRange := by
        split at heq
        · next body _ =>
          have hread := inRange_readValue fuel body
          rwa [heq] at hread
        · cases heq
          exact IsBroken.inRange ⟨_, _, _, rfl⟩
        · cases heq
          exact IsBroken.inRange ⟨_, _, _, rfl⟩
      cases left with
      | none =>
        cases key with
        | none => exact List.forall_mem_append.mpr ⟨inRange_badKey hvalue, List.forall_mem_nil _⟩
        | some key => exact List.forall_mem_append.mpr ⟨hvalue, List.forall_mem_nil _⟩
      | some rest =>
        have hrest := inRange_readMembers fuel false rest
        cases key with
        | none => exact List.forall_mem_append.mpr ⟨inRange_badKey hvalue, hrest⟩
        | some key => exact List.forall_mem_append.mpr ⟨hvalue, hrest⟩

end

end Draft

theorem Document.inRange_root (text : String) : (Document.ofText text).root.InRange := by
  have hread := Draft.inRange_readValue (3 * text.toList.length + 3) text.toList
  simp only [Document.ofText]
  split
  · next heq => rwa [heq] at hread
  · next heq => rwa [heq] at hread

lemma Number.inRange_of_readsBack {n : Number} (h : n.ReadsBack) : n.InRange := by
  have hroot := Draft.toJson_eq_number (Codec.ofText_eq_ok.mp h).1
  have hrange := Document.inRange_root n.render
  rw [hroot] at hrange
  exact hrange n List.mem_cons_self

end Delivery
