import Mathlib.Data.List.Lex
import Mathlib.Tactic.Lemma

/-! The order of texts by their characters is that of their bytes: a higher character has a higher first byte, or
the same one and a higher byte later on. -/

namespace Delivery

def bytes (text : String) : List UInt8 := text.toUTF8.data.toList

lemma bytes_eq (text : String) : bytes text = text.toList.flatMap String.utf8EncodeChar := by
  have hbytes : text.toUTF8 = text.toList.utf8Encode := by
    rw [String.toUTF8, ← String.toByteArray_ofList, String.ofList_toList]
  rw [bytes, hbytes, List.utf8Encode]
  simp

lemma toNat_ofNat_of_lt {n : Nat} (h : n < 256) : (UInt8.ofNat n).toNat = n := by
  rw [UInt8.toNat_ofNat', Nat.mod_eq_of_lt h]

lemma cons_ofNat_lt {m n : Nat} (hn : n < 256) (h : m < n) (u v : List UInt8) :
    UInt8.ofNat m :: u < UInt8.ofNat n :: v := by
  apply List.cons_lt_cons_iff.mpr
  left
  rwa [UInt8.lt_iff_toNat_lt, toNat_ofNat_of_lt hn, toNat_ofNat_of_lt (h.trans hn)]

lemma cons_ofNat_lt_of_le {m n : Nat} (hn : n < 256) (h : m ≤ n) {u v : List UInt8} (hrest : m = n → u < v) :
    UInt8.ofNat m :: u < UInt8.ofNat n :: v := by
  obtain hlt | rfl := Nat.lt_or_eq_of_le h
  · exact cons_ofNat_lt hn hlt u v
  · exact List.cons_lt_cons_iff.mpr (.inr ⟨rfl, hrest rfl⟩)

lemma utf8EncodeChar_lt {c d : Char} (h : c < d) (u v : List UInt8) :
    String.utf8EncodeChar c ++ u < String.utf8EncodeChar d ++ v := by
  have hlt : c.val.toNat < d.val.toNat := h
  have hd : d.val.toNat < 0x110000 := by
    obtain hvalid | hvalid := d.valid
    · exact hvalid.trans (by decide)
    · exact hvalid.2
  rw [String.utf8EncodeChar, String.utf8EncodeChar]
  generalize c.val.toNat = m at *
  generalize d.val.toNat = n at *
  -- where the numbers of bytes differ the first bytes do; else the bytes are the digits of the code points
  split_ifs <;> simp only [List.cons_append, List.nil_append]
  all_goals first
    | exact cons_ofNat_lt (by omega) (by omega) _ _
    | omega
    | skip
  · refine cons_ofNat_lt_of_le (by omega) (by omega) fun _ => ?_
    exact cons_ofNat_lt (by omega) (by omega) _ _
  · refine cons_ofNat_lt_of_le (by omega) (by omega) fun _ => ?_
    refine cons_ofNat_lt_of_le (by omega) (by omega) fun _ => ?_
    exact cons_ofNat_lt (by omega) (by omega) _ _
  · refine cons_ofNat_lt_of_le (by omega) (by omega) fun _ => ?_
    refine cons_ofNat_lt_of_le (by omega) (by omega) fun _ => ?_
    refine cons_ofNat_lt_of_le (by omega) (by omega) fun _ => ?_
    exact cons_ofNat_lt (by omega) (by omega) _ _

lemma append_lt_append_left {u v : List UInt8} (common : List UInt8) (h : u < v) : common ++ u < common ++ v := by
  induction common with
  | nil => exact h
  | cons byte common ih => exact List.cons_lt_cons_iff.mpr (.inr ⟨rfl, ih⟩)

lemma utf8EncodeChar_ne_nil (c : Char) : String.utf8EncodeChar c ≠ [] := by
  rw [String.utf8EncodeChar]
  split_ifs <;> exact List.cons_ne_nil _ _

theorem bytes_lt_bytes {a b : String} (h : a < b) : bytes a < bytes b := by
  rw [bytes_eq, bytes_eq]
  rw [String.lt_iff] at h
  generalize a.toList = a at *
  generalize b.toList = b at *
  induction a generalizing b with
  | nil =>
    cases b with
    | nil => exact absurd h (List.lt_irrefl [])
    | cons d b =>
      obtain ⟨byte, more, hbytes⟩ := List.exists_cons_of_ne_nil (utf8EncodeChar_ne_nil d)
      rw [List.flatMap_cons, hbytes]
      exact List.nil_lt_cons _ _
  | cons c a ih =>
    cases b with
    | nil => exact absurd h (List.not_lt_nil _)
    | cons d b =>
      rw [List.flatMap_cons, List.flatMap_cons]
      obtain hlt | ⟨rfl, hlt⟩ := List.cons_lt_cons_iff.mp h
      · exact utf8EncodeChar_lt hlt _ _
      · exact append_lt_append_left _ (ih b hlt)

end Delivery
