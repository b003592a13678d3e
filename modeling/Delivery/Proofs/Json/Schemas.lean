import Delivery.Json.Schema
import Mathlib.Data.List.Basic
import Mathlib.Tactic.Common

/-! What a schema accepts: the values in which it finds no problem. -/

namespace Delivery
namespace Schema

variable {j : Json}

def Accepts (s : Schema) (j : Json) : Prop := s.problems j = []

instance (s : Schema) (j : Json) : Decidable (s.Accepts j) :=
  decidable_of_iff ((s.problems j).isEmpty = true) List.isEmpty_iff

lemma accepts_list {items : Schema} :
    (list items).Accepts j ↔ ∃ values, j = .array values ∧ ∀ value ∈ values, items.Accepts value := by
  rw [Accepts]
  cases j with
  | array values => simp [problems, Accepts]
  | _ => simp [problems]

lemma accepts_notEmpty : (text .notEmpty).Accepts j ↔ ∃ s, j = .string s ∧ s ≠ "" := by
  rw [Accepts]
  cases j with
  | string s => simp [problems, textProblems]
  | _ => simp [problems, textProblems]

lemma accepts_pattern {shown : String} {accepts : List Char → Bool} :
    (text (.pattern shown accepts)).Accepts j ↔ ∃ s, j = .string s ∧ accepts s.toList = true := by
  rw [Accepts]
  cases j with
  | string s => simp [problems, textProblems]
  | _ => simp [problems, textProblems]

lemma accepts_count : count.Accepts j ↔ ∃ n, j = .number n ∧ n.isNegative = false ∧ n.isWhole = true := by
  rw [Accepts]
  cases j with
  | number n => simp [problems, countProblems]
  | _ => simp [problems, countProblems]

lemma accepts_anyObject : anyObject.Accepts j ↔ ∃ members, j = .object members := by
  rw [Accepts]
  cases j <;> simp [problems]

variable {required : List String} {fields : List (String × Schema)} {members : List (String × Json)}

lemma fieldProblems_eq_nil : fieldProblems fields members = [] ↔
    ∀ f ∈ fields, ∀ value, Entries.get? f.1 members = some value → f.2.Accepts value := by
  induction fields with
  | nil => exact iff_of_true rfl (List.forall_mem_nil _)
  | cons f fields ih =>
    obtain ⟨key, schema⟩ := f
    rw [fieldProblems, List.append_eq_nil_iff, ih, List.forall_mem_cons]
    refine and_congr_left' ?_
    cases Entries.get? key members <;> simp [Accepts]

lemma nameProblems_eq_nil {known names : List String} : nameProblems required known names = [] ↔
    (∀ name ∈ names, name ∈ known) ∧ ∀ name ∈ required, name ∈ names := by
  rw [nameProblems, List.append_eq_nil_iff]
  refine and_congr ?_ (by simp)
  simp only [ite_eq_left_iff, List.isEmpty_iff, reduceCtorEq, imp_false, not_not]
  simp

lemma accepts_record : (record required fields).Accepts j ↔ ∃ members, j = .object members ∧
    (∀ f ∈ fields, ∀ value, Entries.get? f.1 members = some value → f.2.Accepts value) ∧
      (∀ name ∈ members.map (·.1), name ∈ fields.map (·.1)) ∧ ∀ name ∈ required, name ∈ members.map (·.1) := by
  rw [Accepts]
  cases j with
  | object members =>
    rw [problems, List.append_eq_nil_iff, fieldProblems_eq_nil, nameProblems_eq_nil]
    simp only [Json.object.injEq, exists_eq_left']
  | _ => simp [problems]

end Schema
end Delivery
