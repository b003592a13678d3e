import Delivery.Proofs.Json.Reading

/-!
A value that is printed with a line for each item and member reads as its draft, as far as its numbers read back.
-/

namespace Delivery

lemma Json.isBlank_newline (level : Nat) : Draft.IsBlank (newline level).toList := by
  intro c hc
  rw [newline, String.toList_append, List.mem_append, toList_pushn] at hc
  rcases hc with hc | hc
  · obtain rfl := List.mem_singleton.mp hc
    decide
  · obtain rfl := List.eq_of_mem_replicate (by simpa using hc)
    decide

namespace Draft

open Grammar (Member)

variable {lines : List String} {ds : List Draft} {es : List (String × Draft)}

lemma reads_itemBlock (level : Nat) (h : List.Forall₂ Reads (lines.map String.toList) ds) :
    Reads (Json.block "[" "]" level lines).toList (.array ds .closed) := by
  cases lines with
  | nil => simpa [Json.block] using reads_array (separated_intercalate isBlank_nil isBlank_nil h)
  | cons line lines =>
    have hlines := separated_intercalate (Json.isBlank_newline (level + 1)) (Json.isBlank_newline level) h
    simpa [Json.block] using reads_array hlines

lemma reads_memberBlock (level : Nat) (h : List.Forall₂ (Member Reads) (lines.map String.toList) es) :
    Reads (Json.block "\x7b" "\x7d" level lines).toList (.object (keyed es) .closed) := by
  cases lines with
  | nil => simpa [Json.block] using reads_object (separated_intercalate isBlank_nil isBlank_nil h)
  | cons line lines =>
    have hlines := separated_intercalate (Json.isBlank_newline (level + 1)) (Json.isBlank_newline level) h
    simpa [Json.block] using reads_object hlines

mutual

theorem reads_pretty (level : Nat) :
    ∀ j : Json, (∀ n ∈ j.numbers, n.ReadsBack) → Reads (j.pretty level).toList (ofJson j)
  | .null, _ => reads_scalar .null
  | .bool true, _ => reads_scalar .true
  | .bool false, _ => reads_scalar .false
  | .number n, h => reads_number (h n List.mem_cons_self)
  | .string s, _ => reads_string s
  | .array items, h => reads_itemBlock level (reads_prettyItems (level + 1) items h)
  | .object members, h => by
    have hread := reads_memberBlock level (reads_prettyMembers (level + 1) members h)
    rwa [keyed_ofJson] at hread

theorem reads_prettyItems (level : Nat) : ∀ items : List Json, (∀ n ∈ Json.numbersOfItems items, n.ReadsBack) →
    List.Forall₂ Reads ((Json.prettyItems level items).map String.toList) (ofItems items)
  | [], _ => .nil
  | j :: rest, h => by
    obtain ⟨hj, hrest⟩ := List.forall_mem_append.mp h
    exact .cons (reads_pretty level j hj) (reads_prettyItems level rest hrest)

theorem reads_prettyMembers (level : Nat) : ∀ members : List (String × Json),
    (∀ n ∈ Json.numbersOfMembers members, n.ReadsBack) →
    List.Forall₂ (Member Reads) ((Json.prettyMembers level members).map String.toList)
      (members.map fun e => (e.1, ofJson e.2))
  | [], _ => .nil
  | (k, j) :: rest, h => by
    obtain ⟨hj, hrest⟩ := List.forall_mem_append.mp h
    refine .cons ?_ (reads_prettyMembers level rest hrest)
    simpa using member_text (List.forall_mem_singleton.mpr rfl : IsBlank [' ']) (reads_pretty level j hj)

end

end Draft

theorem Document.ofText_pretty {j : Json} (h : ∀ n ∈ j.numbers, n.ReadsBack) :
    Document.ofText (j.pretty 0 ++ "\n") = ⟨.ofJson j, true⟩ := by
  have hread : Grammar.Padded Draft.Reads ([] ++ ((j.pretty 0).toList ++ ['\n'])) (.ofJson j) :=
    .mk Draft.isBlank_nil (Draft.reads_pretty 0 j h) (List.forall_mem_singleton.mpr rfl)
  have htext : (j.pretty 0 ++ "\n").toList = (j.pretty 0).toList ++ ['\n'] := String.toList_append
  rw [List.nil_append, ← htext] at hread
  exact ofText_of_padded hread

end Delivery
