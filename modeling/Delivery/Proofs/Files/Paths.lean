import Delivery.Proofs.Directories
import Mathlib.Tactic.Common

/-! Paths as lists of names. A name that is put behind a path is one more name, and changes nothing before it; it
leads one step further down. -/

namespace Delivery
namespace FilePath

def names (p : FilePath) : List String :=
  (p.segments.zipIdx.filter fun s => isNamed s.2 s.1).map (·.1)

/-- A text that is one segment and leads down from where it stands. -/
structure IsName (name : String) : Prop where
  slash : '/' ∉ name.toList
  special : name ∉ ["", ".", ".."]

variable {p : FilePath} {name first second : String}

namespace IsName

lemma ne_empty (h : IsName name) : name ≠ "" := fun he => h.special (he ▸ List.mem_cons_self)

lemma isNamed (h : IsName name) (index : Nat) : FilePath.isNamed index name = true := by
  have hspecial := h.special
  simp only [List.mem_cons, List.not_mem_nil, or_false, not_or] at hspecial
  simp [FilePath.isNamed, hspecial]

end IsName

lemma endsWith_slash_iff (text : String) : text.endsWith "/" = true ↔ ∃ front, text.toList = front ++ ['/'] := by
  rw [← String.endsWith_toSlice, String.Slice.endsWith_string_iff]
  simp [List.IsSuffix, eq_comm]

lemma isAbsolute_iff : p.isAbsolute = true ↔ ∃ rest, p.text.toList = '/' :: rest := by
  rw [isAbsolute, String.startsWith_string_iff]
  simp [List.IsPrefix, eq_comm]

lemma IsName.relative (h : IsName name) : isAbsolute ⟨name⟩ = false := by
  rw [← Bool.not_eq_true, isAbsolute_iff]
  rintro ⟨rest, hrest⟩
  exact h.slash (hrest ▸ List.mem_cons_self)

lemma join_eq (h : IsName name) : p.join ⟨name⟩ =
    if p.text = "" || p.text.endsWith "/" then ⟨p.text ++ name⟩ else ⟨p.text ++ "/" ++ name⟩ := by
  rw [join, h.relative, if_neg Bool.false_ne_true]

lemma segments_join (p : FilePath) : ∃ front, (p.segments = front ∨ p.segments = front ++ [""]) ∧
    ∀ {name}, IsName name → (p.join ⟨name⟩).segments = front ++ [name] := by
  have hsplit {name : String} (h : IsName name) : name.toList.splitOn '/' = [name.toList] :=
    List.splitOn_eq_singleton h.slash
  by_cases hempty : p.text = ""
  · refine ⟨[], .inr (by simp [segments, hempty]), ?_⟩
    intro name h
    simp [join_eq h, segments, hempty, hsplit h]
  · by_cases hslash : p.text.endsWith "/" = true
    · obtain ⟨front, hfront⟩ := (endsWith_slash_iff _).mp hslash
      refine ⟨(front.splitOn '/').map String.ofList, .inr ?_, ?_⟩
      · simp [segments, hfront, List.splitOn_append_cons_self]
      · intro name h
        simp [join_eq h, segments, hfront, hslash, hsplit h, List.splitOn_append_cons_self]
    · refine ⟨p.segments, .inl rfl, ?_⟩
      intro name h
      simp [join_eq h, segments, hempty, hslash, hsplit h, List.splitOn_append_cons_self]

lemma segments_join_join (p : FilePath) : ∃ front, ∀ {first second}, IsName first → IsName second →
    ((p.join ⟨first⟩).join ⟨second⟩).segments = front ++ [first, second] := by
  obtain ⟨front, _, hfirst⟩ := segments_join p
  refine ⟨front, ?_⟩
  intro first second h h'
  obtain ⟨front', hfront', hsecond⟩ := segments_join (p.join ⟨first⟩)
  rw [hfirst h] at hfront'
  obtain rfl | hfront' := hfront'
  · simpa using hsecond h'
  · exact absurd (List.append_inj' hfront' rfl).2 (by simpa using h.ne_empty)

theorem join_join_inj {first' second' : String} (h₁ : IsName first) (h₁' : IsName first') (h₂ : IsName second)
    (h₂' : IsName second') :
    (p.join ⟨first⟩).join ⟨second⟩ = (p.join ⟨first'⟩).join ⟨second'⟩ ↔ first = first' ∧ second = second' := by
  constructor
  · intro h
    obtain ⟨front, hfront⟩ := p.segments_join_join
    have hsegments : front ++ [first, second] = front ++ [first', second'] := by
      rw [← hfront h₁ h₂, h, hfront h₁' h₂']
    simpa using List.append_cancel_left hsegments
  · rintro ⟨rfl, rfl⟩
    rfl

theorem names_join (h : IsName name) : (p.join ⟨name⟩).names = p.names ++ [name] := by
  obtain ⟨front, hfront, hjoin⟩ := segments_join p
  have hnames : p.names = (front.zipIdx.filter fun s => isNamed s.2 s.1).map (·.1) := by
    obtain hfront | hfront := hfront
    · rw [names, hfront]
    · simp [names, hfront, List.zipIdx_append, isNamed]
  rw [hnames, names, hjoin h]
  simp [List.zipIdx_append, h.isNamed]

theorem isAbsolute_join (h : IsName name) : (p.join ⟨name⟩).isAbsolute = p.isAbsolute := by
  by_cases hempty : p.text = ""
  · obtain rfl : p = ⟨""⟩ := congrArg mk hempty
    have hjoin : join ⟨""⟩ ⟨name⟩ = ⟨name⟩ := by simp [join_eq h]
    rw [hjoin, h.relative]
    simp [isAbsolute]
  · obtain ⟨c, rest, htext⟩ : ∃ c rest, p.text.toList = c :: rest :=
      List.exists_cons_of_ne_nil (by simpa using hempty)
    have hhead : ∃ behind, (p.join ⟨name⟩).text.toList = c :: behind := by
      rw [join_eq h]
      split <;> simp [htext]
    obtain ⟨behind, hbehind⟩ := hhead
    rw [Bool.eq_iff_iff, isAbsolute_iff, isAbsolute_iff, htext, hbehind]
    simp

lemma join_ne_empty (h : IsName name) : (p.join ⟨name⟩).text ≠ "" := by
  rw [join_eq h]
  split <;> simp [h.ne_empty]

end FilePath

namespace FileTree

variable {t : FileTree} {place place' : List String} {name : String}

lemma follow_append (xs ys : List String) :
    t.follow place (xs ++ ys) = (t.follow place xs).bind fun place' => t.follow place' ys := by
  induction xs generalizing place with
  | nil => rfl
  | cons segment rest ih =>
    simp only [List.cons_append, follow]
    split
    · rfl
    · split
      · exact ih
      · split
        · exact ih
        · split
          · rfl
          · exact ih

lemma follow_name {rest : List String} (hname : FilePath.IsName name)
    (h : t.follow place (name :: rest) = .ok place') : t.follow (place ++ [name]) rest = .ok place' := by
  have hspecial := hname.special
  simp only [List.mem_cons, List.not_mem_nil, or_false, not_or] at hspecial
  obtain ⟨hempty, hdot, hdots⟩ := hspecial
  simp only [follow, hempty, hdot, hdots, decide_false, Bool.or_self, Bool.false_eq_true, if_false] at h
  split at h
  · cases h
  · split at h
    · cases h
    · exact h

theorem locate_join_join (t : FileTree) (p : FilePath) : ∃ base, ∀ {first second place},
    FilePath.IsName first → FilePath.IsName second →
    t.locate ((p.join ⟨first⟩).join ⟨second⟩) = .ok place → place = base ++ [first, second] := by
  obtain ⟨front, hsegments⟩ := p.segments_join_join
  refine ⟨((t.follow (if p.isAbsolute then [] else t.current) front).toOption).getD [], ?_⟩
  intro first second place hfirst hsecond hl
  obtain ⟨_, _, hf, _⟩ := locate_eq_ok.mp hl
  have htrimmed : ((front ++ [first, second]).reverse.dropWhile (· == "")).reverse = front ++ [first, second] := by
    simp [hsecond.ne_empty]
  rw [FilePath.isAbsolute_join hsecond, FilePath.isAbsolute_join hfirst, hsegments hfirst hsecond, htrimmed,
    follow_append] at hf
  cases hbase : t.follow (if p.isAbsolute then [] else t.current) front with
  | error error =>
    rw [hbase] at hf
    cases hf
  | ok base =>
    rw [hbase] at hf
    cases follow_name hsecond (follow_name hfirst hf)
    simp [Except.toOption]

end FileTree
end Delivery
