import Delivery.LogFilter
import Mathlib.Data.List.Forall2
import Mathlib.Tactic.Common

/-! What filters let through. A list of directives lets through as much as the greatest of their levels; a filter that
cannot be read in full lets through what no filter does. -/

namespace Delivery

namespace LogDirective

def Plain (c : Char) : Prop := Text.isBlank c = false ∧ c ≠ ',' ∧ c ≠ '=' ∧ c ≠ '['

structure Named (name : List Char) : Prop where
  plain : ∀ c ∈ name, Plain c
  opens : ∃ c rest, name = c :: rest ∧ (c = '-' ∨ c = ':' ∨ c = '_' ∨ Text.isLetterOrNumber c = true)

/-- A directive without spans: a level, a target, or both. -/
inductive Tells : List Char → LogLevel → Prop
  | level {text level} (hname : Named text) (hlevel : LogLevel.ofText? text = some level) : Tells text level
  | target {target} (hname : Named target) (hlevel : LogLevel.ofText? target = none) : Tells target .trace
  | both {target text level} (hname : Named target) (hplain : ∀ c ∈ text, Plain c)
      (hlevel : LogLevel.ofText? text = some level) : Tells (target ++ '=' :: text) level
  | open {target} (hname : Named target) : Tells (target ++ ['=']) .trace

variable {text name : List Char} {level : LogLevel} {position : Nat}

lemma run_append (p : Progress) (position : Nat) (cs rest : List Char) : p.run text position (cs ++ rest) =
    (p.run text position cs).bind fun p => p.run text (position + cs.length) rest := by
  induction cs generalizing p position with
  | nil => rfl
  | cons c cs ih =>
    rw [List.cons_append, Progress.run, Progress.run]
    cases p.next text position c with
    | none => rfl
    | some p => simp [ih, Nat.add_assoc, Nat.add_comm 1]

lemma run_plain (h : ∀ c ∈ name, Plain c) :
    Progress.run text ⟨.levelOrTarget, false⟩ position name = some ⟨.levelOrTarget, false⟩ := by
  induction name generalizing position with
  | nil => rfl
  | cons c name ih =>
    obtain ⟨⟨_, _, hlevel, hspan⟩, hname⟩ := List.forall_mem_cons.mp h
    have hnext : Progress.next text ⟨.levelOrTarget, false⟩ position c = some ⟨.levelOrTarget, false⟩ := by
      simp [Progress.next]
    rw [Progress.run, hnext]
    exact ih hname

lemma run_level {start : Nat} (level : List Char) :
    Progress.run text ⟨.level start, false⟩ position level = some ⟨.level start, false⟩ := by
  induction level generalizing position with
  | nil => rfl
  | cons c level ih => exact ih

lemma Named.run (h : Named name) : Progress.run text {} 0 name = some ⟨.levelOrTarget, false⟩ := by
  obtain ⟨c, rest, rfl, hopens⟩ := h.opens
  obtain ⟨⟨_, _, _, hspan⟩, hrest⟩ := List.forall_mem_cons.mp h.plain
  have hnext : Progress.next text {} 0 c = some ⟨.levelOrTarget, false⟩ := by
    simp [Progress.next, hopens]
  rw [Progress.run, hnext]
  exact run_plain hrest

lemma Named.run_both (h : Named name) (level : List Char) :
    Progress.run text {} 0 (name ++ '=' :: level) = some ⟨.level (name.length + 1), false⟩ := by
  rw [run_append, h.run, Nat.zero_add]
  exact run_level level

lemma trim_eq (h : ∀ c ∈ text, Text.isBlank c = false) :
    ((text.dropWhile Text.isBlank).reverse.dropWhile Text.isBlank).reverse = text := by
  have hkept {cs : List Char} (h : ∀ c ∈ cs, Text.isBlank c = false) : cs.dropWhile Text.isBlank = cs := by
    cases cs with
    | nil => rfl
    | cons c cs => rw [List.dropWhile_cons_of_neg (by simp [h c])]
  rw [hkept h, hkept (by simpa using h), List.reverse_reverse]

/-- Directives can be told apart: they hold no comma, and there are no blanks to be cut off. -/
lemma Tells.separate (h : Tells text level) : ∀ c ∈ text, Text.isBlank c = false ∧ c ≠ ',' := by
  have hplain {cs : List Char} (h : ∀ c ∈ cs, Plain c) : ∀ c ∈ cs, Text.isBlank c = false ∧ c ≠ ',' :=
    fun c hc => ⟨(h c hc).1, (h c hc).2.1⟩
  have hmark : Text.isBlank '=' = false ∧ '=' ≠ ',' := by decide
  cases h with
  | level hname _ => exact hplain hname.plain
  | target hname _ => exact hplain hname.plain
  | both hname hlevel _ =>
    exact List.forall_mem_append.mpr ⟨hplain hname.plain, List.forall_mem_cons.mpr ⟨hmark, hplain hlevel⟩⟩
  | «open» hname =>
    exact List.forall_mem_append.mpr ⟨hplain hname.plain, List.forall_mem_singleton.mpr hmark⟩

lemma Tells.ne_nil (h : Tells text level) : text ≠ [] := by
  have hname {name : List Char} (h : Named name) : name ≠ [] := by
    obtain ⟨c, rest, rfl, _⟩ := h.opens
    exact List.cons_ne_nil c rest
  cases h with
  | level h _ => exact hname h
  | target h _ => exact hname h
  | both h _ _ => exact List.append_ne_nil_of_left_ne_nil (hname h) _
  | «open» h => exact List.append_ne_nil_of_left_ne_nil (hname h) _

lemma Tells.ofText?_eq (h : Tells text level) : ofText? text = some ⟨level, false⟩ := by
  have hread : ofText? text = (Progress.run text {} 0 text).bind (·.finish text) := by
    rw [ofText?, trim_eq fun c hc => (h.separate c hc).1]
    rfl
  rw [hread]
  cases h with
  | level hname hlevel => simp [hname.run, Progress.finish, hlevel]
  | target hname hlevel => simp [hname.run, Progress.finish, hlevel]
  | @both target text level hname _ hlevel =>
    have hne : text ≠ [] := by
      rintro rfl
      cases hlevel
    have hdrop : (target ++ '=' :: text).drop (target.length + 1) = text := by simp
    simp [hname.run_both, Progress.finish, hdrop, hlevel, hne]
  | «open» hname => simp [hname.run_both, Progress.finish]

end LogDirective

namespace LogFilter
open LogDirective

variable {parts : List (List Char)} {levels : List LogLevel} {text : String}

lemma rank_max_le {a b : LogLevel} {n : Nat} : (a.max b).rank ≤ n ↔ a.rank ≤ n ∧ b.rank ≤ n := by
  rw [LogLevel.max]
  split <;> omega

lemma rank_foldl_max_le (a : LogLevel) (levels : List LogLevel) {n : Nat} :
    (levels.foldl LogLevel.max a).rank ≤ n ↔ a.rank ≤ n ∧ ∀ level ∈ levels, level.rank ≤ n := by
  induction levels generalizing a with
  | nil => simp
  | cons level levels ih => rw [List.foldl_cons, ih, rank_max_le, List.forall_mem_cons, and_assoc]

lemma exists_tells (h : List.Forall₂ Tells parts levels) : ∀ part ∈ parts, ∃ level, Tells part level := by
  induction h with
  | nil => exact List.forall_mem_nil _
  | cons hpart _ ih => exact List.forall_mem_cons.mpr ⟨⟨_, hpart⟩, ih⟩

lemma mapM_ofText?_of_tells (h : List.Forall₂ Tells parts levels) :
    parts.mapM LogDirective.ofText? = some (levels.map (⟨·, false⟩)) := by
  induction h with
  | nil => rfl
  | cons hpart _ ih =>
    rw [List.mapM_cons, hpart.ofText?_eq, ih]
    rfl

lemma mapM_ofText?_eq_none (h : ∃ part ∈ parts, LogDirective.ofText? part = none) :
    parts.mapM LogDirective.ofText? = none := by
  induction parts with
  | nil => simp at h
  | cons part parts ih =>
    rw [List.mapM_cons]
    cases hpart : LogDirective.ofText? part with
    | none => rfl
    | some directive =>
      obtain ⟨other, hmem, hother⟩ := h
      obtain rfl | hmem := List.mem_cons.mp hmem
      · cases hpart.symm.trans hother
      · rw [ih ⟨other, hmem, hother⟩]
        rfl

lemma level_eq (hne : levels ≠ []) : level (levels.map (⟨·, false⟩)) = levels.foldl LogLevel.max .off := by
  have hvalue : (levels.map (⟨·, false⟩ : LogLevel → LogDirective)).any (·.byValue) = false := by simp
  rw [level, hvalue, List.map_map, if_neg (by simpa using hne), if_neg Bool.false_ne_true]
  exact congrArg _ (List.map_id _)

theorem rank_ofText_le {parts : List String} (h : List.Forall₂ (Tells ·.toList ·) parts levels) (hne : parts ≠ [])
    (bound : LogLevel) : (ofText (some (String.intercalate "," parts))).rank ≤ bound.rank ↔
      ∀ level ∈ levels, level.rank ≤ bound.rank := by
  replace h := List.forall₂_map_left_iff.mpr h
  have hcomma : ",".toList = [','] := by decide
  have hparts : (String.intercalate "," parts).toList.splitOn ',' = parts.map String.toList := by
    rw [String.toList_intercalate, hcomma]
    refine List.splitOn_intercalate ',' (fun part hpart hmem => ?_) (by simpa using hne)
    obtain ⟨level, hlevel⟩ := exists_tells h part hpart
    exact (hlevel.separate ',' hmem).2 rfl
  have hblank : Text.allBlank (String.intercalate "," parts) = false := by
    obtain ⟨first, rest, rfl⟩ := List.exists_cons_of_ne_nil hne
    obtain ⟨level, hlevel⟩ := exists_tells h first.toList List.mem_cons_self
    obtain ⟨c, hc⟩ := List.exists_mem_of_ne_nil _ hlevel.ne_nil
    have hmem : c ∈ (String.intercalate "," (first :: rest)).toList := by
      rw [String.toList_intercalate]
      cases rest <;> simp [List.intercalate, hc]
    exact List.all_eq_false.mpr ⟨c, hmem, by simp [(hlevel.separate c hc).1]⟩
  have hfull : (parts.map String.toList).filter (· ≠ []) = parts.map String.toList := by
    refine List.filter_eq_self.mpr fun part hpart => ?_
    obtain ⟨level, hlevel⟩ := exists_tells h part hpart
    simpa using hlevel.ne_nil
  have hlevels : levels ≠ [] := by
    rintro rfl
    exact hne (List.map_eq_nil_iff.mp (List.forall₂_nil_right_iff.mp h))
  have hread := mapM_ofText?_of_tells h
  simp only [ofText, hblank, hparts, hfull, hread, Bool.false_eq_true, if_false, level_eq hlevels, rank_foldl_max_le]
  exact and_iff_right (Nat.zero_le _)

example : ofText (some "warn,promoter::health=trace") = .trace := by decide +kernel

theorem ofText_eq_warn (h : Text.allBlank text = true ∨
    ∃ part ∈ text.toList.splitOn ',', part ≠ [] ∧ LogDirective.ofText? part = none) : ofText (some text) = .warn := by
  rw [ofText]
  split
  · rfl
  · next hblank =>
    obtain ⟨part, hmem, hne, hnone⟩ := h.resolve_left hblank
    have hpart : part ∈ (text.toList.splitOn ',').filter (· ≠ []) := List.mem_filter.mpr ⟨hmem, by simpa using hne⟩
    simp only [mapM_ofText?_eq_none ⟨part, hpart, hnone⟩]
    rfl

example : ofText (some "promoter=loudest") = .warn := by decide +kernel

theorem ofVariables_eq_warn {value? : String → Option String}
    (h : ∀ name ∈ sources, ∀ text ∈ value? name, Text.allBlank text = true) : ofVariables value? = .warn := by
  have hnone : (sources.filterMap value?).find? (fun text => !Text.allBlank text) = none := by
    rw [List.find?_eq_none]
    intro text hmem
    obtain ⟨name, hname, htext⟩ := List.mem_filterMap.mp hmem
    simp [h name hname text htext]
  rw [ofVariables, hnone]
  rfl

end LogFilter
end Delivery
