import Delivery.Files.WorkDir
import Mathlib.Tactic.Common

/-! Directories that are there already. A directory that has been made is made again without any effect, and
so is the working directory of a promotion. -/

namespace Delivery
namespace FileTree

variable {t t' : FileTree} {place : List String} {p : FilePath}

lemma lookup_replace (place : List String) (node : FileNode) (nodes : List (List String × FileNode))
    (other : List String) :
    lookup other (replace place node nodes) =
      if place = other then some node else lookup other nodes := by
  induction nodes with
  | nil => simp [replace, lookup]
  | cons head rest ih =>
    obtain ⟨q, n⟩ := head
    by_cases hq : q = place
    · subst hq
      by_cases ho : q = other <;> simp [replace, lookup, ho]
    · by_cases ho : q = other
      · subst ho
        simp [replace, lookup, hq, Ne.symm hq]
      · simp [replace, lookup, hq, ho, ih]

lemma get?_put (t : FileTree) (place : List String) (node : FileNode) {other : List String}
    (ho : other ≠ []) :
    (t.put place node).get? other = if place = other then some node else t.get? other := by
  have hempty : other.isEmpty = false := by simpa using ho
  simp only [get?, put, hempty, Bool.false_eq_true, if_false, lookup_replace]

lemma isDirectoryAt_put (h : t.isDirectoryAt place = true) (new : List String) :
    (t.put new .directory).isDirectoryAt place = true := by
  cases place with
  | nil => rfl
  | cons name rest =>
    rw [isDirectoryAt, get?_put t new .directory (List.cons_ne_nil name rest)]
    by_cases hnew : new = name :: rest
    · rw [if_pos hnew]
    · rw [if_neg hnew]
      exact h

lemma follow_of_directories
    (hd : ∀ place, t.isDirectoryAt place = true → t'.isDirectoryAt place = true)
    {segments place' : List String} (h : t.follow place segments = .ok place') :
    t'.follow place segments = .ok place' := by
  induction segments generalizing place with
  | nil => exact h
  | cons segment rest ih =>
    simp only [follow] at h ⊢
    by_cases hplace : t.isDirectoryAt place = true
    · simp only [hplace, hd place hplace, Bool.not_true, Bool.false_eq_true, if_false] at h ⊢
      split at h
      · next hs => rw [if_pos hs]; exact ih h
      · next hs =>
        rw [if_neg hs]
        split at h
        · next hs => rw [if_pos hs]; exact ih h
        · next hs =>
          rw [if_neg hs]
          split at h
          · cases h
          · next hs => rw [if_neg hs]; exact ih h
    · simp [hplace] at h

lemma locate_eq_ok : t.locate p = .ok place ↔ p.text ≠ "" ∧ p.text.toList.contains '\x00' = false ∧
    t.follow (if p.isAbsolute then [] else t.current)
      (p.segments.reverse.dropWhile (· == "")).reverse = .ok place ∧
    (p.text.endsWith "/" = true → ∀ content, t.get? place ≠ some (.file content)) := by
  simp only [locate]
  split
  · next hempty => simp [hempty]
  · next hempty =>
    split
    · next hnul => exact iff_of_false nofun fun h => by cases hnul.symm.trans h.2.1
    · next hnul =>
      cases t.follow (if p.isAbsolute then [] else t.current)
          (p.segments.reverse.dropWhile (· == "")).reverse with
      | error error => simp [bind, Except.bind]
      | ok found =>
        simp only [bind, Except.bind]
        by_cases hslash : p.text.endsWith "/" = true
        · rcases hg : t.get? found with _ | (content | _) <;>
            simp only [hslash, Bool.and_true, Bool.and_false, if_true,
              Bool.false_eq_true, if_false, pure, Except.pure, throw, throwThe,
              MonadExceptOf.throw, reduceCtorEq, Except.ok.injEq, false_iff] <;>
            grind
        · simp_all [pure, Except.pure]

lemma locate_put (h : t.locate p = .ok place) (hnew : t.get? place = none) :
    (t.put place .directory).locate p = .ok place := by
  have hne : place ≠ [] := by rintro rfl; cases hnew
  obtain ⟨hempty, hnul, hf, _⟩ := locate_eq_ok.mp h
  refine locate_eq_ok.mpr ⟨hempty, hnul, ?_, ?_⟩
  · exact follow_of_directories (fun _ hd => isDirectoryAt_put hd place) hf
  · intro _ content hfile
    rw [get?_put t place .directory hne, if_pos rfl] at hfile
    cases hfile

lemma makeDirectory_eq_ok (h : t.makeDirectory p = .ok t') :
    ∃ place, t.locate p = .ok place ∧ t.get? place = none ∧ t' = t.put place .directory := by
  simp only [makeDirectory] at h
  cases hl : t.locate p with
  | error error => simp [hl, bind, Except.bind] at h
  | ok place =>
    simp only [hl, bind, Except.bind] at h
    split at h
    · cases h
    · next hnew =>
      cases h
      exact ⟨place, rfl, hnew, rfl⟩

theorem ensureDirectory_again (h : t.ensureDirectory p = .ok t') :
    t'.ensureDirectory p = .ok t' := by
  simp only [ensureDirectory] at h
  split at h
  · next made hm =>
    cases h
    obtain ⟨place, hl, hnew, rfl⟩ := makeDirectory_eq_ok hm
    have hne : place ≠ [] := by rintro rfl; cases hnew
    have hl' := locate_put hl hnew
    have hg : (t.put place .directory).get? place = some .directory := by
      rw [get?_put t place .directory hne, if_pos rfl]
    simp only [ensureDirectory, makeDirectory, isDirectory, find, hl', hg, bind, Except.bind]
    rfl
  · next error hm =>
    split at h
    · next hd =>
      cases h
      simp only [ensureDirectory, hm, hd, if_true]
    · cases h

lemma ensureDirectory_of_makeDirectoriesIn {fuel : Nat} (hp : p.text ≠ "")
    (h : makeDirectoriesIn fuel t p = (.ok (), t')) :
    ∃ t₀ : FileTree, t₀.ensureDirectory p = .ok t' := by
  cases fuel with
  | zero => cases h
  | succ fuel =>
    rw [makeDirectoriesIn, if_neg hp] at h
    split at h
    · next hd => cases h; exact ⟨t, hd⟩
    · split at h
      · cases h
      · split at h
        · cases h
        · next above _ =>
          split at h
          · next hd => cases h; exact ⟨_, hd⟩
          · cases h
    · cases h

theorem makeDirectories_again (h : t.makeDirectories p = (.ok (), t')) :
    t'.makeDirectories p = (.ok (), t') := by
  rw [makeDirectories, makeDirectoriesIn]
  split
  · rfl
  · next hp =>
    obtain ⟨t₀, hd⟩ := ensureDirectory_of_makeDirectoriesIn hp h
    rw [ensureDirectory_again hd]

end FileTree

theorem WorkDir.prepare_again {t t' : FileTree} {root dir : FilePath} {project promotion : String}
    (h : prepare t root project promotion = (.ok dir, t')) :
    prepare t' root project promotion = (.ok dir, t') := by
  simp only [prepare] at h ⊢
  cases hm : t.makeDirectories (path root project promotion) with
  | mk made t₁ =>
    rw [hm] at h
    cases made with
    | error error => cases h
    | ok _ =>
      cases h
      rw [FileTree.makeDirectories_again hm]
      rfl

end Delivery
