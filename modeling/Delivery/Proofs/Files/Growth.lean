import Delivery.Proofs.Directories
import Mathlib.Logic.Relation

/-! Trees that grow. Directories are made along a path, from the top down; whether or not all of them can be made,
everything that was there stays where it was. -/

namespace Delivery

/-- A path and the paths above it. -/
def FilePath.Upward : FilePath → FilePath → Prop :=
  Relation.ReflTransGen fun p above => p.parent? = some above

namespace FileTree

/-- Nothing changes from the first tree to the second but that there are new directories, to which paths of
`along` lead. -/
structure Grows (along : FilePath → Prop) (t t' : FileTree) : Prop where
  current : t'.current = t.current
  kept : ∀ {place : List String} {node : FileNode}, t.get? place = some node → t'.get? place = some node
  made : ∀ {place : List String} {node : FileNode}, t.get? place = none → t'.get? place = some node →
    node = .directory ∧ ∃ p, along p ∧ t'.locate p = .ok place

variable {t t' t'' : FileTree} {along along' : FilePath → Prop} {p : FilePath} {place : List String}

lemma isDirectoryAt_iff : t.isDirectoryAt place = true ↔ t.get? place = some .directory := by
  rw [isDirectoryAt]
  split <;> simp_all

lemma isDirectory_iff : t.isDirectory p = true ↔ t.find p = .ok .directory := by
  rw [isDirectory]
  split <;> simp_all

lemma find_eq_ok {node : FileNode} :
    t.find p = .ok node ↔ ∃ place, t.locate p = .ok place ∧ t.get? place = some node := by
  rw [find]
  cases t.locate p with
  | error error => simp [bind, Except.bind]
  | ok place =>
    cases hg : t.get? place <;> simp [bind, Except.bind, hg, pure, Except.pure, throw, throwThe, MonadExceptOf.throw]

namespace Grows

lemma refl (along : FilePath → Prop) (t : FileTree) : t.Grows along t where
  current := rfl
  kept h := h
  made hn hs := by cases hn.symm.trans hs

lemma mono (h : t.Grows along t') (hsub : ∀ p, along p → along' p) : t.Grows along' t' where
  current := h.current
  kept := h.kept
  made hn hs := by
    obtain ⟨hnode, p, hp, hl⟩ := h.made hn hs
    exact ⟨hnode, p, hsub p hp, hl⟩

lemma of_file (h : t.Grows along t') {content : ByteArray} (hf : t'.get? place = some (.file content)) :
    t.get? place = some (.file content) := by
  cases hg : t.get? place with
  | none => cases (h.made hg hf).1
  | some node => exact (h.kept hg).symm.trans hf

lemma locate_eq (h : t.Grows along t') (hl : t.locate p = .ok place) : t'.locate p = .ok place := by
  obtain ⟨hempty, hnul, hf, hslash⟩ := locate_eq_ok.mp hl
  refine locate_eq_ok.mpr ⟨hempty, hnul, ?_, ?_⟩
  · rw [h.current]
    apply follow_of_directories _ hf
    intro place hd
    exact isDirectoryAt_iff.mpr (h.kept (isDirectoryAt_iff.mp hd))
  · intro he content hfile
    exact hslash he content (h.of_file hfile)

lemma find_eq (h : t.Grows along t') {node : FileNode} (hf : t.find p = .ok node) : t'.find p = .ok node := by
  obtain ⟨place, hl, hg⟩ := find_eq_ok.mp hf
  exact find_eq_ok.mpr ⟨place, h.locate_eq hl, h.kept hg⟩

lemma trans (h : t.Grows along t') (h' : t'.Grows along t'') : t.Grows along t'' where
  current := h'.current.trans h.current
  kept hg := h'.kept (h.kept hg)
  made {place node} hn hs := by
    cases hg : t'.get? place with
    | none => exact h'.made hg hs
    | some node' =>
      obtain rfl : node' = node := Option.some.inj ((h'.kept hg).symm.trans hs)
      obtain ⟨hnode, p, hp, hl⟩ := h.made hn hg
      exact ⟨hnode, p, hp, h'.locate_eq hl⟩

end Grows

lemma get?_put_of_ne {node : FileNode} {other : List String} (ho : other ≠ place) :
    (t.put place node).get? other = t.get? other := by
  cases other with
  | nil => rfl
  | cons name rest => rw [get?_put t place node (List.cons_ne_nil name rest), if_neg (Ne.symm ho)]

lemma get?_put_self {node : FileNode} (hne : place ≠ []) : (t.put place node).get? place = some node := by
  rw [get?_put t place node hne, if_pos rfl]

lemma ensureDirectory_grows (h : t.ensureDirectory p = .ok t') : t.Grows (· = p) t' := by
  simp only [ensureDirectory] at h
  split at h
  · next made hm =>
    cases h
    obtain ⟨place, hl, hnew, rfl⟩ := makeDirectory_eq_ok hm
    have hne : place ≠ [] := by rintro rfl; cases hnew
    refine ⟨rfl, ?_, ?_⟩
    · intro other node hg
      have ho : other ≠ place := by rintro rfl; cases hnew.symm.trans hg
      rwa [get?_put_of_ne ho]
    · intro other node hn hs
      obtain rfl : other = place := by
        by_contra ho
        rw [get?_put_of_ne ho, hn] at hs
        cases hs
      rw [get?_put_self hne] at hs
      exact ⟨(Option.some.inj hs).symm, p, rfl, locate_put hl hnew⟩
  · split at h
    · cases h
      exact .refl _ t
    · cases h

theorem makeDirectoriesIn_grows {fuel : Nat} {made : Except FileError Unit}
    (h : makeDirectoriesIn fuel t p = (made, t')) : t.Grows p.Upward t' := by
  -- On the way up the tree stays as it is; what is made is made on the way back, above the path or at it.
  induction fuel generalizing t p made t' with
  | zero =>
    cases h
    exact .refl _ t
  | succ fuel ih =>
    have hensure {t t' : FileTree} (h : t.ensureDirectory p = .ok t') : t.Grows p.Upward t' :=
      (ensureDirectory_grows h).mono fun _ he => he ▸ .refl
    have habove {above : FilePath} {made : Except FileError Unit} {t₁ : FileTree}
        (hparent : p.parent? = some above) (h : makeDirectoriesIn fuel t above = (made, t₁)) :
        t.Grows p.Upward t₁ := (ih h).mono fun _ hup => .head hparent hup
    rw [makeDirectoriesIn] at h
    split at h
    · cases h
      exact .refl _ t
    · split at h
      · next hd =>
        cases h
        exact hensure hd
      · split at h
        · cases h
          exact .refl _ t
        · next above hparent =>
          split at h
          · next hmade =>
            cases h
            exact habove hparent hmade
          · next t₁ hmade =>
            split at h
            · next hd =>
              cases h
              exact (habove hparent hmade).trans (hensure hd)
            · cases h
              exact habove hparent hmade
      · cases h
        exact .refl _ t

theorem makeDirectories_grows {made : Except FileError Unit} (h : t.makeDirectories p = (made, t')) :
    t.Grows p.Upward t' := makeDirectoriesIn_grows h

lemma isDirectory_of_ensureDirectory (h : t.ensureDirectory p = .ok t') : t'.isDirectory p = true := by
  simp only [ensureDirectory] at h
  split at h
  · next made hm =>
    cases h
    obtain ⟨place, hl, hnew, rfl⟩ := makeDirectory_eq_ok hm
    have hne : place ≠ [] := by rintro rfl; cases hnew
    exact isDirectory_iff.mpr (find_eq_ok.mpr ⟨place, locate_put hl hnew, get?_put_self hne⟩)
  · split at h
    · next hd =>
      cases h
      exact hd
    · cases h

theorem isDirectory_of_makeDirectories (hp : p.text ≠ "") (h : t.makeDirectories p = (.ok (), t')) :
    t'.isDirectory p = true := by
  obtain ⟨t₀, hd⟩ := ensureDirectory_of_makeDirectoriesIn hp h
  exact isDirectory_of_ensureDirectory hd

end FileTree
end Delivery
