import Delivery.Proofs.Files.Growth
import Delivery.Proofs.Inputs.Loading
import Delivery.Settings.File

/-! Settings that could not be saved. All that a failure leaves behind is directories on the way to the file, unless it
is the last step that fails: then the text stands in the temporary file, whatever was there before. -/

namespace Delivery
namespace FileTree

def SameFiles (t t' : FileTree) : Prop :=
  ∀ place content, t.get? place = some (.file content) ↔ t'.get? place = some (.file content)

variable {t t' : FileTree} {along : FilePath → Prop} {p source target : FilePath} {place place' : List String}
variable {content : ByteArray} {text : String}

lemma Grows.sameFiles (h : t.Grows along t') : t.SameFiles t' := fun _ _ => ⟨h.kept, h.of_file⟩

lemma isDirectoryAt_put_file (hplace : t.get? place ≠ some .directory) (h : t.isDirectoryAt place' = true) :
    (t.put place (.file content)).isDirectoryAt place' = true := by
  rw [isDirectoryAt_iff] at h ⊢
  rw [get?_put_of_ne, h]
  rintro rfl
  exact hplace h

lemma locate_put_file (h : t.locate p = .ok place') (hplace : t.get? place ≠ some .directory)
    (hslash : ¬ p.text.endsWith "/" = true) : (t.put place (.file content)).locate p = .ok place' := by
  obtain ⟨hempty, hnul, hf, _⟩ := locate_eq_ok.mp h
  refine locate_eq_ok.mpr ⟨hempty, hnul, ?_, fun he => absurd he hslash⟩
  apply follow_of_directories _ hf
  exact fun _ hd => isDirectoryAt_put_file hplace hd

lemma writeText_eq_ok (h : t.writeText p text = .ok t') :
    ∃ place, t.locate p = .ok place ∧ t.get? place ≠ some .directory ∧ ¬ p.text.endsWith "/" = true ∧
      t' = t.put place (.file text.toUTF8) := by
  rw [writeText] at h
  cases hl : t.locate p with
  | error error =>
    rw [hl] at h
    cases h
  | ok place =>
    obtain ⟨_, _, _, hslash⟩ := locate_eq_ok.mp hl
    simp only [hl, bind, Except.bind] at h
    split at h
    · cases h
    · next content hg =>
      cases h
      exact ⟨place, rfl, by simp [hg], fun he => hslash he content hg, rfl⟩
    · next hg =>
      split at h
      · cases h
      · next he =>
        cases h
        exact ⟨place, rfl, by simp [hg], he, rfl⟩

lemma exists_rename {node : FileNode} (hsource : t.find source = .ok node)
    (htarget : t.find target = .ok (.file content)) : ∃ t', t.rename source target = .ok t' := by
  obtain ⟨sourcePlace, hls, hgs⟩ := find_eq_ok.mp hsource
  obtain ⟨targetPlace, hlt, hgt⟩ := find_eq_ok.mp htarget
  simp only [rename, hls, hlt, hgs, hgt, bind, Except.bind, Option.isNone_some, Bool.false_and, Bool.false_eq_true,
    if_false, pure, Except.pure]
  split
  · exact ⟨_, rfl⟩
  · exact ⟨_, rfl⟩

/-- From the first tree to the second one file has been written; where other files stand nothing changes. -/
structure Leftover (t : FileTree) (p : FilePath) (content : ByteArray) (t' : FileTree) (place : List String) :
    Prop where
  located : t'.locate p = .ok place
  held : t'.get? place = some (.file content)
  elsewhere : ∀ {other : List String}, other ≠ place → ∀ content,
    t.get? other = some (.file content) ↔ t'.get? other = some (.file content)

lemma Leftover.sameFiles_iff (h : t.Leftover p content t' place) :
    t.SameFiles t' ↔ t.get? place = some (.file content) := by
  constructor
  · exact fun hsame => (hsame place content).mpr h.held
  · intro hold other found
    by_cases ho : other = place
    · rw [ho, hold, h.held]
    · exact h.elsewhere ho found

lemma Grows.leftover {t₁ : FileTree} (hgrows : t.Grows along t₁) (h : t₁.writeText p text = .ok t') :
    ∃ place, t.Leftover p text.toUTF8 t' place := by
  obtain ⟨place, hl, hplace, hslash, rfl⟩ := writeText_eq_ok h
  have hne : place ≠ [] := by rintro rfl; exact hplace rfl
  refine ⟨place, locate_put_file hl hplace hslash, get?_put_self hne, ?_⟩
  intro other ho content
  rw [get?_put_of_ne ho]
  exact hgrows.sameFiles other content

lemma find_of_writeText (h : t.writeText p text = .ok t') (hfile : t.find target = .ok (.file content)) :
    ∃ content, t'.find target = .ok (.file content) := by
  obtain ⟨place, _, hplace, _, rfl⟩ := writeText_eq_ok h
  have hne : place ≠ [] := by rintro rfl; exact hplace rfl
  obtain ⟨there, hl, hg⟩ := find_eq_ok.mp hfile
  have hslash : ¬ target.text.endsWith "/" = true := fun he => (locate_eq_ok.mp hl).2.2.2 he content hg
  have hl' : (t.put place (.file text.toUTF8)).locate target = .ok there := locate_put_file hl hplace hslash
  -- Nothing says that the file is not the very one that is written.
  by_cases hthere : there = place
  · rw [← hthere] at hne hl'
    rw [← hthere]
    exact ⟨text.toUTF8, find_eq_ok.mpr ⟨there, hl', get?_put_self hne⟩⟩
  · exact ⟨content, find_eq_ok.mpr ⟨there, hl', (get?_put_of_ne hthere).trans hg⟩⟩

end FileTree

namespace Settings
open FileTree

/-- It is the last step that failed: the temporary file could not take the place of the path. -/
def Unreplaced (path : FilePath) (failure : SettingsFailure) : Prop :=
  ∃ error, failure = .files ("replace config " ++ path.text) error

variable {t t' : FileTree} {path : FilePath} {s : Settings} {text : String} {failure : SettingsFailure}

lemma not_unreplaced {action : String} {error : FileError} (h : action.toList.head? ≠ some 'r') :
    ¬ Unreplaced path (.files action error) := by
  rintro ⟨other, heq⟩
  obtain ⟨rfl, _⟩ := SettingsFailure.files.inj heq
  exact h (by simp)

/-- How a text is not written to a path: before the last step, or in it, when the temporary file has been written. -/
inductive Fails (t : FileTree) (path : FilePath) (text : String) : SettingsFailure → FileTree → Prop
  | early {failure : SettingsFailure} {t' : FileTree} (hkept : ¬ Unreplaced path failure)
      (hgrows : t.Grows path.Upward t') : Fails t path text failure t'
  | late {failure : SettingsFailure} {t₁ t' : FileTree} {error : FileError} (hfailed : Unreplaced path failure)
      (hgrows : t.Grows path.Upward t₁) (hwritten : t₁.writeText (path.withExtension "toml.tmp") text = .ok t')
      (hrename : t'.rename (path.withExtension "toml.tmp") path = .error error) : Fails t path text failure t'

lemma replaceFile_fails (h : replaceFile t path text = (.error failure, t')) : Fails t path text failure t' := by
  rw [replaceFile] at h
  split at h
  · cases h
    exact .early nofun (.refl _ t)
  · next above hparent =>
    have hway {made : Except FileError Unit} {t₁ : FileTree} (hm : t.makeDirectories above = (made, t₁)) :
        t.Grows path.Upward t₁ := (makeDirectories_grows hm).mono fun _ hup => .head hparent hup
    split at h
    · next hm =>
      cases h
      exact .early (not_unreplaced (by simp)) (hway hm)
    · next hm =>
      dsimp only at h
      split at h
      · cases h
        exact .early (not_unreplaced (by simp)) (hway hm)
      · next hw =>
        split at h
        · next error hr =>
          cases h
          exact .late ⟨error, rfl⟩ (hway hm) hw hr
        · cases h

lemma save_fails (h : save t path s = (.error failure, t')) : Fails t path s.render failure t' := by
  rw [save, checked] at h
  split at h
  · next hchecked =>
    cases h
    refine .early ?_ (.refl _ t)
    split at hchecked <;> cases hchecked
    exact nofun
  · next hchecked =>
    split at hchecked <;> cases hchecked
    exact replaceFile_fails h

lemma find_ne_file {t₁ : FileTree} {along : FilePath → Prop} {temporary : FilePath} {error : FileError}
    (hgrows : t.Grows along t₁) (hw : t₁.writeText temporary text = .ok t')
    (hr : t'.rename temporary path = .error error) (content : ByteArray) :
    t.find path ≠ .ok (.file content) ∧ t'.find path ≠ .ok (.file content) := by
  obtain ⟨place, hleft⟩ := hgrows.leftover hw
  have hafter (content : ByteArray) : t'.find path ≠ .ok (.file content) := by
    intro hfile
    obtain ⟨t₂, hok⟩ := exists_rename (find_eq_ok.mpr ⟨place, hleft.located, hleft.held⟩) hfile
    cases hok.symm.trans hr
  refine ⟨?_, hafter content⟩
  intro hfile
  obtain ⟨found, hfound⟩ := find_of_writeText hw (hgrows.find_eq hfile)
  exact hafter found hfound

theorem save_failed (h : save t path s = (.error failure, t')) :
    (¬ Unreplaced path failure → t.SameFiles t' ∧ t.Grows path.Upward t' ∧
      ∀ p node, t.find p = .ok node → t'.find p = .ok node) ∧
    (Unreplaced path failure → (∀ content, t'.find path ≠ .ok (.file content)) ∧
      ∃ place, t.Leftover (path.withExtension "toml.tmp") s.render.toUTF8 t' place ∧
        (t.SameFiles t' ↔ t.get? place = some (.file s.render.toUTF8))) ∧
    ∀ content, t.find path = .ok (.file content) →
      ¬ Unreplaced path failure ∧ t'.find path = .ok (.file content) := by
  cases save_fails h with
  | early hkept hgrows =>
    refine ⟨?_, ?_, ?_⟩
    · exact fun _ => ⟨hgrows.sameFiles, hgrows, fun p node hf => hgrows.find_eq hf⟩
    · exact fun hfailed => absurd hfailed hkept
    · exact fun content hfile => ⟨hkept, hgrows.find_eq hfile⟩
  | late hfailed hgrows hwritten hrename =>
    have hnone := find_ne_file hgrows hwritten hrename
    obtain ⟨place, hleft⟩ := hgrows.leftover hwritten
    refine ⟨?_, ?_, ?_⟩
    · exact fun hkept => absurd hfailed hkept
    · exact fun _ => ⟨fun content => (hnone content).2, place, hleft, hleft.sameFiles_iff⟩
    · exact fun content hfile => absurd hfile (hnone content).1

lemma exists_save {message : String} (h : (save t path s).1.mapError SettingsFailure.message = .error message) :
    ∃ failure t', save t path s = (.error failure, t') ∧ failure.message = message := by
  cases hs : save t path s with
  | mk saved t' =>
    rw [hs] at h
    cases saved with
    | error failure => exact ⟨failure, t', rfl, Except.error.inj h⟩
    | ok _ => cases h

def busy : FileTree := ⟨[(["promoter.toml"], .file "".toUTF8), (["promoter.toml.tmp"], .directory)], []⟩

theorem save_failed_busy : ∃ failure t', save busy ⟨"promoter.toml"⟩ {} = (.error failure, t') ∧
    failure.message = "write temp config promoter.toml.tmp: Is a directory (os error 21)" ∧
    t'.find ⟨"promoter.toml"⟩ = .ok (.file "".toUTF8) ∧ busy.SameFiles t' := by
  have hmessage : (save busy ⟨"promoter.toml"⟩ {}).1.mapError SettingsFailure.message =
      .error "write temp config promoter.toml.tmp: Is a directory (os error 21)" := by
    decide +kernel
  obtain ⟨failure, t', h, hmessage⟩ := exists_save hmessage
  obtain ⟨hsame, _, hold⟩ := save_failed h
  have hfile : busy.find ⟨"promoter.toml"⟩ = .ok (.file "".toUTF8) :=
    find_eq_ok.mpr ⟨["promoter.toml"], by decide +kernel, rfl⟩
  obtain ⟨hkept, hfound⟩ := hold _ hfile
  exact ⟨failure, t', h, hmessage, hfound, (hsame hkept).1⟩

def blocked : FileTree := ⟨[(["promoter.toml"], .directory)], []⟩

theorem save_leaves_temporary : ∃ failure t', save blocked ⟨"promoter.toml"⟩ {} = (.error failure, t') ∧
    failure.message = "replace config promoter.toml: Is a directory (os error 21)" ∧
    blocked.pathExists ⟨"promoter.toml.tmp"⟩ = false ∧
    t'.readText ⟨"promoter.toml.tmp"⟩ = .ok (render {}) ∧ ¬ blocked.SameFiles t' := by
  have hmessage : (save blocked ⟨"promoter.toml"⟩ {}).1.mapError SettingsFailure.message =
      .error "replace config promoter.toml: Is a directory (os error 21)" := by
    decide +kernel
  have hread : (save blocked ⟨"promoter.toml"⟩ {}).2.readText ⟨"promoter.toml.tmp"⟩ = .ok (render {}) := by
    decide +kernel
  obtain ⟨failure, t', h, hmessage⟩ := exists_save hmessage
  rw [h] at hread
  refine ⟨failure, t', h, hmessage, by decide +kernel, hread, ?_⟩
  intro hsame
  obtain ⟨place, _, hleft⟩ := find_eq_ok.mp (Inputs.readText_eq_ok.mp hread)
  have hnone : blocked.get? place ≠ some (.file (render {}).toUTF8) := by
    simp only [get?, blocked, lookup]
    split
    · simp
    · split <;> simp
  exact hnone ((hsame place _).mpr hleft)

end Settings
end Delivery
