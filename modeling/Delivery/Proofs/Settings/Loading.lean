import Delivery.Proofs.CommandLine.Resumption
import Delivery.Proofs.Files.Extensions
import Delivery.Proofs.Settings.Saving
import Delivery.Proofs.Toml.Documents

/-!
Settings that have been saved. They are loaded as they were; the temporary file has taken the place of the path, and no
other file has changed.
-/

namespace Delivery

/-! ### The text -/

namespace Settings
open Toml

def topLines (s : Settings) : List Line :=
  { key := "ui_base_url", text := (Text.write s.uiBaseUrl).toList, node := .value (.string s.uiBaseUrl) } ::
    s.workDirRoot.toList.map fun root =>
      { key := "workdir_root", text := (Text.write root).toList, node := .value (.string root) }

def promotionBlock (s : Settings) : Block where
  key := "promotion"
  lines := [
    { key := "default_error_threshold", text := Nat.toDigits 10 s.promotion.errorThreshold.toNat,
      node := .value (.number (.integer s.promotion.errorThreshold.toNat)) },
    { key := "default_step_timeout_secs", text := Nat.toDigits 10 s.promotion.stepTimeoutSecs.toNat,
      node := .value (.number (.integer s.promotion.stepTimeoutSecs.toNat)) }]

lemma toString_text (text : String) : toString text = text := rfl

lemma toList_word32 (n : UInt32) : (toString n).toList = Nat.toDigits 10 n.toNat := String.toList_ofList

lemma toList_word64 (n : UInt64) : (toString n).toList = Nat.toDigits 10 n.toNat := String.toList_ofList

lemma render_eq (s : Settings) : s.render =
    String.ofList (s.topLines.flatMap Line.render ++ '\n' :: [s.promotionBlock].flatMap Block.render) := by
  rw [← String.toList_inj, String.toList_ofList]
  unfold render
  cases hroot : s.workDirRoot <;>
    simp [topLines, promotionBlock, hroot, Line.render, Block.render, toString_text, toList_word32, toList_word64]

lemma flat (s : Settings) : Flat s.topLines [s.promotionBlock] where
  keys := by cases hroot : s.workDirRoot <;> simp [topLines, promotionBlock, hroot]
  inner := by simp [promotionBlock]
  lines := by
    refine List.forall_mem_cons.mpr ⟨Line.sound_text (by decide) _, ?_⟩
    intro l hl
    obtain ⟨root, _, rfl⟩ := List.mem_map.mp hl
    exact Line.sound_text (by decide) root
  blocks := by
    have hthreshold : s.promotion.errorThreshold.toNat < twoPower 128 :=
      Nat.lt_of_lt_of_le s.promotion.errorThreshold.toNat_lt (by decide)
    have htimeout : s.promotion.stepTimeoutSecs.toNat < twoPower 128 :=
      Nat.lt_of_lt_of_le s.promotion.stepTimeoutSecs.toNat_lt (by decide)
    have hkey : IsKey "promotion" := by decide
    refine List.forall_mem_singleton.mpr ⟨hkey, List.forall_mem_cons.mpr ⟨?_, List.forall_mem_singleton.mpr ?_⟩⟩
    · exact Line.sound_number (by decide) hthreshold
    · exact Line.sound_number (by decide) htimeout

lemma readJson?_render (s : Settings) : readJson? s.render = some (codec.write s) := by
  rw [render_eq, readJson?_document s.flat]
  cases s with
  | mk url root promotion => cases root <;> rfl

end Settings

lemma PromotionDefaults.read_write {origin inner : Origin} (henter : origin.enter = .ok inner) (d : PromotionDefaults) :
    codec.read origin (.ofJson (codec.write d)) = .ok d := by
  refine (Codec.read_record_write (by decide)).mpr ⟨inner, henter, (d.errorThreshold, d.stepTimeoutSecs, ()),
    ⟨?_, ?_, trivial⟩, rfl⟩
  · exact Field.rereads_defaulted (Codec.read_ofJson_word32.mpr rfl)
  · exact Field.rereads_defaulted (Codec.read_ofJson_word64.mpr rfl)

namespace Settings

lemma read_write (s : Settings) : codec.read .loose (.ofJson (codec.write s)) = .ok s := by
  refine (Codec.read_record_write (by decide)).mpr ⟨_, rfl, (s.uiBaseUrl, s.workDirRoot, s.promotion, ()),
    ⟨?_, ?_, ?_, trivial⟩, rfl⟩
  · exact Field.rereads_defaulted rfl
  · exact Field.rereads_optional (fun _ _ => rfl) nofun
  · exact Field.rereads_defaulted (PromotionDefaults.read_write rfl s.promotion)

theorem ofText?_render (s : Settings) : ofText? s.render = some s := by
  rw [ofText?, readJson?_render]
  simp [read_write, Except.toOption]

end Settings

/-! ### The files -/

namespace FileTree

variable {t t₁ t₂ t' : FileTree} {along : FilePath → Prop} {p temporary source target : FilePath} {text : String}
variable {content : ByteArray} {here place there other : List String}

lemma lookup_filter (nodes : List (List String × FileNode)) :
    lookup other (nodes.filter (·.1 ≠ place)) = if other = place then none else lookup other nodes := by
  induction nodes with
  | nil => simp [lookup]
  | cons head nodes ih =>
    obtain ⟨q, n⟩ := head
    rw [List.filter_cons]
    by_cases hq : q = place
    · subst hq
      rw [if_neg (by simp), ih, lookup]
      by_cases ho : other = q
      · rw [if_pos ho, if_pos ho]
      · rw [if_neg ho, if_neg ho, if_neg (Ne.symm ho)]
    · rw [if_pos (by simpa using hq), lookup, lookup, ih]
      by_cases ho : q = other
      · subst ho
        rw [if_pos rfl, if_pos rfl, if_neg hq]
      · rw [if_neg ho, if_neg ho]

lemma get?_remove_of_ne (ho : other ≠ place) : (t.remove place).get? other = t.get? other := by
  simp only [get?, remove, lookup_filter, if_neg ho]

lemma get?_remove_self (hne : place ≠ []) : (t.remove place).get? place = none := by
  have hfull : place.isEmpty = false := by simpa using hne
  simp only [get?, remove, lookup_filter, hfull, Bool.false_eq_true, if_false, if_true]

lemma locate_of_directories (hcurrent : t'.current = t.current)
    (hd : ∀ place, t.isDirectoryAt place = true → t'.isDirectoryAt place = true) (hslash : ¬ p.text.endsWith "/" = true)
    (h : t.locate p = .ok place) : t'.locate p = .ok place := by
  obtain ⟨hempty, hnul, hf, _⟩ := locate_eq_ok.mp h
  rw [← hcurrent] at hf
  exact locate_eq_ok.mpr ⟨hempty, hnul, follow_of_directories hd hf, fun he => absurd he hslash⟩

structure Moves (t : FileTree) (content : ByteArray) (here place : List String) (t' : FileTree) : Prop where
  current : t'.current = t.current
  arrived : t'.get? place = some (.file content)
  gone : here ≠ place → t'.get? here = none
  kept : ∀ {other : List String}, other ≠ here → other ≠ place → t'.get? other = t.get? other

lemma moves_self (hfile : t.get? place = some (.file content)) : t.Moves content place place t where
  current := rfl
  arrived := hfile
  gone hne := absurd rfl hne
  kept _ _ := rfl

lemma moves_remove_put (hfile : t.get? here = some (.file content)) (hplace : t.get? place ≠ some .directory)
    (hne : here ≠ place) : t.Moves content here place ((t.remove here).put place (.file content)) where
  current := rfl
  arrived := get?_put_self (by rintro rfl; exact hplace rfl)
  gone _ := by
    rw [get?_put_of_ne hne]
    exact get?_remove_self (by rintro rfl; cases hfile)
  kept hh hp := by rw [get?_put_of_ne hp, get?_remove_of_ne hh]

lemma Moves.isDirectoryAt (h : t.Moves content here place t') (hfile : t.get? here = some (.file content))
    (hplace : t.get? place ≠ some .directory) (other : List String) (hd : t.isDirectoryAt other = true) :
    t'.isDirectoryAt other = true := by
  rw [isDirectoryAt_iff] at hd ⊢
  rw [h.kept, hd]
  · rintro rfl
    cases hfile.symm.trans hd
  · rintro rfl
    exact hplace hd

lemma rename_eq_ok (hl : t.locate source = .ok here) (hfile : t.get? here = some (.file content))
    (h : t.rename source target = .ok t') : ∃ place, t.locate target = .ok place ∧ t.get? place ≠ some .directory ∧
      ¬ target.text.endsWith "/" = true ∧ t.Moves content here place t' := by
  rw [rename, hl] at h
  cases ht : t.locate target with
  | error error =>
    rw [ht] at h
    cases h
  | ok place =>
    obtain ⟨_, _, _, hslash⟩ := locate_eq_ok.mp ht
    simp only [ht, hfile, bind, Except.bind] at h
    split at h
    · cases h
    · cases h
    · next node hnode hdirectory =>
      cases hnode
      have hend : ¬ target.text.endsWith "/" = true := by
        intro he
        cases hg : t.get? place with
        | none =>
          rw [hg, he] at h
          cases h
        | some found =>
          cases found with
          | file content => exact hslash he content hg
          | directory => exact hdirectory hg
      refine ⟨place, rfl, hdirectory, hend, ?_⟩
      rw [if_neg (by simp [hend])] at h
      split at h
      · next hsame =>
        subst hsame
        cases h
        exact moves_self hfile
      · next hne =>
        cases h
        exact moves_remove_put hfile hdirectory hne

/-- From the first tree to the second a file has taken the place of a path; it had been written to a temporary one. All
directories are still there, and all other files and what they hold are what they were. -/
structure Replaced (t : FileTree) (temporary p : FilePath) (content : ByteArray) (t' : FileTree)
    (place there : List String) : Prop where
  current : t'.current = t.current
  located : t'.locate p = .ok place
  held : t'.get? place = some (.file content)
  beside : t'.locate temporary = .ok there
  gone : there ≠ place → t'.get? there = none
  directories : ∀ {other : List String}, t.isDirectoryAt other = true → t'.isDirectoryAt other = true
  elsewhere : ∀ {other : List String}, other ≠ place → other ≠ there → ∀ content,
    t.get? other = some (.file content) ↔ t'.get? other = some (.file content)

lemma Replaced.anchored (h : t.Replaced temporary p content t' place there) (ht : t.Anchored) : t'.Anchored := by
  intro above habove
  rw [h.current] at habove
  exact h.directories (ht above habove)

lemma exists_replaced (hgrows : t.Grows along t₁) (hw : t₁.writeText temporary text = .ok t₂)
    (hr : t₂.rename temporary p = .ok t') : ∃ place there, t.Replaced temporary p text.toUTF8 t' place there := by
  obtain ⟨there, hl, hfree, hslash, rfl⟩ := writeText_eq_ok hw
  have hne : there ≠ [] := by rintro rfl; exact hfree rfl
  have hwritten : (t₁.put there (.file text.toUTF8)).get? there = some (.file text.toUTF8) := get?_put_self hne
  have hlocated : (t₁.put there (.file text.toUTF8)).locate temporary = .ok there := locate_put_file hl hfree hslash
  obtain ⟨place, htarget, hplace, hend, hmoves⟩ := rename_eq_ok hlocated hwritten hr
  have hdirectories := hmoves.isDirectoryAt hwritten hplace
  refine ⟨place, there, ?_⟩
  constructor
  · exact hmoves.current.trans hgrows.current
  · exact locate_of_directories hmoves.current hdirectories hend htarget
  · exact hmoves.arrived
  · exact locate_of_directories hmoves.current hdirectories hslash hlocated
  · exact hmoves.gone
  · intro other hd
    refine hdirectories other (isDirectoryAt_put_file hfree ?_)
    exact isDirectoryAt_iff.mpr (hgrows.kept (isDirectoryAt_iff.mp hd))
  · intro other hother hthere content
    rw [hmoves.kept hthere hother, get?_put_of_ne hthere]
    exact hgrows.sameFiles other content

lemma Replaced.endsInName (h : t.Replaced temporary p content t' place there) (ht : t.Anchored) : p.EndsInName := by
  by_contra hends
  have hd := isDirectoryAt_of_not_endsInName (h.anchored ht) hends h.located
  rw [isDirectoryAt_iff, h.held] at hd
  cases hd

lemma Replaced.find_temporary {extension : String} (h : t.Replaced (p.withExtension extension) p content t' place there)
    (hends : p.EndsInName) (hslash : '/' ∉ extension.toList) (hdot : '.' ∈ extension.toList) :
    t'.find (p.withExtension extension) = .error .notFound := by
  have hne : there ≠ place := locate_withExtension_ne hends hslash hdot h.located h.beside
  rw [find, h.beside]
  simp only [bind, Except.bind, h.gone hne]
  rfl

end FileTree

namespace Settings
open FileTree

variable {t t' : FileTree} {path : FilePath} {s : Settings} {text : String}

lemma replaceFile_ok (h : replaceFile t path text = (.ok (), t')) :
    ∃ place there, t.Replaced (path.withExtension "toml.tmp") path text.toUTF8 t' place there := by
  rw [replaceFile] at h
  split at h
  · cases h
  · next above hparent =>
    split at h
    · cases h
    · next hm =>
      dsimp only at h
      split at h
      · cases h
      · next hw =>
        split at h
        · cases h
        · next hr =>
          cases h
          exact exists_replaced (makeDirectories_grows hm) hw hr

lemma checked_eq_ok {s' : Settings} (h : s.checked = .ok s') : s' = s ∧ s.problem? = none := by
  rw [checked] at h
  split at h
  · cases h
  · next hnone =>
    cases h
    exact ⟨rfl, hnone⟩

lemma problem?_of_load (h : load t path = .ok s) : s.problem? = none := by
  have hchecked {s' : Settings} (h : s'.checked = .ok s) : s.problem? = none := by
    obtain ⟨rfl, hnone⟩ := checked_eq_ok h
    exact hnone
  rw [load] at h
  split at h
  · exact hchecked h
  · split at h
    · cases h
    · split at h
      · cases h
      · exact hchecked h

lemma load_eq_checked (h : t.find path = .ok (.file text.toUTF8)) (htext : ofText? text = some s) :
    load t path = s.checked := by
  have hexists : t.pathExists path = true := by rw [pathExists, h]; rfl
  simp only [load, hexists, Inputs.readText_eq_ok.mpr h, htext, Bool.not_true, Bool.false_eq_true, if_false]

theorem load_save (h : save t path s = (.ok (), t')) :
    load t' path = .ok s ∧ s.problem? = none ∧
      (∃ place there, t.Replaced (path.withExtension "toml.tmp") path s.render.toUTF8 t' place there) ∧
      (path.EndsInName ∨ t.Anchored → t'.find (path.withExtension "toml.tmp") = .error .notFound) ∧
      ∀ t path s, load t path = .ok s → s.problem? = none := by
  rw [save] at h
  split at h
  · cases h
  · next s' hchecked =>
    obtain ⟨rfl, hnone⟩ := checked_eq_ok hchecked
    obtain ⟨place, there, hreplaced⟩ := replaceFile_ok h
    refine ⟨?_, hnone, ⟨place, there, hreplaced⟩, ?_, fun t path s => problem?_of_load⟩
    · rw [← hchecked]
      exact load_eq_checked (find_eq_ok.mpr ⟨place, hreplaced.located, hreplaced.held⟩) (ofText?_render _)
    · intro hends
      exact hreplaced.find_temporary (hends.elim id hreplaced.endsInName) (by decide) (by decide)

lemma exists_saved (h : (save t path s).1.mapError SettingsFailure.message = .ok ()) :
    ∃ t', save t path s = (.ok (), t') := by
  cases hs : save t path s with
  | mk saved t' =>
    rw [hs] at h
    cases saved with
    | error failure => cases h
    | ok _ => exact ⟨t', rfl⟩

def littered : FileTree :=
  ⟨[(["etc"], .directory), (["etc", "promoter.v2.toml.tmp"], .file "left".toUTF8),
    (["notes"], .file "kept".toUTF8)], []⟩

def quoted : Settings :=
  { uiBaseUrl := "https://ui/\"a\"\n", workDirRoot := some "/srv/é\\'''", promotion := ⟨3, 90⟩ }

theorem load_save_littered : ∃ t', save littered ⟨"etc/promoter.v2.toml"⟩ quoted = (.ok (), t') ∧
    load t' ⟨"etc/promoter.v2.toml"⟩ = .ok quoted ∧
    t'.find ⟨"etc/promoter.v2.toml.tmp"⟩ = .error .notFound := by
  have hsaved : (save littered ⟨"etc/promoter.v2.toml"⟩ quoted).1.mapError SettingsFailure.message = .ok () := by
    decide +kernel
  have htemporary : FilePath.withExtension ⟨"etc/promoter.v2.toml"⟩ "toml.tmp" = ⟨"etc/promoter.v2.toml.tmp"⟩ := by
    decide +kernel
  have hanchored : littered.Anchored := by
    intro place hplace
    obtain rfl := List.prefix_nil.mp hplace
    rfl
  obtain ⟨t', h⟩ := exists_saved hsaved
  obtain ⟨hload, _, _, hgone, _⟩ := load_save h
  rw [htemporary] at hgone
  exact ⟨t', h, hload, hgone (.inr hanchored)⟩

end Settings
end Delivery
