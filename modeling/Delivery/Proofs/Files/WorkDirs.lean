import Delivery.Proofs.Files.Growth
import Delivery.Proofs.Files.Paths
import Mathlib.Data.Bool.AllAny
import Mathlib.Data.List.Forall2

/-! Where working directories are. Each is two plain names below the root, and making it adds nothing to a tree but the
directories on its way. Two promotions have one directory exactly when their names come out alike. -/

namespace Delivery
namespace WorkDir

open FilePath

structure IsComponent (name : String) : Prop where
  plain : ∀ c ∈ name.toList, c.isAlphanum = true ∨ c = '-' ∨ c = '_' ∨ c = '.'
  named : ∃ c ∈ name.toList, c ≠ '.'

variable {name fallback a b : String} {c d : Char}

lemma isPlain_iff : isPlain c = true ↔ c.isAlphanum = true ∨ c = '-' ∨ c = '_' ∨ c = '.' := by
  simp [isPlain, or_assoc]

lemma IsComponent.isName (h : IsComponent name) : IsName name where
  slash hmem := absurd (h.plain '/' hmem) (by decide)
  special hmem := by
    obtain ⟨c, hc, hdot⟩ := h.named
    simp only [List.mem_cons, List.not_mem_nil, or_false] at hmem
    obtain rfl | rfl | rfl := hmem <;> simp_all

def cleaned (name : String) : List Char := name.toList.map fun c => if isPlain c then c else '_'

lemma clean_eq_dot_iff : (if isPlain c then c else '_') = '.' ↔ c = '.' := by
  by_cases hc : isPlain c = true
  · rw [if_pos hc]
  · rw [if_neg hc]
    refine iff_of_false (by decide) ?_
    rintro rfl
    exact hc (by decide)

lemma cleaned_dots_iff : (cleaned name).all (· == '.') = true ↔ ∀ c ∈ name.toList, c = '.' := by
  simp only [cleaned, List.all_map, List.all_eq_true, Function.comp_apply, beq_iff_eq, clean_eq_dot_iff]

lemma component_of_dots (h : ∀ c ∈ name.toList, c = '.') : component name fallback = fallback :=
  if_pos (cleaned_dots_iff.mpr h)

lemma component_of_not_dots (h : ¬ ∀ c ∈ name.toList, c = '.') :
    component name fallback = String.ofList (cleaned name) :=
  if_neg (mt cleaned_dots_iff.mp h)

theorem component_isComponent (hf : IsComponent fallback) : IsComponent (component name fallback) := by
  by_cases hdots : ∀ c ∈ name.toList, c = '.'
  · rwa [component_of_dots hdots]
  · rw [component_of_not_dots hdots]
    push Not at hdots
    obtain ⟨c, hc, hdot⟩ := hdots
    refine ⟨?_, ?_⟩
    · intro d hd
      rw [String.toList_ofList, cleaned, List.mem_map] at hd
      obtain ⟨c, _, rfl⟩ := hd
      split
      · next hplain => exact isPlain_iff.mp hplain
      · simp
    · refine ⟨if isPlain c then c else '_', ?_, mt clean_eq_dot_iff.mp hdot⟩
      rw [String.toList_ofList]
      exact List.mem_map_of_mem hc

theorem component_of_isComponent (h : IsComponent name) : component name fallback = name := by
  obtain ⟨c, hc, hdot⟩ := h.named
  have hkept : cleaned name = name.toList := by
    apply (List.map_congr_left _).trans (List.map_id _)
    intro c hc
    exact if_pos (isPlain_iff.mpr (h.plain c hc))
  rw [component_of_not_dots (fun hall => hdot (hall c hc)), hkept, String.ofList_toList]

/-! ### Names that come out alike -/

/-- What comes out as an underscore: everything but letters, digits, hyphens and dots. -/
def Masked (c : Char) : Prop := ¬ (c.isAlphanum = true ∨ c = '-' ∨ c = '.')

instance : DecidablePred Masked := fun _ => inferInstanceAs (Decidable (¬ _))

/-- Names that differ only where both are masked. -/
def Alike (a b : String) : Prop :=
  List.Forall₂ (fun c d => c = d ∨ Masked c ∧ Masked d) a.toList b.toList

/-- Names for which the fallback stands, and the fallback itself. -/
def Nameless (fallback name : String) : Prop := (∀ c ∈ name.toList, c = '.') ∨ name = fallback

/-- A name that may stand for others: nothing of it is masked. -/
structure IsFallback (name : String) : Prop where
  unmasked : ∀ c ∈ name.toList, ¬ Masked c
  named : ∃ c ∈ name.toList, c ≠ '.'

def Confused (fallback a b : String) : Prop := Alike a b ∨ Nameless fallback a ∧ Nameless fallback b

lemma clean_of_masked (h : Masked c) : (if isPlain c then c else '_') = '_' := by
  split
  · next hc =>
    have hplain := isPlain_iff.mp hc
    grind [Masked]
  · rfl

lemma clean_of_not_masked (h : ¬ Masked c) : (if isPlain c then c else '_') = c := by
  apply if_pos
  rw [isPlain_iff]
  grind [Masked]

lemma clean_eq_iff : (if isPlain c then c else '_') = (if isPlain d then d else '_') ↔
    c = d ∨ Masked c ∧ Masked d := by
  have hunderscore : Masked '_' := by decide
  by_cases hc : Masked c <;> by_cases hd : Masked d
  · rw [clean_of_masked hc, clean_of_masked hd]
    exact iff_of_true rfl (.inr ⟨hc, hd⟩)
  · rw [clean_of_masked hc, clean_of_not_masked hd]
    grind
  · rw [clean_of_not_masked hc, clean_of_masked hd]
    grind
  · rw [clean_of_not_masked hc, clean_of_not_masked hd]
    grind

lemma cleaned_eq_iff : cleaned a = cleaned b ↔ Alike a b := by
  rw [← List.forall₂_eq_eq_eq, cleaned, cleaned, List.forall₂_map_left_iff, List.forall₂_map_right_iff]
  simp only [clean_eq_iff, Alike]

lemma Alike.symm (h : Alike a b) : Alike b a := by
  rw [← cleaned_eq_iff] at h ⊢
  exact h.symm

lemma Alike.eq_of_unmasked (h : Alike a b) (hb : ∀ c ∈ b.toList, ¬ Masked c) : a = b := by
  rw [← String.toList_inj]
  rw [Alike] at h
  generalize a.toList = xs at h
  generalize b.toList = ys at h hb
  induction h with
  | nil => rfl
  | cons hcd _ ih =>
    obtain ⟨hd, hrest⟩ := List.forall_mem_cons.mp hb
    rw [ih hrest, hcd.resolve_right fun hmasked => hd hmasked.2]

lemma Nameless.unmasked (hf : IsFallback fallback) (h : Nameless fallback name) :
    ∀ c ∈ name.toList, ¬ Masked c := by
  obtain h | rfl := h
  · intro c hc
    rw [h c hc]
    decide
  · exact hf.unmasked

lemma component_of_not_nameless (h : ¬ Nameless fallback name) :
    component name fallback = String.ofList (cleaned name) :=
  component_of_not_dots fun hdots => h (.inl hdots)

lemma component_eq_fallback_iff (hf : IsFallback fallback) :
    component name fallback = fallback ↔ Nameless fallback name := by
  have hkept : String.ofList (cleaned fallback) = fallback := by
    have hmap : cleaned fallback = fallback.toList :=
      (List.map_congr_left fun c hc => clean_of_not_masked (hf.unmasked c hc)).trans (List.map_id _)
    rw [hmap, String.ofList_toList]
  constructor
  · intro h
    by_contra hn
    rw [component_of_not_nameless hn] at h
    have halike : Alike name fallback := by
      rw [← cleaned_eq_iff, ← String.ofList_inj, h, hkept]
    exact hn (.inr (halike.eq_of_unmasked hf.unmasked))
  · intro h
    by_cases hdots : ∀ c ∈ name.toList, c = '.'
    · exact component_of_dots hdots
    · obtain rfl := h.resolve_left hdots
      rw [component_of_not_dots hdots]
      exact hkept

theorem component_eq_iff (hf : IsFallback fallback) :
    component a fallback = component b fallback ↔ Confused fallback a b := by
  -- A name that gives way to the fallback holds nothing masked, so it is alike to no name but itself.
  by_cases hb : Nameless fallback b
  · rw [(component_eq_fallback_iff hf).mpr hb, component_eq_fallback_iff hf]
    constructor
    · exact fun ha => .inr ⟨ha, hb⟩
    · rintro (halike | ⟨ha, _⟩)
      · rwa [halike.eq_of_unmasked (hb.unmasked hf)]
      · exact ha
  · by_cases ha : Nameless fallback a
    · rw [(component_eq_fallback_iff hf).mpr ha, eq_comm, component_eq_fallback_iff hf]
      refine iff_of_false hb ?_
      rintro (halike | ⟨_, hb'⟩)
      · rw [halike.symm.eq_of_unmasked (ha.unmasked hf)] at hb
        exact hb ha
      · exact hb hb'
    · rw [component_of_not_nameless ha, component_of_not_nameless hb, String.ofList_inj, cleaned_eq_iff]
      exact ⟨.inl, fun h => h.resolve_right fun hboth => ha hboth.1⟩

/-! ### The directories -/

lemma isFallback_project : IsFallback "default" where
  unmasked := by simp [Masked]
  named := ⟨'d', by simp, by decide⟩

lemma isFallback_promotion : IsFallback "promotion" where
  unmasked := by simp [Masked]
  named := ⟨'p', by simp, by decide⟩

lemma IsFallback.isComponent (h : IsFallback name) : IsComponent name where
  plain c hc := by
    have hunmasked := h.unmasked c hc
    grind [Masked]
  named := h.named

variable {t t' : FileTree} {root dir : FilePath} {project promotion : String}

lemma component_project : IsComponent (component project "default") :=
  component_isComponent isFallback_project.isComponent

lemma component_promotion : IsComponent (component promotion "promotion") :=
  component_isComponent isFallback_promotion.isComponent

lemma prepare_eq_ok : prepare t root project promotion = (.ok dir, t') ↔
    dir = path root project promotion ∧ t.makeDirectories dir = (.ok (), t') := by
  simp only [prepare]
  cases hm : t.makeDirectories (path root project promotion) with
  | mk made t₁ =>
    constructor
    · intro h
      cases made with
      | error error => cases h
      | ok _ =>
        cases h
        exact ⟨rfl, hm⟩
    · rintro ⟨rfl, h⟩
      cases hm.symm.trans h
      rfl

theorem prepare_contained (h : prepare t root project promotion = (.ok dir, t')) :
    (∃ first second, dir = (root.join ⟨first⟩).join ⟨second⟩ ∧ dir.names = root.names ++ [first, second] ∧
      dir.isAbsolute = root.isAbsolute ∧ IsComponent first ∧ IsComponent second ∧
      (IsComponent project → first = project) ∧ (IsComponent promotion → second = promotion)) ∧
    t'.isDirectory dir = true ∧
    (∀ p node, t.find p = .ok node → t'.find p = .ok node) ∧
    (∀ place node, t.get? place = some node → t'.get? place = some node) ∧
    (∀ place node, t.get? place = none → t'.get? place = some node →
      node = .directory ∧ ∃ p, dir.Upward p ∧ t'.locate p = .ok place) ∧
    prepare t' root project promotion = (.ok dir, t') := by
  obtain ⟨hdir, hmade⟩ := prepare_eq_ok.mp h
  have hgrows : t.Grows dir.Upward t' := FileTree.makeDirectories_grows hmade
  refine ⟨⟨component project "default", component promotion "promotion", hdir, ?_, ?_, component_project,
    component_promotion, component_of_isComponent, component_of_isComponent⟩, ?_, ?_, ?_, ?_, prepare_again h⟩
  · rw [hdir, path, names_join component_promotion.isName, names_join component_project.isName, List.append_assoc]
    rfl
  · rw [hdir, path, isAbsolute_join component_promotion.isName, isAbsolute_join component_project.isName]
  · apply FileTree.isDirectory_of_makeDirectories _ hmade
    rw [hdir]
    exact join_ne_empty component_promotion.isName
  · exact fun p node hf => hgrows.find_eq hf
  · exact fun place node hg => hgrows.kept hg
  · exact fun place node hn hs => hgrows.made hn hs

lemma exists_prepare (h : (prepare t root project promotion).1 = .ok dir) :
    ∃ t', prepare t root project promotion = (.ok dir, t') := by
  cases hp : prepare t root project promotion with
  | mk made t' =>
    rw [hp] at h
    exact ⟨t', congrArg (·, t') h⟩

theorem prepare_contained_traversal : ∃ t', prepare .empty ⟨"/srv"⟩ "../../etc" ".." =
      (.ok ⟨"/srv/.._.._etc/promotion"⟩, t') ∧
    t'.isDirectory ⟨"/srv/.._.._etc/promotion"⟩ = true ∧
    prepare t' ⟨"/srv"⟩ "../../etc" ".." = (.ok ⟨"/srv/.._.._etc/promotion"⟩, t') := by
  have hok : (prepare .empty ⟨"/srv"⟩ "../../etc" "..").1 = .ok ⟨"/srv/.._.._etc/promotion"⟩ := by
    decide +kernel
  obtain ⟨t', h⟩ := exists_prepare hok
  obtain ⟨_, hd, _, _, _, hagain⟩ := prepare_contained h
  exact ⟨t', h, hd, hagain⟩

/-! ### Two promotions -/

/-- Nothing stands below both paths. -/
def Apart (t : FileTree) (p q : FilePath) : Prop := ∀ {place place' below : List String},
  t.locate p = .ok place → t.locate q = .ok place' → place <+: below → ¬ place' <+: below

variable {project₁ project₂ promotion₁ promotion₂ : String}

lemma apart_of_ne {p : FilePath} {first first' second second' : String} (h₁ : IsName first) (h₁' : IsName first')
    (h₂ : IsName second) (h₂' : IsName second')
    (hne : (p.join ⟨first⟩).join ⟨second⟩ ≠ (p.join ⟨first'⟩).join ⟨second'⟩) (t : FileTree) :
    Apart t ((p.join ⟨first⟩).join ⟨second⟩) ((p.join ⟨first'⟩).join ⟨second'⟩) := by
  intro place place' below hl hl' hbelow hbelow'
  obtain ⟨base, hbase⟩ := t.locate_join_join p
  obtain rfl := hbase h₁ h₂ hl
  obtain rfl := hbase h₁' h₂' hl'
  -- Two fronts of one list that are of one length are equal.
  have hplaces : base ++ [first, second] = base ++ [first', second'] :=
    (List.prefix_of_prefix_length_le hbelow hbelow' (by simp)).eq_of_length (by simp)
  apply hne
  apply (join_join_inj h₁ h₁' h₂ h₂').mpr
  simpa using List.append_cancel_left hplaces

lemma path_eq_path_iff : path root project₁ promotion₁ = path root project₂ promotion₂ ↔
    component project₁ "default" = component project₂ "default" ∧
    component promotion₁ "promotion" = component promotion₂ "promotion" :=
  join_join_inj component_project.isName component_project.isName component_promotion.isName
    component_promotion.isName

lemma path_eq_iff_confused : path root project₁ promotion₁ = path root project₂ promotion₂ ↔
    Confused "default" project₁ project₂ ∧ Confused "promotion" promotion₁ promotion₂ := by
  rw [path_eq_path_iff, component_eq_iff isFallback_project, component_eq_iff isFallback_promotion]

theorem prepare_separates {t₁ t₁' t₂ t₂' : FileTree} {dir₁ dir₂ : FilePath}
    (h₁ : prepare t₁ root project₁ promotion₁ = (.ok dir₁, t₁'))
    (h₂ : prepare t₂ root project₂ promotion₂ = (.ok dir₂, t₂')) :
    (dir₁ = dir₂ ↔ Confused "default" project₁ project₂ ∧ Confused "promotion" promotion₁ promotion₂) ∧
    (dir₁ ≠ dir₂ → ∀ t, Apart t dir₁ dir₂) ∧
    (IsComponent project₁ → IsComponent project₂ → IsComponent promotion₁ → IsComponent promotion₂ →
      (dir₁ = dir₂ ↔ project₁ = project₂ ∧ promotion₁ = promotion₂)) := by
  obtain ⟨rfl, _⟩ := prepare_eq_ok.mp h₁
  obtain ⟨rfl, _⟩ := prepare_eq_ok.mp h₂
  refine ⟨path_eq_iff_confused, ?_, ?_⟩
  · exact apart_of_ne component_project.isName component_project.isName component_promotion.isName
      component_promotion.isName
  · intro hp₁ hp₂ hq₁ hq₂
    rw [path_eq_path_iff, component_of_isComponent hp₁, component_of_isComponent hp₂, component_of_isComponent hq₁,
      component_of_isComponent hq₂]

theorem prepare_separates_releases : ∃ t₁ t₂,
    prepare .empty ⟨"/srv"⟩ "payments" "prod.01" = (.ok ⟨"/srv/payments/prod.01"⟩, t₁) ∧
    prepare t₁ ⟨"/srv"⟩ "payments" "prod.02" = (.ok ⟨"/srv/payments/prod.02"⟩, t₂) ∧
    ∀ t, Apart t ⟨"/srv/payments/prod.01"⟩ ⟨"/srv/payments/prod.02"⟩ := by
  have hok₁ : (prepare .empty ⟨"/srv"⟩ "payments" "prod.01").1 = .ok ⟨"/srv/payments/prod.01"⟩ := by
    decide +kernel
  have hok₂ : (prepare (prepare .empty ⟨"/srv"⟩ "payments" "prod.01").2 ⟨"/srv"⟩ "payments" "prod.02").1 =
      .ok ⟨"/srv/payments/prod.02"⟩ := by
    decide +kernel
  obtain ⟨t₁, h₁⟩ := exists_prepare hok₁
  rw [h₁] at hok₂
  obtain ⟨t₂, h₂⟩ := exists_prepare hok₂
  exact ⟨t₁, t₂, h₁, h₂, (prepare_separates h₁ h₂).2.1 (by decide)⟩

theorem prepare_shares : ∃ dir t₁ t₂ t₃, prepare .empty ⟨"/srv"⟩ "team/api" "prod.01" = (.ok dir, t₁) ∧
    t₁.writeText (dir.join ⟨"token"⟩) "secret" = .ok t₂ ∧
    prepare t₂ ⟨"/srv"⟩ "team_api" "prod.01" = (.ok dir, t₃) ∧
    t₃.readText (dir.join ⟨"token"⟩) = .ok "secret" := by
  let dir : FilePath := ⟨"/srv/team_api/prod.01"⟩
  have hdir : (prepare .empty ⟨"/srv"⟩ "team/api" "prod.01").1 = .ok dir := by decide +kernel
  have hshared : (do
      let t ← (prepare .empty ⟨"/srv"⟩ "team/api" "prod.01").2.writeText (dir.join ⟨"token"⟩) "secret"
      let again := prepare t ⟨"/srv"⟩ "team_api" "prod.01"
      return (again.1, again.2.readText (dir.join ⟨"token"⟩))) = .ok (.ok dir, .ok "secret") := by
    decide +kernel
  obtain ⟨t₁, h₁⟩ := exists_prepare hdir
  rw [h₁] at hshared
  cases hwrite : t₁.writeText (dir.join ⟨"token"⟩) "secret" with
  | error error =>
    rw [hwrite] at hshared
    cases hshared
  | ok t₂ =>
    rw [hwrite] at hshared
    obtain ⟨hagain, hread⟩ := Prod.mk.inj (Except.ok.inj hshared)
    obtain ⟨t₃, h₃⟩ := exists_prepare hagain
    rw [h₃] at hread
    exact ⟨dir, t₁, t₂, t₃, h₁, hwrite, h₃, hread⟩

end WorkDir
end Delivery
