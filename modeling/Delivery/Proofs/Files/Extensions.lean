import Delivery.Proofs.Files.Growth
import Delivery.Proofs.Files.Paths
import Mathlib.Data.List.Induction
import Mathlib.Data.List.TakeWhile

/-! Paths with another extension. Such a path leads to another place of the same directory. A path that ends in no name
stays what it is, and leads to a directory. -/

namespace Delivery
namespace FilePath

variable {p : FilePath} {name extension : String} {front behind : List String}

/-! ### Segments -/

lemma splitOn_spec {α : Type} [BEq α] [LawfulBEq α] {a : α} {xs : List α} : ∀ part ∈ xs.splitOn a, a ∉ part := by
  induction xs with
  | nil => simp
  | cons x xs ih =>
    rw [List.splitOn_cons_eq_if_modifyHead]
    split
    · exact List.forall_mem_cons.mpr ⟨List.not_mem_nil, ih⟩
    · next hx =>
      obtain ⟨part, parts, hparts⟩ := List.exists_cons_of_ne_nil (List.splitOn_ne_nil a xs)
      rw [hparts] at ih ⊢
      obtain ⟨hpart, hrest⟩ := List.forall_mem_cons.mp ih
      refine List.forall_mem_cons.mpr ⟨?_, hrest⟩
      rintro (_ | ⟨_, hmem⟩)
      · exact hx (beq_self_eq_true a)
      · exact hpart hmem

lemma slash_of_segment : ∀ segment ∈ p.segments, '/' ∉ segment.toList := by
  intro segment hmem
  obtain ⟨part, hpart, rfl⟩ := List.mem_map.mp hmem
  rw [String.toList_ofList]
  exact splitOn_spec part hpart

lemma segments_intercalate {parts : List String} (hne : parts ≠ []) (h : ∀ part ∈ parts, '/' ∉ part.toList) :
    segments ⟨String.intercalate "/" parts⟩ = parts := by
  have hparts : (['/'].intercalate (parts.map String.toList)).splitOn '/' = parts.map String.toList :=
    List.splitOn_intercalate '/' (List.forall_mem_map.mpr h) (by simpa using hne)
  have hslash : "/".toList = ['/'] := by decide
  rw [segments, String.toList_intercalate, hslash, hparts, List.map_map]
  simp [Function.comp_def]

lemma isAbsolute_iff_segments : p.isAbsolute = true ↔ ∃ rest, p.segments = "" :: rest ∧ rest ≠ [] := by
  rw [isAbsolute_iff, segments]
  cases p.text.toList with
  | nil => simp
  | cons c rest =>
    rw [List.splitOn_cons_eq_if_modifyHead]
    obtain ⟨part, parts, hparts⟩ := List.exists_cons_of_ne_nil (List.splitOn_ne_nil '/' rest)
    by_cases hc : c = '/'
    · subst hc
      simp [hparts]
    · simp [hparts, hc]

lemma eq_empty_of_segments (h : p.segments = [""]) : p.text = "" := by
  obtain ⟨part, hpart, hempty⟩ := List.map_eq_singleton_iff.mp h
  obtain rfl : part = [] := by simpa using hempty
  have htext : ['/'].intercalate (p.text.toList.splitOn '/') = p.text.toList := List.intercalate_splitOn '/'
  rw [hpart] at htext
  exact String.toList_eq_nil_iff.mp htext.symm

/-- The last segment that means something, what stands before it, and what stands behind it and means nothing. -/
structure Ends (p : FilePath) (front : List String) (name : String) (behind : List String) : Prop where
  segments : p.segments = front ++ name :: behind
  counts : isNamed front.length name = true
  behind : ∀ segment ∈ behind, segment ∈ ["", "."]

def Blank (p : FilePath) : Prop := ∃ behind, p.segments = "" :: behind ∧ ∀ segment ∈ behind, segment ∈ ["", "."]

lemma of_not_isNamed {index : ℕ} {segment : String} (h : ¬ isNamed index segment = true) :
    segment = "" ∨ segment = "." ∧ index ≠ 0 := by
  simp only [isNamed, Bool.and_eq_true, bne_iff_ne, Bool.or_eq_true, beq_iff_eq, not_and_or, not_or, not_not] at h
  exact h

lemma exists_last (segments : List String) :
    (∀ s ∈ segments.zipIdx, ¬ isNamed s.2 s.1 = true) ∨ ∃ front name behind, segments = front ++ name :: behind ∧
      isNamed front.length name = true ∧ ∀ segment ∈ behind, segment ∈ ["", "."] := by
  induction segments using List.reverseRecOn with
  | nil => exact .inl nofun
  | append_singleton segments last ih =>
    by_cases hlast : isNamed segments.length last = true
    · exact .inr ⟨segments, last, [], rfl, hlast, List.forall_mem_nil _⟩
    · obtain hnone | ⟨front, name, behind, rfl, hname, hbehind⟩ := ih
      · refine .inl ?_
        rw [List.zipIdx_append, List.forall_mem_append]
        exact ⟨hnone, by simpa using hlast⟩
      · refine .inr ⟨front, name, behind ++ [last], by simp, hname, ?_⟩
        rw [List.forall_mem_append]
        refine ⟨hbehind, List.forall_mem_singleton.mpr ?_⟩
        obtain rfl | ⟨rfl, _⟩ := of_not_isNamed hlast <;> simp

lemma blank_or_ends (p : FilePath) : p.Blank ∨ ∃ front name behind, p.Ends front name behind := by
  obtain hnone | ⟨front, name, behind, hsegments, hname, hbehind⟩ := exists_last p.segments
  · refine .inl ?_
    obtain ⟨first, behind, hsegments⟩ : ∃ first behind, p.segments = first :: behind :=
      List.exists_cons_of_ne_nil (by simp [segments, List.splitOn_ne_nil])
    rw [hsegments, List.zipIdx_cons, List.forall_mem_cons] at hnone
    obtain ⟨hfirst, hnone⟩ := hnone
    obtain rfl | ⟨_, hzero⟩ := of_not_isNamed hfirst
    · refine ⟨behind, hsegments, fun segment hmem => ?_⟩
      rw [← List.zipIdx_map_fst 1 behind] at hmem
      obtain ⟨indexed, hindexed, rfl⟩ := List.mem_map.mp hmem
      obtain hempty | ⟨hdot, _⟩ := of_not_isNamed (hnone _ hindexed)
      · simp [hempty]
      · simp [hdot]
    · exact absurd rfl hzero
  · exact .inr ⟨front, name, behind, hsegments, hname, hbehind⟩

/-! ### Extensions -/

lemma split_at_last_dot {name : List Char} (h : ((name.reverse.dropWhile (· ≠ '.')).drop 1).reverse ≠ []) :
    ∃ behind, '.' ∉ behind ∧ name = ((name.reverse.dropWhile (· ≠ '.')).drop 1).reverse ++ '.' :: behind := by
  have hparts := List.takeWhile_append_dropWhile (p := (· ≠ '.')) (l := name.reverse)
  cases hdrop : name.reverse.dropWhile (· ≠ '.') with
  | nil =>
    rw [hdrop] at h
    exact absurd rfl h
  | cons c before =>
    have hc : c = '.' := by
      have hne := List.head?_dropWhile_not (· ≠ '.') name.reverse
      rw [hdrop] at hne
      simpa using hne
    refine ⟨(name.reverse.takeWhile (· ≠ '.')).reverse, ?_, ?_⟩
    · rw [List.mem_reverse]
      intro hmem
      simpa using List.mem_takeWhile_imp hmem
    · rw [hdrop, hc] at hparts
      simpa using (congrArg List.reverse hparts).symm

lemma stem_append_ne (name : List Char) {extension : List Char} (h : '.' ∈ extension) :
    stem name ++ '.' :: extension ≠ name := by
  rw [stem]
  split
  · intro heq
    have hlength := congrArg List.length heq
    simp at hlength
  · next hbefore =>
    obtain ⟨behind, hdot, hname⟩ := split_at_last_dot (by simpa using hbefore)
    intro heq
    have hbehind := List.append_cancel_left (heq.trans hname)
    obtain rfl : extension = behind := (List.cons.inj hbehind).2
    exact hdot h

lemma mem_of_mem_stem {c : Char} {name : List Char} (h : c ∈ stem name) : c ∈ name := by
  rw [stem] at h
  split at h
  · exact h
  · rw [List.mem_reverse] at h
    exact List.mem_reverse.mp ((List.dropWhile_sublist _).mem (List.mem_of_mem_drop h))

lemma stem_ne_nil {name : List Char} (h : name ≠ []) : stem name ≠ [] := by
  rw [stem]
  split
  · exact h
  · next hbefore => simpa using hbefore

def renamed (name extension : String) : String := String.ofList (stem name.toList) ++ "." ++ extension

lemma Ends.last (h : p.Ends front name behind) : (named p.segments).getLast? = some front.length := by
  have hbehind : (behind.zipIdx (front.length + 1)).filter (fun s => isNamed s.2 s.1) = [] := by
    refine List.filter_eq_nil_iff.mpr fun s hs => ?_
    have hindex := List.le_snd_of_mem_zipIdx hs
    have hs := h.behind s.1 (List.fst_mem_of_mem_zipIdx hs)
    simp only [List.mem_cons, List.not_mem_nil, or_false] at hs
    obtain hs | hs := hs
    · simp [isNamed, hs]
    · have hzero : s.2 ≠ 0 := by omega
      simp [isNamed, hs, hzero]
  rw [named, h.segments, List.zipIdx_append, List.filter_append, List.zipIdx_cons, List.filter_cons, if_pos,
    Nat.zero_add, hbehind]
  · simp
  · simpa using h.counts

lemma Ends.withExtension_eq (h : p.Ends front name behind) : p.withExtension extension =
    if name = "." || name = ".." then p else ⟨String.intercalate "/" (front ++ [renamed name extension])⟩ := by
  rw [withExtension, h.last, h.segments]
  simp [renamed]

/-- The path ends in a name, which is not its directory or the one above. -/
def EndsInName (p : FilePath) : Prop := ∃ front name behind, p.Ends front name behind ∧ IsName name

lemma Ends.isName (h : p.Ends front name behind) (hdot : name ≠ ".") (hdots : name ≠ "..") : IsName name where
  slash := slash_of_segment name (by rw [h.segments]; simp)
  special := by
    have hempty : name ≠ "" := by
      rintro rfl
      cases h.counts
    simp [hempty, hdot, hdots]

lemma toList_renamed (name extension : String) :
    (renamed name extension).toList = stem name.toList ++ '.' :: extension.toList := by
  simp [renamed]

lemma isName_renamed (h : IsName name) (hslash : '/' ∉ extension.toList) (hdot : '.' ∈ extension.toList) :
    IsName (renamed name extension) where
  slash := by
    rw [toList_renamed, List.mem_append, List.mem_cons, not_or, not_or]
    exact ⟨fun hmem => h.slash (mem_of_mem_stem hmem), by decide, hslash⟩
  special := by
    have hshort : ∀ special ∈ ["", ".", ".."], special.toList.length ≤ 2 := by decide
    intro hspecial
    have hlength := hshort _ hspecial
    have hstem := List.length_pos_iff.mpr (stem_ne_nil (by simpa using h.ne_empty : name.toList ≠ []))
    have hextension := List.length_pos_of_mem hdot
    rw [toList_renamed, List.length_append, List.length_cons] at hlength
    omega

lemma Ends.withExtension (h : p.Ends front name behind) (hname : IsName name) (hslash : '/' ∉ extension.toList)
    (hdot : '.' ∈ extension.toList) : (p.withExtension extension).Ends front (renamed name extension) [] := by
  have hrenamed := isName_renamed hname hslash hdot
  have hspecial := hname.special
  simp only [List.mem_cons, List.not_mem_nil, or_false, not_or] at hspecial
  have heq : p.withExtension extension = ⟨String.intercalate "/" (front ++ [renamed name extension])⟩ := by
    simp [h.withExtension_eq, hspecial]
  refine ⟨?_, hrenamed.isNamed _, List.forall_mem_nil _⟩
  rw [heq]
  refine segments_intercalate (by simp) ?_
  rw [List.forall_mem_append]
  refine ⟨fun part hpart => slash_of_segment part (h.segments ▸ List.mem_append_left _ hpart), ?_⟩
  exact List.forall_mem_singleton.mpr hrenamed.slash

lemma Ends.isAbsolute_eq {q : FilePath} {name' : String} {behind' : List String} (h : p.Ends front name behind)
    (h' : q.Ends front name' behind') (hname : name ≠ "") (hname' : name' ≠ "") : p.isAbsolute = q.isAbsolute := by
  rw [Bool.eq_iff_iff, isAbsolute_iff_segments, isAbsolute_iff_segments, h.segments, h'.segments]
  cases front with
  | nil => simp [hname, hname']
  | cons first front => simp

end FilePath

/-! ### Places -/

namespace FileTree

variable {t t' : FileTree} {p : FilePath} {place place' : List String} {name extension : String}
variable {front behind : List String}

/-- The current directory and those above it are there. -/
def Anchored (t : FileTree) : Prop := ∀ place, place <+: t.current → t.isDirectoryAt place = true

lemma Grows.anchored {along : FilePath → Prop} (h : t.Grows along t') (ht : t.Anchored) : t'.Anchored := by
  intro place hplace
  rw [h.current] at hplace
  exact isDirectoryAt_iff.mpr (h.kept (isDirectoryAt_iff.mp (ht place hplace)))

lemma isDirectoryAt_of_follow {segment : String} {rest : List String}
    (h : t.follow place (segment :: rest) = .ok place') : t.isDirectoryAt place = true := by
  rw [follow] at h
  split at h
  · cases h
  · next hd => simpa using hd

lemma follow_behind (hbehind : ∀ segment ∈ behind, segment ∈ ["", "."]) (h : t.follow place behind = .ok place') :
    place' = place := by
  induction behind with
  | nil =>
    cases h
    rfl
  | cons segment behind ih =>
    obtain ⟨hsegment, hbehind⟩ := List.forall_mem_cons.mp hbehind
    have hd := isDirectoryAt_of_follow h
    have hsegment : (segment = "" || segment = ".") = true := by simpa using hsegment
    rw [follow, hd, Bool.not_true, if_neg Bool.false_ne_true, if_pos hsegment] at h
    exact ih hbehind h

lemma follow_append_eq_ok {xs ys : List String} (h : t.follow place (xs ++ ys) = .ok place') :
    ∃ base, t.follow place xs = .ok base ∧ t.follow base ys = .ok place' := by
  rw [follow_append] at h
  cases hbase : t.follow place xs with
  | error error =>
    rw [hbase] at h
    cases h
  | ok base =>
    rw [hbase] at h
    exact ⟨base, rfl, h⟩

lemma trim_append (front behind : List String) (hname : name ≠ "") : ∃ rest, rest <+: behind ∧
    ((front ++ name :: behind).reverse.dropWhile (· == "")).reverse = front ++ name :: rest := by
  induction behind using List.reverseRecOn with
  | nil => exact ⟨[], List.prefix_refl [], by simp [hname]⟩
  | append_singleton behind last ih =>
    by_cases hlast : last = ""
    · obtain ⟨rest, hrest, htrim⟩ := ih
      refine ⟨rest, hrest.trans (List.prefix_append _ _), ?_⟩
      rw [← htrim, hlast]
      simp
    · exact ⟨behind ++ [last], List.prefix_refl _, by simp [hlast]⟩

lemma follow_of_locate (hends : p.Ends front name behind) (h : t.locate p = .ok place) :
    ∃ base, t.follow (if p.isAbsolute then [] else t.current) front = .ok base ∧ t.follow base [name] = .ok place := by
  have hname : name ≠ "" := by
    rintro rfl
    cases hends.counts
  obtain ⟨_, _, hf, _⟩ := locate_eq_ok.mp h
  obtain ⟨rest, hrest, htrim⟩ := trim_append front behind hname
  rw [hends.segments, htrim, List.append_cons] at hf
  obtain ⟨reached, hreached, hrest'⟩ := follow_append_eq_ok hf
  obtain rfl := follow_behind (fun segment hs => hends.behind segment (hrest.subset hs)) hrest'
  exact follow_append_eq_ok hreached

lemma locate_name (hends : p.Ends front name behind) (hname : FilePath.IsName name) (h : t.locate p = .ok place) :
    ∃ base, t.follow (if p.isAbsolute then [] else t.current) front = .ok base ∧ place = base ++ [name] := by
  obtain ⟨base, hbase, hlast⟩ := follow_of_locate hends h
  cases follow_name hname hlast
  exact ⟨base, hbase, rfl⟩

theorem locate_withExtension_ne (hends : p.EndsInName) (hslash : '/' ∉ extension.toList) (hdot : '.' ∈ extension.toList)
    (h : t.locate p = .ok place) (h' : t.locate (p.withExtension extension) = .ok place') : place' ≠ place := by
  obtain ⟨front, name, behind, hends, hname⟩ := hends
  have hother := hends.withExtension hname hslash hdot
  have hrenamed := FilePath.isName_renamed hname hslash hdot
  obtain ⟨base, hbase, rfl⟩ := locate_name hends hname h
  obtain ⟨base', hbase', rfl⟩ := locate_name hother hrenamed h'
  rw [hother.isAbsolute_eq hends hrenamed.ne_empty hname.ne_empty, hbase] at hbase'
  cases hbase'
  intro heq
  have hsame : FilePath.renamed name extension = name := by simpa using heq
  refine FilePath.stem_append_ne name.toList hdot ?_
  rw [← FilePath.toList_renamed, hsame]

def Below (t : FileTree) (place : List String) : Prop :=
  ∀ above, above <+: place → above ≠ place → t.isDirectoryAt above = true

namespace Below

lemma of_prefix (h : t.Below place) (hd : t.isDirectoryAt place = true) {above : List String} (ha : above <+: place) :
    t.isDirectoryAt above = true := by
  by_cases heq : above = place
  · exact heq ▸ hd
  · exact h above ha heq

lemma dropLast (h : t.Below place) : t.Below place.dropLast := by
  intro above ha hne
  refine h above (ha.trans (List.dropLast_prefix place)) ?_
  rintro rfl
  exact hne (ha.eq_of_length_le (by simp))

lemma append (h : t.Below place) (hd : t.isDirectoryAt place = true) : t.Below (place ++ [name]) := by
  intro above ha hne
  obtain rfl | ha := List.prefix_concat_iff.mp ha
  · exact absurd rfl hne
  · exact h.of_prefix hd ha

lemma follow {segments : List String} (h : t.Below place) (hf : t.follow place segments = .ok place') :
    t.Below place' := by
  induction segments generalizing place with
  | nil =>
    cases hf
    exact h
  | cons segment rest ih =>
    have hd := isDirectoryAt_of_follow hf
    rw [FileTree.follow, hd] at hf
    simp only [Bool.not_true, Bool.false_eq_true, if_false] at hf
    split at hf
    · exact ih h hf
    · split at hf
      · exact ih h.dropLast hf
      · split at hf
        · cases hf
        · exact ih (h.append hd) hf

end Below

lemma locate_blank (hblank : p.Blank) (h : t.locate p = .ok place) : place = [] := by
  obtain ⟨behind, hsegments, hbehind⟩ := hblank
  obtain ⟨hempty, _, hf, _⟩ := locate_eq_ok.mp h
  have habsolute : p.isAbsolute = true := by
    refine FilePath.isAbsolute_iff_segments.mpr ⟨behind, hsegments, ?_⟩
    rintro rfl
    exact hempty (FilePath.eq_empty_of_segments hsegments)
  rw [if_pos habsolute] at hf
  refine follow_behind (fun segment hs => ?_) hf
  have hs := List.mem_reverse.mp ((List.dropWhile_sublist _).mem (List.mem_reverse.mp hs))
  rw [hsegments, List.mem_cons] at hs
  obtain rfl | hs := hs
  · exact List.mem_cons_self
  · exact hbehind segment hs

theorem isDirectoryAt_of_not_endsInName (ht : t.Anchored) (hends : ¬ p.EndsInName) (h : t.locate p = .ok place) :
    t.isDirectoryAt place = true := by
  obtain hblank | ⟨front, name, behind, hpath⟩ := p.blank_or_ends
  · rw [locate_blank hblank h]
    rfl
  · obtain ⟨base, hbase, hlast⟩ := follow_of_locate hpath h
    have hstart : t.Below (if p.isAbsolute then [] else t.current) := by
      split
      · intro above ha hne
        exact absurd (List.prefix_nil.mp ha) hne
      · exact fun above ha _ => ht above ha
    have hbelow := hstart.follow hbase
    have hd := isDirectoryAt_of_follow hlast
    rw [follow, hd] at hlast
    by_cases hdot : name = "."
    · have hplace : base = place := by simpa [hdot, follow] using hlast
      exact hplace ▸ hd
    · by_cases hdots : name = ".."
      · have hplace : base.dropLast = place := by simpa [hdots, follow] using hlast
        exact hplace ▸ hbelow.of_prefix hd (List.dropLast_prefix base)
      · exact absurd ⟨front, name, behind, hpath, hpath.isName hdot hdots⟩ hends

end FileTree
end Delivery
