import Delivery.Cluster.Objects
import Delivery.Proofs.Cluster.Patches
import Mathlib.Data.List.Induction

/-! A cluster's objects after a history of changes. Under each key there is the object that was inserted last, with the
patches of that key since then; a patch of a key without an object fails. -/

namespace Delivery

inductive ClusterChange where
  | insert (key : ObjectKey) (object : Json)
  | patch (key : ObjectKey) (patch : Json)

namespace ClusterChange

def patchesOf (key : ObjectKey) (history : List ClusterChange) : List Json :=
  history.filterMap fun
    | insert _ _ => none
    | patch k p => if k = key then some p else none

def Uninserted (key : ObjectKey) (history : List ClusterChange) : Prop := ∀ object, insert key object ∉ history

/-- What a history leaves under a key: nothing if no object is ever inserted there, and otherwise the last one that is,
with the patches of this key since then. -/
inductive Leaves (key : ObjectKey) (history : List ClusterChange) : Option Json → Prop
  | never (h : Uninserted key history) : Leaves key history none
  | since {earlier later : List ClusterChange} {object : Json} (heq : history = earlier ++ insert key object :: later)
      (h : Uninserted key later) : Leaves key history (some ((patchesOf key later).foldl Json.mergePatch object))

variable {key k : ObjectKey} {history : List ClusterChange} {change : ClusterChange} {left : Option Json}

lemma Uninserted.append_singleton (h : Uninserted key history) (hc : ∀ object, change ≠ insert key object) :
    Uninserted key (history ++ [change]) := by
  intro object hmem
  rcases List.mem_append.mp hmem with hmem | hmem
  · exact h object hmem
  · exact hc object (List.mem_singleton.mp hmem).symm

namespace Leaves

lemma eq_none_iff (h : Leaves key history left) : left = none ↔ Uninserted key history := by
  cases h with
  | never h => exact iff_of_true rfl h
  | since heq =>
    refine iff_of_false (Option.some_ne_none _) fun h => ?_
    exact h _ (heq ▸ List.mem_append_right _ List.mem_cons_self)

lemma insert (key : ObjectKey) (history : List ClusterChange) (object : Json) :
    Leaves key (history ++ [.insert key object]) (some object) := by
  have hnever : Uninserted key [] := fun _ => List.not_mem_nil
  exact .since rfl hnever

lemma patch (h : Leaves key history left) (p : Json) :
    Leaves key (history ++ [.patch key p]) (left.map (·.mergePatch p)) := by
  cases h with
  | never h => exact .never (h.append_singleton fun _ heq => by cases heq)
  | @since earlier later object heq h =>
    have hpatches : patchesOf key (later ++ [.patch key p]) = patchesOf key later ++ [p] := by
      simp [patchesOf]
    have hleaves : Leaves key (history ++ [.patch key p])
        (some ((patchesOf key (later ++ [.patch key p])).foldl Json.mergePatch object)) := by
      have hhistory : history ++ [.patch key p] = earlier ++ .insert key object :: (later ++ [.patch key p]) := by
        rw [heq, List.append_assoc, List.cons_append]
      exact .since hhistory (h.append_singleton fun _ heq => by cases heq)
    rwa [hpatches, List.foldl_append] at hleaves

lemma other (h : Leaves key history left) (hinsert : ∀ object, change ≠ .insert key object)
    (hpatch : ∀ p, change ≠ .patch key p) : Leaves key (history ++ [change]) left := by
  cases h with
  | never h => exact .never (h.append_singleton hinsert)
  | @since earlier later object heq h =>
    have hpatches : patchesOf key (later ++ [change]) = patchesOf key later := by
      cases change with
      | insert => simp [patchesOf]
      | patch k p =>
        have hne : k ≠ key := fun heq => hpatch p (heq ▸ rfl)
        simp [patchesOf, hne]
    have hhistory : history ++ [change] = earlier ++ .insert key object :: (later ++ [change]) := by
      rw [heq, List.append_assoc, List.cons_append]
    rw [← hpatches]
    exact .since hhistory (h.append_singleton hinsert)

end Leaves
end ClusterChange

namespace ClusterObjects
open ClusterChange

def perform (c : ClusterObjects) : ClusterChange → Except String ClusterObjects
  | .insert key object => .ok (c.insert key object)
  | .patch key p => c.patch key p

/-- The objects after a change; one that fails leaves all as it is. -/
def after (c : ClusterObjects) (change : ClusterChange) : ClusterObjects := (c.perform change).toOption.getD c

def afterAll (c : ClusterObjects) (history : List ClusterChange) : ClusterObjects := history.foldl after c

variable {c : ClusterObjects} {key other : ObjectKey} {history : List ClusterChange}

lemma get?_insert (c : ClusterObjects) (key other : ObjectKey) (object : Json) :
    (c.insert key object).get? other = if other = key then some object else c.get? other := by
  by_cases h : other = key
  · subst h
    simp [get?, insert]
  · have hfind : (c.entries.filter (·.1 ≠ key)).find? (·.1 = other) = c.entries.find? (·.1 = other) := by
      rw [List.find?_filter]
      congr 1
      funext e
      by_cases he : e.1 = other
      · simp [he, h]
      · simp [he]
    rw [if_neg h, get?, get?, insert, List.find?_cons_of_neg (by simpa using Ne.symm h), hfind]

lemma patch_missing (h : c.get? key = none) (p : Json) : c.patch key p = .error (missing key) := by
  rw [ClusterObjects.patch, h]

lemma patch_found {object : Json} (h : c.get? key = some object) (p : Json) :
    c.patch key p = .ok (c.insert key (object.mergePatch p)) := by
  rw [ClusterObjects.patch, h]

lemma get?_after_insert (c : ClusterObjects) (key other : ObjectKey) (object : Json) :
    (c.after (.insert key object)).get? other = if other = key then some object else c.get? other :=
  get?_insert c key other object

lemma get?_after_patch (c : ClusterObjects) (key other : ObjectKey) (p : Json) :
    (c.after (.patch key p)).get? other =
      if other = key then (c.get? key).map (·.mergePatch p) else c.get? other := by
  rw [after, perform]
  cases hfound : c.get? key with
  | none =>
    rw [patch_missing hfound, Except.toOption, Option.getD_none, Option.map_none]
    split
    · next heq => rw [heq, hfound]
    · rfl
  | some object => rw [patch_found hfound, Except.toOption, Option.getD_some, get?_insert, Option.map_some]

lemma Leaves.after (h : Leaves key history (c.get? key)) (change : ClusterChange) :
    Leaves key (history ++ [change]) ((c.after change).get? key) := by
  cases change with
  | insert k object =>
    rw [get?_after_insert]
    split
    · next heq => exact heq ▸ .insert key history object
    · next hne => exact h.other (fun _ heq => by cases heq; exact hne rfl) fun _ heq => by cases heq
  | patch k p =>
    rw [get?_after_patch]
    split
    · next heq => exact heq ▸ h.patch p
    · next hne => exact h.other (fun _ heq => by cases heq) fun _ heq => by cases heq; exact hne rfl

theorem leaves_afterAll (history : List ClusterChange) (key : ObjectKey) :
    Leaves key history ((afterAll {} history).get? key) := by
  induction history using List.reverseRecOn with
  | nil => exact .never fun _ => List.not_mem_nil
  | append_singleton history change ih =>
    rw [afterAll, List.foldl_append]
    exact Leaves.after ih change

lemma patch_eq_error_iff {p : Json} {reason : String} :
    c.patch key p = .error reason ↔ c.get? key = none ∧ reason = missing key := by
  cases hfound : c.get? key with
  | none => simp [patch_missing hfound, eq_comm]
  | some object => simp [patch_found hfound]

theorem tracks_history :
    (∀ (history : List ClusterChange) (key : ObjectKey),
      Leaves key history ((afterAll {} history).get? key) ∧
      ∀ p : Json, (∀ reason, (afterAll {} history).patch key p = .error reason ↔
          Uninserted key history ∧ reason = missing key) ∧
        (Uninserted key history → afterAll {} (history ++ [.patch key p]) = afterAll {} history)) ∧
    ∀ target patch : Json, target.Canonical → patch.Canonical →
      (target.mergePatch patch).mergePatch patch = target.mergePatch patch ∧
      (target.mergePatch patch).Canonical ∧
      ((∀ members, target ≠ .object members) → target.mergePatch patch = patch.stripped) ∧
      ∀ path old changes, target.at? path = some (.object old) → patch.at? path = some (.object changes) →
        ∃ new, (target.mergePatch patch).at? path = some (.object new) ∧ Json.Patched old changes new := by
  refine ⟨fun history key => ?_, fun target patch ht hp => ?_⟩
  · have hleaves := leaves_afterAll history key
    refine ⟨hleaves, fun p => ⟨fun reason => ?_, fun hnever => ?_⟩⟩
    · rw [patch_eq_error_iff, hleaves.eq_none_iff]
    · rw [afterAll, List.foldl_append]
      show (afterAll {} history).after (.patch key p) = afterAll {} history
      rw [after, perform, patch_missing (hleaves.eq_none_iff.mpr hnever)]
      rfl
  · refine ⟨Json.mergePatch_mergePatch patch hp target ht, Json.canonical_mergePatch patch hp target ht, ?_, ?_⟩
    · intro hshape
      refine Json.mergePatch_of_membersOf patch hp target ?_
      cases target with
      | object members => exact absurd rfl (hshape members)
      | _ => rfl
    · exact fun path old changes hold hchanges => Json.at?_mergePatch ht hp hold hchanges

end ClusterObjects

/-! ### A patch of an application's specification -/

namespace Application
open ClusterObjects ClusterChange

def live : Json := .object [("spec", .object [("prune", .bool true), ("revision", .string "abc")])]

def change : Json := .object [("spec", .object [("prune", .null), ("revision", .string "def")])]

def app : ObjectKey := ⟨"Application", "argocd", "app"⟩

def elsewhere : ObjectKey := ⟨"Application", "argocd", "other"⟩

theorem tracks_history_application :
    Uninserted elsewhere [.insert app live] ∧
    afterAll {} ([.insert app live] ++ [.patch elsewhere change]) = afterAll {} [.insert app live] ∧
    live.Canonical ∧ change.Canonical ∧ (live.mergePatch change).mergePatch change = live.mergePatch change ∧
    ∃ new, (live.mergePatch change).at? ["spec"] = some (.object new) ∧ Entries.get? "prune" new = none := by
  obtain ⟨hhistory, hpatch⟩ := tracks_history
  have hnever : Uninserted elsewhere [.insert app live] := by
    intro object hmem
    simp [app, elsewhere] at hmem
  have hsame := ((hhistory _ elsewhere).2 change).2 hnever
  have hlive : live.Canonical := by decide
  have hchange : change.Canonical := by decide
  obtain ⟨hagain, _, _, hpath⟩ := hpatch live change hlive hchange
  obtain ⟨new, hnew, hpatched⟩ := hpath ["spec"] _ _ rfl rfl
  exact ⟨hnever, hsame, hlive, hchange, hagain, new, hnew, (hpatched.removed "prune").mpr (.inl rfl)⟩

end Application
end Delivery
