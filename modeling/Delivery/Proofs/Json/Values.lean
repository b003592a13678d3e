import Delivery.Json.Draft
import Delivery.Proofs.Except
import Mathlib.Data.List.Perm.Basic
import Mathlib.Tactic.Common

/-!
The value of a draft. A value that a draft gave is read again as it is, and a list of members with
distinct keys becomes a map without losing one.
-/

namespace Delivery

lemma Close.check_eq_ok {close : Close} {u : Unit} : close.check = .ok u ↔ close = .closed := by
  cases close <;> simp [Close.check]

/-! ### Objects -/

variable {α : Type}

lemma Entries.insert_perm {key : String} {value : α} {entries : List (String × α)}
    (h : key ∉ entries.map (·.1)) : (Entries.insert key value entries).Perm ((key, value) :: entries) := by
  induction entries with
  | nil => exact List.Perm.refl _
  | cons e entries ih =>
    obtain ⟨k, a⟩ := e
    rw [List.map_cons, List.mem_cons, not_or] at h
    rw [Entries.insert, if_neg (Ne.symm h.1)]
    split
    · exact List.Perm.refl _
    · exact ((ih h.2).cons _).trans (List.Perm.swap _ _ _)

namespace Keyed

lemma foldl_insert_perm {entries : List (String × α)} (m : Keyed α)
    (h : ((m.entries ++ entries).map (·.1)).Nodup) :
    (entries.foldl (fun m e => m.insert e.1 e.2) m).entries.Perm (m.entries ++ entries) := by
  induction entries generalizing m with
  | nil => simp
  | cons e entries ih =>
    have hnew : e.1 ∉ m.entries.map (·.1) := by
      rw [List.map_append, List.nodup_append] at h
      exact fun hm => h.2.2 _ hm _ (by simp) rfl
    have hinsert : ((m.insert e.1 e.2).entries ++ entries).Perm (m.entries ++ e :: entries) :=
      ((Entries.insert_perm hnew).append_right entries).trans List.perm_middle.symm
    exact (ih _ ((hinsert.map _).nodup_iff.mpr h)).trans hinsert

lemma ofList_perm {entries : List (String × α)} (h : (entries.map (·.1)).Nodup) :
    (ofList entries).entries.Perm entries :=
  foldl_insert_perm empty h

lemma mem_of_mem_ofList {entries : List (String × α)} {e : String × α}
    (h : e ∈ (ofList entries).entries) : e ∈ entries := by
  have hfold : ∀ m : Keyed α, e ∈ (entries.foldl (fun m e => m.insert e.1 e.2) m).entries →
      e ∈ m.entries ∨ e ∈ entries := by
    clear h
    induction entries with
    | nil => exact fun m hm => Or.inl hm
    | cons x entries ih =>
      intro m hm
      rcases ih _ hm with hin | hin
      · rcases Entries.mem_insert hin with rfl | hold
        · exact Or.inr List.mem_cons_self
        · exact Or.inl hold
      · exact Or.inr (List.mem_cons_of_mem _ hin)
  exact (hfold empty h).resolve_left List.not_mem_nil

lemma nodup_keys (m : Keyed α) : (m.entries.map (·.1)).Nodup := by
  refine List.pairwise_map.mpr (m.ascending.imp ?_)
  intro a b hab heq
  rw [heq] at hab
  exact String.lt_irrefl _ hab

theorem ofList_entries (m : Keyed α) : ofList m.entries = m := by
  refine Keyed.ext ((ofList_perm m.nodup_keys).eq_of_pairwise ?_ (ofList m.entries).ascending m.ascending)
  intro a b _ _ hab hba
  exact absurd (String.lt_trans hab hba) (String.lt_irrefl _)

end Keyed

/-! ### Values of drafts -/

namespace Draft

variable {origin inner : Origin} {items : List Draft} {members : List (Option String × Draft)}
  {close : Close} {j : Json} {js : List Json} {ms : List (String × Json)}

lemma toJson_array : (array items close).toJson origin = .ok j ↔
    ∃ inner js, origin.enter = .ok inner ∧ toItems inner items = .ok js ∧ close = .closed ∧ j = .array js := by
  simp only [toJson, bind_eq_ok, pure_eq_ok, Close.check_eq_ok]
  grind

lemma toJson_object : (object members close).toJson origin = .ok j ↔
    ∃ inner ms, origin.enter = .ok inner ∧ toMembers inner members = .ok ms ∧ close = .closed ∧
      j = .object (Keyed.ofList ms).entries := by
  simp only [toJson, bind_eq_ok, pure_eq_ok, Close.check_eq_ok]
  grind

lemma toItems_cons {d : Draft} : toItems origin (d :: items) = .ok js ↔
    ∃ j rest, d.toJson origin = .ok j ∧ toItems origin items = .ok rest ∧ js = j :: rest := by
  simp only [toItems, bind_eq_ok, pure_eq_ok]
  grind

lemma toMembers_cons {key : Option String} {d : Draft} : toMembers origin ((key, d) :: members) = .ok ms ↔
    ∃ k j rest, key = some k ∧ d.toJson origin = .ok j ∧ toMembers origin members = .ok rest ∧
      ms = (k, j) :: rest := by
  cases key with
  | none => simp [toMembers]
  | some k =>
    simp only [toMembers, bind_eq_ok, pure_eq_ok]
    grind

def Fixed (origin : Origin) (j : Json) : Prop := (ofJson j).toJson origin = .ok j

lemma toItems_of_fixed (h : ∀ j ∈ js, Fixed origin j) : toItems origin (ofItems js) = .ok js := by
  induction js with
  | nil => rfl
  | cons j js ih =>
    obtain ⟨hj, hjs⟩ := List.forall_mem_cons.mp h
    exact toItems_cons.mpr ⟨j, js, hj, ih hjs, rfl⟩

lemma toMembers_of_fixed (h : ∀ e ∈ ms, Fixed origin e.2) : toMembers origin (ofMembers ms) = .ok ms := by
  induction ms with
  | nil => rfl
  | cons e ms ih =>
    obtain ⟨he, hms⟩ := List.forall_mem_cons.mp h
    exact toMembers_cons.mpr ⟨e.1, e.2, ms, rfl, he, ih hms, rfl⟩

mutual

theorem fixed_of_toJson (origin : Origin) :
    ∀ (d : Draft) {j : Json}, d.toJson origin = .ok j → Fixed origin j
  | .broken _ _ _, _, h => by cases h
  | .null, _, h => by cases h; rfl
  | .bool _, _, h => by cases h; rfl
  | .number (some _), _, h => by cases h; rfl
  | .number none, _, h => by cases h
  | .string (some _), _, h => by cases h; rfl
  | .string none, _, h => by cases h
  | .array items _, _, h => by
    obtain ⟨inner, js, henter, hitems, _, rfl⟩ := toJson_array.mp h
    have hfixed := fixed_of_toItems inner items hitems
    exact toJson_array.mpr ⟨inner, js, henter, toItems_of_fixed hfixed, rfl, rfl⟩
  | .object members _, _, h => by
    obtain ⟨inner, ms, henter, hmembers, _, rfl⟩ := toJson_object.mp h
    have hfixed := fixed_of_toMembers inner members hmembers
    refine toJson_object.mpr ⟨inner, _, henter,
      toMembers_of_fixed fun e he => hfixed e (Keyed.mem_of_mem_ofList he), rfl, ?_⟩
    rw [Keyed.ofList_entries]

theorem fixed_of_toItems (origin : Origin) :
    ∀ (items : List Draft) {js : List Json}, toItems origin items = .ok js → ∀ j ∈ js, Fixed origin j
  | [], _, h => by cases h; exact fun j hj => absurd hj List.not_mem_nil
  | d :: items, _, h => by
    obtain ⟨j, rest, hj, hrest, rfl⟩ := toItems_cons.mp h
    exact List.forall_mem_cons.mpr ⟨fixed_of_toJson origin d hj, fixed_of_toItems origin items hrest⟩

theorem fixed_of_toMembers (origin : Origin) :
    ∀ (members : List (Option String × Draft)) {ms : List (String × Json)},
      toMembers origin members = .ok ms → ∀ e ∈ ms, Fixed origin e.2
  | [], _, h => by cases h; exact fun e he => absurd he List.not_mem_nil
  | (_, d) :: members, _, h => by
    obtain ⟨k, j, rest, _, hj, hrest, rfl⟩ := toMembers_cons.mp h
    exact List.forall_mem_cons.mpr ⟨fixed_of_toJson origin d hj, fixed_of_toMembers origin members hrest⟩

end

lemma toJson_eq_number {d : Draft} {n : Number} (h : d.toJson origin = .ok (.number n)) :
    d = .number (some n) := by
  cases d with
  | number value => cases value <;> simp_all [toJson]
  | string value => cases value <;> simp_all [toJson]
  | array items close =>
    obtain ⟨_, _, _, _, _, hj⟩ := toJson_array.mp h
    cases hj
  | object members close =>
    obtain ⟨_, _, _, _, _, hj⟩ := toJson_object.mp h
    cases hj
  | _ => cases h

lemma toJson_eq_null {d : Draft} (h : d.toJson origin = .ok .null) : d = .null := by
  cases d with
  | null => rfl
  | number value => cases value <;> cases h
  | string value => cases value <;> cases h
  | array items close =>
    obtain ⟨_, _, _, _, _, hj⟩ := toJson_array.mp h
    cases hj
  | object members close =>
    obtain ⟨_, _, _, _, _, hj⟩ := toJson_object.mp h
    cases hj
  | _ => cases h

@[simp] lemma ofJson_eq_null : ofJson j = .null ↔ j = .null := by
  cases j <;> simp [ofJson]

end Draft

/-! ### Numbers -/

mutual

def Json.numbers : Json → List Number
  | .number n => [n]
  | .array items => numbersOfItems items
  | .object members => numbersOfMembers members
  | _ => []

def Json.numbersOfItems : List Json → List Number
  | [] => []
  | j :: rest => j.numbers ++ numbersOfItems rest

def Json.numbersOfMembers : List (String × Json) → List Number
  | [] => []
  | (_, j) :: rest => j.numbers ++ numbersOfMembers rest

end

mutual

def Draft.numbers : Draft → List Number
  | .number (some n) => [n]
  | .array items _ => numbersOfItems items
  | .object members _ => numbersOfMembers members
  | _ => []

def Draft.numbersOfItems : List Draft → List Number
  | [] => []
  | d :: rest => d.numbers ++ numbersOfItems rest

def Draft.numbersOfMembers : List (Option String × Draft) → List Number
  | [] => []
  | (_, d) :: rest => d.numbers ++ numbersOfMembers rest

end

lemma Json.mem_numbersOfMembers {members : List (String × Json)} {n : Number} :
    n ∈ numbersOfMembers members ↔ ∃ e ∈ members, n ∈ e.2.numbers := by
  induction members with
  | nil => simp [numbersOfMembers]
  | cons e members ih =>
    obtain ⟨k, j⟩ := e
    simp [numbersOfMembers, ih]

namespace Draft

mutual

theorem numbers_toJson (origin : Origin) :
    ∀ (d : Draft) {j : Json}, d.toJson origin = .ok j → j.numbers ⊆ d.numbers
  | .broken _ _ _, _, h => by cases h
  | .null, _, h => by cases h; exact List.Subset.refl _
  | .bool _, _, h => by cases h; exact List.Subset.refl _
  | .number (some _), _, h => by cases h; exact List.Subset.refl _
  | .number none, _, h => by cases h
  | .string (some _), _, h => by cases h; exact List.Subset.refl _
  | .string none, _, h => by cases h
  | .array items _, _, h => by
    obtain ⟨inner, js, _, hitems, _, rfl⟩ := toJson_array.mp h
    exact numbers_toItems inner items hitems
  | .object members _, _, h => by
    obtain ⟨inner, ms, _, hmembers, _, rfl⟩ := toJson_object.mp h
    intro n hn
    obtain ⟨e, he, hne⟩ := Json.mem_numbersOfMembers.mp hn
    exact numbers_toMembers inner members hmembers
      (Json.mem_numbersOfMembers.mpr ⟨e, Keyed.mem_of_mem_ofList he, hne⟩)

theorem numbers_toItems (origin : Origin) :
    ∀ (items : List Draft) {js : List Json}, toItems origin items = .ok js →
      Json.numbersOfItems js ⊆ numbersOfItems items
  | [], _, h => by cases h; exact List.Subset.refl _
  | d :: items, _, h => by
    obtain ⟨j, rest, hj, hrest, rfl⟩ := toItems_cons.mp h
    exact List.append_subset.mpr ⟨List.subset_append_of_subset_left _ (numbers_toJson origin d hj),
      List.subset_append_of_subset_right _ (numbers_toItems origin items hrest)⟩

theorem numbers_toMembers (origin : Origin) :
    ∀ (members : List (Option String × Draft)) {ms : List (String × Json)},
      toMembers origin members = .ok ms → Json.numbersOfMembers ms ⊆ numbersOfMembers members
  | [], _, h => by cases h; exact List.Subset.refl _
  | (_, d) :: members, _, h => by
    obtain ⟨k, j, rest, _, hj, hrest, rfl⟩ := toMembers_cons.mp h
    exact List.append_subset.mpr ⟨List.subset_append_of_subset_left _ (numbers_toJson origin d hj),
      List.subset_append_of_subset_right _ (numbers_toMembers origin members hrest)⟩

end

mutual

lemma numbers_ofJson : ∀ j : Json, (ofJson j).numbers = j.numbers
  | .null => rfl
  | .bool _ => rfl
  | .number _ => rfl
  | .string _ => rfl
  | .array items => numbersOfItems_ofItems items
  | .object members => numbersOfMembers_ofMembers members

lemma numbersOfItems_ofItems : ∀ items : List Json,
    numbersOfItems (ofItems items) = Json.numbersOfItems items
  | [] => rfl
  | j :: rest => by
    rw [ofItems, numbersOfItems, Json.numbersOfItems, numbers_ofJson j, numbersOfItems_ofItems rest]

lemma numbersOfMembers_ofMembers : ∀ members : List (String × Json),
    numbersOfMembers (ofMembers members) = Json.numbersOfMembers members
  | [] => rfl
  | (_, j) :: rest => by
    rw [ofMembers, numbersOfMembers, Json.numbersOfMembers, numbers_ofJson j,
      numbersOfMembers_ofMembers rest]

end

end Draft
end Delivery
