import Delivery.Proofs.Json.Lawful

/-!
Values as they are held: each object is a map. How deep a draft nests decides whether it is read from a text;
the value does not depend on it, and a value that is held is read as it is.
-/

namespace Delivery

variable {origin inner : Origin} {n : Nat}

lemma exists_ok_of_any {ε α : Type} {x : Except ε α} {p : α → Prop} [DecidablePred p] (h : x.toOption.any (p ·)) :
    ∃ a, x = .ok a ∧ p a := by
  cases x with
  | error e => cases h
  | ok a => exact ⟨a, rfl, of_decide_eq_true h⟩

/-! ### Brackets -/

mutual

def Draft.depth : Draft → Nat
  | .array items _ => depthOfItems items + 1
  | .object members _ => depthOfMembers members + 1
  | _ => 0

def Draft.depthOfItems : List Draft → Nat
  | [] => 0
  | d :: rest => max d.depth (depthOfItems rest)

def Draft.depthOfMembers : List (Option String × Draft) → Nat
  | [] => 0
  | (_, d) :: rest => max d.depth (depthOfMembers rest)

end

def Json.depth (j : Json) : Nat := (Draft.ofJson j).depth

instance (origin : Origin) (n : Nat) : Decidable (origin.Room n) :=
  match origin with
  | .text depth => inferInstanceAs (Decidable (n < depth))
  | .value => .isTrue trivial
  | .loose => .isTrue trivial

lemma Json.depth_array_le {items : List Json} : (array items).depth ≤ n + 1 ↔ ∀ j ∈ items, j.depth ≤ n := by
  refine Nat.succ_le_succ_iff.trans ?_
  induction items with
  | nil => exact iff_of_true (Nat.zero_le n) (List.forall_mem_nil _)
  | cons j items ih =>
    rw [List.forall_mem_cons, ← ih]
    exact Nat.max_le

lemma Json.depth_object_le {members : List (String × Json)} :
    (object members).depth ≤ n + 1 ↔ ∀ e ∈ members, e.2.depth ≤ n := by
  refine Nat.succ_le_succ_iff.trans ?_
  induction members with
  | nil => exact iff_of_true (Nat.zero_le n) (List.forall_mem_nil _)
  | cons e members ih =>
    rw [List.forall_mem_cons, ← ih]
    exact Nat.max_le

namespace Origin

lemma room_succ : origin.Room (n + 1) ↔ ∃ inner, origin.enter = .ok inner ∧ inner.Room n := by
  refine ⟨fun h => ?_, fun ⟨inner, henter, h⟩ => ?_⟩
  · obtain ⟨inner, henter⟩ := h.exists_enter
    exact ⟨inner, henter, h.enter henter⟩
  · cases origin with
    | text depth =>
      rw [enter] at henter
      split at henter
      · cases henter
      · cases henter
        simp only [Room] at h ⊢
        omega
    | value => trivial
    | loose => trivial

lemma room_zero_of_enter (h : origin.enter = .ok inner) : inner.Room 0 := by
  cases origin with
  | text depth =>
    rw [enter] at h
    split at h
    · cases h
    · cases h
      simp only [Room]
      omega
  | value => cases h; trivial
  | loose => cases h; trivial

lemma Room.mono {m : Nat} (h : origin.Room n) (hle : m ≤ n) : origin.Room m := by
  cases origin with
  | text depth => exact Nat.lt_of_le_of_lt hle h
  | value => trivial
  | loose => trivial

lemma room_max {m : Nat} : origin.Room (max m n) ↔ origin.Room m ∧ origin.Room n := by
  refine ⟨fun h => ⟨h.mono (Nat.le_max_left _ _), h.mono (Nat.le_max_right _ _)⟩, fun ⟨hm, hn⟩ => ?_⟩
  rcases Nat.le_total m n with hle | hle
  · rwa [Nat.max_eq_right hle]
  · rwa [Nat.max_eq_left hle]

end Origin

namespace Draft

mutual

/-- A text gives the value that the draft has anyway, if it does not nest too deep. -/
theorem toJson_iff {origin : Origin} (hroom : origin.Room 0) : ∀ (d : Draft) {j : Json},
    d.toJson origin = .ok j ↔ d.toJson .value = .ok j ∧ origin.Room d.depth
  | .broken _ _ _, _ => iff_of_false nofun fun h => nomatch h.1
  | .null, _ => (and_iff_left hroom).symm
  | .bool _, _ => (and_iff_left hroom).symm
  | .number (some _), _ => (and_iff_left hroom).symm
  | .number none, _ => (and_iff_left hroom).symm
  | .string (some _), _ => (and_iff_left hroom).symm
  | .string none, _ => (and_iff_left hroom).symm
  | .array items close, j => by
    -- a bracket is entered where there is room for one more than its items have
    rw [toJson_array, toJson_array, depth, Origin.room_succ]
    constructor
    · rintro ⟨inner, js, henter, hitems, hclose, hj⟩
      obtain ⟨hitems, hdepth⟩ := (toItems_iff (Origin.room_zero_of_enter henter) items).mp hitems
      exact ⟨⟨.value, js, rfl, hitems, hclose, hj⟩, inner, henter, hdepth⟩
    · rintro ⟨⟨_, js, hvalue, hitems, hclose, hj⟩, inner, henter, hdepth⟩
      cases hvalue
      exact ⟨inner, js, henter, (toItems_iff (Origin.room_zero_of_enter henter) items).mpr ⟨hitems, hdepth⟩,
        hclose, hj⟩
  | .object members close, j => by
    rw [toJson_object, toJson_object, depth, Origin.room_succ]
    constructor
    · rintro ⟨inner, ms, henter, hmembers, hclose, hj⟩
      obtain ⟨hmembers, hdepth⟩ := (toMembers_iff (Origin.room_zero_of_enter henter) members).mp hmembers
      exact ⟨⟨.value, ms, rfl, hmembers, hclose, hj⟩, inner, henter, hdepth⟩
    · rintro ⟨⟨_, ms, hvalue, hmembers, hclose, hj⟩, inner, henter, hdepth⟩
      cases hvalue
      exact ⟨inner, ms, henter, (toMembers_iff (Origin.room_zero_of_enter henter) members).mpr ⟨hmembers, hdepth⟩,
        hclose, hj⟩

theorem toItems_iff {origin : Origin} (hroom : origin.Room 0) : ∀ (items : List Draft) {js : List Json},
    toItems origin items = .ok js ↔ toItems .value items = .ok js ∧ origin.Room (depthOfItems items)
  | [], _ => (and_iff_left hroom).symm
  | d :: rest, js => by
    rw [toItems_cons, toItems_cons, depthOfItems, Origin.room_max]
    simp only [toJson_iff hroom d, toItems_iff hroom rest]
    grind

theorem toMembers_iff {origin : Origin} (hroom : origin.Room 0) :
    ∀ (members : List (Option String × Draft)) {ms : List (String × Json)},
      toMembers origin members = .ok ms ↔ toMembers .value members = .ok ms ∧ origin.Room (depthOfMembers members)
  | [], _ => (and_iff_left hroom).symm
  | (_, d) :: rest, ms => by
    rw [toMembers_cons, toMembers_cons, depthOfMembers, Origin.room_max]
    simp only [toJson_iff hroom d, toMembers_iff hroom rest]
    grind

end

end Draft

/-! ### Objects as maps -/

mutual

/-- Each object in the value is a map: its members are in ascending order of their keys. -/
def Json.Canonical : Json → Prop
  | .array items => CanonicalItems items
  | .object members => Entries.Ascending members ∧ CanonicalMembers members
  | _ => True

def Json.CanonicalItems : List Json → Prop
  | [] => True
  | j :: rest => j.Canonical ∧ CanonicalItems rest

def Json.CanonicalMembers : List (String × Json) → Prop
  | [] => True
  | (_, j) :: rest => j.Canonical ∧ CanonicalMembers rest

end

mutual

instance Json.decideCanonical : (j : Json) → Decidable j.Canonical
  | .null => .isTrue trivial
  | .bool _ => .isTrue trivial
  | .number _ => .isTrue trivial
  | .string _ => .isTrue trivial
  | .array items => decideCanonicalItems items
  | .object members => @instDecidableAnd _ _ _ (decideCanonicalMembers members)

instance Json.decideCanonicalItems : (items : List Json) → Decidable (CanonicalItems items)
  | [] => .isTrue trivial
  | j :: rest => @instDecidableAnd _ _ (decideCanonical j) (decideCanonicalItems rest)

instance Json.decideCanonicalMembers : (members : List (String × Json)) → Decidable (CanonicalMembers members)
  | [] => .isTrue trivial
  | (_, j) :: rest => @instDecidableAnd _ _ (decideCanonical j) (decideCanonicalMembers rest)

end

lemma Json.canonicalItems_iff {items : List Json} : CanonicalItems items ↔ ∀ j ∈ items, j.Canonical := by
  induction items with
  | nil => exact iff_of_true trivial (List.forall_mem_nil _)
  | cons j items ih => rw [CanonicalItems, ih, List.forall_mem_cons]

lemma Json.canonicalMembers_iff {members : List (String × Json)} :
    CanonicalMembers members ↔ ∀ e ∈ members, e.2.Canonical := by
  induction members with
  | nil => exact iff_of_true trivial (List.forall_mem_nil _)
  | cons e members ih =>
    obtain ⟨k, j⟩ := e
    rw [CanonicalMembers, ih, List.forall_mem_cons]

namespace Draft

mutual

lemma canonical_of_toJson : ∀ (d : Draft) {origin : Origin} {j : Json}, d.toJson origin = .ok j → j.Canonical
  | .broken _ _ _, _, _, h => by cases h
  | .null, _, _, h => by cases h; trivial
  | .bool _, _, _, h => by cases h; trivial
  | .number (some _), _, _, h => by cases h; trivial
  | .number none, _, _, h => by cases h
  | .string (some _), _, _, h => by cases h; trivial
  | .string none, _, _, h => by cases h
  | .array items _, _, _, h => by
    obtain ⟨_, js, _, hitems, _, rfl⟩ := toJson_array.mp h
    exact Json.canonicalItems_iff.mpr (canonical_of_toItems items hitems)
  | .object members _, _, _, h => by
    obtain ⟨_, ms, _, hmembers, _, rfl⟩ := toJson_object.mp h
    refine ⟨(Keyed.ofList ms).ascending, Json.canonicalMembers_iff.mpr fun e he => ?_⟩
    exact canonical_of_toMembers members hmembers e (Keyed.mem_of_mem_ofList he)

lemma canonical_of_toItems : ∀ (items : List Draft) {origin : Origin} {js : List Json},
    toItems origin items = .ok js → ∀ j ∈ js, j.Canonical
  | [], _, _, h => by cases h; exact List.forall_mem_nil _
  | d :: rest, _, _, h => by
    obtain ⟨j, js, hj, hjs, rfl⟩ := toItems_cons.mp h
    exact List.forall_mem_cons.mpr ⟨canonical_of_toJson d hj, canonical_of_toItems rest hjs⟩

lemma canonical_of_toMembers : ∀ (members : List (Option String × Draft)) {origin : Origin}
    {ms : List (String × Json)}, toMembers origin members = .ok ms → ∀ e ∈ ms, e.2.Canonical
  | [], _, _, h => by cases h; exact List.forall_mem_nil _
  | (_, d) :: rest, _, _, h => by
    obtain ⟨k, j, ms, _, hj, hms, rfl⟩ := toMembers_cons.mp h
    exact List.forall_mem_cons.mpr ⟨canonical_of_toJson d hj, canonical_of_toMembers rest hms⟩

end

mutual

lemma fixed_of_canonical : ∀ j : Json, j.Canonical → Fixed .value j
  | .null, _ => rfl
  | .bool _, _ => rfl
  | .number _, _ => rfl
  | .string _, _ => rfl
  | .array items, h =>
    toJson_array.mpr ⟨.value, items, rfl, toItems_of_fixed (fixedItems_of_canonical items h), rfl, rfl⟩
  | .object members, h => by
    refine toJson_object.mpr
      ⟨.value, members, rfl, toMembers_of_fixed (fixedMembers_of_canonical members h.2), rfl, ?_⟩
    exact congrArg (Json.object ∘ Keyed.entries) (Keyed.ofList_entries ⟨members, h.1⟩).symm

lemma fixedItems_of_canonical : ∀ items : List Json, Json.CanonicalItems items → ∀ j ∈ items, Fixed .value j
  | [], _ => List.forall_mem_nil _
  | j :: rest, h => List.forall_mem_cons.mpr ⟨fixed_of_canonical j h.1, fixedItems_of_canonical rest h.2⟩

lemma fixedMembers_of_canonical : ∀ members : List (String × Json), Json.CanonicalMembers members →
    ∀ e ∈ members, Fixed .value e.2
  | [], _ => List.forall_mem_nil _
  | (_, j) :: rest, h => List.forall_mem_cons.mpr ⟨fixed_of_canonical j h.1, fixedMembers_of_canonical rest h.2⟩

end

variable {j k : Json}

theorem toJson_ofJson (hroom : origin.Room 0) (hj : j.Canonical) :
    (ofJson j).toJson origin = .ok k ↔ j = k ∧ origin.Room j.depth := by
  rw [toJson_iff hroom, fixed_of_canonical j hj, Except.ok.injEq]
  rfl

lemma held_of_toJson {d : Draft} (hroom : origin.Room 0) (h : d.toJson origin = .ok j) :
    j.Canonical ∧ origin.Room j.depth := by
  have hcanonical := canonical_of_toJson d h
  exact ⟨hcanonical, ((toJson_ofJson hroom hcanonical).mp (fixed_of_toJson origin d h)).2⟩

end Draft

end Delivery
