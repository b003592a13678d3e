/-!
Finite maps from text keys. The entries are kept in ascending order of their keys, so that two maps with
the same look-ups are equal and every listing is sorted.

Main statements: `get?_insert` and `get?_erase` say what a write does to every look-up.
-/

universe u v

namespace Delivery

namespace Entries

variable {α : Type u}

def Ascending (entries : List (String × α)) : Prop := entries.Pairwise fun a b => a.1 < b.1

instance (entries : List (String × α)) : Decidable (Ascending entries) :=
  inferInstanceAs (Decidable (List.Pairwise _ _))

def get? (key : String) : List (String × α) → Option α
  | [] => none
  | (k, a) :: rest => if k = key then some a else get? key rest

def insert (key : String) (value : α) : List (String × α) → List (String × α)
  | [] => [(key, value)]
  | (k, a) :: rest =>
    if k = key then (key, value) :: rest
    else if key < k then (key, value) :: (k, a) :: rest
    else (k, a) :: insert key value rest

def erase (key : String) : List (String × α) → List (String × α)
  | [] => []
  | (k, a) :: rest => if k = key then rest else (k, a) :: erase key rest

theorem mem_insert {key : String} {value : α} {entries : List (String × α)} {e : String × α}
    (h : e ∈ insert key value entries) : e = (key, value) ∨ e ∈ entries := by
  induction entries with
  | nil => simpa [insert] using h
  | cons head rest ih =>
    obtain ⟨k, a⟩ := head
    simp only [insert] at h
    split at h
    · simp only [List.mem_cons] at h ⊢
      exact h.imp_right Or.inr
    · split at h
      · simpa only [List.mem_cons] using h
      · simp only [List.mem_cons] at h ⊢
        rcases h with h | h
        · exact Or.inr (Or.inl h)
        · exact (ih h).imp_right Or.inr

theorem mem_of_mem_erase {key : String} {entries : List (String × α)} {e : String × α}
    (h : e ∈ erase key entries) : e ∈ entries := by
  induction entries with
  | nil => simp [erase] at h
  | cons head rest ih =>
    obtain ⟨k, a⟩ := head
    simp only [erase] at h
    split at h
    · exact List.mem_cons_of_mem _ h
    · simp only [List.mem_cons] at h ⊢
      exact h.imp_right ih

theorem Ascending.insert {entries : List (String × α)} (h : Ascending entries) (key : String)
    (value : α) : Ascending (insert key value entries) := by
  induction entries with
  | nil => simp [Ascending, Entries.insert]
  | cons head rest ih =>
    obtain ⟨k, a⟩ := head
    have hrest : Ascending rest := (List.pairwise_cons.1 h).2
    have hhead := (List.pairwise_cons.1 h).1
    simp only [Entries.insert]
    split
    · next he =>
      subst he
      exact List.pairwise_cons.2 ⟨hhead, hrest⟩
    · next hne =>
      split
      · next hlt =>
        refine List.pairwise_cons.2 ⟨fun e he => ?_, h⟩
        rcases List.mem_cons.1 he with rfl | he
        · exact hlt
        · exact String.lt_trans hlt (hhead e he)
      · next hnlt =>
        refine List.pairwise_cons.2 ⟨fun e he => ?_, ih hrest⟩
        rcases mem_insert he with rfl | he
        · rcases String.le_total k key with hle | hle
          · exact String.not_le.1 fun hge => hne (String.le_antisymm hle hge)
          · exact absurd (String.not_le.1 fun hge => hne (String.le_antisymm hge hle)) hnlt
        · exact hhead e he

theorem Ascending.erase {entries : List (String × α)} (h : Ascending entries) (key : String) :
    Ascending (erase key entries) := by
  induction entries with
  | nil => exact h
  | cons head rest ih =>
    obtain ⟨k, a⟩ := head
    have hrest : Ascending rest := (List.pairwise_cons.1 h).2
    have hhead := (List.pairwise_cons.1 h).1
    simp only [Entries.erase]
    split
    · exact hrest
    · exact List.pairwise_cons.2 ⟨fun e he => hhead e (mem_of_mem_erase he), ih hrest⟩

theorem get?_insert_self (key : String) (value : α) (entries : List (String × α)) :
    get? key (insert key value entries) = some value := by
  induction entries with
  | nil => simp [insert, get?]
  | cons head rest ih =>
    obtain ⟨k, a⟩ := head
    simp only [insert]
    split
    · simp [get?]
    · split
      · simp [get?]
      · next hne _ => simp [get?, hne, ih]

theorem get?_insert_of_ne {key other : String} (h : other ≠ key) (value : α)
    (entries : List (String × α)) : get? other (insert key value entries) = get? other entries := by
  induction entries with
  | nil => simp [insert, get?, Ne.symm h]
  | cons head rest ih =>
    obtain ⟨k, a⟩ := head
    simp only [insert]
    split
    · next he => simp [get?, he, Ne.symm h]
    · split
      · simp [get?, Ne.symm h]
      · simp [get?, ih]

theorem get?_eq_none {key : String} {entries : List (String × α)} :
    get? key entries = none ↔ key ∉ entries.map (·.1) := by
  induction entries with
  | nil => exact iff_of_true rfl List.not_mem_nil
  | cons head rest ih =>
    obtain ⟨k, a⟩ := head
    rw [get?, List.map_cons, List.mem_cons, not_or, ← ih]
    split
    · next he => exact iff_of_false (Option.some_ne_none a) fun h => h.1 he.symm
    · next hne => exact ⟨fun h => ⟨Ne.symm hne, h⟩, fun h => h.2⟩

/-- Behind the first entry there is nothing more under its key. -/
theorem Ascending.get?_rest {key : String} {a : α} {entries : List (String × α)}
    (h : Ascending ((key, a) :: entries)) : get? key entries = none := by
  refine get?_eq_none.mpr fun hkey => ?_
  obtain ⟨e, he, rfl⟩ := List.mem_map.mp hkey
  exact String.lt_irrefl _ ((List.pairwise_cons.mp h).1 e he)

theorem get?_erase_self {entries : List (String × α)} (h : Ascending entries) (key : String) :
    get? key (erase key entries) = none := by
  induction entries with
  | nil => rfl
  | cons head rest ih =>
    obtain ⟨k, a⟩ := head
    simp only [erase]
    split
    · next he =>
      subst he
      exact h.get?_rest
    · next hne => simp [get?, hne, ih (List.pairwise_cons.1 h).2]

theorem get?_erase_of_ne {key other : String} (h : other ≠ key) (entries : List (String × α)) :
    get? other (erase key entries) = get? other entries := by
  induction entries with
  | nil => rfl
  | cons head rest ih =>
    obtain ⟨k, a⟩ := head
    simp only [erase]
    split
    · next he => simp [get?, he, Ne.symm h]
    · simp [get?, ih]

end Entries

/-- A finite map from text keys, its entries in ascending order of the keys. -/
structure Keyed (α : Type u) where
  entries : List (String × α)
  ascending : Entries.Ascending entries

namespace Keyed

variable {α : Type u} {β : Type v}

def empty : Keyed α := ⟨[], List.Pairwise.nil⟩

instance : EmptyCollection (Keyed α) := ⟨empty⟩
instance : Inhabited (Keyed α) := ⟨empty⟩

def get? (m : Keyed α) (key : String) : Option α := Entries.get? key m.entries

def contains (m : Keyed α) (key : String) : Bool := (m.get? key).isSome

def insert (m : Keyed α) (key : String) (value : α) : Keyed α :=
  ⟨Entries.insert key value m.entries, m.ascending.insert key value⟩

def erase (m : Keyed α) (key : String) : Keyed α :=
  ⟨Entries.erase key m.entries, m.ascending.erase key⟩

/-- The map of a list of entries; of two entries with one key the later one counts. -/
def ofList (entries : List (String × α)) : Keyed α :=
  entries.foldl (fun m e => m.insert e.1 e.2) empty

def keys (m : Keyed α) : List String := m.entries.map (·.1)

def size (m : Keyed α) : Nat := m.entries.length

def isEmpty (m : Keyed α) : Bool := m.entries.isEmpty

@[ext] theorem ext {m n : Keyed α} (h : m.entries = n.entries) : m = n := by
  cases m; cases n; cases h; rfl

@[simp] theorem get?_empty (key : String) : (empty : Keyed α).get? key = none := rfl

@[grind =] theorem get?_insert (m : Keyed α) (key other : String) (value : α) :
    (m.insert key value).get? other = if other = key then some value else m.get? other := by
  split
  · next h =>
    subst h
    exact Entries.get?_insert_self _ _ _
  · next h => exact Entries.get?_insert_of_ne h _ _

@[grind =] theorem get?_erase (m : Keyed α) (key other : String) :
    (m.erase key).get? other = if other = key then none else m.get? other := by
  split
  · next h =>
    subst h
    exact Entries.get?_erase_self m.ascending _
  · next h => exact Entries.get?_erase_of_ne h _

end Keyed
end Delivery
