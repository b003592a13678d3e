import Delivery.Proofs.Json.Canonical
import Delivery.Proofs.Json.Records

/-!
What codecs read from a value: each field of a record from the member of its name, or else its default, and
each item of a list from its place.
-/

namespace Delivery

variable {α β : Type} {origin inner : Origin} {n : Nat}

namespace Entries

variable {key : String} {a : α} {entries : List (String × α)}

lemma mem_of_get? (h : get? key entries = some a) : (key, a) ∈ entries := by
  induction entries with
  | nil => cases h
  | cons e entries ih =>
    obtain ⟨k, b⟩ := e
    rw [get?] at h
    split at h
    · next hk =>
      cases h
      exact hk ▸ List.mem_cons_self
    · exact List.mem_cons_of_mem _ (ih h)

end Entries

section Lists

variable {r s : α → β → Prop} {as : List α}

lemma exists_forall₂ : (∃ bs, List.Forall₂ r as bs) ↔ ∀ a ∈ as, ∃ b, r a b := by
  induction as with
  | nil => exact iff_of_true ⟨[], .nil⟩ (List.forall_mem_nil _)
  | cons a as ih =>
    rw [List.forall_mem_cons, ← ih]
    constructor
    · rintro ⟨_, _ | ⟨hb, hbs⟩⟩
      exact ⟨⟨_, hb⟩, _, hbs⟩
    · rintro ⟨⟨b, hb⟩, bs, hbs⟩
      exact ⟨b :: bs, .cons hb hbs⟩

lemma exists_of_forall₂ {bs : List β} (h : List.Forall₂ r as bs) {b : β}
    (hb : b ∈ bs) : ∃ a ∈ as, r a b := by
  induction h with
  | nil => cases hb
  | cons hr _ ih =>
    obtain rfl | hb := List.mem_cons.mp hb
    · exact ⟨_, List.mem_cons_self, hr⟩
    · obtain ⟨a, ha, hr⟩ := ih hb
      exact ⟨a, List.mem_cons_of_mem _ ha, hr⟩

lemma forall₂_and_right {bs : List β} {q : β → Prop} (h : ∀ a ∈ as, ∀ b, r a b ∧ q b ↔ s a b) :
    (List.Forall₂ r as bs ∧ ∀ b ∈ bs, q b) ↔ List.Forall₂ s as bs := by
  induction as generalizing bs with
  | nil => cases bs <;> simp
  | cons a as ih =>
    obtain ⟨ha, has⟩ := List.forall_mem_cons.mp h
    cases bs with
    | nil => simp
    | cons b bs => rw [List.forall₂_cons, List.forall₂_cons, List.forall_mem_cons, ← ha b, ← ih has, and_and_and_comm]

end Lists

namespace Draft

mutual

lemma skip_ofJson : ∀ j : Json, (ofJson j).skip = .ok ()
  | .null => rfl
  | .bool _ => rfl
  | .number _ => rfl
  | .string _ => rfl
  | .array items => bind_eq_ok.mpr ⟨(), skipItems_ofItems items, rfl⟩
  | .object members => bind_eq_ok.mpr ⟨(), skipMembers_ofMembers members, rfl⟩

lemma skipItems_ofItems : ∀ items : List Json, skipItems (ofItems items) = .ok ()
  | [] => rfl
  | j :: rest => bind_eq_ok.mpr ⟨(), skip_ofJson j, skipItems_ofItems rest⟩

lemma skipMembers_ofMembers : ∀ members : List (String × Json), skipMembers (ofMembers members) = .ok ()
  | [] => rfl
  | (_, j) :: rest => bind_eq_ok.mpr ⟨(), skip_ofJson j, skipMembers_ofMembers rest⟩

end

end Draft

/-! ### Records -/

namespace Field

def Meets (f : Field α) (origin : Origin) (members : List (String × Json)) (value : Option α) : Prop :=
  match Entries.get? f.name members with
  | some j => ∃ a, f.read origin (.ofJson j) = .ok a ∧ some a = value
  | none => none = value

/-- What the field makes of the member of its name, or of its absence. -/
def Holds (f : Field α) (origin : Origin) (members : List (String × Json)) (a : α) : Prop :=
  match Entries.get? f.name members with
  | some j => f.read origin (.ofJson j) = .ok a
  | none => f.default = some a

lemma holds_iff {f : Field α} {members : List (String × Json)} {a : α} :
    f.Holds origin members a ↔ ∃ value, f.Meets origin members value ∧ value.or f.default = some a := by
  rw [Holds]
  simp only [Meets]
  cases Entries.get? f.name members <;> simp

end Field

namespace Fields

variable {fields : Fields β} {b : β} {ms : List (String × Json)}

def Holds (origin : Origin) (members : List (String × Json)) : {β : Type} → Fields β → β → Prop
  | _, .done, _ => True
  | _, .field head rest, (a, b) => head.Holds origin members a ∧ rest.Holds origin members b

lemma accept_unknown {key : String} (h : key ∉ fields.names) (slots : fields.Slots) (j : Json) :
    fields.accept origin key (.ofJson j) slots = .ok slots := by
  induction fields with
  | done => exact bind_eq_ok.mpr ⟨(), Draft.skip_ofJson j, rfl⟩
  | field head rest ih =>
    rw [names, List.mem_cons, not_or] at h
    exact (accept_other (Ne.symm h.1)).mpr ⟨_, ih h.2 _, rfl⟩

lemma acceptAll_nil {slots slots' : fields.Slots} :
    fields.acceptAll origin (Draft.ofMembers []) slots = .ok slots' ↔ slots = slots' :=
  ⟨Except.ok.inj, congrArg Except.ok⟩

lemma acceptAll_cons {e : String × Json} {slots slots' : fields.Slots} :
    fields.acceptAll origin (Draft.ofMembers (e :: ms)) slots = .ok slots' ↔
      ∃ more, fields.accept origin e.1 (.ofJson e.2) slots = .ok more ∧
        fields.acceptAll origin (Draft.ofMembers ms) more = .ok slots' :=
  bind_eq_ok

lemma acceptAll_done : done.acceptAll origin (Draft.ofMembers ms) () = .ok () := by
  induction ms with
  | nil => rfl
  | cons e ms ih => exact acceptAll_cons.mpr ⟨(), accept_unknown List.not_mem_nil _ _, ih⟩

section Slots

variable {head : Field α} {rest : Fields β} {value value' : Option α} {slots slots' : rest.Slots}

lemma acceptAll_other (h : head.name ∉ ms.map (·.1)) :
    (field head rest).acceptAll origin (Draft.ofMembers ms) (value, slots) = .ok (value', slots') ↔
      value = value' ∧ rest.acceptAll origin (Draft.ofMembers ms) slots = .ok slots' := by
  induction ms generalizing slots with
  | nil => exact acceptAll_nil.trans ((iff_of_eq (Prod.mk.injEq _ _ _ _)).trans (and_congr_right' acceptAll_nil.symm))
  | cons e ms ih =>
    rw [List.map_cons, List.mem_cons, not_or] at h
    refine acceptAll_cons.trans ⟨?_, ?_⟩
    · rintro ⟨_, haccept, hms⟩
      obtain ⟨more, hmore, rfl⟩ := (accept_other h.1).mp haccept
      obtain ⟨hvalue, hms⟩ := (ih h.2).mp hms
      exact ⟨hvalue, acceptAll_cons.mpr ⟨more, hmore, hms⟩⟩
    · rintro ⟨rfl, hms⟩
      obtain ⟨more, hmore, hms⟩ := acceptAll_cons.mp hms
      exact ⟨_, (accept_other h.1).mpr ⟨more, hmore, rfl⟩, (ih h.2).mpr ⟨rfl, hms⟩⟩

lemma acceptAll_field (hnew : head.name ∉ rest.names) (hkeys : (ms.map (·.1)).Nodup) :
    (field head rest).acceptAll origin (Draft.ofMembers ms) (none, slots) = .ok (value, slots') ↔
      head.Meets origin ms value ∧ rest.acceptAll origin (Draft.ofMembers ms) slots = .ok slots' := by
  induction ms generalizing slots with
  | nil => exact acceptAll_nil.trans ((iff_of_eq (Prod.mk.injEq _ _ _ _)).trans (and_congr_right' acceptAll_nil.symm))
  | cons e ms ih =>
    obtain ⟨key, j⟩ := e
    obtain ⟨hkey, hkeys⟩ := List.nodup_cons.mp hkeys
    rw [Field.Meets, Entries.get?]
    refine acceptAll_cons.trans ?_
    by_cases hname : key = head.name
    · subst hname
      rw [if_pos rfl]
      constructor
      · rintro ⟨_, haccept, hms⟩
        obtain ⟨-, a, ha, rfl⟩ := (accept_known rfl).mp haccept
        obtain ⟨hvalue, hms⟩ := (acceptAll_other hkey).mp hms
        exact ⟨⟨a, ha, hvalue⟩, acceptAll_cons.mpr ⟨_, accept_unknown hnew _ j, hms⟩⟩
      · rintro ⟨⟨a, ha, hvalue⟩, hms⟩
        obtain ⟨more, hmore, hms⟩ := acceptAll_cons.mp hms
        obtain rfl := Except.ok.inj ((accept_unknown hnew _ j).symm.trans hmore)
        exact ⟨_, (accept_known rfl).mpr ⟨rfl, a, ha, rfl⟩, (acceptAll_other hkey).mpr ⟨hvalue, hms⟩⟩
    · rw [if_neg hname]
      constructor
      · rintro ⟨_, haccept, hms⟩
        obtain ⟨more, hmore, rfl⟩ := (accept_other (Ne.symm hname)).mp haccept
        obtain ⟨hvalue, hms⟩ := (ih hkeys).mp hms
        exact ⟨hvalue, acceptAll_cons.mpr ⟨more, hmore, hms⟩⟩
      · rintro ⟨hvalue, hms⟩
        obtain ⟨more, hmore, hms⟩ := acceptAll_cons.mp hms
        exact ⟨_, (accept_other (Ne.symm hname)).mpr ⟨more, hmore, rfl⟩, (ih hkeys).mpr ⟨hvalue, hms⟩⟩

end Slots

lemma settle_acceptAll (hnames : fields.names.Nodup) (hkeys : (ms.map (·.1)).Nodup) :
    (∃ slots, fields.acceptAll origin (Draft.ofMembers ms) fields.vacant = .ok slots ∧ fields.settle slots = .ok b) ↔
      fields.Holds origin ms b := by
  induction fields with
  | done => exact iff_of_true ⟨(), acceptAll_done, rfl⟩ trivial
  | field head rest ih =>
    obtain ⟨a, b⟩ := b
    obtain ⟨hnew, hnames⟩ := List.nodup_cons.mp hnames
    rw [Holds, ← ih hnames, Field.holds_iff]
    constructor
    · rintro ⟨⟨value, slots⟩, hms, hsettle⟩
      obtain ⟨hvalue, hms⟩ := (acceptAll_field hnew hkeys).mp hms
      obtain ⟨ha, hb⟩ := settle_field.mp hsettle
      exact ⟨⟨value, hvalue, ha⟩, slots, hms, hb⟩
    · rintro ⟨⟨value, hvalue, ha⟩, slots, hms, hb⟩
      exact ⟨(value, slots), (acceptAll_field hnew hkeys).mpr ⟨hvalue, hms⟩, settle_field.mpr ⟨ha, hb⟩⟩

lemma read_object_iff (hnames : fields.names.Nodup) (name : String) (hkeys : (ms.map (·.1)).Nodup) :
    fields.read name origin (.ofJson (.object ms)) = .ok b ↔
      ∃ inner, origin.enter = .ok inner ∧ fields.Holds inner ms b := by
  rw [Draft.ofJson, read]
  simp only [bind_eq_ok, Close.check_eq_ok, ← settle_acceptAll hnames hkeys]
  grind

end Fields

lemma Codec.read_record_object {fields : Fields β} {name : String} {into : β → α} {back : α → β} {a : α}
    {ms : List (String × Json)} (hnames : fields.names.Nodup) (hkeys : (ms.map (·.1)).Nodup) :
    (Codec.record name fields into back).read origin (.ofJson (.object ms)) = .ok a ↔
      ∃ inner, origin.enter = .ok inner ∧ ∃ b, fields.Holds inner ms b ∧ into b = a := by
  refine map_eq_ok.trans ?_
  simp only [Fields.read_object_iff hnames name hkeys]
  grind

/-! ### Records that were written -/

namespace Field

/-- What the field makes of what it writes of one value is another. -/
def Rereads (f : Field α) (origin : Origin) (a a' : α) : Prop :=
  match f.write a with
  | some j => f.read origin (.ofJson j) = .ok a'
  | none => f.default = some a'

variable {c : Codec α} {a : α}

lemma rereads_required {name : String} (h : c.read origin (.ofJson (c.write a)) = .ok a) :
    (required name c).Rereads origin a a := h

lemma rereads_defaulted {name : String} {value : α} (h : c.read origin (.ofJson (c.write a)) = .ok a) :
    (defaulted name c value).Rereads origin a a := h

lemma rereads_optional {name : String} {o : Option α} (h : ∀ a ∈ o, c.read origin (.ofJson (c.write a)) = .ok a)
    (hnull : ∀ a, c.write a ≠ .null) : (optional name c).Rereads origin o o := by
  cases o with
  | none => exact rfl
  | some a => exact read_option.mpr ⟨fun hdraft => hnull a (Draft.ofJson_eq_null.mp hdraft), h a rfl⟩

end Field

namespace Fields

variable {fields : Fields β} {b b' : β} {ms ms' : List (String × Json)}

def Rereads (origin : Origin) : {β : Type} → Fields β → β → β → Prop
  | _, .done, _, _ => True
  | _, .field head rest, (a, b), (a', b') => head.Rereads origin a a' ∧ rest.Rereads origin b b'

lemma holds_congr (h : ∀ key ∈ fields.names, Entries.get? key ms = Entries.get? key ms') :
    fields.Holds origin ms b ↔ fields.Holds origin ms' b := by
  induction fields with
  | done => exact Iff.rfl
  | field head rest ih =>
    obtain ⟨a, b⟩ := b
    obtain ⟨hhead, hrest⟩ := List.forall_mem_cons.mp h
    rw [Holds, Holds, ih hrest, Field.Holds, Field.Holds, hhead]

lemma mem_write_head {head : Field α} {rest : Fields β} {a : α} {j : Json} (h : head.write a = some j) :
    (head.name, j) ∈ (field head rest).write (a, b) := by
  rw [write, h]
  exact List.mem_cons_self

lemma mem_write_rest {head : Field α} {rest : Fields β} {a : α} {x : String × Json} (h : x ∈ rest.write b) :
    x ∈ (field head rest).write (a, b) := by
  rw [write]
  split
  · exact List.mem_cons_of_mem _ h
  · exact h

lemma get?_write_of_notMem {key : String} (h : key ∉ fields.names) : Entries.get? key (fields.write b) = none :=
  Entries.get?_eq_none.mpr fun hkey => h ((keys_write_sublist fields b).subset hkey)

lemma holds_write (hnames : fields.names.Nodup) :
    fields.Holds origin (fields.write b) b' ↔ fields.Rereads origin b b' := by
  induction fields with
  | done => exact Iff.rfl
  | field head rest ih =>
    obtain ⟨a, b⟩ := b
    obtain ⟨a', b'⟩ := b'
    obtain ⟨hnew, hnames⟩ := List.nodup_cons.mp hnames
    rw [Holds, Rereads, ← ih hnames, Field.Holds, Field.Rereads, write]
    cases head.write a with
    | none => rw [get?_write_of_notMem hnew]
    | some j =>
      have hrest : ∀ key ∈ rest.names,
          Entries.get? key ((head.name, j) :: rest.write b) = Entries.get? key (rest.write b) := by
        intro key hkey
        exact if_neg fun hname : head.name = key => hnew (hname ▸ hkey)
      rw [holds_congr hrest, Entries.get?, if_pos rfl]

end Fields

lemma Codec.read_record_write {fields : Fields β} {name : String} {into : β → α} {back : α → β} {a a' : α}
    (hnames : fields.names.Nodup) :
    (Codec.record name fields into back).read origin (.ofJson ((Codec.record name fields into back).write a)) = .ok a' ↔
      ∃ inner, origin.enter = .ok inner ∧ ∃ b, fields.Rereads inner (back a) b ∧ into b = a' := by
  refine (read_record_object hnames ((Fields.keys_write_sublist _ _).nodup hnames)).trans ?_
  simp only [Fields.holds_write hnames]

/-! ### Values by their codecs -/

namespace Codec

variable {c : Codec α} {j : Json} {a : α}

lemma read_ofJson_string {wanted s : String} : (string wanted).read origin (.ofJson j) = .ok s ↔ j = .string s := by
  cases j with
  | string t => exact Except.ok.injEq t s ▸ (Json.string.injEq t s).symm ▸ Iff.rfl
  | _ => exact iff_of_false (wrongType_ne_ok _ _) nofun

lemma read_ofJson_nat {greatest k : Nat} {wanted : String} :
    (nat greatest wanted).read origin (.ofJson j) = .ok k ↔ j = .ofNat k ∧ k ≤ greatest := by
  constructor
  · intro h
    refine ⟨?_, read_nat_le h⟩
    cases j with
    | number m =>
      cases m with
      | integer m =>
        simp only [nat, Draft.ofJson] at h
        split at h
        · next hle =>
          cases h
          rw [Json.ofNat, Int.toNat_of_nonneg hle.1]
        · cases h
      | real x => exact absurd h (wrongType_ne_ok _ _)
    | _ => exact absurd h (wrongType_ne_ok _ _)
  · rintro ⟨rfl, hle⟩
    have hbound : (0 : Int) ≤ k ∧ (k : Int) ≤ greatest := by omega
    simp only [nat, Json.ofNat, Draft.ofJson, if_pos hbound, Int.toNat_natCast]

lemma read_ofJson_word32 {k : UInt32} : word32.read origin (.ofJson j) = .ok k ↔ j = .ofNat k.toNat := by
  refine map_eq_ok.trans ⟨?_, ?_⟩
  · rintro ⟨m, hm, rfl⟩
    obtain ⟨rfl, hle⟩ := read_ofJson_nat.mp hm
    rw [UInt32.toNat_ofNat_of_lt' (Nat.lt_of_le_of_lt hle (by decide))]
  · rintro rfl
    exact ⟨k.toNat, read_ofJson_nat.mpr ⟨rfl, Nat.le_pred_of_lt k.toNat_lt⟩, UInt32.ofNat_toNat⟩

lemma read_ofJson_word64 {k : UInt64} : word64.read origin (.ofJson j) = .ok k ↔ j = .ofNat k.toNat := by
  refine map_eq_ok.trans ⟨?_, ?_⟩
  · rintro ⟨m, hm, rfl⟩
    obtain ⟨rfl, hle⟩ := read_ofJson_nat.mp hm
    rw [UInt64.toNat_ofNat_of_lt' (Nat.lt_of_le_of_lt hle (by decide))]
  · rintro rfl
    exact ⟨k.toNat, read_ofJson_nat.mpr ⟨rfl, Nat.le_pred_of_lt k.toNat_lt⟩, UInt64.ofNat_toNat⟩

lemma read_payload_iff {d : Draft} {p : Payload} : payload.read origin d = .ok p ↔ d.toJson origin = .ok p.toJson := by
  cases d with
  | object members close =>
    rw [read_payload, Draft.toJson_object]
    simp only [Payload.toJson, Json.object.injEq, Keyed.ext_iff]
  | array items close =>
    refine iff_of_false (wrongType_ne_ok _ _) fun h => ?_
    obtain ⟨_, _, _, _, _, hj⟩ := Draft.toJson_array.mp h
    cases hj
  | number value => cases value <;> exact iff_of_false (wrongType_ne_ok _ _) nofun
  | string value => cases value <;> exact iff_of_false (wrongType_ne_ok _ _) nofun
  | _ => exact iff_of_false (wrongType_ne_ok _ _) nofun

lemma read_ofJson_payload {p : Payload} (hroom : origin.Room 0) (hj : j.Canonical) :
    payload.read origin (.ofJson j) = .ok p ↔ j = p.toJson ∧ origin.Room j.depth :=
  read_payload_iff.trans (Draft.toJson_ofJson hroom hj)

lemma readAll_ofItems {items : List Json} {as : List α} :
    c.readAll origin (Draft.ofItems items) = .ok as ↔
      List.Forall₂ (fun j a => c.read origin (.ofJson j) = .ok a) items as := by
  induction items generalizing as with
  | nil => exact (iff_of_eq (Except.ok.injEq _ _)).trans (eq_comm.trans List.forall₂_nil_left_iff.symm)
  | cons j items ih =>
    rw [Draft.ofItems, readAll_cons, List.forall₂_cons_left_iff]
    simp only [ih]

lemma exists_readAll_ofItems {items : List Json} : (∃ as, c.readAll origin (Draft.ofItems items) = .ok as) ↔
    ∀ j ∈ items, ∃ a, c.read origin (.ofJson j) = .ok a := by
  simp only [readAll_ofItems, exists_forall₂]

lemma read_ofJson_list {as : List α} : c.list.read origin (.ofJson j) = .ok as ↔
    ∃ inner items, origin.enter = .ok inner ∧ j = .array items ∧
      List.Forall₂ (fun j a => c.read inner (.ofJson j) = .ok a) items as := by
  constructor
  · intro h
    cases j with
    | array items =>
      obtain ⟨inner, henter, hitems, _⟩ := read_list.mp h
      exact ⟨inner, items, henter, rfl, readAll_ofItems.mp hitems⟩
    | _ => exact absurd h (wrongType_ne_ok _ _)
  · rintro ⟨inner, items, henter, rfl, hitems⟩
    exact read_list.mpr ⟨inner, henter, readAll_ofItems.mpr hitems, rfl⟩

/-- The codec reads the value only as what it writes as that value. -/
def Exact (c : Codec α) (origin : Origin) (j : Json) : Prop := ∀ a, c.read origin (.ofJson j) = .ok a ↔ j = c.write a

lemma exact_text : text.Exact origin j := fun _ => read_ofJson_string

lemma exact_word32 : word32.Exact origin j := fun _ => read_ofJson_word32

lemma exact_word64 : word64.Exact origin j := fun _ => read_ofJson_word64

lemma exact_payload (hroom : origin.Room j.depth) (hj : j.Canonical) : payload.Exact origin j :=
  fun _ => (read_ofJson_payload (hroom.mono (Nat.zero_le _)) hj).trans (and_iff_left hroom)

end Codec

namespace Field

variable {c : Codec α} {name : String} {ms : List (String × Json)} {a : α}

lemma holds_required (h : ∀ j, Entries.get? name ms = some j → c.Exact origin j) :
    (required name c).Holds origin ms a ↔ Entries.get? name ms = some (c.write a) := by
  simp only [Holds, required]
  split
  · next j hj => rw [h j hj a, hj, Option.some.injEq]
  · next hnone => simp [hnone]

lemma holds_defaulted (h : ∀ j, Entries.get? name ms = some j → c.Exact origin j) {value : α} :
    (defaulted name c value).Holds origin ms a ↔
      (Entries.get? name ms = none ∧ a = value) ∨ Entries.get? name ms = some (c.write a) := by
  simp only [Holds, defaulted]
  split
  · next j hj => simp [h j hj a, hj]
  · next hnone => simp [hnone, eq_comm]

lemma read_option_none {d : Draft} : c.option.read origin d = .ok none ↔ d = .null := by
  cases d <;> simp [Codec.option, map_eq_ok]

lemma holds_optional (hnull : Entries.get? name ms ≠ some .null) {a : Option α} :
    (optional name c).Holds origin ms a ↔ (Entries.get? name ms = none ∧ a = none) ∨
      ∃ j b, Entries.get? name ms = some j ∧ a = some b ∧ c.read origin (.ofJson j) = .ok b := by
  simp only [Holds, optional]
  split
  · next j hj =>
    have hj0 : Draft.ofJson j ≠ .null := fun hj0 => hnull (Draft.ofJson_eq_null.mp hj0 ▸ hj)
    cases a with
    | none => simp [hj, read_option_none, hj0]
    | some a => simp [hj, read_option, hj0]
  · next hnone => simp [hnone, eq_comm]

lemma holds_optional_exact (h : ∀ j, Entries.get? name ms = some j → c.Exact origin j)
    (hnull : Entries.get? name ms ≠ some .null) {a : Option α} :
    (optional name c).Holds origin ms a ↔ Entries.get? name ms = a.map c.write := by
  rw [holds_optional hnull]
  cases hj : Entries.get? name ms with
  | none => cases a <;> simp
  | some j => cases a <;> simp [h j hj _]

end Field
end Delivery
