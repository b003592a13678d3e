import Delivery.Json.Record
import Delivery.Proofs.Json.Range

/-!
Codecs that read what they write. The text of a value is read at the depth at which the value was found,
as it is written and as the JSON value that it spells, whose members are in another order.
-/

namespace Delivery

variable {α β : Type} {origin inner : Origin} {d : Draft} {n : Nat}

def Origin.Room (n : Nat) : Origin → Prop
  | .text depth => n < depth
  | _ => True

lemma Origin.Room.enter (h : origin.Room (n + 1)) (he : origin.enter = .ok inner) : inner.Room n := by
  cases origin with
  | text depth =>
    rw [Origin.enter] at he
    split at he
    · cases he
    · cases he
      simp only [Room] at h ⊢
      omega
  | value => cases he; trivial
  | loose => cases he; trivial

lemma Origin.Room.exists_enter (h : origin.Room (n + 1)) : ∃ inner, origin.enter = .ok inner := by
  cases origin with
  | text depth =>
    simp only [Room] at h
    exact ⟨.text (depth - 1), if_neg (by omega)⟩
  | value => exact ⟨_, rfl⟩
  | loose => exact ⟨_, rfl⟩

/-- What is written is still good when it is read: as it stands, and as the JSON value that it spells. -/
structure Survives (origin : Origin) (j : Json) (good : Draft → Prop) : Prop where
  again : good (.ofJson j)
  held : ∃ k, (Draft.ofJson j).toJson origin = .ok k ∧ good (.ofJson k)
  inRange : ∀ n ∈ j.numbers, n.InRange

namespace Survives

variable {j : Json} {good better : Draft → Prop}

lemma imp (h : Survives origin j good) (himp : ∀ d, good d → better d) : Survives origin j better :=
  let ⟨k, hk, hgood⟩ := h.held
  ⟨himp _ h.again, ⟨k, hk, himp _ hgood⟩, h.inRange⟩

lemma of_fixed (hfixed : Draft.Fixed origin j) (hgood : good (.ofJson j)) (hrange : ∀ n ∈ j.numbers, n.InRange) :
    Survives origin j good :=
  ⟨hgood, ⟨j, hfixed, hgood⟩, hrange⟩

end Survives

namespace Codec

/-- Whatever the codec reads it writes in such a way that it reads it again. `room` brackets suffice for
what it adds of its own. -/
structure Lawful (c : Codec α) (room : Nat) : Prop where
  survives : ∀ {origin d a}, origin.Room room → d.InRange → c.read origin d = .ok a →
    Survives origin (c.write a) fun d => c.read origin d = .ok a
  null : ∀ {origin d a}, c.read origin d = .ok a → c.write a = .null → d = .null

/-! ### Plain values -/

lemma wrongType_ne_ok (wanted : String) (a : α) : d.wrongType wanted ≠ .ok a := by
  intro h
  obtain ⟨_, _, hthrow⟩ := bind_eq_ok.mp h
  cases hthrow

lemma lawful_string (wanted : String) : (string wanted).Lawful n where
  survives {origin d a} _ _ _ := .of_fixed rfl rfl (List.forall_mem_nil _)
  null _ h := by cases h

lemma read_nat_le {greatest a : Nat} {wanted : String} (h : (nat greatest wanted).read origin d = .ok a) :
    a ≤ greatest := by
  simp only [nat] at h
  split at h
  · split at h
    · cases h
      omega
    · cases h
  · exact absurd h (wrongType_ne_ok _ _)

lemma lawful_nat {greatest : Nat} (h : (greatest : Int) ≤ Number.greatestInteger) (wanted : String) :
    (nat greatest wanted).Lawful n where
  survives {origin d a} _ _ hread := by
    have hle := read_nat_le hread
    refine .of_fixed rfl ?_ (List.forall_mem_singleton.mpr ⟨?_, ?_⟩)
    · have hbound : (0 : Int) ≤ a ∧ (a : Int) ≤ greatest := by omega
      simp only [nat, Json.ofNat, Draft.ofJson, if_pos hbound, Int.toNat_natCast]
    · simp only [Number.leastInteger]
      omega
    · omega
  null _ h := by cases h

lemma Lawful.map {c : Codec α} (h : c.Lawful n) {into : α → β} {back : β → α}
    (hback : ∀ {origin d a}, c.read origin d = .ok a → back (into a) = a) : (c.map into back).Lawful n where
  survives {origin d b} hroom hd hread := by
    obtain ⟨a, ha, rfl⟩ := map_eq_ok.mp hread
    have hwrite : (c.map into back).write (into a) = c.write a := congrArg c.write (hback ha)
    rw [hwrite]
    exact (h.survives hroom hd ha).imp fun _ hd => map_eq_ok.mpr ⟨a, hd, rfl⟩
  null {origin d b} hread hwrite := by
    obtain ⟨a, ha, rfl⟩ := map_eq_ok.mp hread
    exact h.null ha ((congrArg c.write (hback ha)).symm.trans hwrite)

lemma lawful_word32 : word32.Lawful n := by
  refine (lawful_nat (by decide) "u32").map fun hread => ?_
  have hle := read_nat_le hread
  have hbound : twoPower 32 - 1 < UInt32.size := by decide
  exact UInt32.toNat_ofNat_of_lt' (by omega)

lemma lawful_word64 : word64.Lawful n := by
  refine (lawful_nat (by decide) "u64").map fun hread => ?_
  have hle := read_nat_le hread
  have hbound : twoPower 64 - 1 < UInt64.size := by decide
  exact UInt64.toNat_ofNat_of_lt' (by omega)

lemma lawful_position : position.Lawful n := lawful_nat (by decide) "usize"

lemma lawful_json : json.Lawful n where
  survives {origin d j} _ hd hread :=
    have hfixed := Draft.fixed_of_toJson origin d hread
    .of_fixed hfixed hfixed fun n hn => hd n (Draft.numbers_toJson origin d hread hn)
  null hread hwrite := by
    obtain rfl := hwrite
    exact Draft.toJson_eq_null hread

lemma read_payload {members : List (Option String × Draft)} {close : Close} {p : Payload} :
    payload.read origin (.object members close) = .ok p ↔
      ∃ inner ms, origin.enter = .ok inner ∧ Draft.toMembers inner members = .ok ms ∧ close = .closed ∧
        p = Keyed.ofList ms := by
  simp only [payload, bind_eq_ok, pure_eq_ok, Close.check_eq_ok]
  grind

lemma lawful_payload : payload.Lawful n where
  survives {origin d p} _ hd hread := by
    cases d with
    | object members close =>
      obtain ⟨inner, ms, henter, hmembers, _, rfl⟩ := read_payload.mp hread
      have hfixed : Draft.toMembers inner (Draft.ofMembers (Keyed.ofList ms).entries) =
          .ok (Keyed.ofList ms).entries :=
        Draft.toMembers_of_fixed fun e he =>
          Draft.fixed_of_toMembers inner members hmembers e (Keyed.mem_of_mem_ofList he)
      refine .of_fixed (Draft.toJson_object.mpr ⟨inner, _, henter, hfixed, rfl, ?_⟩)
        (read_payload.mpr ⟨inner, _, henter, hfixed, rfl, ?_⟩) ?_
      · rw [Keyed.ofList_entries]
        rfl
      · rw [Keyed.ofList_entries]
      · intro n hn
        obtain ⟨e, he, hne⟩ := Json.mem_numbersOfMembers.mp hn
        exact hd n (Draft.numbers_toMembers inner members hmembers
          (Json.mem_numbersOfMembers.mpr ⟨e, Keyed.mem_of_mem_ofList he, hne⟩))
    | _ => exact absurd hread (wrongType_ne_ok _ _)
  null _ h := by cases h

lemma variantNamed_eq_ok {variants : List (String × α)} {name : String} {a : α} :
    variantNamed variants name = .ok a ↔ Entries.get? name variants = some a := by
  rw [variantNamed]
  cases Entries.get? name variants <;> simp

lemma lawful_variant {variants : List (String × α)} {name : α → String}
    (h : ∀ a, Entries.get? (name a) variants = some a) : (variant variants name).Lawful n where
  survives {origin d a} _ _ _ := by
    refine .of_fixed rfl ?_ (List.forall_mem_nil _)
    cases origin <;> exact variantNamed_eq_ok.mpr (h a)
  null _ h := by cases h

/-! ### Lists -/

lemma readAll_cons {c : Codec α} {ds : List Draft} {as : List α} :
    c.readAll origin (d :: ds) = .ok as ↔
      ∃ a rest, c.read origin d = .ok a ∧ c.readAll origin ds = .ok rest ∧ as = a :: rest := by
  simp only [readAll, bind_eq_ok, pure_eq_ok]
  grind

lemma Lawful.survives_items {c : Codec α} (h : c.Lawful n) {ds : List Draft} {as : List α} (hroom : origin.Room n)
    (hds : ∀ m ∈ Draft.numbersOfItems ds, m.InRange) (hread : c.readAll origin ds = .ok as) :
    c.readAll origin (Draft.ofItems (as.map c.write)) = .ok as ∧
      (∃ ks, Draft.toItems origin (Draft.ofItems (as.map c.write)) = .ok ks ∧
        c.readAll origin (Draft.ofItems ks) = .ok as) ∧
      ∀ m ∈ Json.numbersOfItems (as.map c.write), m.InRange := by
  induction ds generalizing as with
  | nil =>
    cases hread
    exact ⟨rfl, ⟨[], rfl, rfl⟩, List.forall_mem_nil _⟩
  | cons d ds ih =>
    obtain ⟨a, rest, ha, hrest, rfl⟩ := readAll_cons.mp hread
    obtain ⟨hd, hds⟩ := List.forall_mem_append.mp hds
    obtain ⟨hagain, ⟨k, hk, hka⟩, hrange⟩ := h.survives hroom hd ha
    obtain ⟨hagains, ⟨ks, hks, hkas⟩, hranges⟩ := ih hds hrest
    exact ⟨readAll_cons.mpr ⟨a, rest, hagain, hagains, rfl⟩,
      ⟨k :: ks, Draft.toItems_cons.mpr ⟨k, ks, hk, hks, rfl⟩, readAll_cons.mpr ⟨a, rest, hka, hkas, rfl⟩⟩,
      List.forall_mem_append.mpr ⟨hrange, hranges⟩⟩

lemma read_list {c : Codec α} {ds : List Draft} {close : Close} {as : List α} :
    c.list.read origin (.array ds close) = .ok as ↔
      ∃ inner, origin.enter = .ok inner ∧ c.readAll inner ds = .ok as ∧ close = .closed := by
  simp only [list, bind_eq_ok, pure_eq_ok, Close.check_eq_ok]
  grind

lemma Lawful.list {c : Codec α} (h : c.Lawful n) : c.list.Lawful (n + 1) where
  survives {origin d as} hroom hd hread := by
    cases d with
    | array ds close =>
      obtain ⟨inner, henter, hread, _⟩ := read_list.mp hread
      obtain ⟨hagain, ⟨ks, hks, hheld⟩, hrange⟩ := h.survives_items (hroom.enter henter) hd hread
      exact ⟨read_list.mpr ⟨inner, henter, hagain, rfl⟩,
        ⟨.array ks, Draft.toJson_array.mpr ⟨inner, ks, henter, hks, rfl, rfl⟩,
          read_list.mpr ⟨inner, henter, hheld, rfl⟩⟩, hrange⟩
    | _ => exact absurd hread (wrongType_ne_ok _ _)
  null _ h := by cases h

end Codec

/-! ### Fields -/

namespace Field

/-- The value was read, or stands for a field that is missing. -/
def Sourced (f : Field α) (origin : Origin) (a : α) : Prop :=
  (∃ d : Draft, d.InRange ∧ f.read origin d = .ok a) ∨ f.default = some a

/-- What a field writes it reads again, and it leaves out nothing but its default. -/
structure Lawful (f : Field α) (room : Nat) : Prop where
  survives : ∀ {origin a j}, origin.Room room → f.Sourced origin a → f.write a = some j →
    Survives origin j fun d => f.read origin d = .ok a
  omitted : ∀ {origin a}, f.Sourced origin a → f.write a = none → f.default = some a

variable {c : Codec α}

lemma lawful_required (h : c.Lawful n) (name : String) : (required name c).Lawful n where
  survives {origin a j} hroom hsource hwrite := by
    obtain rfl := Option.some.inj hwrite
    obtain ⟨d, hd, hread⟩ | hdefault := hsource
    · exact h.survives hroom hd hread
    · cases hdefault
  omitted _ hwrite := by cases hwrite

lemma lawful_defaulted (h : c.Lawful n) (name : String) {value : α}
    (hvalue : ∀ {origin : Origin}, origin.Room n → ∃ d : Draft, d.InRange ∧ c.read origin d = .ok value) :
    (defaulted name c value).Lawful n where
  survives {origin a j} hroom hsource hwrite := by
    obtain rfl := Option.some.inj hwrite
    obtain ⟨d, hd, hread⟩ | hdefault := hsource
    · exact h.survives hroom hd hread
    · obtain rfl := Option.some.inj hdefault
      obtain ⟨d, hd, hread⟩ := hvalue hroom
      exact h.survives hroom hd hread
  omitted _ hwrite := by cases hwrite

lemma read_option {a : α} : c.option.read origin d = .ok (some a) ↔ d ≠ .null ∧ c.read origin d = .ok a := by
  cases d <;> simp [Codec.option, map_eq_ok]

lemma lawful_optional (h : c.Lawful n) (name : String) : (optional name c).Lawful n where
  survives {origin a j} hroom hsource hwrite := by
    obtain ⟨a, rfl, rfl⟩ := Option.map_eq_some_iff.mp hwrite
    obtain ⟨d, hd, hread⟩ | hdefault := hsource
    · obtain ⟨hnull, hread⟩ := read_option.mp hread
      have hwritten : c.write a ≠ .null := fun hw => hnull (h.null hread hw)
      have hdraft : Draft.ofJson (c.write a) ≠ .null := by rwa [ne_eq, Draft.ofJson_eq_null]
      obtain ⟨hagain, ⟨k, hk, hheld⟩, hrange⟩ := h.survives hroom hd hread
      refine ⟨read_option.mpr ⟨hdraft, hagain⟩, ⟨k, hk, read_option.mpr ⟨fun hk0 => ?_, hheld⟩⟩, hrange⟩
      rw [Draft.ofJson_eq_null.mp hk0] at hk
      exact hdraft (Draft.toJson_eq_null hk)
    · cases hdefault
  omitted {origin a} _ hwrite := by
    obtain rfl := Option.map_eq_none_iff.mp hwrite
    rfl

lemma lawful_listed (h : c.Lawful n) (name : String) : (listed name c).Lawful (n + 1) where
  survives {origin a j} hroom hsource hwrite := by
    simp only [listed] at hwrite
    split at hwrite
    · cases hwrite
    · next hne =>
      obtain rfl := Option.some.inj hwrite
      obtain ⟨d, hd, hread⟩ | hdefault := hsource
      · exact h.list.survives hroom hd hread
      · obtain rfl := Option.some.inj hdefault
        exact absurd rfl hne
  omitted {origin a} _ hwrite := by
    simp only [listed] at hwrite ⊢
    split at hwrite
    · next hempty => rw [List.isEmpty_iff.mp hempty]
    · cases hwrite

end Field

end Delivery
