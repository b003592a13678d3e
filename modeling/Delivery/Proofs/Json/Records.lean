import Delivery.Proofs.Json.Lawful
import Mathlib.Data.List.Nodup

/-!
Records read what they write. The values of a record come from what was read, from an object or from an
array, or they are the defaults of missing fields; either way the object that is written gives them back,
whatever the order of its members.
-/

namespace Delivery

variable {α β : Type} {origin : Origin} {d : Draft} {n : Nat}

namespace Fields

variable {fields : Fields β} {b : β} {keys : List String}

def names : {β : Type} → Fields β → List String
  | _, .done => []
  | _, .field head rest => head.name :: rest.names

def Lawful (room : Nat) : {β : Type} → Fields β → Prop
  | _, .done => True
  | _, .field head rest => head.Lawful room ∧ rest.Lawful room

def Sourced (origin : Origin) : {β : Type} → Fields β → β → Prop
  | _, .done, _ => True
  | _, .field head rest, (a, b) => head.Sourced origin a ∧ rest.Sourced origin b

def SlotsSourced (origin : Origin) : {β : Type} → (fields : Fields β) → fields.Slots → Prop
  | _, .done, _ => True
  | _, .field (α := α) head rest, slots =>
    let (value, slots) : Option α × rest.Slots := slots
    (∀ a, value = some a → head.Sourced origin a) ∧ rest.SlotsSourced origin slots

lemma slotsSourced_vacant {β : Type} (fields : Fields β) : fields.SlotsSourced origin fields.vacant := by
  induction fields with
  | done => trivial
  | field head rest ih => exact ⟨nofun, ih⟩

section Accept

variable {head : Field α} {rest : Fields β} {key : String} {value : Option α} {slots : rest.Slots}
  {slots' : Option α × rest.Slots}

lemma accept_field : (field head rest).accept origin key d (value, slots) =
    (if head.name = key then
      if value.isSome then .error (.mismatch (.duplicateField key))
      else (head.read origin d).map fun a => (some a, slots)
    else (rest.accept origin key d slots).map fun more => (value, more) :
      Except Fault (Option α × rest.Slots)) := by
  by_cases h : head.name = key
  · rw [if_pos h]
    refine (if_pos h).trans ?_
    cases value with
    | some a => rfl
    | none => cases head.read origin d <;> rfl
  · rw [if_neg h]
    refine (if_neg h).trans ?_
    cases rest.accept origin key d slots <;> rfl

lemma accept_known (h : head.name = key) : (field head rest).accept origin key d (value, slots) = .ok slots' ↔
    value = none ∧ ∃ a, head.read origin d = .ok a ∧ (some a, slots) = slots' := by
  rw [accept_field, if_pos h]
  cases value with
  | none => exact map_eq_ok.trans (by simp)
  | some a => exact ⟨nofun, nofun⟩

lemma accept_other (h : head.name ≠ key) : (field head rest).accept origin key d (value, slots) = .ok slots' ↔
    ∃ more, rest.accept origin key d slots = .ok more ∧ (value, more) = slots' := by
  rw [accept_field, if_neg h]
  exact map_eq_ok

lemma settle_field {a : α} {b : β} : (field head rest).settle (value, slots) = .ok (a, b) ↔
    value.or head.default = some a ∧ rest.settle slots = .ok b := by
  have hgo : ∀ a' : α, rest.settle slots >>= (fun b => pure (a', b)) = .ok (a, b) ↔
      a' = a ∧ rest.settle slots = .ok b := by
    intro a'
    simp only [bind_eq_ok, pure_eq_ok]
    grind
  cases value with
  | some a' => exact (hgo a').trans (by simp)
  | none =>
    obtain ⟨name, read, default, write⟩ := head
    cases default with
    | some a' => exact (hgo a').trans (by simp)
    | none => exact ⟨nofun, fun h => by cases h.1⟩

variable {wanted : String} {close : Close} {index : Nat} {items left : List Draft}

lemma readItems_nil {a : α} {b : β} :
    (field head rest).readItems origin wanted close index [] = .ok ((a, b), left) ↔
      close = .closed ∧ head.default = some a ∧
        rest.readItems origin wanted close (index + 1) [] = .ok (b, left) := by
  rw [readItems]
  cases head.default with
  | some a' =>
    simp only [bind_eq_ok, pure_eq_ok, Close.check_eq_ok]
    grind
  | none =>
    refine ⟨fun h => ?_, fun h => by cases h.2.1⟩
    obtain ⟨_, _, h⟩ := bind_eq_ok.mp h
    cases h

lemma readItems_cons {a : α} {b : β} :
    (field head rest).readItems origin wanted close index (d :: items) = .ok ((a, b), left) ↔
      head.read origin d = .ok a ∧ rest.readItems origin wanted close (index + 1) items = .ok (b, left) := by
  rw [readItems]
  simp only [bind_eq_ok, pure_eq_ok]
  grind

end Accept

lemma accept_sourced {key : String} (hd : d.InRange) {slots slots' : fields.Slots}
    (hslots : fields.SlotsSourced origin slots) (h : fields.accept origin key d slots = .ok slots') :
    fields.SlotsSourced origin slots' := by
  induction fields with
  | done => trivial
  | field head rest ih =>
    obtain ⟨value, slots⟩ := slots
    obtain ⟨hvalue, hrest⟩ := hslots
    by_cases hname : head.name = key
    · obtain ⟨rfl, a, ha, rfl⟩ := (accept_known hname).mp h
      refine ⟨fun a' ha' => Or.inl ⟨d, hd, ?_⟩, hrest⟩
      rwa [← Option.some.inj ha']
    · obtain ⟨more, hmore, rfl⟩ := (accept_other hname).mp h
      exact ⟨hvalue, ih hrest hmore⟩

lemma acceptAll_sourced {members : List (Option String × Draft)}
    (hmembers : ∀ m ∈ Draft.numbersOfMembers members, m.InRange) {slots slots' : fields.Slots}
    (hslots : fields.SlotsSourced origin slots) (h : fields.acceptAll origin members slots = .ok slots') :
    fields.SlotsSourced origin slots' := by
  induction members generalizing slots with
  | nil =>
    cases h
    exact hslots
  | cons member members ih =>
    obtain ⟨key, d⟩ := member
    obtain ⟨hd, hrest⟩ := List.forall_mem_append.mp hmembers
    cases key with
    | none => cases h
    | some key =>
      obtain ⟨more, haccept, h⟩ := bind_eq_ok.mp h
      exact ih hrest (accept_sourced hd hslots haccept) h

lemma settle_sourced {slots : fields.Slots} (hslots : fields.SlotsSourced origin slots)
    (h : fields.settle slots = .ok b) : fields.Sourced origin b := by
  induction fields with
  | done => trivial
  | field head rest ih =>
    obtain ⟨value, slots⟩ := slots
    obtain ⟨hvalue, hrest⟩ := hslots
    obtain ⟨a, b⟩ := b
    obtain ⟨ha, hb⟩ := settle_field.mp h
    refine ⟨?_, ih hrest hb⟩
    cases value with
    | some a' => exact hvalue a ha
    | none => exact Or.inr ha

lemma readItems_sourced {wanted : String} {close : Close} {index : Nat} {items left : List Draft}
    (hitems : ∀ m ∈ Draft.numbersOfItems items, m.InRange)
    (h : fields.readItems origin wanted close index items = .ok (b, left)) : fields.Sourced origin b := by
  induction fields generalizing index items left with
  | done => trivial
  | field head rest ih =>
    obtain ⟨a, b⟩ := b
    cases items with
    | nil =>
      obtain ⟨_, ha, hb⟩ := readItems_nil.mp h
      exact ⟨Or.inr ha, ih (List.forall_mem_nil _) hb⟩
    | cons d items =>
      obtain ⟨hd, hitems⟩ := List.forall_mem_append.mp hitems
      obtain ⟨ha, hb⟩ := readItems_cons.mp h
      exact ⟨Or.inl ⟨d, hd, ha⟩, ih hitems hb⟩

lemma read_sourced {name : String} (hd : d.InRange) (h : fields.read name origin d = .ok b) :
    ∃ inner, origin.enter = .ok inner ∧ fields.Sourced inner b := by
  cases d with
  | object members close =>
    obtain ⟨inner, henter, h⟩ := bind_eq_ok.mp h
    obtain ⟨slots, hslots, h⟩ := bind_eq_ok.mp h
    obtain ⟨_, _, h⟩ := bind_eq_ok.mp h
    exact ⟨inner, henter, settle_sourced (acceptAll_sourced hd (slotsSourced_vacant fields) hslots) h⟩
  | array items close =>
    obtain ⟨inner, henter, h⟩ := bind_eq_ok.mp h
    obtain ⟨⟨b', left⟩, hitems, h⟩ := bind_eq_ok.mp h
    obtain ⟨_, _, h⟩ := bind_eq_ok.mp h
    obtain rfl := pure_eq_ok.mp h
    exact ⟨inner, henter, readItems_sourced hd hitems⟩
  | _ => exact absurd h (Codec.wrongType_ne_ok _ _)

/-! ### Reading an object back -/

def fill : {β : Type} → (fields : Fields β) → β → List String → fields.Slots
  | _, .done, _, _ => ()
  | _, .field head rest, (a, b), keys => (if head.name ∈ keys then some a else none, rest.fill b keys)

lemma fill_nil (fields : Fields β) (b : β) : fields.fill b [] = fields.vacant := by
  induction fields with
  | done => rfl
  | field head rest ih =>
    obtain ⟨a, b⟩ := b
    have hnone : (if head.name ∈ [] then some a else none) = none := if_neg List.not_mem_nil
    exact Prod.ext hnone (ih b)

lemma fill_cons_of_notMem {key : String} (h : key ∉ fields.names) (b : β) (keys : List String) :
    fields.fill b (key :: keys) = fields.fill b keys := by
  induction fields with
  | done => rfl
  | field head rest ih =>
    rw [names, List.mem_cons, not_or] at h
    refine Prod.ext ?_ (ih h.2 b.2)
    have hmem : head.name ∈ key :: keys ↔ head.name ∈ keys := by simp [Ne.symm h.1]
    exact if_congr hmem rfl rfl

def Takes (origin : Origin) (key : String) (d : Draft) : {β : Type} → Fields β → β → Prop
  | _, .done, _ => False
  | _, .field head rest, (a, b) =>
    if head.name = key then head.read origin d = .ok a else rest.Takes origin key d b

lemma Takes.mem_names {key : String} (h : fields.Takes origin key d b) : key ∈ fields.names := by
  induction fields with
  | done => exact h.elim
  | field head rest ih =>
    rw [names, List.mem_cons]
    by_cases hname : head.name = key
    · exact Or.inl hname.symm
    · exact Or.inr (ih ((if_neg hname).mp h))

lemma accept_fill (hnames : fields.names.Nodup) {key : String} (hkey : key ∉ keys)
    (h : fields.Takes origin key d b) :
    fields.accept origin key d (fields.fill b keys) = .ok (fields.fill b (key :: keys)) := by
  induction fields with
  | done => exact h.elim
  | field head rest ih =>
    obtain ⟨a, b⟩ := b
    obtain ⟨hnew, hrest⟩ := List.nodup_cons.mp hnames
    by_cases hname : head.name = key
    · subst hname
      refine (accept_known rfl).mpr ⟨if_neg hkey, a, (if_pos rfl).mp h, Prod.ext ?_ ?_⟩
      · exact (if_pos List.mem_cons_self).symm
      · exact (fill_cons_of_notMem hnew b keys).symm
    · refine (accept_other hname).mpr ⟨_, ih hrest ((if_neg hname).mp h), Prod.ext ?_ rfl⟩
      have hmem : head.name ∈ keys ↔ head.name ∈ key :: keys := by simp [hname]
      exact if_congr hmem rfl rfl

lemma acceptAll_fill (hnames : fields.names.Nodup) {ms : List (String × Json)}
    (hkeys : (ms.map (·.1) ++ keys).Nodup) (h : ∀ e ∈ ms, fields.Takes origin e.1 (.ofJson e.2) b) :
    fields.acceptAll origin (Draft.ofMembers ms) (fields.fill b keys) =
      .ok (fields.fill b ((ms.map (·.1)).reverse ++ keys)) := by
  induction ms generalizing keys with
  | nil => rfl
  | cons e ms ih =>
    obtain ⟨he, hms⟩ := List.forall_mem_cons.mp h
    rw [List.map_cons, List.cons_append, List.nodup_cons, List.mem_append, not_or] at hkeys
    obtain ⟨⟨hout, hnew⟩, hkeys⟩ := hkeys
    have hmore : (ms.map (·.1) ++ e.1 :: keys).Nodup := by
      rw [List.nodup_middle, List.nodup_cons, List.mem_append, not_or]
      exact ⟨⟨hout, hnew⟩, hkeys⟩
    refine bind_eq_ok.mpr ⟨_, accept_fill hnames hnew he, (ih hmore hms).trans ?_⟩
    simp

def Complete (keys : List String) : {β : Type} → Fields β → β → Prop
  | _, .done, _ => True
  | _, .field head rest, (a, b) => (head.name ∈ keys ∨ head.default = some a) ∧ rest.Complete keys b

lemma Complete.mono {keys' : List String} (h : fields.Complete keys b) (hkeys : keys ⊆ keys') :
    fields.Complete keys' b := by
  induction fields with
  | done => trivial
  | field head rest ih =>
    obtain ⟨a, b⟩ := b
    exact ⟨h.1.imp_left fun hmem => hkeys hmem, ih h.2⟩

lemma settle_fill (h : fields.Complete keys b) : fields.settle (fields.fill b keys) = .ok b := by
  induction fields with
  | done => rfl
  | field head rest ih =>
    obtain ⟨a, b⟩ := b
    refine settle_field.mpr ⟨?_, ih h.2⟩
    by_cases hmem : head.name ∈ keys
    · rw [if_pos hmem, Option.some_or]
    · rw [if_neg hmem, Option.none_or, h.1.resolve_left hmem]

lemma read_object (hnames : fields.names.Nodup) (name : String) {inner : Origin}
    (henter : origin.enter = .ok inner) {ms : List (String × Json)} (hkeys : (ms.map (·.1)).Nodup)
    (hms : ∀ e ∈ ms, fields.Takes inner e.1 (.ofJson e.2) b) (hcomplete : fields.Complete (ms.map (·.1)) b) :
    fields.read name origin (.ofJson (.object ms)) = .ok b := by
  have haccept := acceptAll_fill hnames (by rwa [List.append_nil]) hms
  rw [fill_nil] at haccept
  refine bind_eq_ok.mpr ⟨inner, henter, bind_eq_ok.mpr ⟨_, haccept, ?_⟩⟩
  refine settle_fill (hcomplete.mono fun key hkey => ?_)
  rwa [List.append_nil, List.mem_reverse]

/-! ### Writing -/

variable {room : Nat}

lemma keys_write_sublist (fields : Fields β) (b : β) : ((fields.write b).map (·.1)).Sublist fields.names := by
  induction fields with
  | done => exact List.Sublist.refl _
  | field head rest ih =>
    obtain ⟨a, b⟩ := b
    rw [write]
    split
    · exact (ih b).cons_cons _
    · exact (ih b).cons _

lemma survives_write (hlawful : fields.Lawful room) (hnames : fields.names.Nodup) (hroom : origin.Room room)
    (hb : fields.Sourced origin b) :
    ∀ e ∈ fields.write b, Survives origin e.2 fun d => fields.Takes origin e.1 d b := by
  induction fields with
  | done => exact List.forall_mem_nil _
  | field head rest ih =>
    obtain ⟨a, b⟩ := b
    obtain ⟨hnew, hrest⟩ := List.nodup_cons.mp hnames
    have htail : ∀ e ∈ rest.write b,
        Survives origin e.2 fun d => (field head rest).Takes origin e.1 d (a, b) := by
      intro e he
      refine (ih hlawful.2 hrest hb.2 e he).imp fun d hd => (if_neg ?_).mpr hd
      intro hname
      exact hnew (hname ▸ hd.mem_names)
    rw [write]
    split
    · next j hj =>
      refine List.forall_mem_cons.mpr ⟨?_, htail⟩
      exact (hlawful.1.survives hroom hb.1 hj).imp fun d hd => (if_pos rfl).mpr hd
    · exact htail

lemma complete_write (hlawful : fields.Lawful room) (hb : fields.Sourced origin b) :
    fields.Complete ((fields.write b).map (·.1)) b := by
  induction fields with
  | done => trivial
  | field head rest ih =>
    obtain ⟨a, b⟩ := b
    have htail := ih hlawful.2 hb.2
    rw [write]
    split
    · exact ⟨Or.inl List.mem_cons_self, htail.mono (List.subset_cons_self _ _)⟩
    · next hnone => exact ⟨Or.inr (hlawful.1.omitted hb.1 hnone), htail⟩

lemma toMembers_held {ms : List (String × Json)} (good : String → Draft → Prop)
    (h : ∀ e ∈ ms, Survives origin e.2 (good e.1)) :
    ∃ ks, Draft.toMembers origin (Draft.ofMembers ms) = .ok ks ∧ ks.map (·.1) = ms.map (·.1) ∧
      ∀ e ∈ ks, good e.1 (.ofJson e.2) := by
  induction ms with
  | nil => exact ⟨[], rfl, rfl, List.forall_mem_nil _⟩
  | cons e ms ih =>
    obtain ⟨he, hms⟩ := List.forall_mem_cons.mp h
    obtain ⟨k, hk, hgood⟩ := he.held
    obtain ⟨ks, hks, hkeys, hgoods⟩ := ih hms
    exact ⟨(e.1, k) :: ks, Draft.toMembers_cons.mpr ⟨_, _, _, rfl, hk, hks, rfl⟩, congrArg (e.1 :: ·) hkeys,
      List.forall_mem_cons.mpr ⟨hgood, hgoods⟩⟩

lemma survives_object (hlawful : fields.Lawful room) (hnames : fields.names.Nodup) (name : String)
    (hroom : origin.Room (room + 1)) {inner : Origin} (henter : origin.enter = .ok inner)
    (hb : fields.Sourced inner b) :
    Survives origin (.object (fields.write b)) fun d => fields.read name origin d = .ok b := by
  have hwritten := survives_write hlawful hnames (hroom.enter henter) hb
  have hkeys := (keys_write_sublist fields b).nodup hnames
  have hcomplete := complete_write hlawful hb
  refine ⟨read_object hnames name henter hkeys (fun e he => (hwritten e he).again) hcomplete, ?_, ?_⟩
  · obtain ⟨ks, hks, hsame, hgood⟩ := toMembers_held (fun key d => fields.Takes inner key d b) hwritten
    have hperm := Keyed.ofList_perm (hsame ▸ hkeys)
    refine ⟨.object (Keyed.ofList ks).entries, Draft.toJson_object.mpr ⟨inner, ks, henter, hks, rfl, rfl⟩, ?_⟩
    refine read_object hnames name henter (Keyed.nodup_keys _) (fun e he => hgood e (hperm.mem_iff.mp he)) ?_
    rw [← hsame] at hcomplete
    exact hcomplete.mono (hperm.symm.map _).subset
  · intro m hm
    obtain ⟨e, he, hme⟩ := Json.mem_numbersOfMembers.mp hm
    exact (hwritten e he).inRange m hme

end Fields

theorem Codec.lawful_record {fields : Fields β} {name : String} {into : β → α} {back : α → β}
    (hlawful : fields.Lawful n) (hnames : fields.names.Nodup) (hback : ∀ b, back (into b) = b) :
    (Codec.record name fields into back).Lawful (n + 1) where
  survives {origin d a} hroom hd hread := by
    obtain ⟨b, hb, rfl⟩ := map_eq_ok.mp hread
    obtain ⟨inner, henter, hsourced⟩ := Fields.read_sourced hd hb
    have hwrite : (Codec.record name fields into back).write (into b) = .object (fields.write b) :=
      congrArg (Json.object ∘ fields.write) (hback b)
    rw [hwrite]
    exact (Fields.survives_object hlawful hnames name hroom henter hsourced).imp
      fun _ hd => map_eq_ok.mpr ⟨b, hd, rfl⟩
  null _ h := by cases h

lemma Field.sourced_required {c : Codec α} {name : String} {a : α}
    (h : (required name c).Sourced origin a) : ∃ d : Draft, d.InRange ∧ c.read origin d = .ok a :=
  h.resolve_right nofun

lemma Field.sourced_optional {c : Codec α} {name : String} {a : α}
    (h : (optional name c).Sourced origin (some a)) : ∃ d : Draft, c.read origin d = .ok a := by
  obtain ⟨d, _, hread⟩ | hdefault := h
  · exact ⟨d, (read_option.mp hread).2⟩
  · cases hdefault

lemma Codec.mem_readAll {c : Codec α} {ds : List Draft} {as : List α}
    (hds : ∀ m ∈ Draft.numbersOfItems ds, m.InRange) (h : c.readAll origin ds = .ok as) :
    ∀ a ∈ as, ∃ d : Draft, d.InRange ∧ c.read origin d = .ok a := by
  induction ds generalizing as with
  | nil =>
    cases h
    exact List.forall_mem_nil _
  | cons d ds ih =>
    obtain ⟨a, rest, ha, hrest, rfl⟩ := readAll_cons.mp h
    obtain ⟨hd, hds⟩ := List.forall_mem_append.mp hds
    exact List.forall_mem_cons.mpr ⟨⟨d, hd, ha⟩, ih hds hrest⟩

end Delivery
