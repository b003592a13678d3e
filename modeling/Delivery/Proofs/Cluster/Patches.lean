import Delivery.Cluster.Patch
import Delivery.Proofs.Json.Members

/-! Merge patches. What a patch makes of a member depends on that member and on the patch's member of its name alone.
At every place where value and patch both hold objects the patch therefore acts by the same rule, and acting a second
time it changes nothing. -/

namespace Delivery

namespace Entries

variable {α : Type} {key : String} {a : α} {entries entries' : List (String × α)}

lemma Ascending.mem_iff (h : Ascending entries) : (key, a) ∈ entries ↔ get? key entries = some a := by
  refine ⟨fun hmem => ?_, mem_of_get?⟩
  induction entries with
  | nil => cases hmem
  | cons e entries ih =>
    obtain ⟨k, b⟩ := e
    obtain ⟨hhead, hrest⟩ := List.pairwise_cons.mp h
    rw [get?]
    rcases List.mem_cons.mp hmem with heq | hmem
    · cases heq
      exact if_pos rfl
    · have hlt := hhead _ hmem
      rw [if_neg fun heq => String.lt_irrefl _ (heq ▸ hlt), ih hrest hmem]

lemma Ascending.ext (h : Ascending entries) (h' : Ascending entries')
    (hget : ∀ key, get? key entries = get? key entries') : entries = entries' := by
  have hnodup {es : List (String × α)} (h : Ascending es) : es.Nodup := by
    refine List.Pairwise.imp ?_ h
    rintro a b hab rfl
    exact String.lt_irrefl _ hab
  have hperm : entries.Perm entries' := by
    refine (List.perm_ext_iff_of_nodup (hnodup h) (hnodup h')).mpr fun e => ?_
    rw [h.mem_iff, h'.mem_iff, hget]
  refine hperm.eq_of_pairwise ?_ h h'
  intro a b _ _ hab hba
  exact absurd (String.lt_trans hab hba) (String.lt_irrefl _)

end Entries

namespace Json

variable {target patch : Json} {key : String} {members ms ps rest : List (String × Json)}

lemma Canonical.membersOf (h : target.Canonical) : Entries.Ascending target.membersOf ∧
    ∀ e ∈ target.membersOf, e.2.Canonical := by
  cases target with
  | object members => exact ⟨h.1, canonicalMembers_iff.mp h.2⟩
  | _ => exact ⟨List.Pairwise.nil, List.forall_mem_nil _⟩

lemma Canonical.of_get? (h : ∀ e ∈ ms, e.2.Canonical) {value : Json}
    (hget : Entries.get? key ms = some value) : value.Canonical :=
  h _ (Entries.mem_of_get? hget)

lemma Canonical.getD (h : ∀ e ∈ ms, e.2.Canonical) : ((Entries.get? key ms).getD .null).Canonical := by
  cases hget : Entries.get? key ms with
  | none => trivial
  | some value => exact of_get? h hget

/-! ### One member -/

def mergeMember (old : Option Json) : Option Json → Option Json
  | none => old
  | some .null => none
  | some patch => some ((old.getD .null).mergePatch patch)

lemma mergeMember_some {old : Option Json} (h : patch ≠ .null) :
    mergeMember old (some patch) = some ((old.getD .null).mergePatch patch) := by
  cases patch with
  | null => exact absurd rfl h
  | _ => rfl

lemma mergeMembers_cons (h : patch ≠ .null) : mergeMembers members ((key, patch) :: rest) =
    mergeMembers (Entries.insert key (((Entries.get? key members).getD .null).mergePatch patch) members)
      rest := by
  cases patch with
  | null => exact absurd rfl h
  | _ => rfl

lemma ascending_mergeMembers (h : Entries.Ascending ms) (ps : List (String × Json)) :
    Entries.Ascending (mergeMembers ms ps) := by
  induction ps generalizing ms with
  | nil => exact h
  | cons e rest ih =>
    obtain ⟨k, patch⟩ := e
    by_cases hn : patch = .null
    · subst hn
      exact ih (h.erase k)
    · rw [mergeMembers_cons hn]
      exact ih (h.insert k _)

theorem get?_mergeMembers (hm : Entries.Ascending ms) (hp : Entries.Ascending ps) (key : String) :
    Entries.get? key (mergeMembers ms ps) = mergeMember (Entries.get? key ms) (Entries.get? key ps) := by
  induction ps generalizing ms with
  | nil => rfl
  | cons e rest ih =>
    obtain ⟨k, patch⟩ := e
    have hrest := (List.pairwise_cons.mp hp).2
    rw [Entries.get?]
    by_cases hn : patch = .null
    · subst hn
      have hstep := ih (hm.erase k) hrest
      by_cases heq : k = key
      · subst heq
        rw [hp.get?_rest, Entries.get?_erase_self hm] at hstep
        rw [if_pos rfl]
        exact hstep
      · rw [Entries.get?_erase_of_ne (Ne.symm heq)] at hstep
        rw [if_neg heq]
        exact hstep
    · rw [mergeMembers_cons hn, ih (hm.insert k _) hrest]
      by_cases heq : k = key
      · subst heq
        rw [if_pos rfl, hp.get?_rest, Entries.get?_insert_self, mergeMember_some hn]
        rfl
      · rw [if_neg heq, Entries.get?_insert_of_ne (Ne.symm heq)]

/-! ### A value that nothing is merged with -/

mutual

def stripped : Json → Json
  | .object members => .object (strippedMembers members)
  | value => value

def strippedMembers : List (String × Json) → List (String × Json)
  | [] => []
  | (_, .null) :: rest => strippedMembers rest
  | (key, value) :: rest => (key, value.stripped) :: strippedMembers rest

end

lemma strippedMembers_cons (h : patch ≠ .null) :
    strippedMembers ((key, patch) :: rest) = (key, patch.stripped) :: strippedMembers rest := by
  cases patch with
  | null => exact absurd rfl h
  | _ => rfl

def strippedMember : Option Json → Option Json
  | none => none
  | some .null => none
  | some value => some value.stripped

lemma strippedMember_some (h : patch ≠ .null) : strippedMember (some patch) = some patch.stripped := by
  cases patch with
  | null => exact absurd rfl h
  | _ => rfl

lemma keys_strippedMembers (ms : List (String × Json)) :
    ((strippedMembers ms).map (·.1)).Sublist (ms.map (·.1)) := by
  induction ms with
  | nil => exact .slnil
  | cons e rest ih =>
    obtain ⟨k, value⟩ := e
    by_cases hn : value = .null
    · subst hn
      exact ih.cons k
    · rw [strippedMembers_cons hn]
      exact ih.cons_cons k

lemma ascending_strippedMembers (h : Entries.Ascending ms) : Entries.Ascending (strippedMembers ms) :=
  List.pairwise_map.mp ((List.pairwise_map.mpr h).sublist (keys_strippedMembers ms))

lemma get?_strippedMembers (h : Entries.Ascending ms) (key : String) :
    Entries.get? key (strippedMembers ms) = strippedMember (Entries.get? key ms) := by
  induction ms with
  | nil => rfl
  | cons e rest ih =>
    obtain ⟨k, value⟩ := e
    have hstep := ih (List.pairwise_cons.mp h).2
    rw [Entries.get?]
    by_cases hn : value = .null
    · subst hn
      by_cases heq : k = key
      · subst heq
        rw [if_pos rfl]
        rw [h.get?_rest] at hstep
        exact hstep
      · rw [if_neg heq]
        exact hstep
    · rw [strippedMembers_cons hn, Entries.get?]
      by_cases heq : k = key
      · rw [if_pos heq, if_pos heq, strippedMember_some hn]
      · rw [if_neg heq, if_neg heq, hstep]

mutual

/-- Where there are no members to merge into, a patch comes in as it is, less its nulls. -/
lemma mergePatch_of_membersOf : ∀ patch : Json, patch.Canonical → ∀ target : Json, target.membersOf = [] →
    target.mergePatch patch = patch.stripped
  | .null, _, _, _ => rfl
  | .bool _, _, _, _ => rfl
  | .number _, _, _, _ => rfl
  | .string _, _, _, _ => rfl
  | .array _, _, _, _ => rfl
  | .object ps, h, target, ht => by
    show Json.object (mergeMembers target.membersOf ps) = Json.object (strippedMembers ps)
    rw [ht]
    refine congrArg Json.object (Entries.Ascending.ext (ascending_mergeMembers List.Pairwise.nil ps)
      (ascending_strippedMembers h.1) fun key => ?_)
    rw [get?_mergeMembers List.Pairwise.nil h.1, get?_strippedMembers h.1]
    cases hget : Entries.get? key ps with
    | none => rfl
    | some patch =>
      by_cases hn : patch = .null
      · subst hn
        rfl
      · rw [mergeMember_some hn, strippedMember_some hn]
        exact congrArg some (mergePatch_of_membersOf_members ps h.2 _ (Entries.mem_of_get? hget) .null rfl)

lemma mergePatch_of_membersOf_members : ∀ ps : List (String × Json), CanonicalMembers ps → ∀ e ∈ ps,
    ∀ target : Json, target.membersOf = [] → target.mergePatch e.2 = e.2.stripped
  | [], _ => List.forall_mem_nil _
  | (_, patch) :: rest, h => List.forall_mem_cons.mpr
    ⟨mergePatch_of_membersOf patch h.1, mergePatch_of_membersOf_members rest h.2⟩

end

/-! ### Patching again -/

mutual

lemma canonical_mergePatch : ∀ patch : Json, patch.Canonical → ∀ target : Json, target.Canonical →
    (target.mergePatch patch).Canonical
  | .null, h, _, _ => h
  | .bool _, h, _, _ => h
  | .number _, h, _, _ => h
  | .string _, h, _, _ => h
  | .array _, h, _, _ => h
  | .object ps, h, target, ht => by
    obtain ⟨hascending, hmembers⟩ := ht.membersOf
    refine ⟨ascending_mergeMembers hascending ps, canonicalMembers_iff.mpr fun e he => ?_⟩
    have hget := (ascending_mergeMembers hascending ps).mem_iff.mp he
    rw [get?_mergeMembers hascending h.1] at hget
    cases hp : Entries.get? e.1 ps with
    | none =>
      rw [hp] at hget
      exact .of_get? hmembers hget
    | some patch =>
      rw [hp] at hget
      by_cases hn : patch = .null
      · subst hn
        cases hget
      · rw [mergeMember_some hn, Option.some.injEq] at hget
        rw [← hget]
        exact canonical_mergeMember ps h.2 _ (Entries.mem_of_get? hp) _ (.getD hmembers)

lemma canonical_mergeMember : ∀ ps : List (String × Json), CanonicalMembers ps → ∀ e ∈ ps, ∀ target : Json,
    target.Canonical → (target.mergePatch e.2).Canonical
  | [], _ => List.forall_mem_nil _
  | (_, patch) :: rest, h =>
    List.forall_mem_cons.mpr ⟨canonical_mergePatch patch h.1, canonical_mergeMember rest h.2⟩

end

mutual

theorem mergePatch_mergePatch : ∀ patch : Json, patch.Canonical → ∀ target : Json, target.Canonical →
    (target.mergePatch patch).mergePatch patch = target.mergePatch patch
  | .null, _, _, _ => rfl
  | .bool _, _, _, _ => rfl
  | .number _, _, _, _ => rfl
  | .string _, _, _, _ => rfl
  | .array _, _, _, _ => rfl
  | .object ps, h, target, ht => by
    obtain ⟨hascending, hmembers⟩ := ht.membersOf
    have honce := ascending_mergeMembers hascending ps
    show Json.object (mergeMembers (mergeMembers target.membersOf ps) ps) =
      Json.object (mergeMembers target.membersOf ps)
    refine congrArg Json.object (Entries.Ascending.ext (ascending_mergeMembers honce ps) honce fun key => ?_)
    rw [get?_mergeMembers honce h.1, get?_mergeMembers hascending h.1]
    cases hget : Entries.get? key ps with
    | none => rfl
    | some patch =>
      by_cases hn : patch = .null
      · subst hn
        rfl
      · rw [mergeMember_some hn, mergeMember_some hn]
        exact congrArg some (mergePatch_mergePatch_members ps h.2 _ (Entries.mem_of_get? hget) _ (.getD hmembers))

lemma mergePatch_mergePatch_members : ∀ ps : List (String × Json), CanonicalMembers ps → ∀ e ∈ ps,
    ∀ target : Json, target.Canonical → (target.mergePatch e.2).mergePatch e.2 = target.mergePatch e.2
  | [], _ => List.forall_mem_nil _
  | (_, patch) :: rest, h => List.forall_mem_cons.mpr
    ⟨mergePatch_mergePatch patch h.1, mergePatch_mergePatch_members rest h.2⟩

end

/-! ### Objects at any depth -/

def at? : Json → List String → Option Json
  | value, [] => some value
  | value, key :: path => (value.field? key).bind (at? · path)

/-- What a patch makes of an object's members: those that it does not name stay, those that it gives as null go, an
object is merged into an object, and anything else is put in its place. -/
structure Patched (old patch new : List (String × Json)) : Prop where
  kept : ∀ key, Entries.get? key patch = none → Entries.get? key new = Entries.get? key old
  removed : ∀ key, Entries.get? key new = none ↔ Entries.get? key patch = some .null ∨
    Entries.get? key patch = none ∧ Entries.get? key old = none
  merged : ∀ key members changes, Entries.get? key old = some (.object members) →
    Entries.get? key patch = some (.object changes) →
      Entries.get? key new = some ((Json.object members).mergePatch (.object changes))
  placed : ∀ key value, Entries.get? key patch = some value → value ≠ .null →
    (¬ ∃ members changes, Entries.get? key old = some (.object members) ∧ value = .object changes) →
      Entries.get? key new = some value.stripped

lemma patched_mergeMembers (hm : Entries.Ascending ms) (hp : Entries.Ascending ps)
    (hc : ∀ e ∈ ps, e.2.Canonical) : Patched ms ps (mergeMembers ms ps) where
  kept key h := by rw [get?_mergeMembers hm hp, h]; rfl
  removed key := by
    rw [get?_mergeMembers hm hp]
    cases hget : Entries.get? key ps with
    | none => simp [mergeMember]
    | some patch =>
      by_cases hn : patch = .null
      · simp [hn, mergeMember]
      · simp [mergeMember_some hn, hn]
  merged key members changes hold h := by rw [get?_mergeMembers hm hp, h, hold]; rfl
  placed key value h hn hmismatch := by
    rw [get?_mergeMembers hm hp, h, mergeMember_some hn]
    have hcanonical := Canonical.of_get? hc h
    cases value with
    | object changes =>
      refine congrArg some (mergePatch_of_membersOf _ hcanonical _ ?_)
      cases hold : Entries.get? key ms with
      | none => rfl
      | some old =>
        cases old with
        | object members => exact absurd ⟨members, changes, hold, rfl⟩ hmismatch
        | _ => rfl
    | _ => rfl

theorem at?_mergePatch {path : List String} (ht : target.Canonical) (hp : patch.Canonical)
    (hold : target.at? path = some (.object ms)) (hchanges : patch.at? path = some (.object ps)) :
    ∃ new, (target.mergePatch patch).at? path = some (.object new) ∧ Patched ms ps new := by
  induction path generalizing target patch with
  | nil =>
    cases hold
    cases hchanges
    exact ⟨_, rfl, patched_mergeMembers ht.1 hp.1 (canonicalMembers_iff.mp hp.2)⟩
  | cons key path ih =>
    obtain ⟨old, hfield, hinner⟩ := Option.bind_eq_some_iff.mp hold
    obtain ⟨value, hvalue, hchange⟩ := Option.bind_eq_some_iff.mp hchanges
    cases target with
    | object members =>
      cases patch with
      | object changes =>
        -- Null holds no object, so the patch does not remove the member on the way.
        have hn : value ≠ .null := by
          rintro rfl
          cases path <;> cases hchange
        have hget : Entries.get? key (mergeMembers members changes) = some (old.mergePatch value) := by
          rw [get?_mergeMembers ht.1 hp.1, show Entries.get? key members = some old from hfield,
            show Entries.get? key changes = some value from hvalue, mergeMember_some hn]
          rfl
        obtain ⟨new, hnew, hpatched⟩ := ih (.of_get? (canonicalMembers_iff.mp ht.2) hfield)
          (.of_get? (canonicalMembers_iff.mp hp.2) hvalue) hinner hchange
        exact ⟨new, Option.bind_eq_some_iff.mpr ⟨_, hget, hnew⟩, hpatched⟩
      | _ => cases hvalue
    | _ => cases hfield

end Json
end Delivery
