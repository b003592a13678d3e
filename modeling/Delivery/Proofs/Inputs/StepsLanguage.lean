import Delivery.Proofs.Inputs.Agreement
import Delivery.Proofs.Promotion.Problems

/-!
The files that load as steps. What a file must be is said of its text, its value and its aliases, one after the other;
the schema, the codec and the check of aliases accept it between them.
-/

namespace Delivery

variable {ms rs : List (String × Json)} {j : Json} {steps : List Step}

/-! ### Aliases -/

structure Alias.Allowed (name : String) : Prop where
  characters : ∀ c ∈ name.toList, c.isAlphanum = true ∨ c = '-'
  first : ∃ c, name.toList.head? = some c ∧ c.isAlphanum = true
  last : ∃ c, name.toList.getLast? = some c ∧ c.isAlphanum = true
  unreserved : ∀ digits, digits ≠ [] → (∀ c ∈ digits, c.isDigit = true) →
    name.toList ≠ "step-".toList ++ digits ∧ name.toList ≠ "task-".toList ++ digits

lemma toNat_lt_of_isAlphanum {c : Char} (h : c.isAlphanum = true) : c.toNat < 128 := by
  have hranges : (decide (c.val ≥ 65 ∧ c.val ≤ 90) || (decide (c.val ≥ 97) && decide (c.val ≤ 122)) ||
      (decide (c.val ≥ 48) && decide (c.val ≤ 57))) = true := h
  simp only [Bool.or_eq_true, Bool.and_eq_true, decide_eq_true_eq, ge_iff_le, UInt32.le_iff_toNat_le] at hranges
  have hval : c.toNat = c.val.toNat := rfl
  obtain (h | h) | h := hranges
  all_goals
    have hle : c.val.toNat ≤ 122 := Nat.le_trans h.2 (by decide)
    omega

lemma isDigit_of_isDecimalDigit {c : Char} (hascii : c.toNat < 128) (h : Text.isDecimalDigit c = true) :
    c.isDigit = true := by
  have hscripts : ∀ first ∈ Text.decimalZeros, first = 0x30 ∨ 128 ≤ first := by decide
  obtain ⟨first, hfirst, hrange⟩ := List.any_eq_true.mp h
  simp only [Bool.and_eq_true, decide_eq_true_eq] at hrange
  obtain rfl : first = 0x30 := (hscripts first hfirst).resolve_right (by omega)
  simp only [Char.isDigit, Bool.and_eq_true, decide_eq_true_eq, ge_iff_le, UInt32.le_iff_toNat_le]
  exact ⟨hrange.1, Nat.le_of_lt_succ hrange.2⟩

namespace Alias

lemma isReserved_iff {name : String} : isReserved name = true ↔
    ∃ digits, digits ≠ [] ∧ (∀ c ∈ digits, Text.isDecimalDigit c = true) ∧
      (name.toList = "step-".toList ++ digits ∨ name.toList = "task-".toList ++ digits) := by
  have hsplit : name.toList = name.toList.take 5 ++ name.toList.drop 5 := (List.take_append_drop _ _).symm
  simp only [isReserved, Bool.and_eq_true, Bool.or_eq_true, beq_iff_eq, Bool.not_eq_true', List.isEmpty_eq_false_iff,
    List.all_eq_true]
  constructor
  · rintro ⟨⟨hword, hne⟩, hdigits⟩
    refine ⟨name.toList.drop 5, hne, hdigits, ?_⟩
    rcases hword with hword | hword
    · exact Or.inl (hword ▸ hsplit)
    · exact Or.inr (hword ▸ hsplit)
  · rintro ⟨digits, hne, hdigits, hname | hname⟩
    · rw [hname]
      exact ⟨⟨Or.inl rfl, hne⟩, hdigits⟩
    · rw [hname]
      exact ⟨⟨Or.inr rfl, hne⟩, hdigits⟩

lemma allowed_iff {name : String} : Allowed name ↔ Inputs.isAlias name.toList = true ∧ isReserved name = false := by
  have hform : Inputs.isAlias name.toList = true ↔
      (∃ c, name.toList.head? = some c ∧ c.isAlphanum = true) ∧
      (∃ c, name.toList.getLast? = some c ∧ c.isAlphanum = true) ∧
      ∀ c ∈ name.toList, c.isAlphanum = true ∨ c = '-' := by
    simp [Inputs.isAlias, Inputs.isAliasEnd, Option.any_eq_true, and_assoc]
  rw [hform]
  constructor
  · rintro ⟨hall, hfirst, hlast, hunreserved⟩
    refine ⟨⟨hfirst, hlast, hall⟩, ?_⟩
    -- the reserved names have the digits of any script, but these characters only those of one
    by_contra hreserved
    obtain ⟨digits, hne, hdigits, hname⟩ := isReserved_iff.mp (Bool.of_not_eq_false hreserved)
    have hlatin : ∀ c ∈ digits, c.isDigit = true := by
      intro c hc
      refine isDigit_of_isDecimalDigit ?_ (hdigits c hc)
      have hmem : c ∈ name.toList := by
        rcases hname with hname | hname <;> exact hname ▸ List.mem_append_right _ hc
      rcases hall c hmem with halnum | rfl
      · exact toNat_lt_of_isAlphanum halnum
      · decide
    exact hname.elim (hunreserved digits hne hlatin).1 (hunreserved digits hne hlatin).2
  · rintro ⟨⟨hfirst, hlast, hall⟩, hreserved⟩
    refine ⟨hall, hfirst, hlast, fun digits hne hdigits => ?_⟩
    have hdecimal : ∀ c ∈ digits, Text.isDecimalDigit c = true := fun c hc =>
      Text.isDecimalDigit_of_isDigit (hdigits c hc)
    have hform : ¬ (name.toList = "step-".toList ++ digits ∨ name.toList = "task-".toList ++ digits) := fun hname => by
      cases hreserved.symm.trans (isReserved_iff.mpr ⟨digits, hne, hdecimal, hname⟩)
    exact not_or.mp hform

end Alias

/-! ### Objects -/

structure RetryPolicy.Admissible (members : List (String × Json)) : Prop where
  names : ∀ name ∈ members.map (·.1), name ∈ ["errorThreshold", "timeoutSecs"]
  timeoutSecs : ∀ v, Entries.get? "timeoutSecs" members = some v → v.IsCount (twoPower 64)
  errorThreshold : ∀ v, Entries.get? "errorThreshold" members = some v → v.IsCount (twoPower 32)

structure Step.Admissible (members : List (String × Json)) : Prop where
  names : ∀ name ∈ members.map (·.1), name ∈ ["alias", "config", "kind", "retry"]
  kind : ∃ kind, Entries.get? "kind" members = some (.string kind) ∧ Text.allBlank kind = false
  givenAlias : ∀ v, Entries.get? "alias" members = some v → ∃ name, v = .string name ∧ Alias.Allowed name
  config : ∀ v, Entries.get? "config" members = some v → ∃ cs, v = .object cs
  retry : ∀ v, Entries.get? "retry" members = some v → ∃ rs, v = .object rs ∧ RetryPolicy.Admissible rs

def Json.givenAlias? (j : Json) : Option String :=
  match j.field? "alias" with
  | some (.string name) => some name
  | _ => none

lemma Json.IsCount.accepted {bound : Nat} (h : j.IsCount bound) : Schema.count.Accepts j := by
  obtain ⟨n, _, rfl⟩ := h
  have hsign : ¬ ((n : Int) < 0) := by omega
  exact Schema.accepts_count.mpr ⟨.integer n, rfl, decide_eq_false hsign, rfl⟩

lemma RetryPolicy.admissible_iff : Admissible rs ↔ Formed rs ∧ CountsFit rs := by
  constructor
  · rintro ⟨hnames, htimeout, hthreshold⟩
    exact ⟨⟨hnames, fun v hv => (htimeout v hv).accepted, fun v hv => (hthreshold v hv).accepted⟩,
      htimeout, hthreshold⟩
  · rintro ⟨hformed, htimeout, hthreshold⟩
    exact ⟨hformed.names, htimeout, hthreshold⟩

namespace Step

variable {s : Step}

lemma explicitAlias_of_formed (hformed : Formed ms) (hs : s.HeldBy ms) : s.explicitAlias = s.givenAlias := by
  cases hgiven : s.givenAlias with
  | none => rw [explicitAlias, hgiven, Option.filter_none]
  | some name =>
    obtain ⟨_, heq, hname⟩ := hformed.givenAlias (.string name) (by rw [hs.givenAlias, hgiven, Option.map_some])
    cases heq
    have hne : name ≠ "" := by
      rintro rfl
      cases hname
    rw [explicitAlias, hgiven, Option.filter_some, if_pos (decide_eq_true hne)]

lemma givenAlias?_of_heldBy (hs : s.HeldBy ms) : (Json.object ms).givenAlias? = s.givenAlias := by
  have halias : (Json.object ms).field? "alias" = s.givenAlias.map .string := hs.givenAlias
  rw [Json.givenAlias?, halias]
  cases s.givenAlias <;> rfl

lemma reservedAlias?_eq_none (halias : s.explicitAlias = s.givenAlias) :
    StepProblem.reservedAlias? s = none ↔ ∀ name, s.givenAlias = some name → Alias.isReserved name = false := by
  rw [StepProblem.reservedAlias?, halias]
  cases s.givenAlias <;> simp

lemma Admissible.formed (h : Admissible ms) : Formed ms := by
  obtain ⟨kind, hkind, hblank⟩ := h.kind
  refine ⟨h.names, ⟨kind, hkind, ?_⟩, fun v hv => ?_, h.config, fun v hv => ?_⟩
  · rintro rfl
    cases hblank
  · obtain ⟨name, rfl, hname⟩ := h.givenAlias v hv
    exact ⟨name, rfl, (Alias.allowed_iff.mp hname).1⟩
  · obtain ⟨rs, rfl, hrs⟩ := h.retry v hv
    exact ⟨rs, rfl, (RetryPolicy.admissible_iff.mp hrs).1⟩

lemma Admissible.exists_heldBy (h : Admissible ms) (hcanonical : (Json.object ms).Canonical) : ∃ s, HeldBy ms s := by
  refine (Step.exists_heldBy hcanonical h.formed).mpr fun rs hrs => ?_
  obtain ⟨_, heq, hadmissible⟩ := h.retry _ hrs
  cases heq
  exact (RetryPolicy.admissible_iff.mp hadmissible).2

lemma admissible_iff (hs : s.HeldBy ms) : Admissible ms ↔ Formed ms ∧ s.Sound := by
  constructor
  · intro h
    obtain ⟨kind, hkind, hblank⟩ := h.kind
    refine ⟨h.formed, ?_, (reservedAlias?_eq_none (explicitAlias_of_formed h.formed hs)).mpr fun name hname => ?_⟩
    · obtain rfl := Json.string.inj (Option.some.inj (hkind.symm.trans hs.kind))
      exact hblank
    · obtain ⟨_, heq, hallowed⟩ := h.givenAlias (.string name) (by rw [hs.givenAlias, hname, Option.map_some])
      cases heq
      exact (Alias.allowed_iff.mp hallowed).2
  · rintro ⟨hformed, hblank, hreserved⟩
    refine ⟨hformed.names, ⟨s.kind, hs.kind, hblank⟩, fun v hv => ?_, hformed.config, fun v hv => ?_⟩
    · obtain ⟨name, rfl, hname⟩ := hformed.givenAlias v hv
      have hgiven : s.givenAlias = some name := by
        rw [← givenAlias?_of_heldBy hs, Json.givenAlias?, Json.field?, hv]
      have hfree := (reservedAlias?_eq_none (explicitAlias_of_formed hformed hs)).mp hreserved
      exact ⟨name, rfl, Alias.allowed_iff.mpr ⟨hname, hfree name hgiven⟩⟩
    · obtain ⟨rs, rfl, hrs⟩ := hformed.retry v hv
      exact ⟨rs, rfl, RetryPolicy.admissible_iff.mpr ⟨hrs, hs.countsFit hv⟩⟩

end Step

namespace Inputs

def Holds (item : Json) (s : Step) : Prop := ∃ ms, item = .object ms ∧ Step.Admissible ms ∧ s.HeldBy ms

lemma read_item_iff (hcanonical : j.Canonical) {s : Step} (hformed : ∃ ms, j = .object ms ∧ Step.Formed ms) :
    Step.codec.read .value (.ofJson j) = .ok s ∧ s.Sound ↔ Holds j s := by
  obtain ⟨ms, rfl, hformed⟩ := hformed
  rw [Step.read_object hcanonical hformed]
  constructor
  · rintro ⟨hs, hsound⟩
    exact ⟨ms, rfl, (Step.admissible_iff hs).mpr ⟨hformed, hsound⟩, hs⟩
  · rintro ⟨_, heq, hadmissible, hs⟩
    cases heq
    exact ⟨hs, ((Step.admissible_iff hs).mp hadmissible).2⟩

lemma read_items_iff {items : List Json} (hcanonical : (Json.array items).Canonical)
    (hitems : ∀ item ∈ items, ∃ ms, item = .object ms ∧ Step.Formed ms) :
    (List.Forall₂ (fun item s => Step.codec.read .value (.ofJson item) = .ok s) items steps ∧
      ∀ s ∈ steps, s.Sound) ↔ List.Forall₂ Holds items steps :=
  forall₂_and_right fun item hitem _ =>
    read_item_iff (Json.canonicalItems_iff.mp hcanonical item hitem) (hitems item hitem)

lemma filterMap_givenAlias? {items : List Json} (h : List.Forall₂ Holds items steps) :
    items.filterMap Json.givenAlias? = steps.filterMap Step.explicitAlias := by
  induction h with
  | nil => rfl
  | @cons item s items steps hitem _ ih =>
    obtain ⟨ms, rfl, hadmissible, hs⟩ := hitem
    have hformed := hadmissible.formed
    have hsame : (Json.object ms).givenAlias? = s.explicitAlias :=
      (Step.givenAlias?_of_heldBy hs).trans (Step.explicitAlias_of_formed hformed hs).symm
    rw [List.filterMap_cons, List.filterMap_cons, hsame, ih]

lemma loadSteps_iff {t : FileTree} {path : FilePath} : loadSteps t path = .ok steps ↔
    ∃ text items, t.readText path = .ok text ∧ Codec.json.ofText text = .ok (.array items) ∧
      List.Forall₂ Holds items steps ∧ (items.filterMap Json.givenAlias?).Nodup := by
  rw [loadSteps_eq_ok, loadChecked_eq_ok, StepProblem.ofSteps_eq_nil]
  constructor
  · rintro ⟨⟨text, j, htext, hj, haccepts, hread⟩, hsound, hnodup⟩
    -- what a text gives is held as maps, so a member is the only one of its key
    have hcanonical := Draft.canonical_of_toJson _ (Codec.ofText_eq_ok.mp hj).1
    obtain ⟨items, rfl, hitems⟩ := Step.accepts_schema.mp haccepts
    obtain ⟨_, _, henter, heq, hread⟩ := Codec.read_ofJson_list.mp hread
    cases henter
    cases heq
    have hholds := (read_items_iff hcanonical hitems).mp ⟨hread, hsound⟩
    exact ⟨text, items, htext, hj, hholds, filterMap_givenAlias? hholds ▸ hnodup⟩
  · rintro ⟨text, items, htext, hj, hholds, hnodup⟩
    have hcanonical := Draft.canonical_of_toJson _ (Codec.ofText_eq_ok.mp hj).1
    have hitems : ∀ item ∈ items, ∃ ms, item = .object ms ∧ Step.Formed ms := by
      intro item hitem
      obtain ⟨_, ms, rfl, hadmissible, _⟩ := exists_forall₂.mp ⟨steps, hholds⟩ item hitem
      exact ⟨ms, rfl, hadmissible.formed⟩
    obtain ⟨hread, hsound⟩ := (read_items_iff hcanonical hitems).mpr hholds
    have hvalue : (Codec.list Step.codec).ofJson (.array items) = .ok steps :=
      Codec.read_ofJson_list.mpr ⟨.value, items, rfl, rfl, hread⟩
    exact ⟨⟨text, _, htext, hj, Step.accepts_schema.mpr ⟨items, rfl, hitems⟩, hvalue⟩, hsound,
      filterMap_givenAlias? hholds ▸ hnodup⟩

structure StepsFile (content : ByteArray) (items : List Json) : Prop where
  text : ∃ text : String, text.toUTF8 = content ∧ (Json.array items).Spells text
  objects : ∀ item ∈ items, ∃ ms, item = .object ms ∧ Step.Admissible ms
  aliases : (items.filterMap Json.givenAlias?).Nodup

theorem loadSteps_language (t : FileTree) (path : FilePath) :
    ((∃ steps, loadSteps t path = .ok steps) ↔
      ∃ content items, t.find path = .ok (.file content) ∧ StepsFile content items) ∧
    ∀ steps content, loadSteps t path = .ok steps → t.find path = .ok (.file content) →
      ∃ items, StepsFile content items ∧
        List.Forall₂ (fun item s => ∃ ms, item = .object ms ∧ Step.HeldBy ms s) items steps ∧
          StepProblem.ofSteps steps = [] := by
  have hfile : ∀ steps, loadSteps t path = .ok steps → ∃ content items, t.find path = .ok (.file content) ∧
      StepsFile content items ∧
        List.Forall₂ (fun item s => ∃ ms, item = .object ms ∧ Step.HeldBy ms s) items steps ∧
          StepProblem.ofSteps steps = [] := by
    intro steps hsteps
    obtain ⟨text, items, htext, hj, hholds, hnodup⟩ := loadSteps_iff.mp hsteps
    refine ⟨text.toUTF8, items, readText_eq_ok.mp htext, ⟨⟨text, rfl, Codec.ofText_json_eq_ok.mp hj⟩, ?_, hnodup⟩,
      hholds.imp fun _ _ ⟨ms, hitem, _, hs⟩ => ⟨ms, hitem, hs⟩, (loadSteps_eq_ok.mp hsteps).2⟩
    intro item hitem
    obtain ⟨_, ms, heq, hadmissible, _⟩ := exists_forall₂.mp ⟨steps, hholds⟩ item hitem
    exact ⟨ms, heq, hadmissible⟩
  refine ⟨⟨?_, ?_⟩, ?_⟩
  · rintro ⟨steps, hsteps⟩
    obtain ⟨content, items, hcontent, hitems, _⟩ := hfile steps hsteps
    exact ⟨content, items, hcontent, hitems⟩
  · rintro ⟨content, items, hcontent, ⟨text, rfl, hj⟩, hobjects, hnodup⟩
    have hj := Codec.ofText_json_eq_ok.mpr hj
    have hcanonical := Draft.canonical_of_toJson _ (Codec.ofText_eq_ok.mp hj).1
    obtain ⟨steps, hsteps⟩ : ∃ steps, List.Forall₂ Holds items steps := by
      refine exists_forall₂.mpr fun item hitem => ?_
      obtain ⟨ms, rfl, hadmissible⟩ := hobjects item hitem
      obtain ⟨s, hs⟩ := hadmissible.exists_heldBy (Json.canonicalItems_iff.mp hcanonical _ hitem)
      exact ⟨s, ms, rfl, hadmissible, hs⟩
    exact ⟨steps, loadSteps_iff.mpr ⟨text, items, readText_eq_ok.mpr hcontent, hj, hsteps, hnodup⟩⟩
  · intro steps content hsteps hcontent
    obtain ⟨_, items, hfound, h⟩ := hfile steps hsteps
    cases hfound.symm.trans hcontent
    exact ⟨items, h⟩

end Inputs
end Delivery
