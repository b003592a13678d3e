import Delivery.ComposeOutput
import Delivery.Proofs.Json.Members
import Delivery.Proofs.Text.ByteOrder

/-! What a registry answers. Under each name it holds the last of all registrations, a look-up sees that one as far as
its runner has the capability, and a name that is listed is one that is held. -/

namespace Delivery

variable {σ : Type}

def Registration.builtins : List (String × Registration σ) :=
  [(composeOutputKind, { runner := { step := some composeOutput } })]

def Registration.last? (registrations : List (String × Registration σ)) (name : String) : Option (Registration σ) :=
  (registrations.reverse.find? (·.1 = name)).map (·.2)

namespace Registry

def registerAll (r : Registry σ) (registrations : List (String × Registration σ)) : Registry σ :=
  registrations.foldl (fun r x => r.register x.1 x.2) r

def Holds (r : Registry σ) (history : List (String × Registration σ)) : Prop :=
  ∀ name, r.registrations.get? name = Registration.last? history name

variable {r : Registry σ} {history : List (String × Registration σ)}

lemma last?_append_singleton (history : List (String × Registration σ)) (name other : String)
    (registration : Registration σ) : Registration.last? (history ++ [(name, registration)]) other =
      if other = name then some registration else Registration.last? history other := by
  by_cases ho : other = name
  · simp [Registration.last?, ho]
  · simp [Registration.last?, ho, Ne.symm ho]

lemma Holds.empty : (empty : Registry σ).Holds [] := fun _ => rfl

lemma Holds.register (h : r.Holds history) (name : String) (registration : Registration σ) :
    (r.register name registration).Holds (history ++ [(name, registration)]) := by
  intro other
  rw [Registry.register, Keyed.get?_insert, last?_append_singleton, h other]

lemma Holds.registerAll (h : r.Holds history) (registrations : List (String × Registration σ)) :
    (r.registerAll registrations).Holds (history ++ registrations) := by
  induction registrations generalizing r history with
  | nil => simpa [Registry.registerAll] using h
  | cons x registrations ih =>
    have hrest := ih (h.register x.1 x.2)
    rwa [List.append_assoc] at hrest

lemma Holds.withBuiltins : (withBuiltins : Registry σ).Holds Registration.builtins := Holds.empty.register _ _

structure Answers (r : Registry σ) (history : List (String × Registration σ)) : Prop where
  isSome_lookup : ∀ name capability, (r.lookup name capability).isSome = true ↔
    ∃ last, Registration.last? history name = some last ∧ last.runner.supports capability = true
  lookup_step : ∀ name found, r.lookup name .step = some found ↔ ∃ last runner,
    Registration.last? history name = some last ∧ last.runner.step = some runner ∧ found = .step runner last.permissions
  lookup_check : ∀ name found, r.lookup name .check = some found ↔ ∃ last checker,
    Registration.last? history name = some last ∧ last.runner.check = some checker ∧
      found = .check checker last.permissions
  /-- A look-up never finds the other capability, nor does it lose what it has found. -/
  stepRunner : ∀ name, (r.stepRunner name).map (fun x => Resolved.step x.1 x.2) = r.lookup name .step
  healthChecker : ∀ name, (r.healthChecker name).map (fun x => Resolved.check x.1 x.2) = r.lookup name .check
  capability : ∀ name capability found, r.lookup name capability = some found → found.capability = capability
  contains : ∀ name, r.contains name = true ↔ ∃ last, Registration.last? history name = some last
  mem_kinds : ∀ name, name ∈ r.kinds ↔ r.contains name = true
  ascending : r.kinds.Pairwise fun a b => bytes a < bytes b
  size : r.size = r.kinds.length

lemma lookup_eq (h : r.Holds history) (name : String) (capability : Capability) :
    r.lookup name capability = (Registration.last? history name).bind (·.narrow capability) := by
  rw [lookup, h name]

lemma isSome_narrow (registration : Registration σ) (capability : Capability) :
    (registration.narrow capability).isSome = registration.runner.supports capability := by
  cases capability <;> exact Option.isSome_map

lemma capability_of_narrow {registration : Registration σ} {capability : Capability} {found : Resolved σ}
    (h : registration.narrow capability = some found) : found.capability = capability := by
  cases capability with
  | step =>
    obtain ⟨runner, _, rfl⟩ := Option.map_eq_some_iff.mp h
    rfl
  | check =>
    obtain ⟨checker, _, rfl⟩ := Option.map_eq_some_iff.mp h
    rfl

lemma capability_of_lookup {name : String} {capability : Capability} {found : Resolved σ}
    (h : r.lookup name capability = some found) : found.capability = capability := by
  obtain ⟨registration, _, hnarrow⟩ := Option.bind_eq_some_iff.mp h
  exact capability_of_narrow hnarrow

lemma map_stepRunner (r : Registry σ) (name : String) :
    (r.stepRunner name).map (fun x => Resolved.step x.1 x.2) = r.lookup name .step := by
  rw [Registry.stepRunner]
  cases hfound : r.lookup name .step with
  | none => rfl
  | some found =>
    cases found with
    | step runner permissions => rfl
    | check checker permissions => cases capability_of_lookup hfound

lemma map_healthChecker (r : Registry σ) (name : String) :
    (r.healthChecker name).map (fun x => Resolved.check x.1 x.2) = r.lookup name .check := by
  rw [Registry.healthChecker]
  cases hfound : r.lookup name .check with
  | none => rfl
  | some found =>
    cases found with
    | step runner permissions => cases capability_of_lookup hfound
    | check checker permissions => rfl

lemma mem_kinds_iff (r : Registry σ) (name : String) : name ∈ r.kinds ↔ r.contains name = true := by
  rw [Registry.contains, Keyed.contains, Option.isSome_iff_ne_none, Keyed.get?, Ne, Entries.get?_eq_none, not_not]
  rfl

lemma kinds_ascending (r : Registry σ) : r.kinds.Pairwise fun a b => bytes a < bytes b :=
  List.pairwise_map.mpr (r.registrations.ascending.imp bytes_lt_bytes)

lemma Holds.answers (h : r.Holds history) : r.Answers history where
  isSome_lookup name capability := by
    rw [lookup_eq h]
    cases Registration.last? history name with
    | none => simp
    | some last => simp [isSome_narrow]
  lookup_step name found := by
    rw [lookup_eq h]
    simp only [Option.bind_eq_some_iff, Registration.narrow, Option.map_eq_some_iff]
    constructor
    · rintro ⟨last, hlast, runner, hrunner, rfl⟩
      exact ⟨last, runner, hlast, hrunner, rfl⟩
    · rintro ⟨last, runner, hlast, hrunner, rfl⟩
      exact ⟨last, hlast, runner, hrunner, rfl⟩
  lookup_check name found := by
    rw [lookup_eq h]
    simp only [Option.bind_eq_some_iff, Registration.narrow, Option.map_eq_some_iff]
    constructor
    · rintro ⟨last, hlast, checker, hchecker, rfl⟩
      exact ⟨last, checker, hlast, hchecker, rfl⟩
    · rintro ⟨last, checker, hlast, hchecker, rfl⟩
      exact ⟨last, hlast, checker, hchecker, rfl⟩
  stepRunner := map_stepRunner r
  healthChecker := map_healthChecker r
  capability _ _ _ hfound := capability_of_lookup hfound
  contains name := by rw [Registry.contains, Keyed.contains, h name, Option.isSome_iff_exists]
  mem_kinds := mem_kinds_iff r
  ascending := kinds_ascending r
  size := (List.length_map _).symm

/-- What one more registration changes: all that is said of its own name, and nothing that is said of another. -/
structure Replaces (r : Registry σ) (name : String) (registration : Registration σ) (r' : Registry σ) : Prop where
  lookup_self : ∀ capability, r'.lookup name capability = registration.narrow capability
  isSome_self : ∀ capability, (r'.lookup name capability).isSome = registration.runner.supports capability
  contains_self : r'.contains name = true
  lookup_other : ∀ other capability, other ≠ name → r'.lookup other capability = r.lookup other capability
  stepRunner_other : ∀ other, other ≠ name → r'.stepRunner other = r.stepRunner other
  healthChecker_other : ∀ other, other ≠ name → r'.healthChecker other = r.healthChecker other
  contains_other : ∀ other, other ≠ name → r'.contains other = r.contains other

lemma replaces_register (r : Registry σ) (name : String) (registration : Registration σ) :
    r.Replaces name registration (r.register name registration) := by
  have hself (capability : Capability) :
      (r.register name registration).lookup name capability = registration.narrow capability := by
    rw [lookup_register, if_pos rfl]
  have hother {other : String} (ho : other ≠ name) (capability : Capability) :
      (r.register name registration).lookup other capability = r.lookup other capability := by
    rw [lookup_register, if_neg ho]
  refine ⟨hself, ?_, ?_, ?_, ?_, ?_, ?_⟩
  · intro capability
    rw [hself, isSome_narrow]
  · simp [Registry.contains, Keyed.contains, register, Keyed.get?_insert]
  · exact fun other capability ho => hother ho capability
  · intro other ho
    rw [Registry.stepRunner, Registry.stepRunner, hother ho]
  · intro other ho
    rw [Registry.healthChecker, Registry.healthChecker, hother ho]
  · intro other ho
    simp [Registry.contains, Keyed.contains, register, Keyed.get?_insert, ho]

theorem registerAll_answers (registrations : List (String × Registration σ)) :
    ((empty.registerAll registrations).Answers registrations ∧
      (withBuiltins.registerAll registrations).Answers (Registration.builtins ++ registrations)) ∧
    ∀ (r : Registry σ) name registration, r.Replaces name registration (r.register name registration) :=
  ⟨⟨(Holds.empty.registerAll registrations).answers, (Holds.withBuiltins.registerAll registrations).answers⟩,
    replaces_register⟩

end Registry
end Delivery
