import Delivery.Proofs.CommandLine.Arguments
import Delivery.Proofs.CommandLine.Reports

/-!
What an exit tells. The codes of failures and of what is undecided stand for what has been printed. Arguments that ask
for nothing that there is end with the code of a failure and print nothing, and they alone break this rule.
-/

namespace Delivery.CommandLine

variable {e : Environment} {args : List String} {c : Command} {report : Report}

def Announces (report : Report) (statuses : List Status) (states : List HealthState) : Prop :=
  (∃ result : PromotionResult, result.status ∈ statuses ∧ Prints report (PromotionResult.codec.write result)) ∨
    ∃ verdict : HealthVerdict, verdict.status ∈ states ∧ Prints report (HealthVerdict.codec.write verdict)

/-- The exit tells how it went: with 2 or 3 there is a result of that kind in the output, and 1 says that the arguments
or an input are of no use. -/
structure ExitTells (e : Environment) (args : List String) : Prop where
  failed : (execute e args).1.exit.code = 2 → Announces (execute e args).1 [.failed, .errored] [.unhealthy]
  pending : (execute e args).1.exit.code = 3 → Announces (execute e args).1 [.running] [.progressing, .unknown]
  refused : Unusable args → (execute e args).1.exit.code = 1
  unloadable : ∀ c, Asks c args → ¬ c.Loads e.files → (execute e args).1.exit.code = 1

lemma execute_of_asks (h : Asks c args) : execute e args = run e c := by
  rw [execute, ofArguments_eq_ok.mpr h]

lemma execute_of_unusable (h : Unusable args) : execute e args = (Refusal.usage.report, e.files) := by
  rw [execute, ofArguments_eq_usage.mpr h]

lemma Asks.not_unusable (h : Asks c args) : ¬ Unusable args := fun hno => hno.1 c h

lemma AsksInformation.not_unusable (h : AsksInformation args) : ¬ Unusable args := fun hno => hno.2 h

lemma Asks.unique {c' : Command} (h : Asks c args) (h' : Asks c' args) : c = c' :=
  Except.ok.inj ((ofArguments_eq_ok.mpr h).symm.trans (ofArguments_eq_ok.mpr h'))

lemma Reported.announces (h : Reported e c report) (hcode : report.exit.code ≠ 0) {statuses : List Status}
    {states : List HealthState} (hstatuses : ∀ s, statusCode s = report.exit.code → s ∈ statuses)
    (hstates : ∀ s, healthCode s = report.exit.code → s ∈ states) : Announces report statuses states := by
  cases c with
  | validate =>
    obtain ⟨_, _, hzero, _⟩ := h
    exact absurd hzero hcode
  | promote =>
    obtain ⟨_, i, _, _, _, hstatus, hprints⟩ := h
    exact .inl ⟨i.result, hstatuses _ hstatus.symm, hprints⟩
  | checkHealth =>
    obtain ⟨_, verdict, _, _, _, hstate, hprints, _⟩ := h
    exact .inr ⟨verdict, hstates _ hstate.symm, hprints⟩

lemma Reported.failed (h : Reported e c report) (hcode : report.exit.code = 2) :
    Announces report [.failed, .errored] [.unhealthy] := by
  apply h.announces <;> rw [hcode]
  · decide
  · intro s
    cases s <;> decide
  · intro s
    cases s <;> decide

lemma Reported.pending (h : Reported e c report) (hcode : report.exit.code = 3) :
    Announces report [.running] [.progressing, .unknown] := by
  apply h.announces <;> rw [hcode]
  · decide
  · intro s
    cases s <;> decide
  · intro s
    cases s <;> decide

lemma Asks.exitTells (h : Asks c args) : ExitTells e args := by
  have hrefused : Unusable args → (execute e args).1.exit.code = 1 := fun hno => absurd hno h.not_unusable
  by_cases hloads : c.Loads e.files
  · have hreport := (run_of_loads hloads).1
    rw [← execute_of_asks h] at hreport
    exact ⟨hreport.failed, hreport.pending, hrefused, fun c' h' hnot => absurd (h'.unique h ▸ hloads) hnot⟩
  · obtain ⟨message, hrun⟩ := run_of_not_loads hloads
    have hone : (execute e args).1.exit.code = 1 := by
      rw [execute_of_asks h, hrun]
      rfl
    refine ⟨?_, ?_, hrefused, fun _ _ _ => hone⟩
    · rw [hone]
      nofun
    · rw [hone]
      nofun

lemma AsksInformation.exitTells (h : AsksInformation args) : ExitTells e args := by
  obtain ⟨text, htext⟩ := ofArguments_eq_information.mpr h
  have hzero : (execute e args).1.exit.code = 0 := by
    rw [execute, htext]
    rfl
  refine ⟨?_, ?_, fun hno => absurd hno h.not_unusable, fun c hc => ?_⟩
  · rw [hzero]
    nofun
  · rw [hzero]
    nofun
  · rw [ofArguments_eq_ok.mpr hc] at htext
    cases htext

lemma asks_cases (args : List String) : (∃ c, Asks c args) ∨ AsksInformation args ∨ Unusable args := by
  rw [← ofArguments_eq_information, ← ofArguments_eq_usage]
  simp only [← ofArguments_eq_ok]
  rcases ofArguments args with (_ | text) | c <;> simp

/-- The exit tells how it went if and only if the arguments ask for something that there is. Otherwise the code is the
code of a failure, and nothing is printed or done. -/
theorem exitTells_iff (e : Environment) (args : List String) : (ExitTells e args ↔ ¬ Unusable args) ∧
    (Unusable args → (execute e args).1.exit.code = 2 ∧ (execute e args).1.output = "" ∧
      (execute e args).2 = e.files) := by
  constructor
  · constructor
    · intro htells hno
      have hone := htells.refused hno
      rw [execute_of_unusable hno] at hone
      cases hone
    · intro hno
      obtain ⟨c, hasks⟩ | hinforms | hunusable := asks_cases args
      · exact hasks.exitTells
      · exact hinforms.exitTells
      · exact absurd hunusable hno
  · intro hno
    rw [execute_of_unusable hno]
    exact ⟨rfl, rfl, rfl⟩

def clash : List String :=
  ["promote", "--steps", "s.json", "--project", "p", "--stage", "s", "--state", "state.json", "--resume", "result.json"]

theorem exit_of_clash : Unusable clash ∧ (execute ⟨⟨"/tmp"⟩, fun _ => ⟨0, 0⟩, .empty, id⟩ clash).1.exit.code = 2 ∧
    (execute ⟨⟨"/tmp"⟩, fun _ => ⟨0, 0⟩, .empty, id⟩ clash).1.output = "" ∧
      ¬ ExitTells ⟨⟨"/tmp"⟩, fun _ => ⟨0, 0⟩, .empty, id⟩ clash := by
  have hno : Unusable clash := ofArguments_eq_usage.mp (by decide +kernel)
  have hrun : execute ⟨⟨"/tmp"⟩, fun _ => ⟨0, 0⟩, .empty, id⟩ clash = (Refusal.usage.report, .empty) :=
    execute_of_unusable hno
  rw [hrun]
  refine ⟨hno, rfl, rfl, fun htells => ?_⟩
  have hone := htells.refused hno
  rw [hrun] at hone
  cases hone

end Delivery.CommandLine
