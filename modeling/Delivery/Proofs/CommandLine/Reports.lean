import Delivery.CommandLine.Run
import Delivery.Proofs.Inputs.Loading
import Delivery.Proofs.Json.Lines
import Delivery.Proofs.Promotion.Builtins

/-!
What a command reports. All its inputs are loaded before anything is done; if one does not load, that is all that it
reports, and if all do, the engine always comes to a result.
-/

namespace Delivery

def Command.Loads (t : FileTree) : Command → Prop
  | .validate steps => ∃ s, Inputs.loadSteps t steps = .ok s
  | .promote steps _ _ _ state resume config _ =>
    (∃ s, Inputs.loadSteps t steps = .ok s) ∧ (∀ path ∈ config, ∃ s, Settings.load t path = .ok s) ∧
      (∀ path ∈ state, ∃ p, Inputs.loadState t path = .ok p) ∧
        ∀ path ∈ resume, ∃ r, Inputs.loadResult t path = .ok r
  | .checkHealth criteria _ _ _ => ∃ c, Inputs.loadCriteria t criteria = .ok c

namespace CommandLine

variable {e : Environment} {t : FileTree} {steps : FilePath} {project stage : String} {promotion : Option String}
  {state resume config : Option FilePath} {inputs : PromotionInputs}

/-! ### The inputs of a promotion -/

def LoadedOr {ε α : Type} (load : FilePath → Except ε α) (default : α) (path : Option FilePath) (a : α) : Prop :=
  match path with
  | none => default = a
  | some path => load path = .ok a

def loadOr {ε α : Type} (load : FilePath → Except ε α) (message : ε → String) (default : α) (path : Option FilePath) :
    Except String α :=
  match path with
  | none => pure default
  | some path => (load path).mapError message

lemma loadOr_eq_ok {ε α : Type} {load : FilePath → Except ε α} {message : ε → String} {default a : α}
    {path : Option FilePath} : loadOr load message default path = .ok a ↔ LoadedOr load default path a := by
  cases path with
  | none => exact pure_eq_ok
  | some path => exact mapError_eq_ok

def freshRequest (project stage : String) (promotion : Option String) (state : Payload) : PromotionRequest :=
  { project, stage, promotion := promotion.getD (stage ++ ".local"), state }

structure Loaded (t : FileTree) (steps : FilePath) (project stage : String) (promotion : Option String)
    (state resume config : Option FilePath) (inputs : PromotionInputs) : Prop where
  steps : Inputs.loadSteps t steps = .ok inputs.steps
  settings : LoadedOr (Settings.load t) {} config inputs.settings
  request : ∃ shared, LoadedOr (Inputs.loadState t) {} state shared ∧
    match resume with
    | none => inputs.request = freshRequest project stage promotion shared
    | some path => ∃ previous, Inputs.loadResult t path = .ok previous ∧
        inputs.request = (freshRequest project stage promotion shared).resumeFrom previous

lemma loadPromotion_eq : loadPromotion e steps project stage promotion state resume config = (do
    let steps ← (Inputs.loadSteps e.files steps).mapError (·.message)
    let settings ← loadOr (Settings.load e.files) (·.explain e.complaint) {} config
    let shared ← loadOr (Inputs.loadState e.files) (·.message) {} state
    let request := freshRequest project stage promotion shared
    match resume with
      | none => pure { steps, settings, request }
      | some path => do
        let previous ← (Inputs.loadResult e.files path).mapError (·.message)
        pure { steps, settings, request := request.resumeFrom previous } : Except String PromotionInputs) := by
  cases config <;> cases state <;> cases resume <;> rfl

lemma loadPromotion_eq_ok : loadPromotion e steps project stage promotion state resume config = .ok inputs ↔
    Loaded e.files steps project stage promotion state resume config inputs := by
  rw [loadPromotion_eq]
  simp only [bind_eq_ok, mapError_eq_ok, loadOr_eq_ok]
  constructor
  · rintro ⟨loaded, hsteps, settings, hsettings, shared, hshared, h⟩
    cases resume with
    | none =>
      obtain rfl := pure_eq_ok.mp h
      exact ⟨hsteps, hsettings, shared, hshared, rfl⟩
    | some path =>
      obtain ⟨previous, hprevious, h⟩ := bind_eq_ok.mp h
      obtain rfl := pure_eq_ok.mp h
      exact ⟨hsteps, hsettings, shared, hshared, previous, mapError_eq_ok.mp hprevious, rfl⟩
  · rintro ⟨hsteps, hsettings, shared, hshared, hrequest⟩
    refine ⟨inputs.steps, hsteps, inputs.settings, hsettings, shared, hshared, ?_⟩
    cases resume with
    | none => exact pure_eq_ok.mpr (by rw [← hrequest])
    | some path =>
      obtain ⟨previous, hprevious, hrequest⟩ := hrequest
      exact bind_eq_ok.mpr ⟨previous, mapError_eq_ok.mpr hprevious, pure_eq_ok.mpr (by rw [← hrequest])⟩

lemma exists_loadedOr {ε α : Type} {load : FilePath → Except ε α} (default : α) {path : Option FilePath} :
    (∃ a, LoadedOr load default path a) ↔ ∀ p ∈ path, ∃ a, load p = .ok a := by
  cases path with
  | none => exact iff_of_true ⟨default, rfl⟩ nofun
  | some path => simp [LoadedOr]

lemma exists_loadPromotion {timeoutSecs : Option UInt64} :
    (∃ inputs, loadPromotion e steps project stage promotion state resume config = .ok inputs) ↔
      (Command.promote steps project stage promotion state resume config timeoutSecs).Loads e.files := by
  simp only [loadPromotion_eq_ok]
  constructor
  · rintro ⟨inputs, hsteps, hsettings, shared, hshared, hrequest⟩
    refine ⟨⟨_, hsteps⟩, (exists_loadedOr {}).mp ⟨_, hsettings⟩, (exists_loadedOr {}).mp ⟨_, hshared⟩,
      fun path hpath => ?_⟩
    rw [Option.mem_def.mp hpath] at hrequest
    obtain ⟨previous, hprevious, _⟩ := hrequest
    exact ⟨previous, hprevious⟩
  · rintro ⟨⟨loaded, hsteps⟩, hsettings, hshared, hresume⟩
    obtain ⟨settings, hsettings⟩ := (exists_loadedOr {}).mpr hsettings
    obtain ⟨shared, hshared⟩ := (exists_loadedOr {}).mpr hshared
    cases resume with
    | none =>
      exact ⟨⟨loaded, settings, freshRequest project stage promotion shared⟩, hsteps, hsettings, shared, hshared, rfl⟩
    | some path =>
      obtain ⟨previous, hprevious⟩ := hresume path rfl
      exact ⟨⟨loaded, settings, (freshRequest project stage promotion shared).resumeFrom previous⟩, hsteps, hsettings,
        shared, hshared, previous, hprevious, rfl⟩

/-! ### Blame -/

def BlamesSteps (message : String) : Prop := ∃ rest, message = "invalid promotion steps" ++ rest

def Acquits (message : String) : Prop := message.toList.head?.any (· ≠ 'i') = true

instance (message : String) : Decidable (Acquits message) := inferInstanceAs (Decidable (_ = true))

lemma Acquits.append {message : String} (h : Acquits message) (rest : String) : Acquits (message ++ rest) := by
  obtain ⟨c, hc, hne⟩ := (Option.any_eq_true _ _).mp h
  rw [Acquits, String.toList_append, List.head?_append, hc]
  exact hne

lemma Acquits.not_blamesSteps {message : String} (h : Acquits message) : ¬ BlamesSteps message := by
  rintro ⟨rest, rfl⟩
  have hhead : ("invalid promotion steps" ++ rest).toList.head? = some 'i' := by simp
  rw [Acquits, hhead] at h
  cases h

lemma acquits_of_opens {message : String} (h : Setback.Opens message) : Acquits message := by
  obtain ⟨word, hword, rest, rfl⟩ := h
  have hwords : ∀ word ∈ Setback.openings, Acquits word := by decide
  exact (hwords word hword).append rest

lemma acquits_problem : ∀ problem : SettingsProblem, Acquits problem.message
  | .zeroThreshold => by decide +kernel
  | .emptyWorkDirRoot => by decide +kernel

lemma acquits_settings {path : FilePath} {failure : SettingsFailure} (h : Settings.load t path = .error failure)
    (complaint : String → String) : Acquits (failure.explain complaint) := by
  have hchecked : ∀ {s : Settings}, s.checked = .error failure → Acquits (failure.explain complaint) := by
    intro s hs
    rw [Settings.checked] at hs
    split at hs
    · next problem _ =>
      obtain rfl := Except.error.inj hs
      exact acquits_problem problem
    · cases hs
  rw [Settings.load] at h
  split at h
  · exact hchecked h
  · split at h
    · next error _ =>
      obtain rfl := Except.error.inj h
      have hread : Acquits "read " := by decide
      exact ((hread.append path.text).append ": ").append error.message
    · next text _ =>
      split at h
      · obtain rfl := Except.error.inj h
        have hparse : Acquits "parse " := by decide
        exact ((hparse.append path.text).append ": ").append (complaint text)
      · exact hchecked h

lemma acquits_text {α : Type} {what : String} {path : FilePath} {codec : Codec α} {failure : InputFailure}
    (h : (do
      let text ← Inputs.readText t what path
      Inputs.orFault "parse" what path (codec.ofText text)) = .error failure) : Acquits failure.message := by
  obtain htext | ⟨text, _, hvalue⟩ := bind_eq_error.mp h
  · obtain ⟨error, _, rfl⟩ := mapError_eq_error.mp htext
    have hread : Acquits "read " := by decide
    exact (((hread.append what).append " ").append path.text).append ": " |>.append error.message
  · obtain ⟨fault, _, rfl⟩ := mapError_eq_error.mp hvalue
    have hparse : Acquits "parse" := by decide
    exact ((((hparse.append " ").append what).append " ").append path.text).append ": " |>.append fault.message

lemma acquits_loadOr {ε α : Type} {load : FilePath → Except ε α} {message : ε → String} {default : α}
    {path : Option FilePath} {text : String} (h : loadOr load message default path = .error text)
    (hload : ∀ {p e}, load p = .error e → Acquits (message e)) : Acquits text := by
  cases path with
  | none => cases h
  | some p =>
    obtain ⟨e, he, rfl⟩ := mapError_eq_error.mp h
    exact hload he

lemma acquits_loadPromotion {message : String} (hsteps : ∃ s, Inputs.loadSteps e.files steps = .ok s)
    (h : loadPromotion e steps project stage promotion state resume config = .error message) : Acquits message := by
  obtain ⟨loaded, hsteps⟩ := hsteps
  rw [loadPromotion_eq, hsteps] at h
  obtain hnone | ⟨_, _, h⟩ := bind_eq_error.mp h
  · cases hnone
  obtain hsettings | ⟨_, _, h⟩ := bind_eq_error.mp h
  · exact acquits_loadOr hsettings fun h => acquits_settings h e.complaint
  obtain hshared | ⟨_, _, h⟩ := bind_eq_error.mp h
  · exact acquits_loadOr hshared acquits_text
  cases resume with
  | none => cases h
  | some path =>
    obtain hprevious | ⟨_, _, h⟩ := bind_eq_error.mp h
    · obtain ⟨_, hresult, rfl⟩ := mapError_eq_error.mp hprevious
      exact acquits_text hresult
    · cases h

/-! ### Reports -/

def statusCode : Status → UInt32
  | .succeeded => 0
  | .failed => 2
  | .errored => 2
  | .running => 3

def healthCode : HealthState → UInt32
  | .healthy => 0
  | .unhealthy => 2
  | .progressing => 3
  | .unknown => 3

/-- A report prints a value; if its numbers read back, that is all that the output holds. -/
def Prints (report : Report) (value : Json) : Prop :=
  report.output = value.pretty 0 ++ "\n" ∧
    ((∀ n ∈ value.numbers, n.ReadsBack) → Document.ofText report.output = ⟨.ofJson value, true⟩)

lemma prints_print (exit : Exit) (value : Json) : Prints (.print exit value) value :=
  ⟨rfl, fun h => Document.ofText_pretty h⟩

lemma numbersOfItems_strings (texts : List String) : Json.numbersOfItems (texts.map .string) = [] := by
  induction texts with
  | nil => rfl
  | cons text texts ih => exact ih

lemma numbers_write_verdict {verdict : HealthVerdict} (h : verdict.output = none) :
    (HealthVerdict.codec.write verdict).numbers = [] := by
  have hissues : (Codec.text.list.write verdict.issues).numbers = [] := numbersOfItems_strings verdict.issues
  obtain ⟨status, issues, output⟩ := verdict
  obtain rfl : output = none := h
  cases issues with
  | nil => rfl
  | cons issue issues =>
    simpa [HealthVerdict.codec, Codec.record, Fields.write, Field.required, Field.listed, Field.optional, Json.numbers,
      Json.numbersOfMembers, HealthState.codec, Codec.variant] using hissues

def Reported (e : Environment) : Command → Report → Prop
  | .validate path, report => ∃ steps, Inputs.loadSteps e.files path = .ok steps ∧ report.exit.code = 0 ∧
      report.output = s!"ok: {steps.length} steps\n"
  | .promote path project stage promotion state resume config timeoutSecs, report =>
    ∃ inputs i w, Loaded e.files path project stage promotion state resume config inputs ∧
      (e.engine inputs.settings).promote inputs.request inputs.steps (e.world timeoutSecs) = some (i, w) ∧
      report.exit.code = statusCode i.result.status ∧ Prints report (PromotionResult.codec.write i.result)
  | .checkHealth path project stage timeoutSecs, report =>
    ∃ criteria verdict w, Inputs.loadCriteria e.files path = .ok criteria ∧
      (e.engine {}).checkHealth project stage criteria (e.world timeoutSecs) = some (verdict, w) ∧
      report.exit.code = healthCode verdict.status ∧ Prints report (HealthVerdict.codec.write verdict) ∧
        (HealthVerdict.codec.write verdict).numbers = []

variable {c : Command} {report : Report}

lemma registry_engine (e : Environment) (settings : Settings) : (e.engine settings).registry = .withBuiltins := rfl

lemma Reported.code_ne_one (h : Reported e c report) : report.exit.code ≠ 1 := by
  cases c with
  | validate =>
    obtain ⟨_, _, hcode, _⟩ := h
    rw [hcode]
    decide
  | promote =>
    obtain ⟨_, i, _, _, _, hcode, _⟩ := h
    rw [hcode]
    cases i.result.status <;> decide
  | checkHealth =>
    obtain ⟨_, verdict, _, _, _, hcode, _⟩ := h
    rw [hcode]
    cases verdict.status <;> decide

lemma run_of_not_loads (h : ¬ c.Loads e.files) : ∃ message, run e c = (.ofFailure message, e.files) := by
  cases c with
  | validate steps =>
    cases hsteps : Inputs.loadSteps e.files steps with
    | error failure => exact ⟨failure.message, by rw [run, hsteps]⟩
    | ok s => exact absurd ⟨s, hsteps⟩ h
  | promote steps project stage promotion state resume config timeoutSecs =>
    cases hinputs : loadPromotion e steps project stage promotion state resume config with
    | error message => exact ⟨message, by rw [run, hinputs]⟩
    | ok inputs => exact absurd (exists_loadPromotion.mp ⟨inputs, hinputs⟩) h
  | checkHealth criteria project stage timeoutSecs =>
    cases hcriteria : Inputs.loadCriteria e.files criteria with
    | error failure => exact ⟨failure.message, by rw [run, hcriteria]⟩
    | ok loaded => exact absurd ⟨loaded, hcriteria⟩ h

lemma run_of_loads (h : c.Loads e.files) : Reported e c (run e c).1 ∧ (run e c).1.diagnostics = "" := by
  cases c with
  | validate steps =>
    obtain ⟨s, hsteps⟩ := h
    rw [run, hsteps]
    exact ⟨⟨s, hsteps, rfl, rfl⟩, rfl⟩
  | promote steps project stage promotion state resume config timeoutSecs =>
    obtain ⟨inputs, hinputs⟩ := exists_loadPromotion.mpr h
    have hresult : (e.engine inputs.settings).promote inputs.request inputs.steps (e.world timeoutSecs) ≠ none :=
      Engine.promote_ne_none (registry_engine e _)
    obtain ⟨⟨i, w⟩, hpromote⟩ := Option.ne_none_iff_exists'.mp hresult
    rw [run, hinputs]
    simp only [hpromote]
    refine ⟨⟨inputs, i, w, loadPromotion_eq_ok.mp hinputs, hpromote, ?_, prints_print _ _⟩, rfl⟩
    simp only [Report.print]
    cases i.result.status <;> rfl
  | checkHealth criteria project stage timeoutSecs =>
    obtain ⟨loaded, hcriteria⟩ := h
    obtain ⟨verdict, hcheck, houtput⟩ :=
      Engine.checkHealth_builtin (registry_engine e {}) project stage loaded (e.world timeoutSecs)
    rw [run, hcriteria]
    simp only [hcheck]
    refine ⟨⟨loaded, verdict, _, hcriteria, hcheck, ?_, prints_print _ _, numbers_write_verdict houtput⟩, rfl⟩
    simp only [Report.print]
    cases verdict.status <;> rfl

/-- A command exits with 1 if one of its files does not load, and then does nothing else; otherwise it reports what
the engine makes of the files. Steps that are valid are never to blame. -/
theorem run_reports (e : Environment) :
    (∀ c : Command,
      ((run e c).1.exit.code = 1 ↔ ¬ c.Loads e.files) ∧
        (¬ c.Loads e.files → (run e c).1.output = "" ∧ (run e c).2 = e.files) ∧
          (c.Loads e.files → Reported e c (run e c).1)) ∧
    ∀ steps project stage promotion state resume config timeoutSecs,
      (run e (.validate steps)).1.exit.code = 0 →
        ((run e (.promote steps project stage promotion state resume config timeoutSecs)).1.exit.code = 1 →
          (∃ path ∈ config, ∀ s, Settings.load e.files path ≠ .ok s) ∨
            (∃ path ∈ state, ∀ p, Inputs.loadState e.files path ≠ .ok p) ∨
              ∃ path ∈ resume, ∀ r, Inputs.loadResult e.files path ≠ .ok r) ∧
        ¬ BlamesSteps (run e (.promote steps project stage promotion state resume config timeoutSecs)).1.diagnostics ∧
        ∀ inputs i w, Loaded e.files steps project stage promotion state resume config inputs →
          (e.engine inputs.settings).promote inputs.request inputs.steps (e.world timeoutSecs) = some (i, w) →
            ∀ message ∈ i.result.message, ¬ BlamesSteps message := by
  -- no status and no state of health stands for 1, so only an input that does not load gives it
  have hcode : ∀ c, (run e c).1.exit.code = 1 ↔ ¬ c.Loads e.files := by
    refine fun c => ⟨fun h hloads => (run_of_loads hloads).1.code_ne_one h, fun h => ?_⟩
    obtain ⟨message, hrun⟩ := run_of_not_loads h
    rw [hrun]
    rfl
  refine ⟨fun c => ⟨hcode c, fun h => ?_, fun h => (run_of_loads h).1⟩, ?_⟩
  · obtain ⟨message, hrun⟩ := run_of_not_loads h
    rw [hrun]
    exact ⟨rfl, rfl⟩
  intro steps project stage promotion state resume config timeoutSecs hvalid
  have hsteps : ∃ s, Inputs.loadSteps e.files steps = .ok s := by
    by_contra hnone
    rw [(hcode (.validate steps)).mpr hnone] at hvalid
    cases hvalid
  refine ⟨fun h => ?_, ?_, ?_⟩
  · have hloads := (hcode _).mp h
    simp only [Command.Loads, hsteps, true_and, not_and_or] at hloads
    push Not at hloads
    exact hloads
  · by_cases hloads : (Command.promote steps project stage promotion state resume config timeoutSecs).Loads e.files
    · -- all files load, and a report has nothing on the other stream
      rw [(run_of_loads hloads).2]
      rintro ⟨rest, hblame⟩
      have htext := congrArg String.toList hblame
      simp at htext
    · rw [run]
      cases hinputs : loadPromotion e steps project stage promotion state resume config with
      | error message => exact ((acquits_loadPromotion hsteps hinputs).append "\n").not_blamesSteps
      | ok inputs => exact absurd (exists_loadPromotion.mp ⟨inputs, hinputs⟩) hloads
  · intro inputs i w hloaded hpromote message hmessage
    have hnone : StepProblem.ofSteps inputs.steps = [] := (Inputs.loadSteps_eq_ok.mp hloaded.steps).2
    exact (acquits_of_opens (Engine.message_builtin (registry_engine e _) hnone hpromote hmessage)).not_blamesSteps

end CommandLine
end Delivery
