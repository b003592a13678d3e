import Delivery.Inputs
import Delivery.Proofs.Json.Schemas
import Delivery.Proofs.Json.Values

/-! Loading the files that a run starts from. -/

namespace Delivery

namespace Inputs

variable {α : Type} {t : FileTree} {path : FilePath} {what : String} {schema : Schema} {codec : Codec α}

lemma loadChecked_ok {text : String} (htext : t.readText path = .ok text) :
    loadChecked t what schema codec path =
      match Codec.json.ofText text with
      | .error fault => .error (.fault ("parse" ++ " " ++ what ++ " " ++ path.text) fault)
      | .ok j =>
        if schema.Accepts j then
          (codec.ofJson j).mapError (.fault ("deserialize" ++ " " ++ what ++ " " ++ path.text))
        else .error (.schema what (schema.problems j)) := by
  simp only [loadChecked, readText, htext, Except.mapError, orFault, bind, Except.bind]
  cases Codec.json.ofText text with
  | error fault => rfl
  | ok j =>
    by_cases haccepts : schema.Accepts j
    · have hnil : (!(schema.problems j).isEmpty) = false := by
        rw [haccepts]
        rfl
      simp only [if_pos haccepts, hnil, Bool.false_eq_true, if_false]
    · have hnil : (!(schema.problems j).isEmpty) = true := by
        rw [Bool.not_eq_true', List.isEmpty_eq_false_iff]
        exact haccepts
      simp only [if_neg haccepts, hnil, if_true]
      rfl

lemma loadChecked_error {error : FileError} (htext : t.readText path = .error error) :
    loadChecked t what schema codec path = .error (.files ("read " ++ what ++ " " ++ path.text) error) := by
  simp only [loadChecked, readText, htext, Except.mapError, bind, Except.bind]

lemma loadChecked_eq_ok {a : α} : loadChecked t what schema codec path = .ok a ↔
    ∃ text j, t.readText path = .ok text ∧ Codec.json.ofText text = .ok j ∧ schema.Accepts j ∧
      codec.ofJson j = .ok a := by
  cases htext : t.readText path with
  | error error => simp [loadChecked_error htext]
  | ok text =>
    rw [loadChecked_ok htext]
    cases hj : Codec.json.ofText text with
    | error fault => simp [hj]
    | ok j => by_cases haccepts : schema.Accepts j <;> simp [hj, haccepts, mapError_eq_ok]

lemma parse_ne_deserialize (what rest : String) :
    "parse" ++ " " ++ what ++ " " ++ rest ≠ "deserialize" ++ " " ++ what ++ " " ++ rest := by
  intro h
  have hhead := congrArg (fun s => s.toList.head?) h
  simp at hhead

lemma loadChecked_deserialize {fault : Fault} :
    loadChecked t what schema codec path = .error (.fault ("deserialize" ++ " " ++ what ++ " " ++ path.text) fault) ↔
      ∃ text j, t.readText path = .ok text ∧ Codec.json.ofText text = .ok j ∧ schema.Accepts j ∧
        codec.ofJson j = .error fault := by
  cases htext : t.readText path with
  | error error => simp [loadChecked_error htext]
  | ok text =>
    rw [loadChecked_ok htext]
    cases hj : Codec.json.ofText text with
    | error parsing =>
      refine iff_of_false (fun h => ?_) (by simp [hj])
      exact parse_ne_deserialize what path.text (InputFailure.fault.inj (Except.error.inj h)).1
    | ok j => by_cases haccepts : schema.Accepts j <;> simp [hj, haccepts, mapError_eq_error]

lemma fromUTF8?_eq_some {content : ByteArray} {text : String} :
    String.fromUTF8? content = some text ↔ text.toUTF8 = content := by
  rw [String.fromUTF8?]
  split
  · next hvalid =>
    rw [Option.some.injEq]
    refine ⟨fun h => h ▸ rfl, fun h => ?_⟩
    subst h
    rfl
  · next hvalid =>
    refine iff_of_false nofun fun h => hvalid ?_
    subst h
    exact text.isValidUTF8

lemma readText_eq_ok {text : String} : t.readText path = .ok text ↔ t.find path = .ok (.file text.toUTF8) := by
  rw [FileTree.readText]
  cases t.find path with
  | error error => exact iff_of_false nofun nofun
  | ok node =>
    cases node with
    | directory => exact iff_of_false nofun (by simp)
    | file content =>
      rw [Except.ok.injEq, FileNode.file.injEq, @eq_comm _ content, ← fromUTF8?_eq_some]
      simp only [bind, Except.bind]
      cases String.fromUTF8? content <;> simp [pure, Except.pure]

lemma loadSteps_eq_ok {steps : List Step} : loadSteps t path = .ok steps ↔
    loadChecked t "promotion steps" stepsSchema (.list Step.codec) path = .ok steps ∧
      StepProblem.ofSteps steps = [] := by
  rw [loadSteps, bind_eq_ok]
  constructor
  · rintro ⟨loaded, hload, h⟩
    dsimp only at h
    split at h
    · next hnone =>
      obtain rfl := pure_eq_ok.mp h
      exact ⟨hload, List.isEmpty_iff.mp hnone⟩
    · cases h
  · rintro ⟨hload, hnone⟩
    exact ⟨steps, hload, if_pos (List.isEmpty_iff.mpr hnone)⟩

lemma loadSteps_fault {action : String} {fault : Fault} : loadSteps t path = .error (.fault action fault) ↔
    loadChecked t "promotion steps" stepsSchema (.list Step.codec) path = .error (.fault action fault) := by
  rw [loadSteps]
  cases loadChecked t "promotion steps" stepsSchema (.list Step.codec) path with
  | error failure => exact Iff.rfl
  | ok steps =>
    refine iff_of_false (fun h => ?_) nofun
    simp only [bind, Except.bind] at h
    split at h <;> cases h

lemma loadState_eq_ok {p : Payload} : loadState t path = .ok p ↔
    ∃ text, t.readText path = .ok text ∧ Codec.payload.ofText text = .ok p := by
  simp only [loadState, readText, orFault, bind_eq_ok, mapError_eq_ok]

lemma loadResult_eq_ok {r : PromotionResult} : loadResult t path = .ok r ↔
    ∃ text, t.readText path = .ok text ∧ PromotionResult.codec.ofText text = .ok r := by
  simp only [loadResult, readText, orFault, bind_eq_ok, mapError_eq_ok]

end Inputs
end Delivery
