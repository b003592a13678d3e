import Delivery.Proofs.CommandLine.Reports
import Delivery.Proofs.Directories
import Delivery.Proofs.Inputs.StepsLanguage
import Delivery.Proofs.Promotion.Clock
import Delivery.Proofs.Wire

/-!
Printed results as inputs. A result that was printed loads as that result unless its state nests too deep, and then a
promotion goes on from it.
-/

namespace Delivery

variable {origin inner : Origin}

/-! ### What is read as it was written -/

lemma Status.read_write (s : Status) : codec.read origin (.ofJson (codec.write s)) = .ok s := by
  cases origin <;> cases s <;> rfl

lemma Instant.read_write {t : Instant} (h : t.Proper) : codec.read origin (.ofJson (codec.write t)) = .ok t := by
  simp only [codec, Draft.ofJson, ofText_render_of_proper h]

lemma StepRecord.read_write {r : StepRecord} (h : r.Timed Instant.Proper) (henter : origin.enter = .ok inner) :
    codec.read origin (.ofJson (codec.write r)) = .ok r := by
  refine (Codec.read_record_write (by decide)).mpr ⟨inner, henter,
    (r.stepAlias, r.startedAt, r.finishedAt, r.errorCount, r.status, r.message, ()),
    ⟨?_, ?_, ?_, ?_, ?_, ?_, trivial⟩, rfl⟩
  · exact Field.rereads_required rfl
  · exact Field.rereads_optional (fun t ht => Instant.read_write (h.startedAt t ht)) nofun
  · exact Field.rereads_optional (fun t ht => Instant.read_write (h.finishedAt t ht)) nofun
  · exact Field.rereads_defaulted (Codec.read_ofJson_word32.mpr rfl)
  · exact Field.rereads_optional (fun s _ => Status.read_write s) nofun
  · exact Field.rereads_optional (fun _ _ => rfl) nofun

namespace PromotionResult

variable {r r' : PromotionResult}

/-- A result whose parts are such as are read from a text, and that asks for no checks. -/
structure Plain (r : PromotionResult) : Prop where
  currentStep : r.currentStep ≤ twoPower 64 - 1
  state : r.state.toJson.Canonical
  records : ∀ x ∈ r.records, x.Timed Instant.Proper
  healthChecks : r.healthChecks = []

theorem read_write (h : r.Plain) :
    codec.read .start (.ofJson (codec.write r)) = .ok r' ↔ r' = r ∧ r.state.toJson.depth ≤ 126 := by
  have hroom : (Origin.text 127).Room 0 := by decide
  have hinner : Origin.start.enter = .ok (.text 127) := rfl
  have hstate : ∀ {p}, Codec.payload.read (.text 127) (.ofJson r.state.toJson) = .ok p →
      r.state.toJson.depth ≤ 126 := fun hp =>
    Nat.le_of_lt_succ ((Codec.read_ofJson_payload hroom h.state).mp hp).2
  -- of the six fields only the state may lack room
  have hread : r.state.toJson.depth ≤ 126 → codec.read .start (.ofJson (codec.write r)) = .ok r := by
    intro hdepth
    refine (Codec.read_record_write (by decide)).mpr ⟨_, hinner,
      (r.status, r.message, r.currentStep, r.state, r.records, r.healthChecks, ()),
      ⟨?_, ?_, ?_, ?_, ?_, ?_, trivial⟩, rfl⟩
    · exact Field.rereads_required (Status.read_write _)
    · exact Field.rereads_optional (fun _ _ => rfl) nofun
    · exact Field.rereads_required (Codec.read_ofJson_nat.mpr ⟨rfl, h.currentStep⟩)
    · exact Field.rereads_required
        ((Codec.read_ofJson_payload hroom h.state).mpr ⟨rfl, Nat.lt_succ_of_le hdepth⟩)
    · refine Field.rereads_required (Codec.read_ofJson_list.mpr ⟨.text 126, _, rfl, rfl, ?_⟩)
      refine List.forall₂_map_left_iff.mpr (List.forall₂_same.mpr fun x hx => ?_)
      exact StepRecord.read_write (h.records x hx) rfl
    · show (Field.listed "healthChecks" Criterion.codec).Rereads _ r.healthChecks r.healthChecks
      rw [h.healthChecks]
      rfl
  constructor
  · intro hr
    obtain ⟨_, henter, b, hb, _⟩ := (Codec.read_record_write (by decide)).mp hr
    cases hinner.symm.trans henter
    have hdepth : r.state.toJson.depth ≤ 126 := hstate hb.2.2.2.1
    exact ⟨Except.ok.inj (hr.symm.trans (hread hdepth)), hdepth⟩
  · rintro ⟨rfl, hdepth⟩
    exact hread hdepth

end PromotionResult

/-! ### What a text holds -/

/-- Each member of the payload is as it is held in a text, and nests so deep at most. -/
def Payload.Nests (n : Nat) (p : Payload) : Prop := ∀ x ∈ Keyed.entries p, x.2.Canonical ∧ x.2.depth ≤ n

namespace Payload

variable {p : Payload} {n m : Nat}

lemma nests_iff : Nests n p ↔ p.toJson.Canonical ∧ p.toJson.depth ≤ n + 1 := by
  rw [toJson, Json.Canonical, Json.canonicalMembers_iff, Json.depth_object_le]
  exact ⟨fun h => ⟨⟨p.ascending, fun x hx => (h x hx).1⟩, fun x hx => (h x hx).2⟩,
    fun h x hx => ⟨h.1.2 x hx, h.2 x hx⟩⟩

lemma Nests.mono (h : Nests n p) (hle : n ≤ m) : Nests m p := fun x hx =>
  ⟨(h x hx).1, Nat.le_trans (h x hx).2 hle⟩

lemma nests_empty : Nests n {} := List.forall_mem_nil _

lemma nests_of_read {depth : Nat} {d : Draft} (h : Codec.payload.read (.text (depth + 2)) d = .ok p) :
    Nests depth p := by
  have hroom : (Origin.text (depth + 2)).Room 0 := Nat.succ_pos _
  obtain ⟨hcanonical, hdepth⟩ := Draft.held_of_toJson hroom (Codec.read_payload_iff.mp h)
  exact nests_iff.mpr ⟨hcanonical, Nat.le_of_lt_succ hdepth⟩

end Payload

lemma Instant.proper_of_read {d : Draft} {t : Instant} (h : codec.read origin d = .ok t) : t.Proper := by
  simp only [codec] at h
  split at h
  · split at h
    · next htext =>
      cases h
      exact proper_of_ofText htext
    · cases h
  · exact absurd h (Codec.wrongType_ne_ok _ _)

lemma StepRecord.timed_of_read {d : Draft} {r : StepRecord} (hd : d.InRange) (h : codec.read origin d = .ok r) :
    r.Timed Instant.Proper := by
  obtain ⟨b, hb, rfl⟩ := map_eq_ok.mp h
  obtain ⟨_, _, _, hstarted, hfinished, _⟩ := Fields.read_sourced hd hb
  constructor
  · intro t ht
    have hsome : b.2.1 = some t := ht
    rw [hsome] at hstarted
    obtain ⟨_, hread⟩ := Field.sourced_optional hstarted
    exact Instant.proper_of_read hread
  · intro t ht
    have hsome : b.2.2.1 = some t := ht
    rw [hsome] at hfinished
    obtain ⟨_, hread⟩ := Field.sourced_optional hfinished
    exact Instant.proper_of_read hread

lemma PromotionResult.of_read {d : Draft} {r : PromotionResult} (hd : d.InRange) (h : codec.read .start d = .ok r) :
    Payload.Nests 125 r.state ∧ ∀ x ∈ r.records, x.Timed Instant.Proper := by
  obtain ⟨b, hb, rfl⟩ := map_eq_ok.mp h
  obtain ⟨inner, henter, _, _, _, hstate, hrecords, _⟩ := Fields.read_sourced hd hb
  cases henter
  obtain ⟨_, _, hstate⟩ := Field.sourced_required hstate
  obtain ⟨d, hd, hrecords⟩ := Field.sourced_required hrecords
  refine ⟨Payload.nests_of_read hstate, fun x hx => ?_⟩
  cases d with
  | array ds close =>
    obtain ⟨_, _, hread, _⟩ := Codec.read_list.mp hrecords
    obtain ⟨_, hd, hread⟩ := Codec.mem_readAll hd hread x hx
    exact StepRecord.timed_of_read hd hread
  | _ => exact absurd hrecords (Codec.wrongType_ne_ok _ _)

namespace Inputs

variable {t : FileTree} {path : FilePath}

lemma nests_of_loadState {p : Payload} (h : loadState t path = .ok p) : Payload.Nests 126 p := by
  obtain ⟨text, _, htext⟩ := loadState_eq_ok.mp h
  exact Payload.nests_of_read (Codec.ofText_eq_ok.mp htext).1

lemma of_loadResult {r : PromotionResult} (h : loadResult t path = .ok r) :
    Payload.Nests 125 r.state ∧ ∀ x ∈ r.records, x.Timed Instant.Proper := by
  obtain ⟨text, _, htext⟩ := loadResult_eq_ok.mp h
  exact PromotionResult.of_read (Document.inRange_root text) (Codec.ofText_eq_ok.mp htext).1

lemma config_of_loadSteps {steps : List Step} (h : loadSteps t path = .ok steps) :
    ∀ s ∈ steps, s.config.toJson.Canonical ∧ s.config.toJson.depth ≤ 125 := by
  obtain ⟨text, items, _, hj, hholds, _⟩ := loadSteps_iff.mp h
  obtain ⟨hcanonical, hdepth⟩ := Draft.held_of_toJson (by decide) (Codec.ofText_eq_ok.mp hj).1
  have hitems := Json.depth_array_le.mp (Nat.le_of_lt_succ hdepth)
  intro s hs
  obtain ⟨item, hitem, ms, rfl, _, hheld⟩ := exists_of_forall₂ hholds hs
  obtain ⟨_, hdefault⟩ | hmember := hheld.config
  · rw [hdefault]
    exact ⟨by decide, by decide⟩
  · have hms := Json.depth_object_le.mp (hitems _ hitem) _ (Entries.mem_of_get? hmember)
    exact ⟨canonical_member (Json.canonicalItems_iff.mp hcanonical _ hitem) hmember, hms⟩

end Inputs

/-! ### Numbers -/

lemma PromotionResult.currentStep_mem_numbers (r : PromotionResult) :
    Number.integer r.currentStep ∈ (codec.write r).numbers := by
  have hnumber : Number.integer r.currentStep ∈ (Json.ofNat r.currentStep).numbers := List.mem_cons_self
  refine Json.mem_numbersOfMembers.mpr ⟨("currentStep", .ofNat r.currentStep), ?_, hnumber⟩
  exact Fields.mem_write_rest (Fields.mem_write_rest (Fields.mem_write_head rfl))

namespace CommandLine

variable {e : Environment} {t : FileTree} {steps : FilePath} {project stage : String} {promotion : Option String}
  {state resume config : Option FilePath} {timeoutSecs : Option UInt64} {inputs : PromotionInputs}
  {i : Invocation Unit} {w : World Unit} {n : Nat}

lemma Loaded.nests (h : Loaded t steps project stage promotion state resume config inputs) (hn : 125 ≤ n)
    (hstate : ∀ p, LoadedOr (Inputs.loadState t) {} state p → Payload.Nests n p) :
    Payload.Nests n inputs.request.state := by
  obtain ⟨shared, hshared, hrequest⟩ := h.request
  cases resume with
  | none =>
    rw [hrequest]
    exact hstate shared hshared
  | some path =>
    obtain ⟨previous, hprevious, hrequest⟩ := hrequest
    rw [hrequest]
    exact (Inputs.of_loadResult hprevious).1.mono hn

lemma Loaded.timed (h : Loaded t steps project stage promotion state resume config inputs) :
    ∀ r ∈ inputs.request.records, r.Timed Instant.Proper := by
  obtain ⟨shared, hshared, hrequest⟩ := h.request
  cases resume with
  | none =>
    rw [hrequest]
    exact List.forall_mem_nil _
  | some path =>
    obtain ⟨previous, hprevious, hrequest⟩ := hrequest
    rw [hrequest]
    exact (Inputs.of_loadResult hprevious).2

lemma nests_of_loadedOr {p : Payload} (h : LoadedOr (Inputs.loadState t) {} state p) : Payload.Nests 126 p := by
  cases state with
  | none =>
    obtain rfl : {} = p := h
    exact Payload.nests_empty
  | some path => exact Inputs.nests_of_loadState h

lemma nests_result (hloaded : Loaded e.files steps project stage promotion state resume config inputs)
    (hresult : (e.engine inputs.settings).promote inputs.request inputs.steps (e.world timeoutSecs) = some (i, w))
    (hn : 125 ≤ n) (hrequest : Payload.Nests n inputs.request.state) : Payload.Nests n i.result.state := by
  intro x hx
  obtain hold | ⟨step, hstep, hconfig⟩ := Engine.state_builtin (registry_engine e _) hresult hx
  · exact hrequest x hold
  · obtain ⟨hcanonical, hdepth⟩ := Inputs.config_of_loadSteps hloaded.steps step hstep
    exact hconfig ▸ ⟨hcanonical, Nat.le_trans hdepth hn⟩

lemma plain_result (hclock : ∀ n, (e.clock n).Proper)
    (hloaded : Loaded e.files steps project stage promotion state resume config inputs)
    (hresult : (e.engine inputs.settings).promote inputs.request inputs.steps (e.world timeoutSecs) = some (i, w))
    (hnumbers : ∀ n ∈ (PromotionResult.codec.write i.result).numbers, n.ReadsBack) : i.result.Plain where
  currentStep := by
    have hrange := Number.inRange_of_readsBack (hnumbers _ (PromotionResult.currentStep_mem_numbers i.result))
    have hle : (i.result.currentStep : Int) ≤ (twoPower 64 : Int) - 1 := hrange.2
    omega
  state := by
    have hrequest := hloaded.nests (by decide) fun _ hp => nests_of_loadedOr hp
    exact (Payload.nests_iff.mp (nests_result hloaded hresult (by decide) hrequest)).1
  records := Engine.promote_timed hresult hclock hloaded.timed
  healthChecks := Engine.healthChecks_builtin (registry_engine e _) hresult

lemma loadResult_output (hclock : ∀ n, (e.clock n).Proper)
    (hloaded : Loaded e.files steps project stage promotion state resume config inputs)
    (hresult : (e.engine inputs.settings).promote inputs.request inputs.steps (e.world timeoutSecs) = some (i, w))
    (hnumbers : ∀ n ∈ (PromotionResult.codec.write i.result).numbers, n.ReadsBack) {path : FilePath}
    (hprinted : t.readText path =
      .ok (run e (.promote steps project stage promotion state resume config timeoutSecs)).1.output)
    {r : PromotionResult} :
    Inputs.loadResult t path = .ok r ↔ r = i.result ∧ i.result.state.toJson.depth ≤ 126 := by
  have houtput : (run e (.promote steps project stage promotion state resume config timeoutSecs)).1.output =
      (PromotionResult.codec.write i.result).pretty 0 ++ "\n" := by
    rw [run, loadPromotion_eq_ok.mpr hloaded]
    simp only [hresult]
    rfl
  rw [← PromotionResult.read_write (plain_result hclock hloaded hresult hnumbers), Inputs.loadResult_eq_ok]
  simp only [hprinted, houtput, Except.ok.injEq, exists_eq_left', Codec.ofText_eq_ok, Document.ofText_pretty hnumbers,
    and_true]

/-- A printed result loads exactly if its state nests at most 126 brackets deep, one fewer than a state that is given
may have. It loads as it was, and a promotion that resumes it goes on from it. -/
theorem loadResult_printed (hclock : ∀ n, (e.clock n).Proper)
    (hloaded : Loaded e.files steps project stage promotion state resume config inputs)
    (hresult : (e.engine inputs.settings).promote inputs.request inputs.steps (e.world timeoutSecs) = some (i, w))
    (hnumbers : ∀ n ∈ (PromotionResult.codec.write i.result).numbers, n.ReadsBack) {path : FilePath}
    (hprinted : t.readText path =
      .ok (run e (.promote steps project stage promotion state resume config timeoutSecs)).1.output) :
    ((∃ r, Inputs.loadResult t path = .ok r) ↔ i.result.state.toJson.depth ≤ 126) ∧
      (∀ r, Inputs.loadResult t path = .ok r → r = i.result) ∧
      (∀ steps' project' stage' promotion' state' config' inputs',
        Loaded t steps' project' stage' promotion' state' (some path) config' inputs' →
          inputs'.request = (freshRequest project' stage' promotion' {}).resumeFrom i.result) ∧
      ((∀ p, LoadedOr (Inputs.loadState e.files) {} state p → p.toJson.depth ≤ 126) →
        i.result.state.toJson.depth ≤ 126) := by
  have hload : ∀ r, Inputs.loadResult t path = .ok r ↔ r = i.result ∧ i.result.state.toJson.depth ≤ 126 :=
    fun _ => loadResult_output hclock hloaded hresult hnumbers hprinted
  refine ⟨⟨?_, ?_⟩, fun r hr => ((hload r).mp hr).1, ?_, ?_⟩
  · rintro ⟨r, hr⟩
    exact ((hload r).mp hr).2
  · exact fun hdepth => ⟨i.result, (hload _).mpr ⟨rfl, hdepth⟩⟩
  · intro steps' project' stage' promotion' state' config' inputs' h
    obtain ⟨shared, _, previous, hprevious, hrequest⟩ := h.request
    rw [hrequest, ((hload previous).mp hprevious).1]
    rfl
  · -- what else comes into the state has been read one bracket deeper
    intro hstate
    have hrequest := hloaded.nests (Nat.le_refl 125) fun p hp => by
      obtain ⟨hcanonical, _⟩ := Payload.nests_iff.mp (nests_of_loadedOr hp)
      exact Payload.nests_iff.mpr ⟨hcanonical, hstate p hp⟩
    exact (Payload.nests_iff.mp (nests_result hloaded hresult (Nat.le_refl 125) hrequest)).2

/-! ### At the limit -/

def rootFiles (files : List (String × String)) : FileTree :=
  ⟨files.map fun file => ([file.1], .file file.2.toUTF8), []⟩

def IsPlain (name : String) : Prop :=
  name ∉ ["", ".", ".."] ∧ name.toList.contains '\x00' = false ∧ FilePath.segments ⟨name⟩ = [name] ∧
    FilePath.isAbsolute ⟨name⟩ = false ∧ name.endsWith "/" = false ∧ ¬ FileTree.nameLimit < name.utf8ByteSize

instance (name : String) : Decidable (IsPlain name) := inferInstanceAs (Decidable (_ ∧ _))

lemma readText_rootFiles {files : List (String × String)} {name text : String} (hname : IsPlain name)
    (h : FileTree.lookup [name] (rootFiles files).nodes = some (.file text.toUTF8)) :
    (rootFiles files).readText ⟨name⟩ = .ok text := by
  obtain ⟨hspecial, hnul, hsegments, habsolute, hslash, hsize⟩ := hname
  simp only [List.mem_cons, List.not_mem_nil, or_false, not_or] at hspecial
  have hlocate : (rootFiles files).locate ⟨name⟩ = .ok [name] := by
    refine FileTree.locate_eq_ok.mpr ⟨hspecial.1, hnul, ?_, fun h => by cases hslash.symm.trans h⟩
    have hroot : (rootFiles files).isDirectoryAt (rootFiles files).current = true := rfl
    simp [hsegments, habsolute, hspecial, FileTree.follow, hroot, hsize]
    rfl
  refine Inputs.readText_eq_ok.mpr ?_
  rw [FileTree.find, hlocate]
  simp [FileTree.get?, h, bind, Except.bind, pure, Except.pure]

def nestedArrays : Nat → Json
  | 0 => .array []
  | n + 1 => .array [nestedArrays n]

lemma depth_nestedArrays (n : Nat) : (nestedArrays n).depth = n + 1 := by
  induction n with
  | zero => rfl
  | succ n ih =>
    show max (nestedArrays n).depth 0 + 1 = n + 1 + 1
    rw [ih, Nat.max_zero]

lemma canonical_nestedArrays (n : Nat) : (nestedArrays n).Canonical := by
  induction n with
  | zero => trivial
  | succ n ih => exact ⟨ih, trivial⟩

lemma numbers_nestedArrays (n : Nat) : (nestedArrays n).numbers = [] := by
  induction n with
  | zero => rfl
  | succ n ih =>
    show (nestedArrays n).numbers ++ [] = []
    rw [ih]
    rfl

def nestedState (n : Nat) : Payload := Keyed.empty.insert "a" (nestedArrays n)

def nested (n : Nat) : Environment where
  temporary := ⟨"/tmp"⟩
  clock _ := ⟨0, 0⟩
  files := rootFiles [("steps.json", "[]"), ("state.json", (nestedState n).toJson.compact)]
  complaint := id

lemma proper_clock (n m : Nat) : ((nested n).clock m).Proper := by
  have hzero : (Instant.mk 0 0).Proper := ⟨by decide, by decide, by decide⟩
  exact hzero

lemma loadState_nested {n : Nat} (hn : n ≤ 125) :
    Inputs.loadState (nested n).files ⟨"state.json"⟩ = .ok (nestedState n) := by
  have hroom : Origin.start.Room 0 := by decide
  have hcanonical : (nestedState n).toJson.Canonical := ⟨(nestedState n).ascending, canonical_nestedArrays n, trivial⟩
  have hdepth : (nestedState n).toJson.depth ≤ 127 := by
    refine Json.depth_object_le.mpr (List.forall_mem_singleton.mpr ?_)
    rw [depth_nestedArrays]
    omega
  have hnumbers : ∀ m ∈ (nestedState n).toJson.numbers, m.ReadsBack := by
    have hnone : (nestedState n).toJson.numbers = (nestedArrays n).numbers ++ [] := rfl
    rw [hnone, numbers_nestedArrays]
    exact List.forall_mem_nil _
  refine Inputs.loadState_eq_ok.mpr ⟨_, readText_rootFiles (by decide +kernel) rfl, ?_⟩
  rw [Codec.ofText_eq_ok, Document.ofText_compact hnumbers]
  exact ⟨(Codec.read_ofJson_payload hroom hcanonical).mpr ⟨rfl, Nat.lt_succ_of_le hdepth⟩, rfl⟩

lemma loaded_nested {n : Nat} (hn : n ≤ 125) : Loaded (nested n).files ⟨"steps.json"⟩ "p" "s" none
    (some ⟨"state.json"⟩) none none ⟨[], {}, freshRequest "p" "s" none (nestedState n)⟩ where
  steps := by
    refine Inputs.loadSteps_iff.mpr ⟨"[]", [], readText_rootFiles (by decide +kernel) rfl, ?_, .nil, List.nodup_nil⟩
    have hempty : (Json.array []).compact = "[]" := by decide +kernel
    rw [← hempty, Codec.ofText_eq_ok, Document.ofText_compact (List.forall_mem_nil _)]
    exact ⟨rfl, rfl⟩
  settings := rfl
  request := ⟨_, loadState_nested hn, rfl⟩

def promoteNested : Command := .promote ⟨"steps.json"⟩ "p" "s" none (some ⟨"state.json"⟩) none none none

def savedResult (n : Nat) : FileTree := rootFiles [("result.json", (run (nested n) promoteNested).1.output)]

lemma readText_savedResult (n : Nat) :
    (savedResult n).readText ⟨"result.json"⟩ = .ok (run (nested n) promoteNested).1.output :=
  readText_rootFiles (by decide +kernel) rfl

def SucceedsAt (n depth : Nat) (i : Invocation Unit) : Prop :=
  (∃ w, ((nested n).engine {}).promote (freshRequest "p" "s" none (nestedState n)) [] ((nested n).world none) =
      some (i, w)) ∧
    i.result.status = .succeeded ∧ i.result.state.toJson.depth = depth ∧
      ∀ m ∈ (PromotionResult.codec.write i.result).numbers, m.ReadsBack

lemma exists_succeedsAt {n depth : Nat}
    (h : (((nested n).engine {}).promote (freshRequest "p" "s" none (nestedState n)) []
      ((nested n).world none)).any fun x => x.1.result.status = .succeeded ∧ x.1.result.state.toJson.depth = depth ∧
        ∀ m ∈ (PromotionResult.codec.write x.1.result).numbers, m.ReadsBack) : ∃ i, SucceedsAt n depth i := by
  obtain ⟨⟨i, w⟩, hpromote, hgood⟩ := (Option.any_eq_true _ _).mp h
  exact ⟨i, ⟨w, hpromote⟩, of_decide_eq_true hgood⟩

theorem loadResult_printed_nested : ∃ i, SucceedsAt 124 126 i ∧
    Inputs.loadResult (savedResult 124) ⟨"result.json"⟩ = .ok i.result := by
  obtain ⟨i, hsucceeds⟩ : ∃ i, SucceedsAt 124 126 i := exists_succeedsAt (by decide +kernel)
  refine ⟨i, hsucceeds, ?_⟩
  obtain ⟨⟨w, hresult⟩, _, hdepth, hnumbers⟩ := hsucceeds
  obtain ⟨hloads, hsame, _⟩ := loadResult_printed (proper_clock 124) (loaded_nested (by decide)) hresult hnumbers
    (readText_savedResult 124)
  obtain ⟨r, hr⟩ := hloads.mpr (Nat.le_of_eq hdepth)
  rw [hr, hsame r hr]

/-- One bracket more: the state still loads and the promotion succeeds, but its printed result does not load. -/
theorem loadResult_refuses_printed : ∃ i, SucceedsAt 125 127 i ∧
    Inputs.loadState (nested 125).files ⟨"state.json"⟩ = .ok (nestedState 125) ∧
      ¬ ∃ r, Inputs.loadResult (savedResult 125) ⟨"result.json"⟩ = .ok r := by
  obtain ⟨i, hsucceeds⟩ : ∃ i, SucceedsAt 125 127 i := exists_succeedsAt (by decide +kernel)
  refine ⟨i, hsucceeds, loadState_nested (by decide), ?_⟩
  rintro ⟨r, hr⟩
  obtain ⟨⟨w, hresult⟩, _, hdepth, hnumbers⟩ := hsucceeds
  have hle := ((loadResult_output (proper_clock 125) (loaded_nested (by decide)) hresult hnumbers
    (readText_savedResult 125)).mp hr).2
  omega

end CommandLine
end Delivery
