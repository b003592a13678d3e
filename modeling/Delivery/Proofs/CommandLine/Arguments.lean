import Delivery.CommandLine.Basic
import Delivery.Proofs.Except
import Mathlib.Data.List.TakeWhile
import Mathlib.Data.Nat.Digits.Defs

/-!
What arguments say. A command is spelled by its name and its options, in any order and in either form, and a wish for
information by a flag; reading finds out what they spell, and refuses all other arguments.
-/

namespace Delivery

namespace Keyed

variable {α : Type} {entries : List (String × α)}

lemma get?_foldl_insert (m : Keyed α) (h : (entries.map (·.1)).Nodup) (key : String) :
    (entries.foldl (fun m e => m.insert e.1 e.2) m).get? key = (Entries.get? key entries).or (m.get? key) := by
  induction entries generalizing m with
  | nil => rfl
  | cons e entries ih =>
    obtain ⟨k, a⟩ := e
    rw [List.map_cons, List.nodup_cons] at h
    rw [List.foldl_cons, ih _ h.2, get?_insert, Entries.get?]
    by_cases hk : k = key
    · subst hk
      rw [Entries.get?_eq_none.mpr h.1, if_pos rfl, if_pos rfl]
      rfl
    · rw [if_neg hk, if_neg (Ne.symm hk)]

lemma get?_ofList (h : (entries.map (·.1)).Nodup) (key : String) :
    (ofList entries).get? key = Entries.get? key entries := by
  rw [ofList, get?_foldl_insert _ h, get?_empty, Option.or_none]

end Keyed

namespace CommandLine

variable {table : OptionTable} {given : Keyed String} {options : List (String × String)} {name value arg : String}
  {args before tail : List String} {c : Command}

/-! ### Values -/

def valueOf (digits : List Char) : ℕ := Nat.ofDigits 10 (digits.map fun c => c.toNat - '0'.toNat).reverse

def Spelling (text : String) (n : ℕ) : Prop :=
  ∃ digits, (text.toList = digits ∨ text.toList = '+' :: digits) ∧ digits ≠ [] ∧ (∀ c ∈ digits, c.isDigit = true) ∧
    n = valueOf digits

lemma foldl_eq_valueOf (digits : List Char) :
    digits.foldl (fun n c => n * 10 + (c.toNat - '0'.toNat)) 0 = valueOf digits := by
  rw [valueOf, Nat.ofDigits_eq_foldr, List.foldr_reverse, List.foldl_map]
  congr 1
  funext n c
  rw [Nat.cast_id, Nat.mul_comm, Nat.add_comm]

lemma digits_eq_some {digits : List Char} {n : UInt64} :
    (if digits.isEmpty || !digits.all Char.isDigit || twoPower 64 ≤ valueOf digits then none
      else some (UInt64.ofNat (valueOf digits))) = some n ↔
      digits ≠ [] ∧ (∀ c ∈ digits, c.isDigit = true) ∧ n.toNat = valueOf digits := by
  simp only [Option.ite_none_left_eq_some, Option.some.injEq, Bool.or_eq_true, Bool.not_eq_true', decide_eq_true_eq,
    not_or, List.isEmpty_iff, Bool.not_eq_false, List.all_eq_true, Nat.not_le, and_assoc]
  refine and_congr_right fun _ => and_congr_right fun _ => ?_
  constructor
  · rintro ⟨hlt, rfl⟩
    exact UInt64.toNat_ofNat_of_lt hlt
  · intro hn
    rw [← hn]
    exact ⟨n.toNat_lt, UInt64.ofNat_toNat⟩

lemma seconds?_eq_some {text : String} {n : UInt64} : seconds? text = some n ↔ Spelling text n.toNat := by
  simp only [seconds?, foldl_eq_valueOf]
  constructor
  · intro h
    split at h
    · next digits htext => exact ⟨digits, .inr htext, digits_eq_some.mp h⟩
    · exact ⟨text.toList, .inl rfl, digits_eq_some.mp h⟩
  · rintro ⟨digits, htext, hne, hdigits, hn⟩
    split
    · next rest hplus =>
      -- a plus sign is no digit
      obtain htext | htext := htext
      · have hsign := hdigits '+' (by rw [← htext, hplus]; exact List.mem_cons_self)
        cases hsign
      · rw [hplus] at htext
        cases htext
        exact digits_eq_some.mpr ⟨hne, hdigits, hn⟩
    · next hplain =>
      obtain rfl | htext := htext
      · exact digits_eq_some.mpr ⟨hne, hdigits, hn⟩
      · exact absurd htext (hplain digits)

/-- What an option of a kind may be given: a path that is not empty, any text, or seconds that fit 64 bits. -/
def Fits (value : String) : OptionKind → Prop
  | .path => value ≠ ""
  | .text => True
  | .seconds => ∃ n < 2 ^ 64, Spelling value n

lemma allows_iff {kind : OptionKind} : kind.allows value = true ↔ Fits value kind := by
  cases kind with
  | path => simp [OptionKind.allows, Fits]
  | text => simp [OptionKind.allows, Fits]
  | seconds =>
    rw [OptionKind.allows, Option.isSome_iff_exists, Fits]
    simp only [seconds?_eq_some]
    constructor
    · rintro ⟨n, hn⟩
      exact ⟨n.toNat, n.toNat_lt, hn⟩
    · rintro ⟨n, hlt, hn⟩
      exact ⟨.ofNat n, by rwa [UInt64.toNat_ofNat_of_lt' hlt]⟩

/-! ### Options -/

def Allows (table : OptionTable) (name value : String) : Prop :=
  ∃ kind, Entries.get? name table = some kind ∧ Fits value kind

/-- Options and the arguments that spell them. The value of an option is joined to its name by an equals sign, or is the
next argument and does not begin like an option. -/
inductive Spells (table : OptionTable) : List (String × String) → List String → Prop
  | nil : Spells table [] []
  | joined {name value : String} {options : List (String × String)} {args : List String} :
      Allows table name value → Spells table options args →
        Spells table ((name, value) :: options) (("--" ++ name ++ "=" ++ value) :: args)
  | apart {name value : String} {options : List (String × String)} {args : List String} :
      Allows table name value → isOption value = false → Spells table options args →
        Spells table ((name, value) :: options) (("--" ++ name) :: value :: args)

def Plain (table : OptionTable) : Prop := ∀ name ∈ table.map (·.1), '=' ∉ name.toList ∧ name ∉ ["", "help"]

instance (table : OptionTable) : Decidable (Plain table) := inferInstanceAs (Decidable (∀ name ∈ _, _))

structure Fresh (given : Keyed String) (options : List (String × String)) : Prop where
  distinct : (options.map (·.1)).Nodup
  new : ∀ name ∈ options.map (·.1), given.get? name = none

lemma fresh_empty : Fresh .empty options ↔ (options.map (·.1)).Nodup :=
  ⟨fun h => h.distinct, fun h => ⟨h, fun _ _ => rfl⟩⟩

lemma fresh_cons : Fresh given ((name, value) :: options) ↔
    given.get? name = none ∧ Fresh (given.insert name value) options := by
  constructor
  · rintro ⟨hdistinct, hnew⟩
    rw [List.map_cons, List.nodup_cons] at hdistinct
    refine ⟨hnew name List.mem_cons_self, hdistinct.2, fun other hother => ?_⟩
    have hne : other ≠ name := by
      rintro rfl
      exact hdistinct.1 hother
    rw [Keyed.get?_insert, if_neg hne]
    exact hnew other (List.mem_cons_of_mem _ hother)
  · rintro ⟨hname, hdistinct, hnew⟩
    have hother : ∀ other ∈ options.map (·.1), other ≠ name ∧ given.get? other = none := by
      intro other hmem
      have hnone := hnew other hmem
      rw [Keyed.get?_insert] at hnone
      split at hnone
      · cases hnone
      · next hne => exact ⟨hne, hnone⟩
    refine ⟨List.nodup_cons.mpr ⟨fun hmem => (hother name hmem).1 rfl, hdistinct⟩, fun other hmem => ?_⟩
    obtain rfl | hmem := List.mem_cons.mp hmem
    · exact hname
    · exact (hother other hmem).2

lemma accept_eq_ok {m : Keyed String} : accept table given name value = .ok m ↔
    Allows table name value ∧ given.get? name = none ∧ m = given.insert name value := by
  rw [accept, Allows]
  cases Entries.get? name table with
  | none => exact iff_of_false nofun fun h => nomatch h.1
  | some kind =>
    have hok : (Except.ok (given.insert name value) : Except Refusal (Keyed String)) = .ok m ↔
        m = given.insert name value := by rw [Except.ok.injEq, eq_comm]
    simp only [← allows_iff, Option.some.injEq, exists_eq_left']
    cases hget : given.get? name <;> cases kind.allows value <;> simp [Keyed.contains, hget, hok]

lemma accept_eq_error {refusal : Refusal} (h : accept table given name value = .error refusal) : refusal = .usage := by
  rw [accept] at h
  split at h
  · split at h
    · cases h
    · exact (Except.error.inj h).symm
  · exact (Except.error.inj h).symm

/-! ### One argument -/

lemma toList_double (text : String) : ("--" ++ text).toList = '-' :: '-' :: text.toList := by simp

lemma startsWith_double : arg.startsWith "--" = true ↔ ∃ text, arg = "--" ++ text := by
  rw [String.startsWith_string_iff]
  constructor
  · rintro ⟨chars, hchars⟩
    exact ⟨String.ofList chars, String.toList_injective (by rw [← hchars]; simp)⟩
  · rintro ⟨text, rfl⟩
    exact ⟨text.toList, by simp⟩

lemma not_startsWith_short (text : String) : ("--" ++ text).startsWith "-h" = false := by
  rw [String.startsWith_string_eq_false_iff, toList_double]
  rintro ⟨rest, hrest⟩
  simp at hrest

lemma splitOption_joined (h : '=' ∉ name.toList) (value : String) :
    splitOption ("--" ++ name ++ "=" ++ value) = (name, some value) := by
  have hname : ∀ c ∈ name.toList, decide (c ≠ '=') = true := fun c hc => by
    rw [decide_eq_true_iff]
    rintro rfl
    exact h hc
  have hchars : ("--" ++ name ++ "=" ++ value).toList.drop 2 = name.toList ++ '=' :: value.toList := by simp
  rw [splitOption, hchars, List.dropWhile_append_of_pos hname, List.takeWhile_append_of_pos hname]
  simp

lemma splitOption_apart (h : '=' ∉ name.toList) : splitOption ("--" ++ name) = (name, none) := by
  have hname : ∀ c ∈ name.toList, decide (c ≠ '=') = true := fun c hc => by
    rw [decide_eq_true_iff]
    rintro rfl
    exact h hc
  have hchars : ("--" ++ name).toList.drop 2 = name.toList := by simp
  rw [splitOption, hchars, List.dropWhile_eq_nil_iff.mpr hname, List.takeWhile_eq_self_iff.mpr hname,
    String.ofList_toList]

lemma exists_splits (text : String) :
    ∃ name, '=' ∉ name.toList ∧ (text = name ∨ ∃ value, text = name ++ "=" ++ value) := by
  refine ⟨String.ofList (text.toList.takeWhile (· ≠ '=')), ?_, ?_⟩
  · rw [String.toList_ofList]
    intro hmem
    simpa using List.mem_takeWhile_imp hmem
  · have hparts := List.takeWhile_append_dropWhile (p := (· ≠ '=')) (l := text.toList)
    cases hrest : text.toList.dropWhile (· ≠ '=') with
    | nil =>
      rw [hrest, List.append_nil] at hparts
      exact .inl (String.toList_injective (by rw [String.toList_ofList, hparts]))
    | cons c value =>
      have hhead : c = '=' := by
        have hne := List.head?_dropWhile_not (· ≠ '=') text.toList
        rw [hrest] at hne
        simpa using hne
      rw [hrest, hhead] at hparts
      refine .inr ⟨String.ofList value, String.toList_injective ?_⟩
      simpa using hparts.symm

lemma splitOption_cases (hdouble : arg.startsWith "--" = true) : ∃ name, '=' ∉ name.toList ∧
    (arg = "--" ++ name ∨ ∃ value, arg = "--" ++ name ++ "=" ++ value) := by
  obtain ⟨text, rfl⟩ := startsWith_double.mp hdouble
  obtain ⟨name, hname, rfl | ⟨value, rfl⟩⟩ := exists_splits text
  · exact ⟨text, hname, .inl rfl⟩
  · refine ⟨name, hname, .inr ⟨value, ?_⟩⟩
    rw [String.append_assoc, String.append_assoc, String.append_assoc]

lemma eq_joined (hdouble : arg.startsWith "--" = true) (h : splitOption arg = (name, some value)) :
    arg = "--" ++ name ++ "=" ++ value := by
  obtain ⟨name', hname, rfl | ⟨value', rfl⟩⟩ := splitOption_cases hdouble
  · rw [splitOption_apart hname] at h
    cases h
  · rw [splitOption_joined hname] at h
    cases h
    rfl

lemma eq_apart (hdouble : arg.startsWith "--" = true) (h : splitOption arg = (name, none)) : arg = "--" ++ name := by
  obtain ⟨name', hname, rfl | ⟨value', rfl⟩⟩ := splitOption_cases hdouble
  · rw [splitOption_apart hname] at h
    cases h
    rfl
  · rw [splitOption_joined hname] at h
    cases h

/-! ### Reading options -/

def AsksHelp (flag : String) : Prop := flag = "--help" ∨ flag.startsWith "-h" = true

/-- Options end with the arguments, or at a mark that nothing follows. -/
def Ends (tail : List String) : Prop := tail = [] ∨ tail = ["--"]

def EndsInHelp (tail : List String) : Prop := ∃ flag rest, tail = flag :: rest ∧ AsksHelp flag

lemma readOptions_of_ends (h : Ends tail) : readOptions table given tail = .ok given := by
  obtain rfl | rfl := h
  · rfl
  · simp [readOptions]

lemma readOptions_cons (hend : arg ≠ "--") (hhelp : arg ≠ "--help") : readOptions table given (arg :: args) =
    if arg.startsWith "-h" then .error (.information help)
    else if !arg.startsWith "--" then .error .usage
    else
      match splitOption arg, args with
      | (name, some value), rest => do readOptions table (← accept table given name value) rest
      | (name, none), value :: rest =>
        if isOption value then .error .usage
        else do readOptions table (← accept table given name value) rest
      | (_, none), [] => .error .usage := by
  rw [readOptions.eq_def]
  split
  · next heq => cases heq
  · next heq => exact absurd (List.cons.inj heq).1 hend
  · next heq => exact absurd (List.cons.inj heq).1 hhelp
  · next heq =>
    obtain ⟨rfl, rfl⟩ := List.cons.inj heq
    rfl

lemma readOptions_of_endsInHelp (h : EndsInHelp tail) :
    readOptions table given tail = .error (.information help) := by
  obtain ⟨flag, rest, rfl, rfl | hflag⟩ := h
  · simp [readOptions]
  · have hne (text : String) : flag ≠ "--" ++ text := by
      rintro rfl
      rw [not_startsWith_short] at hflag
      cases hflag
    rw [readOptions_cons (hne "") (hne "help"), if_pos hflag]

lemma readOptions_joined (h : '=' ∉ name.toList) : readOptions table given (("--" ++ name ++ "=" ++ value) :: args) =
    accept table given name value >>= fun given => readOptions table given args := by
  have hne {text : String} (htext : '=' ∉ text.toList) : "--" ++ name ++ "=" ++ value ≠ text := by
    rintro rfl
    exact htext (by simp)
  have hdouble : "--" ++ name ++ "=" ++ value = "--" ++ (name ++ "=" ++ value) := by
    rw [String.append_assoc, String.append_assoc, String.append_assoc]
  rw [readOptions_cons (hne (by decide)) (hne (by decide)), splitOption_joined h, hdouble, not_startsWith_short,
    startsWith_double.mpr ⟨_, rfl⟩]
  rfl

lemma readOptions_apart (h : '=' ∉ name.toList) (hname : name ∉ ["", "help"]) (hvalue : isOption value = false) :
    readOptions table given (("--" ++ name) :: value :: args) =
      accept table given name value >>= fun given => readOptions table given args := by
  have hne (text : String) (htext : text ∈ ["", "help"]) : "--" ++ name ≠ "--" ++ text := by
    intro heq
    rw [String.append_right_inj] at heq
    exact hname (heq ▸ htext)
  rw [readOptions_cons (hne "" (by decide)) (hne "help" (by decide)), splitOption_apart h, not_startsWith_short,
    startsWith_double.mpr ⟨_, rfl⟩]
  simp only [hvalue]
  rfl

lemma readOptions_append (hplain : Plain table) (hspells : Spells table options before) (hfresh : Fresh given options) :
    readOptions table given (before ++ tail) =
      readOptions table (options.foldl (fun m e => m.insert e.1 e.2) given) tail := by
  have hmarks {name value} (h : Allows table name value) : '=' ∉ name.toList ∧ name ∉ ["", "help"] := by
    obtain ⟨kind, hkind, _⟩ := h
    refine hplain name (by_contra fun hnone => ?_)
    rw [Entries.get?_eq_none.mpr hnone] at hkind
    cases hkind
  induction hspells generalizing given with
  | nil => rfl
  | joined hallows _ ih =>
    obtain ⟨hnone, hrest⟩ := fresh_cons.mp hfresh
    rw [List.cons_append, readOptions_joined (hmarks hallows).1, accept_eq_ok.mpr ⟨hallows, hnone, rfl⟩]
    exact ih hrest
  | apart hallows hvalue _ ih =>
    obtain ⟨hnone, hrest⟩ := fresh_cons.mp hfresh
    rw [List.cons_append, List.cons_append, readOptions_apart (hmarks hallows).1 (hmarks hallows).2 hvalue,
      accept_eq_ok.mpr ⟨hallows, hnone, rfl⟩]
    exact ih hrest

lemma accept_of_bind_ne {f : Keyed String → Except Refusal (Keyed String)}
    (h : accept table given name value >>= f ≠ .error .usage) :
    Allows table name value ∧ given.get? name = none ∧ f (given.insert name value) ≠ .error .usage := by
  cases haccept : accept table given name value with
  | error refusal =>
    rw [haccept, accept_eq_error haccept] at h
    exact absurd rfl h
  | ok m =>
    obtain ⟨hallows, hnone, rfl⟩ := accept_eq_ok.mp haccept
    rw [haccept] at h
    exact ⟨hallows, hnone, h⟩

lemma exists_spells (h : readOptions table given args ≠ .error .usage) :
    ∃ options before tail, args = before ++ tail ∧ Spells table options before ∧ Fresh given options ∧
      (Ends tail ∨ EndsInHelp tail) := by
  have hnone {given : Keyed String} {tail : List String} (htail : Ends tail ∨ EndsInHelp tail) :
      ∃ options before tail', tail = before ++ tail' ∧ Spells table options before ∧ Fresh given options ∧
        (Ends tail' ∨ EndsInHelp tail') := ⟨[], [], tail, rfl, .nil, ⟨List.nodup_nil, nofun⟩, htail⟩
  fun_induction readOptions table given args with
  | case1 => exact hnone (.inl (.inl rfl))
  | case2 given rest hempty => exact hnone (.inl (.inr (by rw [List.isEmpty_iff.mp hempty])))
  | case3 => exact absurd rfl h
  | case4 given rest => exact hnone (.inr ⟨_, _, rfl, .inl rfl⟩)
  | case5 given arg rest _ _ hflag => exact hnone (.inr ⟨_, _, rfl, .inr hflag⟩)
  | case6 => exact absurd rfl h
  | case7 given arg _ _ _ hdouble name value rest hsplit ih =>
    obtain ⟨hallows, hget, hrest⟩ := accept_of_bind_ne h
    obtain ⟨options, before, tail, rfl, hspells, hfresh, htail⟩ := ih _ hrest
    obtain rfl := eq_joined (by simpa using hdouble) hsplit
    exact ⟨_, _, tail, rfl, .joined hallows hspells, fresh_cons.mpr ⟨hget, hfresh⟩, htail⟩
  | case8 => exact absurd rfl h
  | case9 given arg _ _ _ hdouble name value rest hsplit hvalue ih =>
    obtain ⟨hallows, hget, hrest⟩ := accept_of_bind_ne h
    obtain ⟨options, before, tail, rfl, hspells, hfresh, htail⟩ := ih _ hrest
    obtain rfl := eq_apart (by simpa using hdouble) hsplit
    refine ⟨_, _, tail, rfl, .apart hallows ?_ hspells, fresh_cons.mpr ⟨hget, hfresh⟩, htail⟩
    simpa using hvalue
  | case10 => exact absurd rfl h

def Gives (table : OptionTable) (options : List (String × String)) (args tail : List String) : Prop :=
  ∃ before, args = before ++ tail ∧ Spells table options before ∧ (options.map (·.1)).Nodup

lemma exists_gives (h : readOptions table .empty args ≠ .error .usage) :
    ∃ options tail, Gives table options args tail ∧ (Ends tail ∨ EndsInHelp tail) := by
  obtain ⟨options, before, tail, hargs, hspells, hfresh, htail⟩ := exists_spells h
  exact ⟨options, tail, ⟨before, hargs, hspells, fresh_empty.mp hfresh⟩, htail⟩

lemma Gives.readOptions (hplain : Plain table) (h : Gives table options args tail) :
    readOptions table .empty args = readOptions table (.ofList options) tail := by
  obtain ⟨before, rfl, hspells, hnodup⟩ := h
  exact readOptions_append hplain hspells (fresh_empty.mpr hnodup)

lemma Gives.nodup (h : Gives table options args tail) : (options.map (·.1)).Nodup := by
  obtain ⟨_, _, _, hnodup⟩ := h
  exact hnodup

lemma readOptions_eq_ok (hplain : Plain table) {m : Keyed String} : readOptions table .empty args = .ok m ↔
    ∃ options tail, Gives table options args tail ∧ Ends tail ∧ m = .ofList options := by
  constructor
  · intro h
    obtain ⟨options, tail, hgives, htail | htail⟩ := exists_gives (by rw [h]; nofun)
    · rw [hgives.readOptions hplain, readOptions_of_ends htail] at h
      exact ⟨options, tail, hgives, htail, (Except.ok.inj h).symm⟩
    · rw [hgives.readOptions hplain, readOptions_of_endsInHelp htail] at h
      cases h
  · rintro ⟨options, tail, hgives, htail, rfl⟩
    rw [hgives.readOptions hplain, readOptions_of_ends htail]

lemma readOptions_eq_information (hplain : Plain table) {text : String} :
    readOptions table .empty args = .error (.information text) ↔
      text = help ∧ ∃ options tail, Gives table options args tail ∧ EndsInHelp tail := by
  constructor
  · intro h
    obtain ⟨options, tail, hgives, htail | htail⟩ := exists_gives (by rw [h]; nofun)
    · rw [hgives.readOptions hplain, readOptions_of_ends htail] at h
      cases h
    · rw [hgives.readOptions hplain, readOptions_of_endsInHelp htail] at h
      cases h
      exact ⟨rfl, options, tail, hgives, htail⟩
  · rintro ⟨rfl, options, tail, hgives, htail⟩
    rw [hgives.readOptions hplain, readOptions_of_endsInHelp htail]

/-! ### Commands -/

def tables : List (String × OptionTable) :=
  [("validate", [("steps", .path)]),
    ("promote", [("steps", .path), ("project", .text), ("stage", .text), ("promotion", .text), ("state", .path),
      ("resume", .path), ("config", .path), ("timeout-secs", .seconds)]),
    ("check-health", [("criteria", .path), ("project", .text), ("stage", .text), ("timeout-secs", .seconds)])]

def verb : Command → String
  | .validate .. => "validate"
  | .promote .. => "promote"
  | .checkHealth .. => "check-health"

/-- The options that a command must have are there, and it takes the others as they are. A state clashes with a result
to resume from. -/
inductive Makes (options : List (String × String)) : Command → Prop
  | validate {steps : String} : Entries.get? "steps" options = some steps → Makes options (.validate ⟨steps⟩)
  | promote {steps project stage : String} : Entries.get? "steps" options = some steps →
      Entries.get? "project" options = some project → Entries.get? "stage" options = some stage →
        ¬ ((Entries.get? "state" options).isSome ∧ (Entries.get? "resume" options).isSome) →
          Makes options (.promote ⟨steps⟩ project stage (Entries.get? "promotion" options)
            ((Entries.get? "state" options).map (⟨·⟩)) ((Entries.get? "resume" options).map (⟨·⟩))
            ((Entries.get? "config" options).map (⟨·⟩)) ((Entries.get? "timeout-secs" options).bind seconds?))
  | checkHealth {criteria project stage : String} : Entries.get? "criteria" options = some criteria →
      Entries.get? "project" options = some project → Entries.get? "stage" options = some stage →
        Makes options (.checkHealth ⟨criteria⟩ project stage ((Entries.get? "timeout-secs" options).bind seconds?))

def Asks (c : Command) (args : List String) : Prop :=
  ∃ table options rest tail, args = verb c :: rest ∧ (verb c, table) ∈ tables ∧ Gives table options rest tail ∧
    Ends tail ∧ Makes options c

inductive AsksInformation : List String → Prop
  | help {flag : String} {rest : List String} : AsksHelp flag → AsksInformation (flag :: rest)
  | version {flag : String} {rest : List String} : flag = "--version" ∨ flag.startsWith "-V" = true →
      AsksInformation (flag :: rest)
  | manual : AsksInformation ["help"]
  | page {name : String} : name ∈ commandNames → AsksInformation ["help", name]
  | within {verb : String} {table : OptionTable} {options : List (String × String)} {rest tail : List String} :
      (verb, table) ∈ tables → Gives table options rest tail → EndsInHelp tail → AsksInformation (verb :: rest)

/-- Arguments that ask for nothing that there is. -/
def Unusable (args : List String) : Prop := (∀ c, ¬ Asks c args) ∧ ¬ AsksInformation args

lemma plain_of_mem {verb : String} (h : (verb, table) ∈ tables) : Plain table := by
  have hplain : ∀ e ∈ tables, Plain e.2 := by decide
  exact hplain _ h

lemma required_eq_ok : required given name = .ok value ↔ given.get? name = some value := by
  rw [required]
  cases given.get? name <;> simp

structure Crafts (name : String) (make : Keyed String → Except Refusal Command) : Prop where
  eq_ok : ∀ {options : List (String × String)} {c : Command}, (options.map (·.1)).Nodup →
    (make (.ofList options) = .ok c ↔ verb c = name ∧ Makes options c)
  ne_information : ∀ {given : Keyed String} {text : String}, make given ≠ .error (.information text)

lemma required_bind_ne {f : String → Except Refusal Command} {text : String}
    (h : ∀ value, f value ≠ .error (.information text)) :
    (required given name >>= f) ≠ .error (.information text) := by
  rw [required]
  cases given.get? name with
  | none => nofun
  | some value => exact h value

lemma pure_ne_error {refusal : Refusal} : (pure c : Except Refusal Command) ≠ .error refusal := nofun

lemma crafts_validate : ∃ make, Crafts "validate" make ∧
    ∀ args, readValidate args = readOptions [("steps", .path)] .empty args >>= make := by
  refine ⟨_, ⟨fun {options c} hnodup => ?_, required_bind_ne fun _ => pure_ne_error⟩, fun _ => rfl⟩
  simp only [bind_eq_ok, required_eq_ok, pure_eq_ok, Keyed.get?_ofList hnodup]
  constructor
  · rintro ⟨steps, hsteps, rfl⟩
    exact ⟨rfl, .validate hsteps⟩
  · rintro ⟨hverb, hmakes⟩
    cases hmakes with
    | validate hsteps => exact ⟨_, hsteps, rfl⟩
    | promote => simp [verb] at hverb
    | checkHealth => simp [verb] at hverb

lemma crafts_checkHealth : ∃ make, Crafts "check-health" make ∧ ∀ args, readCheckHealth args =
    readOptions [("criteria", .path), ("project", .text), ("stage", .text), ("timeout-secs", .seconds)] .empty args >>=
      make := by
  refine ⟨_, ⟨fun {options c} hnodup => ?_, ?_⟩, fun _ => rfl⟩
  · simp only [bind_eq_ok, required_eq_ok, pure_eq_ok, timeout?, Keyed.get?_ofList hnodup]
    constructor
    · rintro ⟨criteria, hcriteria, project, hproject, stage, hstage, rfl⟩
      exact ⟨rfl, .checkHealth hcriteria hproject hstage⟩
    · rintro ⟨hverb, hmakes⟩
      cases hmakes with
      | validate => simp [verb] at hverb
      | promote => simp [verb] at hverb
      | checkHealth hcriteria hproject hstage => exact ⟨_, hcriteria, _, hproject, _, hstage, rfl⟩
  · exact required_bind_ne fun _ => required_bind_ne fun _ => required_bind_ne fun _ => pure_ne_error

lemma crafts_promote : ∃ make, Crafts "promote" make ∧ ∀ args, readPromote args =
    readOptions [("steps", .path), ("project", .text), ("stage", .text), ("promotion", .text), ("state", .path),
      ("resume", .path), ("config", .path), ("timeout-secs", .seconds)] .empty args >>= make := by
  refine ⟨_, ⟨fun {options c} hnodup => ?_, ?_⟩, fun _ => rfl⟩
  · simp only [bind_eq_ok, required_eq_ok, pure_eq_ok, if_throw_eq_ok, timeout?, path?, Keyed.contains,
      Keyed.get?_ofList hnodup, Bool.and_eq_true]
    constructor
    · rintro ⟨hclash, steps, hsteps, project, hproject, stage, hstage, rfl⟩
      exact ⟨rfl, .promote hsteps hproject hstage hclash⟩
    · rintro ⟨hverb, hmakes⟩
      cases hmakes with
      | validate => simp [verb] at hverb
      | promote hsteps hproject hstage hclash => exact ⟨hclash, _, hsteps, _, hproject, _, hstage, rfl⟩
      | checkHealth => simp [verb] at hverb
  · dsimp only
    intro given text
    split
    · nofun
    · exact required_bind_ne fun _ => required_bind_ne fun _ => required_bind_ne fun _ => pure_ne_error

lemma exists_crafts (h : (name, table) ∈ tables) : ∃ make, Crafts name make ∧
    ∀ args, ofArguments (name :: args) = readOptions table .empty args >>= make := by
  simp only [tables, List.mem_cons, Prod.mk.injEq, List.not_mem_nil, or_false] at h
  obtain ⟨rfl, rfl⟩ | ⟨rfl, rfl⟩ | ⟨rfl, rfl⟩ := h
  · exact crafts_validate
  · exact crafts_promote
  · exact crafts_checkHealth

lemma ofArguments_eq_ok_of_mem (h : (name, table) ∈ tables) : ofArguments (name :: args) = .ok c ↔
    verb c = name ∧ ∃ options tail, Gives table options args tail ∧ Ends tail ∧ Makes options c := by
  obtain ⟨make, hmake, hread⟩ := exists_crafts h
  simp only [hread, bind_eq_ok, readOptions_eq_ok (plain_of_mem h)]
  constructor
  · rintro ⟨_, ⟨options, tail, hgives, htail, rfl⟩, hc⟩
    obtain ⟨hverb, hmakes⟩ := (hmake.eq_ok hgives.nodup).mp hc
    exact ⟨hverb, options, tail, hgives, htail, hmakes⟩
  · rintro ⟨hverb, options, tail, hgives, htail, hmakes⟩
    exact ⟨_, ⟨options, tail, hgives, htail, rfl⟩, (hmake.eq_ok hgives.nodup).mpr ⟨hverb, hmakes⟩⟩

lemma ofArguments_eq_information_of_mem (h : (name, table) ∈ tables) {text : String} :
    ofArguments (name :: args) = .error (.information text) ↔
      text = help ∧ ∃ options tail, Gives table options args tail ∧ EndsInHelp tail := by
  obtain ⟨make, hmake, hread⟩ := exists_crafts h
  rw [hread, bind_eq_error, ← readOptions_eq_information (plain_of_mem h)]
  exact or_iff_left fun ⟨_, _, hinforms⟩ => hmake.ne_information hinforms

lemma asks_of_mem (h : (name, table) ∈ tables) (hc : ofArguments (name :: args) = .ok c) : Asks c (name :: args) := by
  obtain ⟨rfl, options, tail, hgives, htail, hmakes⟩ := (ofArguments_eq_ok_of_mem h).mp hc
  exact ⟨table, options, args, tail, rfl, h, hgives, htail, hmakes⟩

lemma asksInformation_of_mem {text : String} (h : (name, table) ∈ tables)
    (htext : ofArguments (name :: args) = .error (.information text)) : AsksInformation (name :: args) := by
  obtain ⟨_, options, tail, hgives, htail⟩ := (ofArguments_eq_information_of_mem h).mp htext
  exact .within h hgives htail

lemma ofArguments_of_notMem (h : arg ∉ commandNames) : ofArguments (arg :: args) =
    if arg = "--help" ∨ arg.startsWith "-h" then .error (.information help)
    else if arg = "--version" ∨ arg.startsWith "-V" then .error (.information version)
    else .error .usage := by
  simp only [commandNames, List.mem_cons, List.not_mem_nil, or_false, not_or] at h
  rw [ofArguments] <;> grind

lemma notMem_commandNames {front : String} (hfront : front.startsWith "-" = true) (h : arg.startsWith front = true) :
    arg ∉ commandNames := by
  have hnames : ∀ name ∈ commandNames, name.startsWith "-" = false := by simp [commandNames]
  intro hmem
  rw [String.startsWith_string_iff] at hfront h
  have hdash : arg.startsWith "-" = true := String.startsWith_string_iff.mpr (hfront.trans h)
  rw [hnames arg hmem] at hdash
  cases hdash

lemma AsksHelp.notMem {flag : String} (h : AsksHelp flag) : flag ∉ commandNames := by
  obtain rfl | h := h
  · decide
  · exact notMem_commandNames (by simp) h

lemma isPage_iff : (args.isEmpty || args.length == 1 && args.all commandNames.contains) = true ↔
    args = [] ∨ ∃ name ∈ commandNames, args = [name] := by
  match args with
  | [] => simp
  | [name] => simp
  | _ :: _ :: _ => simp

/-! ### Arguments -/

theorem ofArguments_eq_ok : ofArguments args = .ok c ↔ Asks c args := by
  constructor
  · fun_cases ofArguments args with
    | case1 => exact asks_of_mem (.head _)
    | case2 => exact asks_of_mem (.tail _ (.head _))
    | case3 => exact asks_of_mem (.tail _ (.tail _ (.head _)))
    | _ => nofun
  · rintro ⟨table, options, rest, tail, rfl, htable, hgives, htail, hmakes⟩
    exact (ofArguments_eq_ok_of_mem htable).mpr ⟨rfl, options, tail, hgives, htail, hmakes⟩

theorem ofArguments_eq_information :
    (∃ text, ofArguments args = .error (.information text)) ↔ AsksInformation args := by
  constructor
  · rintro ⟨text, h⟩
    revert h
    fun_cases ofArguments args with
    | case1 => exact asksInformation_of_mem (.head _)
    | case2 => exact asksInformation_of_mem (.tail _ (.head _))
    | case3 => exact asksInformation_of_mem (.tail _ (.tail _ (.head _)))
    | case4 args hpage =>
      intro _
      obtain rfl | ⟨name, hname, rfl⟩ := isPage_iff.mp hpage
      · exact .manual
      · exact .page hname
    | case6 _ _ _ _ _ _ hflag => exact fun _ => .help hflag
    | case7 _ _ _ _ _ _ _ hflag => exact fun _ => .version hflag
    | _ => nofun
  · intro h
    cases h with
    | help hflag => exact ⟨help, (ofArguments_of_notMem hflag.notMem).trans (if_pos hflag)⟩
    | @version flag rest hflag =>
      have hname : flag ∉ commandNames := by
        obtain rfl | hflag := hflag
        · decide
        · exact notMem_commandNames (by simp) hflag
      rw [ofArguments_of_notMem hname]
      split
      · exact ⟨_, rfl⟩
      · exact ⟨_, rfl⟩
    | manual => exact ⟨_, rfl⟩
    | page hname => exact ⟨help, by rw [ofArguments, if_pos (isPage_iff.mpr (.inr ⟨_, hname, rfl⟩))]⟩
    | within htable hgives htail =>
      exact ⟨_, (ofArguments_eq_information_of_mem htable).mpr ⟨rfl, _, _, hgives, htail⟩⟩

lemma ofArguments_eq_usage : ofArguments args = .error .usage ↔ Unusable args := by
  rw [Unusable, ← ofArguments_eq_information]
  simp only [← ofArguments_eq_ok]
  rcases ofArguments args with (_ | text) | c <;> simp

end CommandLine
end Delivery
