import Delivery.Proofs.Json.Scanning
import Delivery.Proofs.Json.Values

/-!
A value that is read from a text is one that the text spells. Where reading breaks off the draft has no value, so what
was read up to there need not be in the grammar.
-/

namespace Delivery
namespace Draft

open Grammar (Quoted Scalar Padded Behind Separated Member Bracketed Value)

variable {text gap : List Char} {d : Draft} {left : Option (List Char)} {j : Json} {n fuel : Nat}

/-! ### Values without brackets -/

lemma IsBroken.toJson {origin : Origin} (h : d.IsBroken) : d.toJson origin ≠ .ok j := by
  obtain ⟨_, _, _, rfl⟩ := h
  exact nofun

lemma readLiteral_eq {value : Draft} {word : List Char} (h : readLiteral value word text = (d, left)) :
    d.IsBroken ∨ d = value ∧ ∃ after, left = some after ∧ text = word ++ after := by
  induction word generalizing text with
  | nil =>
    cases h
    exact Or.inr ⟨rfl, text, rfl, rfl⟩
  | cons w word ih =>
    cases text with
    | nil =>
      cases h
      exact Or.inl ⟨_, _, _, rfl⟩
    | cons c text =>
      rw [readLiteral] at h
      split at h
      · next hc =>
        obtain hbroken | ⟨hd, after, hleft, htext⟩ := ih h
        · exact Or.inl hbroken
        · exact Or.inr ⟨hd, after, hleft, by rw [hc, htext, List.cons_append]⟩
      · cases h
        exact Or.inl ⟨_, _, _, rfl⟩

/-- The text begins with a value of the grammar, behind a gap, and reading has stopped behind it. -/
def Gives (Part : List Char → Json → Prop) (text : List Char) (left : Option (List Char)) (j : Json) : Prop :=
  ∃ gap body rest, left = some rest ∧ text = gap ++ (body ++ rest) ∧ IsBlank gap ∧ Part body j

lemma Gives.mono {P Q : List Char → Json → Prop} (h : Gives P text left j) (hpart : ∀ body, P body j → Q body j) :
    Gives Q text left j := by
  obtain ⟨gap, body, rest, hleft, htext, hgap, hbody⟩ := h
  exact ⟨gap, body, rest, hleft, htext, hgap, hpart body hbody⟩

lemma scalar_of_readLiteral {value : Draft} {w : Char} {word : List Char} {origin : Origin}
    (h : readLiteral value word text = (d, left)) (hvalue : ∀ {j}, value.toJson origin = .ok j → Scalar (w :: word) j)
    (hj : d.toJson origin = .ok j) : Gives Scalar (w :: text) left j := by
  obtain hbroken | ⟨rfl, after, rfl, rfl⟩ := readLiteral_eq h
  · exact absurd hj hbroken.toJson
  · exact ⟨[], w :: word, after, rfl, rfl, isBlank_nil, hvalue hj⟩

lemma scalar_of_readNumber {negative : Bool} {origin : Origin} (sign : List Char)
    (h : readNumber negative text = (d, left))
    (hnumber : ∀ {body numeral n}, Grammar.Numeral negative body numeral → Number.ofNumeral numeral = some n →
      Scalar (sign ++ body) (.number n))
    (hj : d.toJson origin = .ok j) : Gives Scalar (sign ++ text) left j := by
  obtain hbroken | ⟨numeral, body, after, rfl, rfl, rfl, hbody⟩ := readNumber_eq h
  · exact absurd hj hbroken.toJson
  · cases hvalue : Number.ofNumeral numeral with
    | none =>
      rw [hvalue] at hj
      cases hj
    | some n =>
      rw [hvalue] at hj
      cases hj
      exact ⟨[], sign ++ body, after, rfl, (List.append_assoc _ _ _).symm, isBlank_nil, hnumber hbody hvalue⟩

lemma scalar_of_readValue {c : Char} {origin : Origin} (hgap : isGap c = false) (hitems : c ≠ '[')
    (hmembers : c ≠ '\x7b') (h : readValue (fuel + 1) (c :: text) = (d, left)) (hj : d.toJson origin = .ok j) :
    Gives Scalar (c :: text) left j := by
  rw [readValue, skipGap_cons hgap] at h
  split at h
  · next heq => cases heq
  · next heq =>
    cases heq
    exact absurd rfl hitems
  · next heq =>
    cases heq
    exact absurd rfl hmembers
  · next heq =>
    cases heq
    split at h
    · next value after hscan =>
      cases h
      cases value with
      | none => cases hj
      | some s =>
        cases hj
        obtain ⟨body, rfl, hbody⟩ := quoted_of_scanString hscan
        exact ⟨[], '"' :: body, after, rfl, rfl, isBlank_nil, .string hbody⟩
    · next hscan =>
      cases h
      exact absurd hj (scanString_broken hscan).toJson
  · next heq =>
    cases heq
    exact scalar_of_readLiteral h (fun h => by cases h; exact .null) hj
  · next heq =>
    cases heq
    exact scalar_of_readLiteral h (fun h => by cases h; exact .true) hj
  · next heq =>
    cases heq
    exact scalar_of_readLiteral h (fun h => by cases h; exact .false) hj
  · next heq =>
    cases heq
    exact scalar_of_readNumber ['-'] h .negative hj
  · next heq =>
    cases heq
    split at h
    · exact scalar_of_readNumber [] h .positive hj
    · cases h
      cases hj

/-! ### Brackets -/

lemma enter_text {inner : Origin} (h : (Origin.text (n + 1)).enter = .ok inner) :
    ∃ m, n = m + 1 ∧ inner = .text (m + 1) := by
  rw [Origin.enter] at h
  split at h
  · cases h
  · cases h
    cases n with
    | zero => contradiction
    | succ m => exact ⟨m, rfl, rfl⟩

lemma value_of_scalar (h : Gives Scalar text left j) : Gives (Value n) text left j :=
  h.mono fun _ hbody => match n with
    | 0 => hbody
    | _ + 1 => Or.inl hbody

inductive Inside {α : Type} (Part : List Char → α → Prop) : Bool → List Char → List α → Prop
  | first {text : List Char} {as : List α} : Separated Part text as → Inside Part true text as
  | more {gap text : List Char} {as : List α} : IsBlank gap → Behind Part text as → Inside Part false (gap ++ text) as

/-! What is read within so many steps is spelled by the text: a value, an item or a member with those behind it, and
what stands between brackets. A member is read from behind the opening quote of its key. -/

def ValueSound (fuel : Nat) : Prop :=
  ∀ {n : Nat} {text : List Char} {d : Draft} {left : Option (List Char)} {j : Json},
    readValue fuel text = (d, left) → d.toJson (.text (n + 1)) = .ok j → Gives (Value n) text left j

def readItem (fuel : Nat) (text : List Char) : List Draft × Close × Option (List Char) :=
  match readValue fuel text with
  | (item, none) => ([item], .closed, none)
  | (item, some rest) =>
    let (items, close, rest) := readItems fuel false rest
    (item :: items, close, rest)

def ItemSound (fuel : Nat) : Prop :=
  ∀ {n : Nat} {text : List Char} {ds : List Draft} {left : Option (List Char)} {js : List Json},
    readItem fuel text = (ds, .closed, left) → toItems (.text (n + 1)) ds = .ok js →
    ∃ j more body tail rest, js = j :: more ∧ left = some rest ∧ text = body ++ (tail ++ ']' :: rest) ∧
      (∀ gap, IsBlank gap → Padded (Value n) (gap ++ body) j) ∧ Behind (Padded (Value n)) tail more

def ItemsSound (fuel : Nat) : Prop :=
  ∀ {n : Nat} {first : Bool} {text : List Char} {ds : List Draft} {left : Option (List Char)} {js : List Json},
    readItems fuel first text = (ds, .closed, left) → toItems (.text (n + 1)) ds = .ok js →
    ∃ body rest, left = some rest ∧ text = body ++ ']' :: rest ∧ Inside (Padded (Value n)) first body js

def MembersSound (fuel : Nat) : Prop :=
  ∀ {n : Nat} {first : Bool} {text : List Char} {ds : List (Option String × Draft)} {left : Option (List Char)}
    {ms : List (String × Json)}, readMembers fuel first text = (ds, .closed, left) →
    toMembers (.text (n + 1)) ds = .ok ms →
    ∃ body rest, left = some rest ∧ text = body ++ '\x7d' :: rest ∧ Inside (Padded (Member (Value n))) first body ms

def MemberSound (fuel : Nat) : Prop :=
  ∀ {n : Nat} {text : List Char} {ds : List (Option String × Draft)} {left : Option (List Char)}
    {ms : List (String × Json)}, readMember fuel text = (ds, .closed, left) → toMembers (.text (n + 1)) ds = .ok ms →
    ∃ e more body tail rest, ms = e :: more ∧ left = some rest ∧ text = body ++ (tail ++ '\x7d' :: rest) ∧
      (∀ gap, IsBlank gap → Padded (Member (Value n)) (gap ++ '"' :: body) e) ∧
        Behind (Padded (Member (Value n))) tail more

lemma readValue_gap (h : IsBlank gap) (fuel : Nat) (text : List Char) :
    readValue fuel (gap ++ text) = readValue fuel text := by
  cases fuel with
  | zero => rfl
  | succ fuel => rw [readValue, readValue, skipGap_append h]

lemma readValue_items {body : List Char} : readValue (fuel + 1) ('[' :: body) =
    (.array (readItems fuel true body).1 (readItems fuel true body).2.1, (readItems fuel true body).2.2) := by
  rw [readValue]
  rfl

lemma readValue_members {body : List Char} : readValue (fuel + 1) ('\x7b' :: body) =
    (.object (readMembers fuel true body).1 (readMembers fuel true body).2.1, (readMembers fuel true body).2.2) := by
  rw [readValue]
  rfl

lemma Gives.behind_gap {P : List Char → Json → Prop} (hgap : IsBlank gap) (h : Gives P text left j) :
    Gives P (gap ++ text) left j := by
  obtain ⟨before, body, rest, hleft, rfl, hbefore, hbody⟩ := h
  exact ⟨gap ++ before, body, rest, hleft, (List.append_assoc _ _ _).symm,
    List.forall_mem_append.mpr ⟨hgap, hbefore⟩, hbody⟩

lemma ValueSound.step (hitems : ItemsSound fuel) (hmembers : MembersSound fuel) : ValueSound (fuel + 1) := by
  intro n text d left j h hj
  obtain ⟨gap, hgap, htext, hhead⟩ := skipGap_split text
  rw [htext, readValue_gap hgap] at h
  rw [htext]
  refine .behind_gap hgap ?_
  generalize skipGap text = text at h hhead ⊢
  cases text with
  | nil =>
    cases h
    cases hj
  | cons c text =>
    by_cases hopen : c = '['
    · subst hopen
      rw [readValue_items] at h
      cases h
      obtain ⟨inner, js, henter, hjs, hclose, rfl⟩ := toJson_array.mp hj
      -- there is a bracket left to enter
      obtain ⟨m, rfl, rfl⟩ := enter_text henter
      obtain ⟨body, rest, hleft, rfl, hbody⟩ := hitems (Prod.ext rfl (Prod.ext hclose rfl)) hjs
      cases hbody with
      | first hbody =>
        exact ⟨[], '[' :: (body ++ [']']), rest, hleft, by simp, isBlank_nil, Or.inr (.array hbody)⟩
    by_cases hbrace : c = '\x7b'
    · subst hbrace
      rw [readValue_members] at h
      cases h
      obtain ⟨inner, ms, henter, hms, hclose, rfl⟩ := toJson_object.mp hj
      obtain ⟨m, rfl, rfl⟩ := enter_text henter
      obtain ⟨body, rest, hleft, rfl, hbody⟩ := hmembers (Prod.ext rfl (Prod.ext hclose rfl)) hms
      cases hbody with
      | first hbody =>
        exact ⟨[], '\x7b' :: (body ++ ['\x7d']), rest, hleft, by simp, isBlank_nil, Or.inr (.object hbody)⟩
    · exact value_of_scalar (scalar_of_readValue (hhead c rfl) hopen hbrace h hj)

variable {α : Type} {Part : List Char → α → Prop}

lemma Inside.nil (first : Bool) (h : IsBlank gap) : Inside Part first gap [] := by
  cases first with
  | true => exact .first (.nil h)
  | false =>
    have hmore : Inside Part false (gap ++ []) [] := .more h .nil
    rwa [List.append_nil] at hmore

lemma Inside.behind {as : List α} (h : Inside Part false text as) :
    ∃ gap tail, text = gap ++ tail ∧ IsBlank gap ∧ Behind Part tail as := by
  cases h with
  | more hgap hbehind => exact ⟨_, _, rfl, hgap, hbehind⟩

lemma padded_of_gives {after : List Char} {a : Json} {P : List Char → Json → Prop} (h : Gives P text (some after) a)
    {tail : List Char} (hgap : IsBlank gap) (hafter : after = gap ++ tail) :
    ∃ body, text = body ++ tail ∧ ∀ gap, IsBlank gap → Padded P (gap ++ body) a := by
  obtain ⟨before, body, rest, hleft, rfl, hbefore, hbody⟩ := h
  cases hleft
  refine ⟨before ++ (body ++ gap), by simp only [hafter, List.append_assoc], fun outer houter => ?_⟩
  rw [← List.append_assoc]
  exact .mk (List.forall_mem_append.mpr ⟨houter, hbefore⟩) hbody hgap

lemma ItemSound.step (hvalue : ValueSound fuel) (hitems : ItemsSound fuel) : ItemSound fuel := by
  intro n text ds left js h hjs
  rw [readItem] at h
  split at h
  · next d hread =>
    -- an item in which reading breaks off has no value
    cases h
    obtain ⟨j, _, hj, _⟩ := toItems_cons.mp hjs
    obtain ⟨_, _, _, hleft, _⟩ := hvalue hread hj
    cases hleft
  · next d after hread =>
    obtain ⟨items, close, more, hmore⟩ : ∃ items close more, readItems fuel false after = (items, close, more) :=
      ⟨_, _, _, rfl⟩
    rw [hmore] at h
    cases h
    obtain ⟨j, js, hj, hrest, rfl⟩ := toItems_cons.mp hjs
    obtain ⟨_, rest, hleft, hafter, hinside⟩ := hitems hmore hrest
    obtain ⟨gap, tail, rfl, hgap, htail⟩ := hinside.behind
    obtain ⟨body, rfl, hbody⟩ := padded_of_gives (hvalue hread hj) hgap (hafter.trans (List.append_assoc _ _ _))
    exact ⟨j, js, body, tail, rest, rfl, hleft, rfl, hbody, htail⟩

lemma readItems_succ (fuel : Nat) (first : Bool) (text : List Char) : readItems (fuel + 1) first text =
    match skipGap text with
    | [] => ([], .cut .truncated, none)
    | ']' :: rest => ([], .closed, some rest)
    | c :: rest =>
      if !first && c != ',' then ([], .cut (.malformed .garbled), none)
      else readItem fuel (if first then c :: rest else rest) := by
  rw [readItems]
  rfl

lemma ItemsSound.step (hitem : ItemSound fuel) : ItemsSound (fuel + 1) := by
  intro n first text ds left js h hjs
  obtain ⟨gap, hgap, htext, hhead⟩ := skipGap_split text
  rw [readItems_succ] at h
  split at h
  · cases h
  · next hskip =>
    cases h
    cases hjs
    exact ⟨gap, _, rfl, hskip ▸ htext, .nil first hgap⟩
  · next c rest _ hskip =>
    rw [hskip] at htext
    split at h
    · cases h
    next hgo =>
    obtain ⟨j, more, body, tail, after, rfl, rfl, hrest, hpart, htail⟩ := hitem h hjs
    cases first with
    | true =>
      have hbody : c :: rest = body ++ (tail ++ ']' :: after) := hrest
      refine ⟨gap ++ body ++ tail, after, rfl, ?_, .first (.cons (hpart gap hgap) htail)⟩
      simp only [htext, hbody, List.append_assoc]
    | false =>
      obtain rfl : c = ',' := by simpa using hgo
      obtain rfl : rest = body ++ (tail ++ ']' :: after) := hrest
      refine ⟨gap ++ ',' :: (body ++ tail), after, rfl, ?_, .more hgap (.cons (hpart [] isBlank_nil) htail)⟩
      simp only [htext, List.append_assoc, List.cons_append]

lemma MembersSound.step (hmember : MemberSound fuel) : MembersSound (fuel + 1) := by
  intro n first text ds left ms h hms
  obtain ⟨gap, hgap, htext, hhead⟩ := skipGap_split text
  rw [readMembers] at h
  split at h
  · cases h
  · next hskip =>
    cases h
    cases hms
    exact ⟨gap, _, rfl, hskip ▸ htext, .nil first hgap⟩
  · next c rest _ hskip =>
    rw [hskip] at htext
    cases first with
    | true =>
      rw [if_pos rfl] at h
      split at h
      · obtain ⟨e, more, body, tail, after, rfl, rfl, rfl, hpart, htail⟩ := hmember h hms
        refine ⟨(gap ++ '"' :: body) ++ tail, after, rfl, ?_, .first (.cons (hpart gap hgap) htail)⟩
        simp only [htext, List.append_assoc, List.cons_append]
      · cases h
    | false =>
      rw [if_neg Bool.false_ne_true] at h
      split at h
      · next hcomma =>
        obtain ⟨inner, hinner, hrest, _⟩ := skipGap_split rest
        split at h
        · cases h
        · next hquote =>
          rw [hquote] at hrest
          obtain ⟨e, more, body, tail, after, rfl, rfl, rfl, hpart, htail⟩ := hmember h hms
          refine ⟨gap ++ ',' :: ((inner ++ '"' :: body) ++ tail), after, rfl, ?_,
            .more hgap (.cons (hpart inner hinner) htail)⟩
          rw [htext, hcomma, hrest]
          simp only [List.append_assoc, List.cons_append]
        · cases h
      · cases h

lemma exists_badKey (value : Draft) : ∃ d, badKey value = (none, d) := by
  cases value <;> exact ⟨_, rfl⟩

lemma gives_of_colon {after : List Char} (hvalue : ValueSound fuel)
    (h : (match skipGap after with
      | ':' :: rest => readValue fuel rest
      | [] => (endOfText, none)
      | _ => (brokenBy (.malformed .garbled), none)) = (d, left))
    (hj : d.toJson (.text (n + 1)) = .ok j) :
    ∃ gap rest, after = gap ++ ':' :: rest ∧ IsBlank gap ∧ Gives (Value n) rest left j := by
  obtain ⟨gap, hgap, hafter, _⟩ := skipGap_split after
  split at h
  · next rest hcolon =>
    rw [hcolon] at hafter
    exact ⟨gap, rest, hafter, hgap, hvalue h hj⟩
  · cases h
    cases hj
  · cases h
    cases hj

lemma MemberSound.step (hvalue : ValueSound fuel) (hmembers : MembersSound fuel) : MemberSound (fuel + 1) := by
  intro n text ds left ms h hms
  rw [readMember] at h
  split at h
  · cases h
    cases hms
  next key after hscan =>
  split at h
  next value more hread =>
  cases key with
  | none =>
    obtain ⟨d, hd⟩ := exists_badKey value
    cases more <;> simp only [hd, Prod.mk.injEq] at h <;> obtain ⟨rfl, _⟩ := h <;> cases hms
  | some key =>
    obtain ⟨name, rfl, hname⟩ := quoted_of_scanString hscan
    cases more with
    | none =>
      cases h
      obtain ⟨_, j, _, _, hj, _⟩ := toMembers_cons.mp hms
      obtain ⟨_, _, _, _, _, _, _, hleft, _⟩ := gives_of_colon hvalue hread hj
      cases hleft
    | some behind =>
      obtain ⟨members, close, last, hmore⟩ :
        ∃ members close last, readMembers fuel false behind = (members, close, last) := ⟨_, _, _, rfl⟩
      simp only [hmore] at h
      cases h
      obtain ⟨_, j, ms, hkey, hj, hrest, rfl⟩ := toMembers_cons.mp hms
      cases hkey
      obtain ⟨_, rest, hleft, hbehind, hinside⟩ := hmembers hmore hrest
      obtain ⟨gap, tail, rfl, hgap, htail⟩ := hinside.behind
      obtain ⟨middle, _, rfl, hmiddle, hgives⟩ := gives_of_colon hvalue hread hj
      obtain ⟨lead, body, _, hsome, rfl, hlead, hbody⟩ := hgives
      cases hsome
      refine ⟨(key, j), ms, name ++ (middle ++ ':' :: (lead ++ (body ++ gap))), tail, rest, rfl, hleft, ?_, ?_, htail⟩
      · simp only [hbehind, List.append_assoc, List.cons_append]
      · intro before hbefore
        have hmember : Padded (Member (Value n)) _ (key, j) := .mk hbefore (.mk hname hmiddle hlead hbody) hgap
        simpa using hmember

theorem sound (fuel : Nat) : ValueSound fuel ∧ ItemsSound fuel ∧ MembersSound fuel ∧ MemberSound fuel := by
  induction fuel with
  | zero =>
    refine ⟨?_, ?_, ?_, ?_⟩
    · intro n text d left j h hj
      cases h
      cases hj
    · intro n first text ds left js h
      cases h
    · intro n first text ds left ms h
      cases h
    · intro n text ds left ms h
      cases h
  | succ fuel ih =>
    obtain ⟨hvalue, hitems, hmembers, hmember⟩ := ih
    exact ⟨ValueSound.step hitems hmembers, ItemsSound.step (ItemSound.step hvalue hitems), MembersSound.step hmember,
      MemberSound.step hvalue hmembers⟩

end Draft

theorem Document.spells {text : String} {j : Json} (h : (ofText text).root.toJson .start = .ok j)
    (hended : (ofText text).ended = true) : j.Spells text := by
  obtain ⟨d, left, hread⟩ : ∃ d left, Draft.readValue (3 * text.toList.length + 3) text.toList = (d, left) :=
    ⟨_, _, rfl⟩
  cases left with
  | none =>
    simp only [ofText, hread] at h
    obtain ⟨_, _, _, hleft, _⟩ := (Draft.sound _).1 hread h
    cases hleft
  | some rest =>
    simp only [ofText, hread] at h hended
    obtain ⟨gap, hgap, hrest, _⟩ := Draft.skipGap_split rest
    rw [List.isEmpty_iff.mp hended] at hrest
    obtain ⟨body, htext, hbody⟩ := Draft.padded_of_gives ((Draft.sound _).1 hread h) hgap hrest
    have hwhole := hbody [] Draft.isBlank_nil
    rwa [List.nil_append, ← List.append_nil body, ← htext] at hwhole

end Delivery
