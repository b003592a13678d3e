import Delivery.Json.Reader
import Mathlib.Tactic.Common

/-!
The grammar of JSON: which text spells which value, whoever reads it. A text nests within a number of brackets, and the
values within a bracket are those of one bracket less.
-/

namespace Delivery

def Draft.IsBlank (gap : List Char) : Prop := ∀ c ∈ gap, isGap c = true

namespace Grammar

open Draft (IsBlank)

/-! ### Strings -/

inductive CodeUnit : List Char → Nat → Prop
  | mk {a b c d : Char} {unit : Nat} : Draft.hexNumber? [a, b, c, d] = some unit →
    CodeUnit ['\\', 'u', a, b, c, d] unit

def High (unit : Nat) : Prop := 0xd800 ≤ unit ∧ unit ≤ 0xdbff

def Low (unit : Nat) : Prop := 0xdc00 ≤ unit ∧ unit ≤ 0xdfff

inductive Letter : List Char → Char → Prop
  | plain {c : Char} : ¬ c < ' ' → c ≠ '"' → c ≠ '\\' → Letter [c] c
  | escape {e c : Char} : Draft.escapeLetter? e = some c → Letter ['\\', e] c
  | unit {text : List Char} {unit : Nat} : CodeUnit text unit → ¬ High unit → ¬ Low unit →
    Letter text (Char.ofNat unit)
  | pair {first second : List Char} {high low : Nat} : CodeUnit first high → High high → CodeUnit second low →
    Low low → Letter (first ++ second) (Char.ofNat (0x10000 + (high - 0xd800) * 0x400 + (low - 0xdc00)))

inductive Letters : List Char → List Char → Prop
  | nil : Letters [] []
  | cons {text rest : List Char} {c : Char} {cs : List Char} : Letter text c → Letters rest cs →
    Letters (text ++ rest) (c :: cs)

inductive Quoted : List Char → String → Prop
  | mk {text cs : List Char} : Letters text cs → Quoted ('"' :: (text ++ ['"'])) (String.ofList cs)

/-! ### Numbers -/

inductive Digits : List Char → List Nat → Prop
  | mk {text : List Char} : text ≠ [] → (∀ c ∈ text, c.isDigit = true) → Digits text (text.map (·.toNat - '0'.toNat))

inductive Fraction : List Char → Option (List Nat) → Prop
  | none : Fraction [] none
  | some {text : List Char} {digits : List Nat} : Digits text digits → Fraction ('.' :: text) (some digits)

inductive Sign : List Char → Bool → Prop
  | none : Sign [] false
  | plus : Sign ['+'] false
  | minus : Sign ['-'] true

inductive Exponent : List Char → Option (Bool × List Nat) → Prop
  | none : Exponent [] none
  | some {mark : Char} {sign text : List Char} {below : Bool} {digits : List Nat} : mark = 'e' ∨ mark = 'E' →
    Sign sign below → Digits text digits → Exponent (mark :: (sign ++ text)) (some (below, digits))

/-- The text of a number behind its sign: no zero leads other digits. -/
inductive Numeral (negative : Bool) : List Char → Number.Numeral → Prop
  | mk {first second third : List Char} {whole : List Nat} {fraction : Option (List Nat)}
      {exponent : Option (Bool × List Nat)} : Digits first whole → ¬ (whole.head? = some 0 ∧ 1 < whole.length) →
    Fraction second fraction → Exponent third exponent →
    Numeral negative (first ++ (second ++ third)) ⟨negative, whole, fraction, exponent⟩

/-! ### Values -/

inductive Scalar : List Char → Json → Prop
  | null : Scalar "null".toList .null
  | true : Scalar "true".toList (.bool true)
  | false : Scalar "false".toList (.bool false)
  | positive {text : List Char} {numeral : Number.Numeral} {n : Number} : Numeral false text numeral →
    Number.ofNumeral numeral = some n → Scalar text (.number n)
  | negative {text : List Char} {numeral : Number.Numeral} {n : Number} : Numeral true text numeral →
    Number.ofNumeral numeral = some n → Scalar ('-' :: text) (.number n)
  | string {text : List Char} {s : String} : Quoted text s → Scalar text (.string s)

section

variable {α : Type} (Part : List Char → α → Prop)

inductive Padded : List Char → α → Prop
  | mk {before text after : List Char} {a : α} : IsBlank before → Part text a → IsBlank after →
    Padded (before ++ (text ++ after)) a

inductive Behind : List Char → List α → Prop
  | nil : Behind [] []
  | cons {text rest : List Char} {a : α} {as : List α} : Part text a → Behind rest as →
    Behind (',' :: (text ++ rest)) (a :: as)

inductive Separated : List Char → List α → Prop
  | nil {gap : List Char} : IsBlank gap → Separated gap []
  | cons {text rest : List Char} {a : α} {as : List α} : Part text a → Behind Part rest as →
    Separated (text ++ rest) (a :: as)

inductive Member : List Char → String × α → Prop
  | mk {name middle before text : List Char} {key : String} {a : α} : Quoted name key → IsBlank middle →
    IsBlank before → Part text a → Member (name ++ (middle ++ ':' :: (before ++ text))) (key, a)

end

section

variable {α β : Type} {Part : List Char → α → Prop} {Other : List Char → β → Prop} {R : α → β → Prop} {text : List Char}

/-! Whatever parts of one kind are as well, what is built from them is. -/

lemma Padded.trans {a : α} (h : Padded Part text a) (hpart : ∀ {text a}, Part text a → ∃ b, Other text b ∧ R a b) :
    ∃ b, Padded Other text b ∧ R a b := by
  obtain ⟨hbefore, htext, hafter⟩ := h
  obtain ⟨b, hb, hab⟩ := hpart htext
  exact ⟨b, .mk hbefore hb hafter, hab⟩

lemma Behind.trans {as : List α} (h : Behind Part text as)
    (hpart : ∀ {text a}, Part text a → ∃ b, Other text b ∧ R a b) :
    ∃ bs, Behind Other text bs ∧ List.Forall₂ R as bs := by
  induction h with
  | nil => exact ⟨[], .nil, .nil⟩
  | cons htext _ ih =>
    obtain ⟨b, hb, hab⟩ := hpart htext
    obtain ⟨bs, hbs, habs⟩ := ih
    exact ⟨b :: bs, .cons hb hbs, .cons hab habs⟩

lemma Separated.trans {as : List α} (h : Separated Part text as)
    (hpart : ∀ {text a}, Part text a → ∃ b, Other text b ∧ R a b) :
    ∃ bs, Separated Other text bs ∧ List.Forall₂ R as bs := by
  cases h with
  | nil hgap => exact ⟨[], .nil hgap, .nil⟩
  | cons htext hrest =>
    obtain ⟨b, hb, hab⟩ := hpart htext
    obtain ⟨bs, hbs, habs⟩ := hrest.trans hpart
    exact ⟨b :: bs, .cons hb hbs, .cons hab habs⟩

lemma Member.trans {e : String × α} (h : Member Part text e)
    (hpart : ∀ {text a}, Part text a → ∃ b, Other text b ∧ R a b) :
    ∃ f, Member Other text f ∧ e.1 = f.1 ∧ R e.2 f.2 := by
  obtain ⟨hname, hmiddle, hbefore, htext⟩ := h
  obtain ⟨b, hb, hab⟩ := hpart htext
  exact ⟨(_, b), .mk hname hmiddle hbefore hb, rfl, hab⟩

end

/-- The text of an array or an object. Of the members with one key the last one stands. -/
inductive Bracketed (Part : List Char → Json → Prop) : List Char → Json → Prop
  | array {text : List Char} {items : List Json} : Separated (Padded Part) text items →
    Bracketed Part ('[' :: (text ++ [']'])) (.array items)
  | object {text : List Char} {members : List (String × Json)} : Separated (Padded (Member Part)) text members →
    Bracketed Part ('\x7b' :: (text ++ ['\x7d'])) (.object (Keyed.ofList members).entries)

def Value : Nat → List Char → Json → Prop
  | 0 => Scalar
  | n + 1 => fun text j => Scalar text j ∨ Bracketed (Value n) text j

end Grammar

/-- The text is JSON of at most 127 nested brackets and spells the value. -/
def Json.Spells (text : String) (j : Json) : Prop := Grammar.Padded (Grammar.Value 127) text.toList j

end Delivery
