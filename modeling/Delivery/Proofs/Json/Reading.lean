import Delivery.Json.Codec
import Delivery.Proofs.Json.Derivation

/-!
A text of the grammar is read as the value that it spells, and no other text is read. As it is printed a value is
in the grammar, as far as its numbers read back.
-/

namespace Delivery

lemma toList_pushn (s : String) (c : Char) (n : Nat) :
    (s.pushn c n).toList = s.toList ++ List.replicate n c := by
  induction n with
  | zero => simp [String.pushn, Nat.repeat]
  | succ n ih =>
    simp only [String.pushn, Nat.repeat] at ih ⊢
    simp [ih, List.replicate_succ']

lemma toList_toString (n : Nat) : (toString n).toList = Nat.toDigits 10 n := Nat.toList_repr

namespace Number

def Spells (text : String) : Prop := ∀ c ∈ text.toList, c.isDigit = true ∨ c ∈ ['-', '+', '.', 'e']

instance (text : String) : Decidable (Spells text) := List.decidableBAll _ text.toList

namespace Spells

variable {s t : String}

lemma append (hs : Spells s) (ht : Spells t) : Spells (s ++ t) := by
  intro c hc
  rw [String.toList_append, List.mem_append] at hc
  exact hc.elim (hs c) (ht c)

lemma take (hs : Spells s) (n : Nat) : Spells (s.take n).toString := by
  intro c hc
  exact hs c (List.mem_of_mem_take (by simpa using hc))

lemma drop (hs : Spells s) (n : Nat) : Spells (s.drop n).toString := by
  intro c hc
  exact hs c (List.mem_of_mem_drop (by simpa using hc))

lemma digits (n : Nat) : Spells (toString n) := by
  intro c hc
  rw [toList_toString] at hc
  exact Or.inl (Nat.isDigit_of_mem_toDigits (by decide) (by decide) hc)

lemma zeros (n : Nat) : Spells ("".pushn '0' n) := by
  intro c hc
  rw [toList_pushn] at hc
  obtain rfl := List.eq_of_mem_replicate hc
  decide

lemma ite {p : Prop} [Decidable p] (hs : Spells s) (ht : Spells t) : Spells (if p then s else t) := by
  split
  · exact hs
  · exact ht

end Spells

lemma spells_magnitude (d : Decimal) : Spells (Layout.json.magnitude d) := by
  simp only [Layout.magnitude]
  have hd := Spells.digits d.digits
  split
  · split
    · exact (hd.append (.zeros _)).append (by decide)
    · split
      · exact ((hd.take _).append (by decide)).append (hd.drop _)
      · exact (Spells.append (by decide) (.zeros _)).append hd
  · refine ((Spells.append (.ite hd ?_) (by decide)).append (.ite (by decide) (by decide))).append (.digits _)
    exact ((hd.take _).append (by decide)).append (hd.drop _)

lemma spells_render (n : Number) : Spells n.render := by
  cases n with
  | integer n =>
    rw [render, Int.toString_eq_repr, Int.repr_eq_if]
    exact .ite (.digits _) (.append (by decide) (.digits _))
  | real x =>
    exact .append (.ite (by decide) (by decide)) (.ite (by decide) (spells_magnitude _))

/-- The number's text reads as the number. -/
def ReadsBack (n : Number) : Prop := Codec.json.ofText n.render = .ok (.number n)

lemma readsBack_iff {n : Number} : n.ReadsBack ↔
    (match Codec.json.ofText n.render with
      | .ok (.number m) => decide (m = n)
      | _ => false) = true := by
  rw [ReadsBack]
  split <;> simp_all

instance (n : Number) : Decidable n.ReadsBack := decidable_of_iff _ readsBack_iff.symm

end Number

namespace Draft

open Grammar (Scalar Padded Behind Separated Member Bracketed Value)

variable {text part tail gap rest : List Char} {d : Draft} {ds : List Draft} {left : Option (List Char)} {j : Json}
  {fuel : Nat}

/-! ### Texts of values -/

/-- The text reads as the draft, whatever follows, and begins with the value. -/
structure Reads (text : List Char) (d : Draft) : Prop where
  head : ∃ c body, text = c :: body ∧ isGap c = false ∧ c ≠ ']'
  value : ∀ fuel rest, text.length < fuel → Stops rest → readValue fuel (text ++ rest) = (d, some rest)

lemma reads_cons {c : Char} {body : List Char} (hgap : isGap c = false) (hclose : c ≠ ']')
    (h : ∀ fuel rest, Stops rest → readValue (fuel + 1) (c :: (body ++ rest)) = (d, some rest)) :
    Reads (c :: body) d where
  head := ⟨c, body, rfl, hgap, hclose⟩
  value
    | 0, _, hfuel, _ => absurd hfuel (Nat.not_lt_zero _)
    | fuel + 1, rest, _, hr => h fuel rest hr

lemma readValue_digit {c : Char} (h : c.isDigit = true) (fuel : Nat) (rest : List Char) :
    readValue (fuel + 1) (c :: rest) = readNumber false (c :: rest) := by
  rw [readValue, skipGap_cons (not_isGap_of_isDigit h)]
  split
  all_goals
    rename_i heq
    cases heq
  case h_9.refl => exact if_pos h
  all_goals exact absurd h (by decide)

lemma exists_digit_of_numeral {negative : Bool} {numeral : Number.Numeral}
    (h : Grammar.Numeral negative text numeral) : ∃ c body, text = c :: body ∧ c.isDigit = true := by
  obtain ⟨⟨hne, hdigits⟩, _, _, _⟩ := h
  obtain ⟨c, first, rfl⟩ := List.exists_cons_of_ne_nil hne
  exact ⟨c, _, rfl, hdigits c List.mem_cons_self⟩

theorem reads_scalar (h : Scalar text j) : Reads text (ofJson j) := by
  cases h with
  | null => exact reads_cons (by decide) (by decide) fun _ _ _ => rfl
  | true => exact reads_cons (by decide) (by decide) fun _ _ _ => rfl
  | false => exact reads_cons (by decide) (by decide) fun _ _ _ => rfl
  | positive hnumeral hvalue =>
    obtain ⟨c, body, rfl, hc⟩ := exists_digit_of_numeral hnumeral
    refine reads_cons (not_isGap_of_isDigit hc) (by rintro rfl; cases hc) fun fuel rest hr => ?_
    rw [readValue_digit hc, ← List.cons_append, readNumber_numeral hnumeral hr, hvalue]
    rfl
  | negative hnumeral hvalue =>
    refine reads_cons (by decide) (by decide) fun fuel rest hr => ?_
    have hminus : ∀ text, readValue (fuel + 1) ('-' :: text) = readNumber true text := fun text => by
      rw [readValue]
      rfl
    rw [hminus, readNumber_numeral hnumeral hr, hvalue]
    rfl
  | string hquoted =>
    obtain ⟨body, rfl, hscan⟩ := scanString_quoted hquoted
    refine reads_cons (by decide) (by decide) fun fuel rest hr => ?_
    rw [readValue, skipGap_cons (by decide)]
    simp only [hscan]
    rfl

/-! ### Arrays -/

lemma stops_behind {α : Type} {Part : List Char → α → Prop} {as : List α} (h : Behind Part text as)
    (hr : Stops rest) : Stops (text ++ rest) := by
  cases h with
  | nil => exact hr
  | cons _ _ => exact stops_cons (by decide) (by decide) (by decide) (by decide)

lemma readItems_gap (h : IsBlank gap) (fuel : Nat) (first : Bool) (text : List Char) :
    readItems fuel first (gap ++ text) = readItems fuel first text := by
  cases fuel with
  | zero => rfl
  | succ fuel => rw [readItems, readItems, skipGap_append h]

lemma readItems_first {c : Char} (hgap : isGap c = false) (hclose : c ≠ ']') (fuel : Nat) (text : List Char) :
    readItems (fuel + 1) true (c :: text) = readItem fuel (c :: text) := by
  rw [readItems_succ, skipGap_cons hgap]
  split
  · next heq => cases heq
  · next heq =>
    cases heq
    exact absurd rfl hclose
  · next heq =>
    cases heq
    rfl

lemma readItem_gap (h : IsBlank gap) (fuel : Nat) (text : List Char) :
    readItem fuel (gap ++ text) = readItem fuel text := by
  rw [readItem, readItem, readValue_gap h]

lemma stops_bracket (rest : List Char) : Stops (']' :: rest) :=
  stops_cons (by decide) (by decide) (by decide) (by decide)

lemma readItem_part (h : Reads part d) (hgap : IsBlank gap) (hfuel : part.length < fuel) (hstop : Stops tail)
    (hmore : readItems fuel false tail = (ds, .closed, left)) :
    readItem fuel (part ++ (gap ++ tail)) = (d :: ds, .closed, left) := by
  rw [readItem, h.value fuel _ hfuel (stops_append hgap hstop)]
  simp only [readItems_gap hgap, hmore]

lemma readItems_behind (h : Behind (Padded Reads) text ds) (hfuel : text.length < fuel) (rest : List Char) :
    readItems fuel false (text ++ ']' :: rest) = (ds, .closed, some rest) := by
  induction h generalizing fuel with
  | nil =>
    obtain ⟨fuel, rfl⟩ := Nat.exists_eq_add_one_of_ne_zero (Nat.ne_zero_of_lt hfuel)
    rw [readItems]
    rfl
  | cons hpart hmore ih =>
    obtain ⟨hbefore, hbody, hafter⟩ := hpart
    obtain ⟨fuel, rfl⟩ := Nat.exists_eq_add_one_of_ne_zero (Nat.ne_zero_of_lt hfuel)
    have hcomma : ∀ text, readItems (fuel + 1) false (',' :: text) = readItem fuel text := fun text => by
      rw [readItems_succ]
      rfl
    simp only [List.length_cons, List.length_append] at hfuel
    simp only [List.cons_append, List.append_assoc]
    rw [hcomma, readItem_gap hbefore]
    exact readItem_part hbody hafter (by omega) (stops_behind hmore (stops_bracket rest)) (ih (by omega))

lemma reads_array (h : Separated (Padded Reads) text ds) : Reads ('[' :: (text ++ [']'])) (.array ds .closed) := by
  refine ⟨⟨'[', _, rfl, by decide, by decide⟩, ?_⟩
  intro fuel rest hfuel _
  simp only [List.length_cons, List.length_append, List.length_nil] at hfuel
  obtain ⟨fuel, rfl⟩ := Nat.exists_eq_add_of_le' (show 2 ≤ fuel by omega)
  suffices hitems : readItems (fuel + 1) true (text ++ ']' :: rest) = (ds, .closed, some rest) by
    rw [List.cons_append, List.append_assoc, List.singleton_append, readValue_items, hitems]
  cases h with
  | nil hgap =>
    rw [readItems_gap hgap, readItems]
    rfl
  | cons hpart hmore =>
    obtain ⟨hbefore, hbody, hafter⟩ := hpart
    obtain ⟨c, body, rfl, hc, hclose⟩ := hbody.head
    simp only [List.length_cons, List.length_append] at hfuel
    simp only [List.append_assoc, List.cons_append]
    rw [readItems_gap hbefore, readItems_first hc hclose, ← List.cons_append]
    exact readItem_part hbody hafter (by rw [List.length_cons]; omega) (stops_behind hmore (stops_bracket rest))
      (readItems_behind hmore (by omega) rest)

/-! ### Objects -/

variable {e : String × Draft} {es : List (String × Draft)}

lemma stops_brace (rest : List Char) : Stops ('\x7d' :: rest) :=
  stops_cons (by decide) (by decide) (by decide) (by decide)

lemma readMembers_gap (h : IsBlank gap) (fuel : Nat) (first : Bool) (text : List Char) :
    readMembers fuel first (gap ++ text) = readMembers fuel first text := by
  cases fuel with
  | zero => rfl
  | succ fuel => rw [readMembers, readMembers, skipGap_append h]

lemma readMembers_first (fuel : Nat) (text : List Char) :
    readMembers (fuel + 1) true ('"' :: text) = readMember fuel text := by
  rw [readMembers]
  rfl

lemma readMembers_comma (h : IsBlank gap) (fuel : Nat) (text : List Char) :
    readMembers (fuel + 1) false (',' :: (gap ++ '"' :: text)) = readMember fuel text := by
  rw [readMembers, skipGap_cons (by decide)]
  split
  · next heq => cases heq
  · next heq => cases heq
  · next heq =>
    cases heq
    simp only [Bool.false_eq_true, if_false, if_true, skipGap_append h,
      skipGap_cons (show isGap '"' = false by decide)]

lemma readMember_part (h : Padded (Member Reads) part e) :
    ∃ before body, part = before ++ '"' :: body ∧ IsBlank before ∧
      ∀ fuel tail ms left, body.length < fuel → Stops tail → readMembers fuel false tail = (ms, .closed, left) →
        readMember (fuel + 1) (body ++ tail) = ((some e.1, e.2) :: ms, .closed, left) := by
  obtain ⟨hbefore, ⟨hname, hmiddle, hlead, hvalue⟩, hafter⟩ := h
  obtain ⟨name, rfl, hscan⟩ := scanString_quoted hname
  refine ⟨_, _, by rw [List.cons_append, List.cons_append], hbefore, ?_⟩
  intro fuel tail ms left hfuel hstop hms
  simp only [List.length_append, List.length_cons] at hfuel
  simp only [List.append_assoc, List.cons_append, readMember, hscan, skipGap_append hmiddle,
    skipGap_cons (show isGap ':' = false by decide), readValue_gap hlead]
  rw [hvalue.value fuel _ (by omega) (stops_append hafter hstop)]
  simp only [readMembers_gap hafter, hms]

def keyed (es : List (String × Draft)) : List (Option String × Draft) := es.map fun e => (some e.1, e.2)

lemma readMembers_behind (h : Behind (Padded (Member Reads)) text es) (hfuel : text.length < fuel) (rest : List Char) :
    readMembers fuel false (text ++ '\x7d' :: rest) = (keyed es, .closed, some rest) := by
  induction h generalizing fuel with
  | nil =>
    obtain ⟨fuel, rfl⟩ := Nat.exists_eq_add_one_of_ne_zero (Nat.ne_zero_of_lt hfuel)
    rw [readMembers]
    rfl
  | cons hpart hmore ih =>
    obtain ⟨before, body, rfl, hbefore, hread⟩ := readMember_part hpart
    simp only [List.length_cons, List.length_append] at hfuel
    obtain ⟨fuel, rfl⟩ := Nat.exists_eq_add_of_le' (show 2 ≤ fuel by omega)
    simp only [List.cons_append, List.append_assoc]
    rw [readMembers_comma hbefore]
    exact hread fuel _ _ _ (by omega) (stops_behind hmore (stops_brace rest)) (ih (by omega))

lemma reads_object (h : Separated (Padded (Member Reads)) text es) :
    Reads ('\x7b' :: (text ++ ['\x7d'])) (.object (keyed es) .closed) := by
  refine ⟨⟨'\x7b', _, rfl, by decide, by decide⟩, ?_⟩
  intro fuel rest hfuel _
  simp only [List.length_cons, List.length_append, List.length_nil] at hfuel
  obtain ⟨fuel, rfl⟩ := Nat.exists_eq_add_of_le' (show 2 ≤ fuel by omega)
  suffices hmembers : readMembers (fuel + 1) true (text ++ '\x7d' :: rest) = (keyed es, .closed, some rest) by
    rw [List.cons_append, List.append_assoc, List.singleton_append, readValue_members, hmembers]
  cases h with
  | nil hgap =>
    rw [readMembers_gap hgap, readMembers]
    rfl
  | cons hpart hmore =>
    obtain ⟨before, body, rfl, hbefore, hread⟩ := readMember_part hpart
    simp only [List.length_cons, List.length_append] at hfuel
    obtain ⟨fuel, rfl⟩ := Nat.exists_eq_add_one_of_ne_zero (show fuel ≠ 0 by omega)
    simp only [List.append_assoc, List.cons_append]
    rw [readMembers_gap hbefore, readMembers_first]
    exact hread fuel _ _ _ (by omega) (stops_behind hmore (stops_brace rest)) (readMembers_behind hmore (by omega) rest)

/-! ### Texts of the grammar -/

variable {origin : Origin}

lemma toItems_of_forall₂ {js : List Json} (h : List.Forall₂ (fun j d => d.toJson origin = .ok j) js ds) :
    toItems origin ds = .ok js := by
  induction h with
  | nil => rfl
  | cons hj _ ih => exact toItems_cons.mpr ⟨_, _, hj, ih, rfl⟩

lemma toMembers_keyed {entries : List (String × Json)}
    (h : List.Forall₂ (fun e f => e.1 = f.1 ∧ f.2.toJson origin = .ok e.2) entries es) :
    toMembers origin (keyed es) = .ok entries := by
  induction h with
  | nil => rfl
  | cons he _ ih => exact toMembers_cons.mpr ⟨_, _, _, congrArg some he.1.symm, he.2, ih, rfl⟩

theorem exists_reads : ∀ (n : Nat) {text : List Char} {j : Json}, Value n text j →
    ∃ d, Reads text d ∧ d.toJson (.text (n + 1)) = .ok j := by
  have hscalar : ∀ {n text j}, Scalar text j → ∃ d, Reads text d ∧ d.toJson (.text (n + 1)) = .ok j := by
    intro n text j h
    exact ⟨ofJson j, reads_scalar h, by cases h <;> rfl⟩
  -- on the brackets that are left: those within a bracket are one fewer
  intro n
  induction n with
  | zero => exact hscalar
  | succ n ih =>
    rintro text j (h | h)
    · exact hscalar h
    · cases h with
      | array h =>
        obtain ⟨ds, hds, hjs⟩ := h.trans fun h => Padded.trans h ih
        exact ⟨_, reads_array hds, toJson_array.mpr ⟨_, _, rfl, toItems_of_forall₂ hjs, rfl, rfl⟩⟩
      | object h =>
        obtain ⟨es, hes, hms⟩ := h.trans fun h => Padded.trans h fun h => Member.trans h ih
        exact ⟨_, reads_object hes, toJson_object.mpr ⟨_, _, rfl, toMembers_keyed hms, rfl, rfl⟩⟩

end Draft

open Grammar (Padded)

lemma Document.ofText_of_padded {text : String} {d : Draft} (h : Padded Draft.Reads text.toList d) :
    ofText text = ⟨d, true⟩ := by
  obtain ⟨chars, hchars⟩ : ∃ chars, text.toList = chars := ⟨_, rfl⟩
  rw [hchars] at h
  obtain @⟨before, body, after, _, hbefore, hbody, hafter⟩ := h
  have hread : Draft.readValue (3 * (before ++ (body ++ after)).length + 3) (before ++ (body ++ after)) =
      (d, some after) := by
    rw [Draft.readValue_gap hbefore]
    refine hbody.value _ _ ?_ ?_
    · simp only [List.length_append]
      omega
    · rw [← List.append_nil after]
      exact Draft.stops_append hafter Draft.stops_nil
  have hnothing : Draft.skipGap after = [] := by
    rw [← List.append_nil after, Draft.skipGap_append hafter]
    rfl
  simp only [ofText, hchars, hread, hnothing, List.isEmpty_nil]

namespace Codec

variable {α : Type} {c : Codec α} {text : String}

lemma ofText_eq_ok {a : α} : c.ofText text = .ok a ↔
    c.read .start (Document.ofText text).root = .ok a ∧ (Document.ofText text).ended = true := by
  rw [ofText, bind_eq_ok]
  constructor
  · rintro ⟨b, hread, h⟩
    split at h
    · next hended => exact ⟨pure_eq_ok.mp h ▸ hread, hended⟩
    · cases h
  · rintro ⟨hread, hended⟩
    exact ⟨a, hread, if_pos hended⟩

theorem ofText_json_eq_ok {j : Json} : json.ofText text = .ok j ↔ j.Spells text := by
  rw [ofText_eq_ok]
  constructor
  · rintro ⟨hread, hended⟩
    exact Document.spells hread hended
  · intro h
    obtain ⟨d, hd, hj⟩ := Padded.trans h (Draft.exists_reads 127)
    rw [Document.ofText_of_padded hd]
    exact ⟨hj, rfl⟩

end Codec

theorem Json.Spells.unique {text : String} {j k : Json} (hj : j.Spells text) (hk : k.Spells text) : j = k :=
  Except.ok.inj ((Codec.ofText_json_eq_ok.mpr hj).symm.trans (Codec.ofText_json_eq_ok.mpr hk))

/-! ### Values as they are printed -/

namespace Draft

variable {gap closing middle : List Char} {texts : List (List Char)} {n : Number}

lemma not_isGap_render (n : Number) : ∀ c ∈ n.render.toList, isGap c = false := by
  intro c hc
  rcases n.spells_render c hc with hd | hm
  · exact not_isGap_of_isDigit hd
  · simp only [List.mem_cons, List.not_mem_nil, or_false] at hm
    rcases hm with rfl | rfl | rfl | rfl <;> decide

lemma eq_nil_of_isBlank (h : IsBlank gap) (hno : ∀ c ∈ gap, isGap c = false) : gap = [] :=
  List.eq_nil_iff_forall_not_mem.mpr fun c hc => absurd (h c hc) (Bool.eq_false_iff.mp (hno c hc))

lemma scalar_render (h : n.ReadsBack) : Grammar.Scalar n.render.toList (.number n) := by
  have hno := not_isGap_render n
  obtain ⟨text, htext⟩ : ∃ text, n.render.toList = text := ⟨_, rfl⟩
  have hspells : Padded (Grammar.Value 127) n.render.toList (.number n) := Codec.ofText_json_eq_ok.mp h
  rw [htext] at hno hspells ⊢
  obtain @⟨before, body, after, _, hbefore, hbody, hafter⟩ := hspells
  obtain ⟨hnobefore, hnobody, hnoafter⟩ : (∀ c ∈ before, isGap c = false) ∧ (∀ c ∈ body, isGap c = false) ∧
      ∀ c ∈ after, isGap c = false := by
    simpa only [List.forall_mem_append] using hno
  rw [eq_nil_of_isBlank hbefore hnobefore, eq_nil_of_isBlank hafter hnoafter, List.nil_append, List.append_nil]
  rcases hbody with hbody | hbody
  · exact hbody
  · cases hbody

lemma reads_string (s : String) : Reads (Json.stringText s).toList (.string (some s)) :=
  reads_scalar (.string (quoted_stringText s))

lemma reads_number (h : n.ReadsBack) : Reads n.render.toList (.number (some n)) := reads_scalar (scalar_render h)

section

variable {α : Type} {Part : List Char → α → Prop} {as : List α}

open Grammar (Behind Separated)

lemma separated_intercalate_cons (hgap : IsBlank gap) (hclosing : IsBlank closing)
    (h : List.Forall₂ Part texts as) {text before : List Char} {a : α} (hbefore : IsBlank before)
    (htext : Part text a) :
    ∃ part tail, before ++ (List.intercalate (',' :: gap) (text :: texts) ++ closing) = part ++ tail ∧
      Padded Part part a ∧ Behind (Padded Part) tail as := by
  induction h generalizing text before a with
  | nil => exact ⟨before ++ (text ++ closing), [], by simp [List.intercalate], .mk hbefore htext hclosing, .nil⟩
  | @cons next b texts as hnext _ ih =>
    obtain ⟨part, tail, heq, hpart, htail⟩ := ih hgap hnext
    refine ⟨before ++ (text ++ []), ',' :: (part ++ tail), ?_, .mk hbefore htext isBlank_nil, .cons hpart htail⟩
    rw [List.intercalate_cons_cons, ← heq]
    simp

lemma separated_intercalate (hgap : IsBlank gap) (hclosing : IsBlank closing) (h : List.Forall₂ Part texts as) :
    Separated (Padded Part) (gap ++ (List.intercalate (',' :: gap) texts ++ closing)) as := by
  cases h with
  | nil => exact .nil (List.forall_mem_append.mpr ⟨hgap, hclosing⟩)
  | cons htext hrest =>
    obtain ⟨part, tail, heq, hpart, htail⟩ := separated_intercalate_cons hgap hclosing hrest hgap htext
    rw [heq]
    exact .cons hpart htail

end

lemma member_text {text : List Char} {key : String} {d : Draft} (hmiddle : IsBlank middle) (h : Reads text d) :
    Grammar.Member Reads ((Json.stringText key).toList ++ ([] ++ ':' :: (middle ++ text))) (key, d) :=
  .mk (quoted_stringText key) isBlank_nil hmiddle h

lemma keyed_ofJson (members : List (String × Json)) :
    keyed (members.map fun e => (e.1, ofJson e.2)) = ofMembers members := by
  induction members with
  | nil => rfl
  | cons e members ih => exact congrArg ((some e.1, ofJson e.2) :: ·) ih

mutual

theorem reads_compact : ∀ j : Json, (∀ n ∈ j.numbers, n.ReadsBack) → Reads j.compact.toList (ofJson j)
  | .null, _ => reads_scalar .null
  | .bool true, _ => reads_scalar .true
  | .bool false, _ => reads_scalar .false
  | .number n, h => reads_number (h n List.mem_cons_self)
  | .string s, _ => reads_string s
  | .array items, h => by
    have hread := reads_array (separated_intercalate isBlank_nil isBlank_nil (reads_compactItems items h))
    simpa [Json.compact, ofJson] using hread
  | .object members, h => by
    have hread := reads_object (separated_intercalate isBlank_nil isBlank_nil (reads_compactMembers members h))
    rw [keyed_ofJson] at hread
    simpa [Json.compact, ofJson] using hread

theorem reads_compactItems : ∀ items : List Json, (∀ n ∈ Json.numbersOfItems items, n.ReadsBack) →
    List.Forall₂ Reads ((Json.compactItems items).map String.toList) (ofItems items)
  | [], _ => .nil
  | j :: rest, h => by
    obtain ⟨hj, hrest⟩ := List.forall_mem_append.mp h
    exact .cons (reads_compact j hj) (reads_compactItems rest hrest)

theorem reads_compactMembers : ∀ members : List (String × Json),
    (∀ n ∈ Json.numbersOfMembers members, n.ReadsBack) →
    List.Forall₂ (Grammar.Member Reads) ((Json.compactMembers members).map String.toList)
      (members.map fun e => (e.1, ofJson e.2))
  | [], _ => .nil
  | (k, j) :: rest, h => by
    obtain ⟨hj, hrest⟩ := List.forall_mem_append.mp h
    refine .cons ?_ (reads_compactMembers rest hrest)
    simpa using member_text isBlank_nil (reads_compact j hj)

end

end Draft

theorem Document.ofText_compact {j : Json} (h : ∀ n ∈ j.numbers, n.ReadsBack) :
    Document.ofText j.compact = ⟨.ofJson j, true⟩ := by
  have hread : Padded Draft.Reads ([] ++ (j.compact.toList ++ [])) (.ofJson j) :=
    .mk Draft.isBlank_nil (Draft.reads_compact j h) Draft.isBlank_nil
  rw [List.nil_append, List.append_nil] at hread
  exact ofText_of_padded hread

end Delivery
