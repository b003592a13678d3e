import Delivery.Proofs.Json.Scanning
import Delivery.Proofs.Toml.Strings
import Delivery.Toml.Reader
import Mathlib.Data.List.TakeWhile

/-!
Documents as they are written: lines of a key and a value, an empty line behind them, and sections of such lines under a
header. What is written line by line is read line by line.
-/

namespace Delivery.Toml

variable {c : Char} {text rest digits : List Char} {n fuel depth : ℕ} {node : Node}

/-! ### Numbers -/

namespace Scalar

lemma ungroup_digits (hne : digits ≠ []) (h : ∀ c ∈ digits, c.isDigit = true) :
    ungroup Char.isDigit digits = some digits := by
  induction digits with
  | nil => exact absurd rfl hne
  | cons c digits ih =>
    obtain ⟨hc, hdigits⟩ := List.forall_mem_cons.mp h
    cases digits with
    | nil => rw [ungroup, if_pos hc]
    | cons d digits =>
      have hd : d ≠ '_' := by
        rintro rfl
        cases hdigits '_' List.mem_cons_self
      rw [ungroup.eq_4 _ _ _ (by simp) (by simp [hd]), if_pos hc, ih (by simp) hdigits]
      rfl

lemma decimals_digits (hne : digits ≠ []) (h : ∀ c ∈ digits, c.isDigit = true) :
    decimals digits = some (digits.map (·.toNat - '0'.toNat)) := by
  rw [decimals, ungroup_digits hne h, Option.map_some, Option.some.injEq]
  refine List.map_congr_left fun c hc => ?_
  rw [digitValue, if_pos (h c hc)]

lemma expect_eq_none (h : c ∉ text) : expect c text = none := by
  cases text with
  | nil => rfl
  | cons d text => rw [expect, if_neg (List.ne_of_not_mem_cons h).symm]

lemma takeFixed_eq_some {width : ℕ} {p : ℕ × List Char} (h : takeFixed width text = some p) :
    p.2 = text.drop width := by
  rw [takeFixed] at h
  split at h
  · cases h
    rfl
  · cases h

lemma takeDate_eq_none (h : '-' ∉ text) : takeDate text = none := by
  rw [takeDate]
  cases hyear : takeFixed 4 text with
  | none => rfl
  | some p =>
    have hrest : expect '-' p.2 = none :=
      expect_eq_none fun hmem => h (List.mem_of_mem_drop (takeFixed_eq_some hyear ▸ hmem))
    simp [hrest]

lemma takeTime_eq_none (h : ':' ∉ text) : takeTime text = none := by
  rw [takeTime, takePair]
  cases hhour : takeFixed 2 text with
  | none => rfl
  | some p =>
    have hrest : expect ':' p.2 = none :=
      expect_eq_none fun hmem => h (List.mem_of_mem_drop (takeFixed_eq_some hhour ▸ hmem))
    simp only [Option.bind_eq_bind, Option.bind_some]
    split
    · simp [hrest]
    · rfl

lemma isMoment_digits (h : ∀ c ∈ digits, c.isDigit = true) : isMoment digits = false := by
  have hmark {mark : Char} (hmark : mark.isDigit = false) : mark ∉ digits := fun hmem => by
    rw [h mark hmem] at hmark
    cases hmark
  rw [isMoment, takeDate_eq_none (hmark rfl), takeTime_eq_none (hmark rfl)]
  rfl

lemma isGrouped_of_isDigit (h : c.isDigit = true) : isGrouped c = true := by rw [isGrouped, h, Bool.true_or]

lemma decimal_toDigits (h : n < twoPower 128) : decimal (Nat.toDigits 10 n) = some (.value (.number (.integer n))) := by
  have hdigits : ∀ c ∈ Nat.toDigits 10 n, c.isDigit = true :=
    fun c hc => Nat.isDigit_of_mem_toDigits (by decide) (by decide) hc
  have hgrouped : ∀ c ∈ Nat.toDigits 10 n, isGrouped c = true := fun c hc => isGrouped_of_isDigit (hdigits c hc)
  have hsign : takeSign (Nat.toDigits 10 n) = (false, Nat.toDigits 10 n) := by
    rw [takeSign.eq_def]
    split
    · next heq => cases hdigits '+' (heq ▸ List.mem_cons_self)
    · next heq => cases hdigits '-' (heq ▸ List.mem_cons_self)
    · rfl
  have hword : ¬ (Nat.toDigits 10 n = "inf".toList ∨ Nat.toDigits 10 n = "nan".toList) := by
    rintro (heq | heq)
    · cases hdigits 'i' (heq ▸ by decide)
    · cases hdigits 'n' (heq ▸ by decide)
  rw [decimal, hsign]
  simp only [if_neg hword, List.takeWhile_eq_self_iff.mpr hgrouped, List.dropWhile_eq_nil_iff.mpr hgrouped,
    decimals_digits Nat.toDigits_ne_nil hdigits, Option.bind_eq_bind, Option.bind_some,
    if_neg (Draft.not_zero_toDigits n), Draft.ofDigits_toDigits, integer, Bool.false_eq_true, if_false]
  exact if_pos (by omega)

lemma ofChars_toDigits (h : n < twoPower 128) : ofChars (Nat.toDigits 10 n) = some (.value (.number (.integer n))) := by
  have hdigits : ∀ c ∈ Nat.toDigits 10 n, c.isDigit = true :=
    fun c hc => Nat.isDigit_of_mem_toDigits (by decide) (by decide) hc
  rw [← decimal_toDigits h, ofChars.eq_def]
  split
  · next heq => cases hdigits 't' (heq ▸ by decide)
  · next heq => cases hdigits 'f' (heq ▸ by decide)
  · next heq => cases hdigits 'x' (heq ▸ by simp)
  · next heq => cases hdigits 'o' (heq ▸ by simp)
  · next heq => cases hdigits 'b' (heq ▸ by simp)
  · rw [isMoment_digits hdigits]
    rfl

end Scalar

/-! ### Values -/

structure Spells (text : List Char) (node : Node) : Prop where
  head : ∃ c tail, text = c :: tail ∧ c ≠ ' ' ∧ c ≠ '\t'
  read : ∀ fuel depth rest, takeValue (fuel + 1) depth (text ++ '\n' :: rest) = some (node, '\n' :: rest)

lemma spells_string (s : String) : Spells (Text.write s).toList (.value (.string s)) := by
  obtain ⟨tail, hwrite⟩ := Text.exists_write s
  refine ⟨?_, fun fuel depth rest => ?_⟩
  · obtain hwrite | hwrite := hwrite
    · exact ⟨_, _, hwrite, by decide⟩
    · exact ⟨_, _, hwrite, by decide⟩
  · have hread := Text.take_write s rest
    obtain hwrite | hwrite := hwrite
    · rw [hwrite] at hread ⊢
      rw [List.cons_append] at hread ⊢
      rw [takeValue, hread]
      rfl
    · rw [hwrite] at hread ⊢
      rw [List.cons_append] at hread ⊢
      rw [takeValue, hread]
      rfl

lemma isScalarChar_of_isDigit (h : c.isDigit = true) : isScalarChar c = true := by
  simp [isScalarChar, Char.isAlphanum, h]

lemma takeScalar_digits (h : ∀ c ∈ digits, c.isDigit = true) : takeScalar (digits ++ '\n' :: rest) =
    (Scalar.ofChars digits).map fun node => (node, '\n' :: rest) := by
  have hscalar : ∀ c ∈ digits, isScalarChar c = true := fun c hc => isScalarChar_of_isDigit (h c hc)
  have hend : isScalarChar '\n' = false := by decide
  simp only [takeScalar, List.takeWhile_append_of_pos hscalar, List.dropWhile_append_of_pos hscalar,
    List.takeWhile_cons_of_neg (Bool.not_eq_true _ ▸ hend), List.dropWhile_cons_of_neg (Bool.not_eq_true _ ▸ hend),
    List.append_nil]
  split
  · next heq => cases heq
  · rfl

lemma takeValue_digits (hne : digits ≠ []) (h : ∀ c ∈ digits, c.isDigit = true) :
    takeValue (fuel + 1) depth (digits ++ rest) = takeScalar (digits ++ rest) := by
  obtain ⟨c, tail, rfl⟩ := List.exists_cons_of_ne_nil hne
  have hc := h c List.mem_cons_self
  rw [List.cons_append, takeValue]
  all_goals
    intro rest heq
    cases (List.cons.inj heq).1 ▸ hc

lemma spells_number (h : n < twoPower 128) : Spells (Nat.toDigits 10 n) (.value (.number (.integer n))) := by
  have hdigits : ∀ c ∈ Nat.toDigits 10 n, c.isDigit = true :=
    fun c hc => Nat.isDigit_of_mem_toDigits (by decide) (by decide) hc
  obtain ⟨c, tail, hcons⟩ := List.exists_cons_of_ne_nil (Nat.toDigits_ne_nil (n := n) (b := 10))
  have hc := hdigits c (hcons ▸ List.mem_cons_self)
  refine ⟨⟨c, tail, hcons, ?_, ?_⟩, fun fuel depth rest => ?_⟩
  · rintro rfl
    cases hc
  · rintro rfl
    cases hc
  · rw [takeValue_digits Nat.toDigits_ne_nil hdigits, takeScalar_digits hdigits, Scalar.ofChars_toDigits h]
    rfl

/-! ### Keys -/

def IsKey (key : String) : Prop := key ≠ "" ∧ key.toList.all isBare = true

instance (key : String) : Decidable (IsKey key) := inferInstanceAs (Decidable (_ ∧ _))

variable {key : String}

lemma isBare_ne {mark : Char} (hmark : isBare mark = false) (hc : isBare c = true) : c ≠ mark := by
  rintro rfl
  rw [hmark] at hc
  cases hc

lemma IsKey.bare (h : IsKey key) : ∀ c ∈ key.toList, isBare c = true := List.all_eq_true.mp h.2

lemma IsKey.exists_cons (h : IsKey key) : ∃ c tail, key.toList = c :: tail ∧ isBare c = true := by
  obtain ⟨c, tail, hkey⟩ := List.exists_cons_of_ne_nil fun hnil => h.1 (String.toList_eq_nil_iff.mp hnil)
  exact ⟨c, tail, hkey, h.bare c (hkey ▸ List.mem_cons_self)⟩

lemma skipBlanks_cons (hspace : c ≠ ' ') (htab : c ≠ '\t') : skipBlanks (c :: rest) = c :: rest := by
  rw [skipBlanks, List.dropWhile_cons_of_neg]
  simp [hspace, htab]

lemma IsKey.skipBlanks (h : IsKey key) : skipBlanks (key.toList ++ rest) = key.toList ++ rest := by
  obtain ⟨c, tail, hkey, hc⟩ := h.exists_cons
  rw [hkey, List.cons_append, skipBlanks_cons (isBare_ne rfl hc) (isBare_ne rfl hc)]

lemma takePart_key (h : IsKey key) (hc : isBare c = false) :
    takePart (key.toList ++ c :: rest) = some (key, c :: rest) := by
  obtain ⟨first, tail, hkey, hfirst⟩ := h.exists_cons
  have hplain : takePart (key.toList ++ c :: rest) =
      let part := (key.toList ++ c :: rest).takeWhile isBare
      if part.isEmpty then none
      else some (String.ofList part, (key.toList ++ c :: rest).dropWhile isBare) := by
    rw [hkey, List.cons_append, takePart]
    · intro rest heq
      exact absurd (List.cons.inj heq).1 (isBare_ne (by decide) hfirst)
    · intro rest heq
      exact absurd (List.cons.inj heq).1 (isBare_ne (by decide) hfirst)
  have hstop : ¬ isBare c = true := by simp [hc]
  rw [hplain, List.takeWhile_append_of_pos h.bare, List.dropWhile_append_of_pos h.bare,
    List.takeWhile_cons_of_neg hstop, List.dropWhile_cons_of_neg hstop, List.append_nil]
  have hfull : key.toList.isEmpty = false := hkey ▸ rfl
  simp [hfull]

lemma takeKey_key (h : IsKey key) {mark : Char} (hc : isBare c = false) (hmark : mark ≠ '.')
    (hskip : Toml.skipBlanks (c :: text) = mark :: rest) :
    takeKey (fuel + 1) (key.toList ++ c :: text) = some ([], key, mark :: rest) := by
  rw [takeKey, h.skipBlanks, takePart_key h hc]
  simp [hskip, hmark]

/-! ### Lines -/

structure Line where
  key : String
  text : List Char
  node : Node

namespace Line

structure Sound (l : Line) : Prop where
  key : IsKey l.key
  text : Spells l.text l.node

def render (l : Line) : List Char := l.key.toList ++ " = ".toList ++ l.text ++ ['\n']

def entry (l : Line) : Entry := { path := [], key := l.key, node := l.node }

variable {l : Line}

lemma sound_text (h : IsKey key) (s : String) :
    Sound { key, text := (Text.write s).toList, node := .value (.string s) } := ⟨h, spells_string s⟩

lemma sound_number (h : IsKey key) (hn : n < twoPower 128) :
    Sound { key, text := Nat.toDigits 10 n, node := .value (.number (.integer n)) } := ⟨h, spells_number hn⟩

lemma render_append (l : Line) (rest : List Char) :
    l.render ++ rest = l.key.toList ++ ' ' :: '=' :: ' ' :: (l.text ++ '\n' :: rest) := by
  simp [render]

lemma Sound.takeEntry (h : l.Sound) : takeEntry (fuel + 2) depth (l.render ++ rest) = some (l.entry, '\n' :: rest) := by
  have hkey {fuel : ℕ} : takeKey (fuel + 1) (l.key.toList ++ ' ' :: '=' :: ' ' :: (l.text ++ '\n' :: rest)) =
      some ([], l.key, '=' :: ' ' :: (l.text ++ '\n' :: rest)) := takeKey_key h.key (by decide) (by decide) rfl
  obtain ⟨c, tail, htext, hspace, htab⟩ := h.text.head
  have hskip : skipBlanks (' ' :: (l.text ++ '\n' :: rest)) = l.text ++ '\n' :: rest := by
    rw [htext]
    exact skipBlanks_cons hspace htab
  rw [render_append, Toml.takeEntry, hkey]
  simp [hskip, h.text.read, entry]

lemma Sound.exists_cons (h : l.Sound) (rest : List Char) :
    ∃ c tail, l.render ++ rest = c :: tail ∧ isBare c = true := by
  obtain ⟨c, tail, hkey, hc⟩ := h.key.exists_cons
  exact ⟨c, _, by rw [render_append, hkey, List.cons_append], hc⟩

lemma skipLines_bare (h : isBare c = true) : skipLines false (c :: rest) = some (c :: rest) := by
  have hother : c ≠ ' ' ∧ c ≠ '\t' ∧ c ≠ '#' := ⟨isBare_ne rfl h, isBare_ne rfl h, isBare_ne rfl h⟩
  rw [skipLines]
  · simp [hother]
  · exact isBare_ne rfl h
  · exact fun _ heq => absurd heq (isBare_ne rfl h)

lemma Sound.takeBody (h : l.Sound) : takeBody (fuel + 1) (l.render ++ rest) =
    (takeBody fuel rest).map fun (entries, rest) => (l.entry :: entries, rest) := by
  obtain ⟨c, tail, hcons, hc⟩ := h.exists_cons rest
  have hentry {fuel : ℕ} : Toml.takeEntry (3 * fuel + 3) depthLimit (l.render ++ rest) = some (l.entry, '\n' :: rest) :=
    h.takeEntry
  rw [Toml.takeBody, hcons, skipLines_bare hc]
  simp only [Option.bind_eq_bind, Option.bind_some]
  split
  · next heq => cases heq
  · next heq => exact absurd (List.cons.inj heq).1 (isBare_ne rfl hc)
  · have hend : endLine false ('\n' :: rest) = some rest := rfl
    rw [← hcons, hentry]
    simp only [Option.bind_some, hend]
    cases Toml.takeBody fuel rest <;> rfl

end Line

def Stops (tail : List Char) : Prop := tail = [] ∨ ∃ rest, tail = '[' :: rest

lemma takeBody_stops (h : Stops text) : takeBody (fuel + 1) ('\n' :: text) = some ([], text) := by
  obtain rfl | ⟨rest, rfl⟩ := h
  · rfl
  · rfl

lemma takeBody_lines {lines : List Line} (h : ∀ l ∈ lines, l.Sound) (htext : Stops text) (hfuel : lines.length < fuel) :
    takeBody fuel (lines.flatMap Line.render ++ '\n' :: text) = some (lines.map Line.entry, text) := by
  induction lines generalizing fuel with
  | nil =>
    obtain ⟨fuel, rfl⟩ := Nat.exists_eq_succ_of_ne_zero (Nat.ne_of_gt hfuel)
    exact takeBody_stops htext
  | cons l lines ih =>
    obtain ⟨hl, hlines⟩ := List.forall_mem_cons.mp h
    obtain ⟨fuel, rfl⟩ := Nat.exists_eq_succ_of_ne_zero (Nat.ne_of_gt (Nat.zero_lt_of_lt hfuel))
    rw [List.flatMap_cons, List.append_assoc, hl.takeBody, ih hlines (Nat.lt_of_succ_lt_succ hfuel)]
    rfl

/-! ### Sections -/

structure Block where
  key : String
  lines : List Line

namespace Block

structure Sound (b : Block) : Prop where
  key : IsKey b.key
  lines : ∀ l ∈ b.lines, l.Sound

def render (b : Block) : List Char := '[' :: (b.key.toList ++ ']' :: '\n' :: (b.lines.flatMap Line.render ++ ['\n']))

def toSection (b : Block) : Section :=
  { header := { adds := false, path := [], key := b.key }, entries := b.lines.map Line.entry }

lemma render_append (b : Block) (rest : List Char) : b.render ++ rest =
    '[' :: (b.key.toList ++ ']' :: '\n' :: (b.lines.flatMap Line.render ++ '\n' :: rest)) := by
  simp [render]

lemma takeHeader_key (h : IsKey key) : takeHeader (key.toList ++ ']' :: rest) =
    some ({ adds := false, path := [], key }, rest) := by
  obtain ⟨c, tail, hkey, hc⟩ := h.exists_cons
  have hhead : ((key.toList ++ ']' :: rest).head? == some '[') = false := by
    have hne : c ≠ '[' := isBare_ne rfl hc
    rw [hkey]
    simp [hne]
  have hpart {fuel : ℕ} : takeKey (fuel + 1) (key.toList ++ ']' :: rest) = some ([], key, ']' :: rest) :=
    takeKey_key h (by decide) (by decide) rfl
  simp only [takeHeader, hhead, hpart, Bool.false_eq_true, if_false, Option.bind_eq_bind, Option.bind_some]
  rfl

end Block

lemma stops_blocks (blocks : List Block) : Stops (blocks.flatMap Block.render) := by
  cases blocks with
  | nil => exact .inl rfl
  | cons b blocks => exact .inr ⟨_, by rw [List.flatMap_cons, Block.render_append]⟩

lemma length_le_flatMap {α : Type} {f : α → List Char} (h : ∀ a, 0 < (f a).length) (as : List α) :
    as.length ≤ (as.flatMap f).length := by
  induction as with
  | nil => exact Nat.le_refl 0
  | cons a as ih =>
    rw [List.flatMap_cons, List.length_cons, List.length_append, Nat.add_comm]
    exact Nat.add_le_add (h a) ih

lemma length_lines_lt (lines : List Line) (rest : List Char) :
    lines.length < (lines.flatMap Line.render ++ rest).length + 1 := by
  have hpos (l : Line) : 0 < l.render.length := by
    rw [Line.render, List.length_append]
    exact Nat.succ_pos _
  have hlength := length_le_flatMap hpos lines
  rw [List.length_append]
  omega

lemma takeSections_blocks {blocks : List Block} (h : ∀ b ∈ blocks, b.Sound) (hfuel : blocks.length < fuel) :
    takeSections fuel (blocks.flatMap Block.render) = some (blocks.map Block.toSection) := by
  obtain ⟨fuel, rfl⟩ := Nat.exists_eq_succ_of_ne_zero (Nat.ne_of_gt (Nat.zero_lt_of_lt hfuel))
  induction blocks generalizing fuel with
  | nil => rfl
  | cons b blocks ih =>
    obtain ⟨hb, hblocks⟩ := List.forall_mem_cons.mp h
    have hpos := Nat.zero_lt_of_lt (Nat.lt_of_succ_lt_succ hfuel)
    obtain ⟨fuel, rfl⟩ := Nat.exists_eq_succ_of_ne_zero (Nat.ne_of_gt hpos)
    have hbody : takeBody ((b.lines.flatMap Line.render ++ '\n' :: blocks.flatMap Block.render).length + 1)
        (b.lines.flatMap Line.render ++ '\n' :: blocks.flatMap Block.render) =
          some (b.lines.map Line.entry, blocks.flatMap Block.render) :=
      takeBody_lines hb.lines (stops_blocks blocks) (length_lines_lt _ _)
    have hend {rest : List Char} : endLine false ('\n' :: rest) = some rest := rfl
    rw [List.flatMap_cons, Block.render_append, takeSections]
    simp only [Block.takeHeader_key hb.key, hend, hbody, ih hblocks fuel (Nat.lt_of_succ_lt_succ hfuel),
      Option.bind_eq_bind, Option.bind_some]
    rfl

theorem ofText?_document {lines : List Line} {blocks : List Block} (hlines : ∀ l ∈ lines, l.Sound)
    (hblocks : ∀ b ∈ blocks, b.Sound) : Document.ofText? (String.ofList
      (lines.flatMap Line.render ++ '\n' :: blocks.flatMap Block.render)) =
        some { entries := lines.map Line.entry, sections := blocks.map Block.toSection } := by
  have hmark : ((lines.flatMap Line.render ++ '\n' :: blocks.flatMap Block.render).head? == some '\ufeff') = false := by
    cases lines with
    | nil => rfl
    | cons l lines =>
      obtain ⟨c, tail, hcons, hc⟩ := (hlines l List.mem_cons_self).exists_cons
        (lines.flatMap Line.render ++ '\n' :: blocks.flatMap Block.render)
      have hne : c ≠ '\ufeff' := isBare_ne (by decide) hc
      rw [List.flatMap_cons, List.append_assoc, hcons]
      simp [hne]
  have hsections := takeSections_blocks hblocks
    (Nat.lt_succ_of_le (length_le_flatMap (f := Block.render) (fun b => by simp [Block.render]) blocks))
  simp only [Document.ofText?, String.toList_ofList, hmark, Bool.false_eq_true, if_false,
    takeBody_lines hlines (stops_blocks blocks) (length_lines_lt _ _), hsections, Option.bind_eq_bind, Option.bind_some]
  rfl

/-! ### Tables -/

variable {members : List (String × Node)} {origin : Origin}

lemma find?_eq_none (h : key ∉ members.map (·.1)) : find? key members = none := by
  induction members with
  | nil => rfl
  | cons member members ih =>
    rw [List.map_cons, List.mem_cons, not_or] at h
    rw [find?, if_neg (Ne.symm h.1), ih h.2]

lemma put_new (h : key ∉ members.map (·.1)) : put key node members = members ++ [(key, node)] := by
  induction members with
  | nil => rfl
  | cons member members ih =>
    rw [List.map_cons, List.mem_cons, not_or] at h
    rw [put, if_neg (Ne.symm h.1), ih h.2]
    rfl

def Line.member (l : Line) : String × Node := (l.key, l.node)

def Block.member (b : Block) : String × Node := (b.key, .table .header (b.lines.map Line.member))

lemma addEntries_lines {lines : List Line} (h : ((members ++ lines.map Line.member).map (·.1)).Nodup) :
    (Node.table origin members).addEntries (lines.map Line.entry) =
      some (.table origin (members ++ lines.map Line.member)) := by
  induction lines generalizing members with
  | nil => rw [List.map_nil, List.map_nil, List.append_nil, Node.addEntries]
  | cons l lines ih =>
    have hnew : l.key ∉ members.map (·.1) := by
      rw [List.map_append, List.nodup_append] at h
      exact fun hmem => h.2.2 _ hmem _ List.mem_cons_self rfl
    have hadd : (Node.table origin members).addEntry [] l.key l.node =
        some (.table origin (members ++ [l.member])) := by
      simp [Node.addEntry, Node.amend, find?_eq_none hnew, put_new hnew, Line.member]
    rw [List.map_cons, List.append_cons] at h
    rw [List.map_cons, Node.addEntries, Line.entry, hadd, List.map_cons,
      List.append_cons members l.member (lines.map Line.member)]
    exact ih h

lemma define_block {b : Block} (hnew : b.key ∉ members.map (·.1)) (h : (b.lines.map Line.key).Nodup) :
    b.toSection.define (.table origin members) = some (.table origin (members ++ [b.member])) := by
  have hlines : ((([] : List (String × Node)) ++ b.lines.map Line.member).map (·.1)).Nodup := by
    simpa [Line.member, Function.comp_def] using h
  simp only [Section.define, Block.toSection, find?_eq_none hnew, addEntries_lines hlines, put_new hnew]
  rfl

/-- Lines and sections that are sound, with keys that differ. -/
structure Flat (lines : List Line) (blocks : List Block) : Prop where
  keys : (lines.map Line.key ++ blocks.map Block.key).Nodup
  inner : ∀ b ∈ blocks, (b.lines.map Line.key).Nodup
  lines : ∀ l ∈ lines, l.Sound
  blocks : ∀ b ∈ blocks, b.Sound

lemma foldlM_blocks {blocks : List Block} (h : ((members ++ blocks.map Block.member).map (·.1)).Nodup)
    (hinner : ∀ b ∈ blocks, (b.lines.map Line.key).Nodup) :
    (blocks.map Block.toSection).foldlM (fun root s => root.amend false s.define s.header.path)
      (Node.table origin members) = some (.table origin (members ++ blocks.map Block.member)) := by
  induction blocks generalizing members with
  | nil => simp
  | cons b blocks ih =>
    obtain ⟨hb, hblocks⟩ := List.forall_mem_cons.mp hinner
    have hnew : b.key ∉ members.map (·.1) := by
      rw [List.map_append, List.nodup_append] at h
      exact fun hmem => h.2.2 _ hmem _ List.mem_cons_self rfl
    have hdefine : (Node.table origin members).amend false b.toSection.define b.toSection.header.path =
        some (.table origin (members ++ [b.member])) := define_block hnew hb
    rw [List.map_cons, List.append_cons] at h
    rw [List.map_cons, List.foldlM_cons, hdefine, List.map_cons,
      List.append_cons members b.member (blocks.map Block.member)]
    exact ih h hblocks

theorem readJson?_document {lines : List Line} {blocks : List Block} (h : Flat lines blocks) :
    readJson? (String.ofList (lines.flatMap Line.render ++ '\n' :: blocks.flatMap Block.render)) =
      some (.object (Node.membersToJson (lines.map Line.member ++ blocks.map Block.member))) := by
  have hkeys : ((lines.map Line.member ++ blocks.map Block.member).map (·.1)).Nodup := by
    simpa [Line.member, Block.member, Function.comp_def] using h.keys
  have hlines : ((([] : List (String × Node)) ++ lines.map Line.member).map (·.1)).Nodup := by
    rw [List.map_append] at hkeys
    exact (List.nodup_append.mp hkeys).1
  simp only [readJson?, ofText?_document h.lines h.blocks, Document.table?, addEntries_lines hlines, List.nil_append,
    foldlM_blocks hkeys h.inner, Option.bind_eq_bind, Option.bind_some]
  rfl

end Delivery.Toml
