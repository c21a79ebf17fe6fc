import Directivity.Proofs.Decimal.ReadBack

set_option autoImplicit false
set_option relaxedAutoImplicit false

namespace Directivity

def StartsOutside (kind : Char → Bool) (cs : List Char) : Prop :=
  ∀ c ∈ cs.head?, kind c = false

variable {kind : Char → Bool} {digits rest : List Char}

theorem takeWhile_append (inside : ∀ c ∈ digits, kind c) (outside : StartsOutside kind rest) :
    (digits ++ rest).takeWhile kind = digits := by
  rw [List.takeWhile_append_of_pos inside]
  cases rest with
  | nil => simp
  | cons c rest => simp [outside c rfl]

theorem dropWhile_append (inside : ∀ c ∈ digits, kind c) (outside : StartsOutside kind rest) :
    (digits ++ rest).dropWhile kind = rest := by
  rw [List.dropWhile_append_of_pos inside]
  cases rest with
  | nil => simp
  | cons c rest => simp [outside c rfl]

theorem isDigit_of_mem_toDigits {n : Nat} {c : Char} (member : c ∈ Nat.toDigits 10 n) : c.isDigit :=
  Nat.isDigit_of_mem_toDigits (by omega) (by omega) member

theorem head?_toDigits_ne_zero {n : Nat} (positive : 0 < n) :
    (Nat.toDigits 10 n).head? ≠ some '0' := by
  induction n using Nat.strongRecOn with
  | ind n ih =>
    rw [Nat.toDigits_eq_if (by omega)]
    split_ifs with short
    · simpa using positive.ne'
    · have first := ih (n / 10) (by omega) (by omega)
      obtain ⟨c, digits, same⟩ := List.exists_cons_of_ne_nil (Nat.toDigits_ne_nil (n := n / 10) (b := 10))
      rw [same] at first ⊢
      exact first

namespace Numeral

/-- A numeral has digits before the point, of which a zero is the first only alone, and all its
places are digits. -/
structure WellFormed (n : Numeral) : Prop where
  nonempty : n.whole ≠ []
  leading : n.whole.head? = some '0' → n.whole.length = 1
  whole : ∀ c ∈ n.whole, c.isDigit
  fraction : ∀ c ∈ n.fraction, c.isDigit

theorem digits?_toDigits (n : Nat) : digits? (Nat.toDigits 10 n) = some n := by
  have all : (Nat.toDigits 10 n).all Char.isDigit :=
    List.all_eq_true.mpr fun _ => isDigit_of_mem_toDigits
  rw [digits?, if_pos ⟨Nat.toDigits_ne_nil, all⟩, Nat.ofDigitChars_ten_toDigits]

private theorem exponent?_minus (n : Nat) :
    exponent? ('e' :: '-' :: Nat.toDigits 10 n) = some (some (-(n : Int))) := by
  simp [exponent?, digits?_toDigits]

private theorem exponent?_plus (n : Nat) :
    exponent? ('e' :: '+' :: Nat.toDigits 10 n) = some (some (n : Int)) := by
  simp [exponent?, digits?_toDigits]

private theorem exponent?_unsigned (n : Nat) :
    exponent? ('e' :: Nat.toDigits 10 n) = some (some (n : Int)) := by
  have digit : ∀ c rest, Nat.toDigits 10 n = c :: rest → c.isDigit := fun c rest same =>
    isDigit_of_mem_toDigits (same ▸ List.mem_cons_self)
  simp only [exponent?, true_or, if_true]
  split
  next rest same => exact absurd (digit '-' rest same) (by decide)
  next rest same => exact absurd (digit '+' rest same) (by decide)
  next => simp [digits?_toDigits]

theorem exponent?_exponentChars (plusSign : Bool) (e : Option Int) :
    exponent? (exponentChars plusSign e) = some e := by
  cases e with
  | none => rfl
  | some e =>
    by_cases negative : e < 0
    · have value : -(e.natAbs : Int) = e := by omega
      rw [exponentChars, decide_eq_true negative]
      exact (exponent?_minus e.natAbs).trans (by rw [value])
    · have value : (e.natAbs : Int) = e := by omega
      rw [exponentChars, decide_eq_false negative]
      cases plusSign with
      | true => exact (exponent?_plus e.natAbs).trans (by rw [value])
      | false => exact (exponent?_unsigned e.natAbs).trans (by rw [value])

private theorem startsOutside_exponentChars (plusSign : Bool) (e : Option Int) :
    StartsOutside Char.isDigit (exponentChars plusSign e) := by
  intro c first
  cases e with
  | none => cases first
  | some e =>
    cases first
    rfl

def endingChars (plusSign : Bool) (n : Numeral) : List Char :=
  (if n.fraction = [] then [] else '.' :: n.fraction) ++ exponentChars plusSign n.exponent

variable {n : Numeral}

theorem chars_eq (plusSign : Bool) (n : Numeral) :
    n.chars plusSign = signChars false n.negative ++ (n.whole ++ n.endingChars plusSign) := by
  simp only [chars, endingChars, List.append_assoc]

private theorem startsOutside_endingChars (plusSign : Bool) (n : Numeral) :
    StartsOutside Char.isDigit (n.endingChars plusSign) := by
  unfold endingChars
  split_ifs
  · exact startsOutside_exponentChars plusSign n.exponent
  · intro c first
    cases first
    rfl

private theorem ending?_of_no_point {cs : List Char} (noPoint : cs.head? ≠ some '.') :
    ending? cs = (exponent? cs).map ([], ·) := by
  unfold ending?
  split
  next => exact absurd rfl noPoint
  next => rfl

theorem WellFormed.ending?_endingChars (wellFormed : n.WellFormed) (plusSign : Bool) :
    ending? (n.endingChars plusSign) = some (n.fraction, n.exponent) := by
  have exponent := exponent?_exponentChars plusSign n.exponent
  unfold endingChars
  split_ifs with none
  · have noPoint : (exponentChars plusSign n.exponent).head? ≠ some '.' := by
      cases n.exponent with
      | none => simp [exponentChars]
      | some e => simp [exponentChars]
    rw [List.nil_append, ending?_of_no_point noPoint, exponent, none, Option.map_some]
  · have outside := startsOutside_exponentChars plusSign n.exponent
    rw [List.cons_append, ending?, takeWhile_append wellFormed.fraction outside,
      dropWhile_append wellFormed.fraction outside, if_neg none, exponent, Option.map_some]

theorem WellFormed.unsigned?_append (wellFormed : n.WellFormed) (plusSign : Bool) :
    unsigned? n.negative (n.whole ++ n.endingChars plusSign) = some n := by
  have outside := startsOutside_endingChars plusSign n
  have alone : ¬ (n.whole = [] ∨ n.whole.head? = some '0' ∧ 1 < n.whole.length) := by
    rintro (empty | ⟨zero, more⟩)
    · exact wellFormed.nonempty empty
    · exact absurd (wellFormed.leading zero) more.ne'
  simp only [unsigned?, takeWhile_append wellFormed.whole outside,
    dropWhile_append wellFormed.whole outside, alone, if_false,
    wellFormed.ending?_endingChars plusSign, Option.map_some]

theorem WellFormed.ofChars?_chars (wellFormed : n.WellFormed) (plusSign : Bool) :
    ofChars? (n.chars plusSign) = some n := by
  have unsigned := wellFormed.unsigned?_append plusSign
  rw [chars_eq]
  cases negative : n.negative with
  | true =>
    rw [negative] at unsigned
    exact unsigned
  | false =>
    rw [negative] at unsigned
    obtain ⟨c, digits, same⟩ := List.exists_cons_of_ne_nil wellFormed.nonempty
    have digit : c.isDigit := wellFormed.whole c (same ▸ List.mem_cons_self)
    rw [same] at unsigned ⊢
    simp only [signChars, Bool.false_eq_true, if_false, List.nil_append, List.cons_append] at unsigned ⊢
    unfold ofChars?
    split
    next rest same =>
      cases same
      exact absurd digit (by decide)
    next => exact unsigned

theorem wellFormed_ofInt (i : Int) : (ofInt i).WellFormed where
  nonempty := Nat.toDigits_ne_nil
  leading zero := by
    rcases Nat.eq_zero_or_pos i.natAbs with none | positive
    · rw [ofInt, none]
      rfl
    · exact absurd zero (head?_toDigits_ne_zero positive)
  whole _ := isDigit_of_mem_toDigits
  fraction _ member := by cases member

theorem int?_ofInt (i : Int) : (ofInt i).int? = some i := by
  have absolute : Nat.ofDigitChars 10 (ofInt i).whole 0 = i.natAbs := Nat.ofDigitChars_ten_toDigits
  have integer : (ofInt i).isInteger = true := rfl
  have sign : (ofInt i).negative = decide (i < 0) := rfl
  simp only [int?, absolute, integer, sign]
  by_cases negative : i < 0
  · have nonzero : (i.natAbs == 0) = false := by
      rw [beq_eq_false_iff_ne]
      omega
    have value : -(i.natAbs : Int) = i := by omega
    rw [decide_eq_true negative, nonzero, value]
    rfl
  · have value : (i.natAbs : Int) = i := by omega
    rw [decide_eq_false negative, value]
    rfl

end Numeral

namespace Decimal

theorem isDigit_of_mem_significant {d : Decimal} {c : Char} (member : c ∈ d.significant) :
    c.isDigit := by
  obtain ⟨zeros, digits⟩ := d.exists_significant
  exact isDigit_of_mem_toDigits (digits ▸ List.mem_append_left _ member)

theorem exists_significant_cons {d : Decimal} (nonzero : d.coefficient ≠ 0) :
    ∃ c digits, d.significant = c :: digits ∧ c ≠ '0' := by
  have first := head?_toDigits_ne_zero (Nat.pos_of_ne_zero nonzero)
  obtain ⟨zeros, whole⟩ := d.exists_significant
  rw [whole] at first
  cases same : d.significant with
  | nil =>
    cases zeros with
    | zero => exact absurd (by rw [whole, same]; rfl) (Nat.toDigits_ne_nil (n := d.coefficient) (b := 10))
    | succ zeros =>
      rw [same] at first
      exact absurd rfl first
  | cons c digits =>
    rw [same] at first
    exact ⟨c, digits, rfl, fun zero => first (congrArg some zero)⟩

end Decimal

namespace Numeral

variable {c : Char} {digits : List Char}

theorem wellFormed_positional (negative wholeMark : Bool) (point : Int) (nonzero : c ≠ '0')
    (all : ∀ other ∈ c :: digits, other.isDigit) :
    (positional negative wholeMark (c :: digits) point).WellFormed := by
  have zeros : ∀ count, ∀ other ∈ List.replicate count '0', other.isDigit := fun count other member =>
    List.eq_of_mem_replicate member ▸ rfl
  have leading : ∀ rest : List Char, (c :: rest).head? = some '0' → (c :: rest).length = 1 :=
    fun rest zero => absurd (Option.some_inj.mp zero) nonzero
  unfold positional
  dsimp only
  split_ifs with small long mark
  · refine ⟨by simp, fun _ => rfl, by simp, fun other member => ?_⟩
    exact (List.mem_append.mp member).elim (zeros _ other) (all other)
  · refine ⟨by simp, leading _, fun other member => ?_, by simp⟩
    exact (List.mem_append.mp member).elim (all other) (zeros _ other)
  · refine ⟨by simp, leading _, fun other member => ?_, by simp⟩
    exact (List.mem_append.mp member).elim (all other) (zeros _ other)
  · obtain ⟨before, places⟩ : ∃ before, point.toNat = before + 1 := ⟨point.toNat - 1, by omega⟩
    rw [places]
    refine ⟨by simp, leading _, fun other member => ?_, fun other member => ?_⟩
    · exact all other (List.mem_of_mem_take member)
    · exact all other (List.mem_of_mem_drop member)

theorem wellFormed_positional_nil (negative wholeMark : Bool) :
    (positional negative wholeMark [] 1).WellFormed := by
  cases wholeMark
  · exact ⟨by simp [positional], fun _ => rfl, by simp [positional], by simp [positional]⟩
  · exact ⟨by simp [positional], fun _ => rfl, by simp [positional], by simp [positional]⟩

theorem wellFormed_scientific (negative : Bool) (point : Int)
    (all : ∀ other ∈ c :: digits, other.isDigit) :
    (scientific negative (c :: digits) point).WellFormed where
  nonempty := by simp [scientific]
  leading _ := rfl
  whole other member := all other (List.mem_of_mem_take member)
  fraction other member := all other (List.mem_of_mem_drop member)

end Numeral

namespace Binary64

variable {x : Binary64}

theorem shortest_of_coefficient_eq_zero {tie : Tie} (finite : x.isFinite)
    (zero : (x.shortest tie).coefficient = 0) : x.shortest tie = ⟨0, 0⟩ := by
  have same := toBinary64_shortest tie finite
  rw [Decimal.toBinary64_of_zero zero] at same
  have null : x.isZero := by
    rw [← same, isZero, magnitude_ofMagnitude _ (by decide)]
    rfl
  rw [shortest, if_pos null]

theorem wellFormed_numeral {layout : Layout} (zeroPositional : layout.isPositional 1)
    (finite : x.isFinite) : (layout.numeral x).WellFormed := by
  by_cases zero : (x.shortest layout.tie).coefficient = 0
  · have same := shortest_of_coefficient_eq_zero finite zero
    have point : (⟨0, 0⟩ : Decimal).point = 1 := rfl
    simp only [Layout.numeral, same, point, zeroPositional, if_true]
    exact Numeral.wellFormed_positional_nil _ _
  · obtain ⟨c, digits, same, nonzero⟩ := Decimal.exists_significant_cons zero
    have all : ∀ other ∈ c :: digits, other.isDigit := fun other member =>
      Decimal.isDigit_of_mem_significant (same ▸ member)
    unfold Layout.numeral
    dsimp only
    rw [same]
    split_ifs
    · exact Numeral.wellFormed_positional _ _ _ nonzero all
    · exact Numeral.wellFormed_scientific _ _ all

end Binary64

end Directivity
