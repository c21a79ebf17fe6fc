import Directivity.Proofs.Difference
import Directivity.Record
import Mathlib

/-!
Which records are the same.

An arrangement is a linear order of directions, pattern by pattern. As far as values tell patterns
apart, it is the order of the values; what remains to the patterns are NaNs, which have no value,
and the zeros, which share one. Two records are equal if their directions are the same patterns, and
then and only then they have the same fingerprint, so a hash set of records keeps one record of each
direction.
-/

set_option autoImplicit false
set_option relaxedAutoImplicit false

namespace Directivity

private theorem compare_eq_compare {α β : Type} [LinearOrder α] [LinearOrder β] {a b : α} {c d : β}
    (lt : a < b → c < d) (eq : a = b → c = d) (gt : b < a → d < c) : compare a b = compare c d := by
  rcases lt_trichotomy a b with less | same | more
  · rw [compare_lt_iff_lt.mpr less, compare_lt_iff_lt.mpr (lt less)]
  · rw [compare_eq_iff_eq.mpr same, compare_eq_iff_eq.mpr (eq same)]
  · rw [compare_gt_iff_gt.mpr more, compare_gt_iff_gt.mpr (gt more)]

namespace Binary64

variable {x y : Binary64}

/-- The value of a number in units of `2 ^ -1074`; the infinities lie below and above all other
values. -/
def extendedUnits (x : Binary64) : EInt :=
  if x.isInfinite then if x.isNegative then ⊥ else ⊤ else x.signedUnits

theorem extendedUnits_cases (defined : x.isNaN = false) :
    (x.valueRank = -(infiniteMagnitude : ℤ) ∧ x.extendedUnits = ⊥) ∨
      (x.isFinite ∧ x.extendedUnits = x.signedUnits) ∨
      (x.valueRank = infiniteMagnitude ∧ x.extendedUnits = ⊤) := by
  rcases isFinite_or_isInfinite defined with finite | infinite
  · have bounded := isInfinite_eq_false_of_isFinite finite
    exact .inr (.inl ⟨finite, if_neg (Bool.eq_false_iff.mp bounded)⟩)
  · have magnitude : x.magnitude = infiniteMagnitude := beq_iff_eq.mp infinite
    cases sign : x.isNegative with
    | true => exact .inl (by simp [valueRank, extendedUnits, magnitude, infinite, sign])
    | false => exact .inr (.inr (by simp [valueRank, extendedUnits, magnitude, infinite, sign]))

theorem extendedUnits_lt (less : x < y) : x.extendedUnits < y.extendedUnits := by
  have rank := less.2
  have bounds := natAbs_valueRank x
  have bounds' := natAbs_valueRank y
  obtain ⟨defined, defined'⟩ := isNaN_of_lt less
  rcases extendedUnits_cases defined with ⟨lowest, value⟩ | ⟨finite, value⟩ | ⟨highest, value⟩
  · rcases extendedUnits_cases defined' with ⟨lowest', -⟩ | ⟨-, value'⟩ | ⟨-, value'⟩
    · omega
    · rw [value, value']
      exact bot_lt_iff_ne_bot.mpr (WithBotTop.coe_ne_bot _)
    · rw [value, value']
      exact bot_lt_top
  · rcases extendedUnits_cases defined' with ⟨lowest', -⟩ | ⟨finite', value'⟩ | ⟨-, value'⟩
    · -- No finite number is below the lowest one.
      simp only [isFinite, decide_eq_true_eq] at finite
      omega
    · rw [value, value', WithBotTop.coe_lt_coe]
      exact (lt_iff_of_isFinite finite finite').mp less
    · rw [value, value']
      exact lt_top_iff_ne_top.mpr (WithBotTop.coe_ne_top _)
  · -- Only NaNs are of a greater magnitude than the highest number.
    simp only [isNaN, decide_eq_false_iff_not] at defined'
    omega

theorem extendedUnits_of_isZero (zero : x.isZero) : x.extendedUnits = (0 : ℤ) := by
  have magnitude : x.magnitude = 0 := beq_iff_eq.mp zero
  have units : x.signedUnits = 0 := by
    rw [signedUnits, units, magnitude]
    split_ifs <;> rfl
  rw [extendedUnits, isInfinite, magnitude, units]
  rfl

theorem extendedUnits_of_sameValue (same : x.sameValue y) : x.extendedUnits = y.extendedUnits := by
  rcases eq_or_isZero_of_sameValue same with rfl | ⟨zero, zero'⟩
  · rfl
  · rw [extendedUnits_of_isZero zero, extendedUnits_of_isZero zero']

theorem compare_valueRank (defined : comparable x y = true) :
    compare x.valueRank y.valueRank = compare x.extendedUnits y.extendedUnits := by
  apply compare_eq_compare
  · exact fun less => extendedUnits_lt ⟨defined, less⟩
  · exact fun same => extendedUnits_of_sameValue (by simp [sameValue, defined, same])
  · exact fun more => extendedUnits_lt ⟨by rwa [comparable, Bool.and_comm], more⟩

theorem totalCompare_eq_compare_valueRank (apart : ¬ (x.isZero ∧ y.isZero)) :
    x.totalCompare y = compare x.valueRank y.valueRank := by
  simp only [isZero, beq_iff_eq] at apart
  unfold totalCompare
  apply compare_eq_compare <;>
    · simp only [rank, valueRank]
      split_ifs <;> omega

/-- The values of two patterns decide how they compare: neither is a NaN, and they are not both
zeros. Every pattern compares with itself as its value does. -/
def ComparesByValue (x y : Binary64) : Prop :=
  x = y ∨ x.isNaN = false ∧ y.isNaN = false ∧ ¬ (x.isZero ∧ y.isZero)

theorem ComparesByValue.totalCompare_eq (byValue : x.ComparesByValue y) :
    x.totalCompare y = compare x.extendedUnits y.extendedUnits := by
  rcases byValue with rfl | ⟨defined, defined', apart⟩
  · rw [totalCompare, compare_eq_iff_eq.mpr rfl, compare_eq_iff_eq.mpr rfl]
  · have comparable : comparable x y = true := by simp [comparable, defined, defined']
    rw [totalCompare_eq_compare_valueRank apart, compare_valueRank comparable]

end Binary64

namespace Arrangement

variable {arrangement : Arrangement} {a b : Direction}

def values (arrangement : Arrangement) (d : Direction) : EInt ×ₗ EInt :=
  toLex ((arrangement.leading d).extendedUnits, (arrangement.other.leading d).extendedUnits)

/-- The leading angles compare by their values, and so do the others where the leading ones leave it
to them. -/
def ComparesByValues (arrangement : Arrangement) (a b : Direction) : Prop :=
  (arrangement.leading a).ComparesByValue (arrangement.leading b) ∧
    ((arrangement.leading a).extendedUnits = (arrangement.leading b).extendedUnits →
      (arrangement.other.leading a).ComparesByValue (arrangement.other.leading b))

theorem compare_eq_then (arrangement : Arrangement) (a b : Direction) :
    arrangement.compare a b =
      ((arrangement.leading a).totalCompare (arrangement.leading b)).then
        ((arrangement.other.leading a).totalCompare (arrangement.other.leading b)) := by
  cases arrangement <;> rfl

theorem ComparesByValues.compare_eq (byValues : arrangement.ComparesByValues a b) :
    arrangement.compare a b = Ord.compare (arrangement.values a) (arrangement.values b) := by
  obtain ⟨leading, others⟩ := byValues
  rw [compare_eq_then, leading.totalCompare_eq, Prod.Lex.compare_def]
  simp only [values, compareLex, compareOn, ofLex_toLex]
  cases order : Ord.compare (arrangement.leading a).extendedUnits
      (arrangement.leading b).extendedUnits with
  | lt => rfl
  | gt => rfl
  | eq => exact (others (compare_eq_iff_eq.mp order)).totalCompare_eq

theorem isLinearOrder (arrangement : Arrangement) :
    IsLinearOrder Direction fun a b => (arrangement.compare a b).isLE := by
  let keys : (fun a b => (arrangement.compare a b).isLE) ↪r fun k l : ℤ ×ₗ ℤ => k ≤ l :=
    ⟨⟨arrangement.key, arrangement.key_injective⟩, (arrangement.isLE_compare _ _).symm⟩
  exact keys.isLinearOrder

theorem compare_eq_eq (arrangement : Arrangement) (a b : Direction) :
    arrangement.compare a b = .eq ↔ a = b := by
  rw [compare_eq_compare_key, compare_eq_iff_eq, arrangement.key_injective.eq_iff]

end Arrangement

theorem Direction.eq_iff_bits (a b : Direction) :
    a = b ↔ a.elevation.bits = b.elevation.bits ∧ a.azimuth.bits = b.azimuth.bits := by
  obtain ⟨⟨x⟩, ⟨y⟩⟩ := a
  obtain ⟨⟨x'⟩, ⟨y'⟩⟩ := b
  simp

section Counting

variable {α β : Type} [BEq α] {key : α → β}

theorem map_subset_map_of_contains (beq_iff : ∀ a b : α, a == b ↔ key a = key b) {items items' : List α}
    (contained : ∀ a, items.contains a → items'.contains a) : items.map key ⊆ items'.map key := by
  intro k member
  obtain ⟨a, listed, rfl⟩ := List.mem_map.mp member
  have there : items.contains a :=
    List.contains_iff_exists_mem_beq.mpr ⟨a, listed, (beq_iff a a).mpr rfl⟩
  obtain ⟨b, listed', same⟩ := List.contains_iff_exists_mem_beq.mp (contained a there)
  exact List.mem_map.mpr ⟨b, listed', ((beq_iff a b).mp same).symm⟩

/-- Where items are equal just if their keys are, a hash set of items is as large as the set of
their keys. -/
theorem size_hashSet_ofList [EquivBEq α] [Hashable α] [LawfulHashable α] [DecidableEq β]
    (beq_iff : ∀ a b : α, a == b ↔ key a = key b) (items : List α) :
    (Std.HashSet.ofList items).size = (items.map key).toFinset.card := by
  have distinct : ((Std.HashSet.ofList items).toList.map key).Nodup := by
    refine List.pairwise_map.mpr (Std.HashSet.distinct_toList.imp ?_)
    intro a b apart same
    exact Bool.eq_false_iff.mp apart ((beq_iff a b).mpr same)
  have contains (a : α) : (Std.HashSet.ofList items).toList.contains a = items.contains a := by
    rw [Std.HashSet.contains_toList, Std.HashSet.contains_ofList]
  have keys : ((Std.HashSet.ofList items).toList.map key).toFinset = (items.map key).toFinset := by
    refine List.toFinset.ext fun k => ⟨fun member => ?_, fun member => ?_⟩
    · exact map_subset_map_of_contains beq_iff (fun a there => contains a ▸ there) member
    · exact map_subset_map_of_contains beq_iff (fun a there => (contains a).symm ▸ there) member
  rw [← keys, List.toFinset_card_of_nodup distinct, List.length_map, Std.HashSet.length_toList]

end Counting

namespace Record

theorem fingerprint_eq_iff (a b : Record) :
    a.fingerprint = b.fingerprint ↔ a.direction = b.direction := by
  rw [Direction.eq_iff_bits, fingerprint, fingerprint, Prod.mk.injEq]

theorem beq_iff_fingerprint_eq (a b : Record) : a == b ↔ a.fingerprint = b.fingerprint := by
  rw [fingerprint_eq_iff, ← Arrangement.byElevation.compare_eq_eq]
  exact Ordering.isEq_iff_eq_eq

instance : EquivBEq Record where
  rfl {a} := (beq_iff_fingerprint_eq a a).mpr rfl
  symm {a b} same := (beq_iff_fingerprint_eq b a).mpr ((beq_iff_fingerprint_eq a b).mp same).symm
  trans {a b c} left right := (beq_iff_fingerprint_eq a c).mpr
    (((beq_iff_fingerprint_eq a b).mp left).trans ((beq_iff_fingerprint_eq b c).mp right))

/-- The number of records in a set that looks them up by a digest of their fingerprints. -/
def distinctCountBy (digest : UInt64 × UInt64 → UInt64) (records : List Record) : Nat :=
  letI : Hashable Record := ⟨fun record => digest record.fingerprint⟩
  (Std.HashSet.ofList records).size

theorem distinctCountBy_eq (digest : UInt64 × UInt64 → UInt64) (records : List Record) :
    distinctCountBy digest records = (records.map fingerprint).toFinset.card := by
  let _ : Hashable Record := ⟨fun record => digest record.fingerprint⟩
  have : LawfulHashable Record :=
    ⟨fun a b same => congrArg digest ((beq_iff_fingerprint_eq a b).mp same)⟩
  exact size_hashSet_ofList beq_iff_fingerprint_eq records

/-- Either arrangement is a linear order of directions, whatever their patterns are; only the same
patterns compare as equal, and as far as values decide, the order is that of the values. So the
equality of records is an equivalence that does not look at attenuations, records have one
fingerprint just if they are equal, and a hash set of records, whatever it makes of the
fingerprints, has as many records as there are fingerprints. -/
theorem order_equality_hash_agree :
    (∀ arrangement : Arrangement,
      IsLinearOrder Direction (fun a b => (arrangement.compare a b).isLE) ∧
        (∀ a b, arrangement.compare a b = .eq ↔
          a.elevation.bits = b.elevation.bits ∧ a.azimuth.bits = b.azimuth.bits) ∧
        ∀ a b, arrangement.ComparesByValues a b →
          arrangement.compare a b = compare (arrangement.values a) (arrangement.values b)) ∧
      Equivalence (fun a b : Record => a == b) ∧
      (∀ (a b : Record) (attenuation attenuation' : Array Binary64),
        (({ a with attenuation } : Record) == { b with attenuation := attenuation' }) = (a == b)) ∧
      (∀ a b : Record, a == b ↔ a.fingerprint = b.fingerprint) ∧
      ∀ records, distinctCount records = (records.map fingerprint).toFinset.card ∧
        ∀ digest, distinctCountBy digest records = (records.map fingerprint).toFinset.card := by
  refine ⟨fun arrangement => ⟨arrangement.isLinearOrder, fun a b => ?_, fun a b => ?_⟩, ?_, ?_,
    beq_iff_fingerprint_eq, fun records => ⟨?_, fun digest => ?_⟩⟩
  · rw [arrangement.compare_eq_eq, Direction.eq_iff_bits]
  · exact Arrangement.ComparesByValues.compare_eq
  · exact ⟨fun _ => BEq.rfl, BEq.symm, BEq.trans⟩
  · exact fun _ _ _ _ => rfl
  · exact distinctCountBy_eq hash records
  · exact distinctCountBy_eq digest records

theorem order_equality_hash_agree_zeros :
    Arrangement.byAzimuth.ComparesByValues ⟨.nan, 1⟩ ⟨0, .infinity⟩ ∧
      Arrangement.byAzimuth.compare ⟨.nan, 1⟩ ⟨0, .infinity⟩ = .lt ∧
      distinctCount [⟨⟨0, 1⟩, #[1]⟩, ⟨⟨-0, 1⟩, #[1]⟩, ⟨⟨.nan, 1⟩, #[1]⟩, ⟨⟨.nan, 1⟩, #[2]⟩] = 3 := by
  have byValues : Arrangement.byAzimuth.ComparesByValues ⟨.nan, 1⟩ ⟨0, .infinity⟩ := by
    refine ⟨.inr (by decide +kernel), fun same => absurd same ?_⟩
    decide +kernel
  obtain ⟨arrangements, -, -, -, counts⟩ := order_equality_hash_agree
  refine ⟨byValues, ?_, ?_⟩
  · rw [(arrangements .byAzimuth).2.2 _ _ byValues]
    decide +kernel
  · rw [(counts _).1]
    decide +kernel

end Record

end Directivity
