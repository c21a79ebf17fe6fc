import Directivity.Proofs.Arithmetic
import Directivity.Proofs.Store.Neighbours

set_option autoImplicit false
set_option relaxedAutoImplicit false

namespace Directivity

open Binary64

/-- What a blend relies on: the elementary functions pass a NaN on, and neither an arc cosine nor a
power of ten has a sign. -/
structure Elementary.Lawful (lib : Elementary) : Prop where
  sin_isNaN : ∀ x, x.isNaN → (lib.sin x).isNaN
  cos_isNaN : ∀ x, x.isNaN → (lib.cos x).isNaN
  acos_isNaN : ∀ x, x.isNaN → (lib.acos x).isNaN
  log10_isNaN : ∀ x, x.isNaN → (lib.log10 x).isNaN
  acos_plus : ∀ x, (lib.acos x).isNaN ∨ (lib.acos x).isNegative = false
  exp10_plus : ∀ x, (lib.exp10 x).isNaN ∨ (lib.exp10 x).isNegative = false

/-- Sines, cosines and arc cosines pass a NaN on. -/
structure Elementary.KeepsNaN (lib : Elementary) : Prop where
  sin_isNaN : ∀ x, x.isNaN → (lib.sin x).isNaN
  cos_isNaN : ∀ x, x.isNaN → (lib.cos x).isNaN
  acos_isNaN : ∀ x, x.isNaN → (lib.acos x).isNaN

theorem Elementary.Lawful.keepsNaN {lib : Elementary} (lawful : lib.Lawful) : lib.KeepsNaN :=
  ⟨lawful.sin_isNaN, lawful.cos_isNaN, lawful.acos_isNaN⟩

namespace Binary64

def quarterPi : Binary64 := ⟨0x3FE921FB54442D18⟩

/-- A function given by a table, and a NaN elsewhere. -/
def tabulated (table : List (Binary64 × Binary64)) (x : Binary64) : Binary64 :=
  ((table.find? fun entry => entry.1 == x).map Prod.snd).getD .nan

variable {table : List (Binary64 × Binary64)}

theorem isNaN_tabulated (numbers : ∀ entry ∈ table, entry.1.isNaN = false) {x : Binary64}
    (undefined : x.isNaN) : (tabulated table x).isNaN := by
  have absent : table.find? (fun entry => entry.1 == x) = none := by
    refine List.find?_eq_none.mpr fun entry member same => ?_
    rw [← eq_of_beq same, numbers entry member] at undefined
    cases undefined
  rw [tabulated, absent]
  exact isNaN_nan

theorem tabulated_of_forall (P : Binary64 → Prop) (elsewhere : P .nan)
    (values : ∀ entry ∈ table, P entry.2) (x : Binary64) : P (tabulated table x) := by
  unfold tabulated
  cases found : table.find? fun entry => entry.1 == x with
  | none => exact elsewhere
  | some entry => exact values entry (List.mem_of_find?_eq_some found)

end Binary64

/-- The elementary functions, rounded, at the angles `0`, `π / 2` and `-π / 4` and what lies between
them, at `0`, `10`, `20` and `30` dB, and at the power of the mean of `10` dB and `20` dB. -/
def Elementary.sampled : Elementary where
  sin := tabulated
    [(⟨0⟩, ⟨0⟩), (halfPi, ⟨0x3FF0000000000000⟩), (-quarterPi, ⟨0xBFE6A09E667F3BCC⟩)]
  cos := tabulated
    [(⟨0⟩, ⟨0x3FF0000000000000⟩), (halfPi, ⟨0x3C91A62633145C07⟩), (-halfPi, ⟨0x3C91A62633145C07⟩),
      (-quarterPi, ⟨0x3FE6A09E667F3BCD⟩)]
  acos := tabulated
    [(⟨0x3FF0000000000000⟩, ⟨0⟩), (⟨0x3FE6A09E667F3BCD⟩, quarterPi), (⟨0x3C91A62633145C07⟩, halfPi),
      (⟨0x3C88F5A0BE038ED7⟩, halfPi), (⟨0xBFE6A09E667F3BCC⟩, ⟨0x4002D97C7F3321D2⟩)]
  exp10 := tabulated
    [(⟨0⟩, ⟨0x3FF0000000000000⟩), (⟨0x3FF0000000000000⟩, ⟨0x4024000000000000⟩),
      (⟨0x4000000000000000⟩, ⟨0x4059000000000000⟩), (⟨0x4008000000000000⟩, ⟨0x408F400000000000⟩)]
  log10 := tabulated
    [(⟨0x3FF0000000000000⟩, ⟨0⟩), (⟨0x4024000000000000⟩, ⟨0x3FF0000000000000⟩),
      (⟨0x404B800000000000⟩, ⟨0x3FFBD8868C28E6EF⟩), (⟨0x4059000000000000⟩, ⟨0x4000000000000000⟩),
      (⟨0x408F400000000000⟩, ⟨0x4008000000000000⟩)]
  log2 := tabulated []

theorem Elementary.lawful_sampled : Elementary.sampled.Lawful where
  sin_isNaN _ := isNaN_tabulated (by decide)
  cos_isNaN _ := isNaN_tabulated (by decide)
  acos_isNaN _ := isNaN_tabulated (by decide)
  log10_isNaN _ := isNaN_tabulated (by decide)
  acos_plus := tabulated_of_forall (fun y => y.isNaN ∨ y.isNegative = false) (by decide) (by decide)
  exp10_plus := tabulated_of_forall (fun y => y.isNaN ∨ y.isNegative = false) (by decide) (by decide)

namespace Direction

def IsDefined (d : Direction) : Prop :=
  d.elevation.isNaN = false ∧ d.azimuth.isNaN = false

variable {lib : Elementary} {d : Direction}

theorem distance_plus (lawful : lib.Lawful) (a b : Direction) :
    (a.distance lib b).isNaN ∨ (a.distance lib b).isNegative = false := by
  unfold distance
  split_ifs
  · exact .inr isNegative_zero
  · exact lawful.acos_plus _

theorem distance_self_eq_zero (lib : Elementary) (defined : d.IsDefined) :
    d.distance lib d = 0 := by
  simp [distance, sameValue, comparable, defined.1, defined.2]

theorem isNaN_distance (keeps : lib.KeepsNaN) (undefined : ¬ d.IsDefined) (other : Direction) :
    (d.distance lib other).isNaN := by
  rw [IsDefined, not_and_or, Bool.not_eq_false, Bool.not_eq_false] at undefined
  have cosine : ∀ s c, (lib.sin d.azimuth * s + lib.cos d.azimuth * c *
      lib.cos (d.elevation - other.elevation)).isNaN := by
    intro s c
    rcases undefined with elevation | azimuth
    · have shift : (d.elevation - other.elevation).isNaN := by
        rw [sub_of_isNaN elevation]
        exact isNaN_nan
      rw [mul_of_isNaN (.inr (keeps.cos_isNaN _ shift)), add_of_isNaN (.inr isNaN_nan)]
      exact isNaN_nan
    · rw [mul_of_isNaN (.inl (keeps.sin_isNaN _ azimuth)), add_of_isNaN (.inl isNaN_nan)]
      exact isNaN_nan
  have apart :
      (d.elevation.sameValue other.elevation && d.azimuth.sameValue other.azimuth) = false := by
    rcases undefined with undefined | undefined <;> simp [sameValue, comparable, undefined]
  rw [distance, apart]
  exact keeps.acos_isNaN _ (isNaN_clamp (cosine _ _) _ _)

theorem distance_self (lawful : lib.Lawful) (d : Direction) :
    d.distance lib d = 0 ∨ (d.distance lib d).isNaN := by
  by_cases defined : d.IsDefined
  · exact .inl (distance_self_eq_zero lib defined)
  · exact .inr (isNaN_distance lawful.keepsNaN defined d)

end Direction

namespace Cell

variable {lib : Elementary} {part length : Binary64}

theorem isWeight_share (hp : part.isNaN ∨ part.isNegative = false)
    (hl : length.isNaN ∨ length.isNegative = false) : IsWeight (share part length) := by
  have quotient := isUnsigned_div hp hl
  simp only [share, clamp]
  split_ifs with undefined below above
  · exact isWeight_zero
  · exact isWeight_zero
  · exact isWeight_one
  · refine ⟨quotient.plus, ?_⟩
    have defined : comparable 1 (part / length) = true := by
      simp [comparable, undefined, isNaN_eq_false_of_isFinite isFinite_one]
    have le := not_lt.mp fun less => above ⟨defined, less⟩
    simp only [valueRank, quotient.plus, isNegative_one, Bool.false_eq_true, if_false,
      Int.ofNat_le] at le
    exact le

theorem share_of_zero (hl : length.isNaN ∨ length.isNegative = false) : share 0 length = 0 := by
  rw [share]
  rcases zero_div_eq hl with undefined | zero
  · rw [undefined]
    rfl
  · rw [zero]
    decide +kernel

theorem share_of_isNaN (undefined : part.isNaN) : share part length = 0 := by
  rw [share, div_of_isNaN (.inl undefined)]
  rfl

/-- How much the lower leading angle of a cell weighs for a direction. -/
def weight (lib : Elementary) (cell : Cell Record) (direction : Direction) : Arrangement → Binary64
  | .byElevation => (cell.weights lib direction).1
  | .byAzimuth => (cell.weights lib direction).2

theorem isWeight_weight (lawful : lib.Lawful) (cell : Cell Record) (direction : Direction)
    (arrangement : Arrangement) : IsWeight (cell.weight lib direction arrangement) := by
  cases arrangement <;>
    exact isWeight_share (Direction.distance_plus lawful _ _) (Direction.distance_plus lawful _ _)

theorem weight_eq_zero (lawful : lib.Lawful) {cell : Cell Record} {direction : Direction}
    {arrangement : Arrangement}
    (same : arrangement.leading cell.c00.direction = arrangement.leading direction) :
    cell.weight lib direction arrangement = 0 := by
  have vanishes : ∀ a b : Direction,
      share (direction.distance lib direction) (a.distance lib b) = 0 := by
    intro a b
    rcases direction.distance_self lawful with zero | undefined
    · rw [zero]
      exact share_of_zero (Direction.distance_plus lawful a b)
    · exact share_of_isNaN undefined
  cases arrangement with
  | byElevation =>
    have same' : cell.c00.direction.elevation = direction.elevation := same
    simp only [weight, weights, same']
    exact vanishes _ _
  | byAzimuth =>
    have same' : cell.c00.direction.azimuth = direction.azimuth := same
    simp only [weight, weights, same']
    exact vanishes _ _

/-- The two corners at the upper leading angle, first the one at the upper other angle. -/
def upperSide {α : Type} (cell : Cell α) : Arrangement → α × α
  | .byElevation => (cell.c00, cell.c01)
  | .byAzimuth => (cell.c00, cell.c10)

def lowerSide {α : Type} (cell : Cell α) : Arrangement → α × α
  | .byElevation => (cell.c10, cell.c11)
  | .byAzimuth => (cell.c01, cell.c11)

theorem upperSide_map {α β : Type} (f : α → β) (cell : Cell α) (arrangement : Arrangement) :
    (cell.map f).upperSide arrangement = (cell.upperSide arrangement).map f f := by
  cases arrangement <;> rfl

theorem lowerSide_map {α β : Type} (f : α → β) (cell : Cell α) (arrangement : Arrangement) :
    (cell.map f).lowerSide arrangement = (cell.lowerSide arrangement).map f f := by
  cases arrangement <;> rfl

section Blend

variable {lib : Elementary} {weighs : Arrangement → Binary64} {arrangement : Arrangement}

theorem power_plus (lawful : lib.Lawful) {level : Binary64} (finite : (lib.power level).isFinite) :
    (lib.power level).isNegative = false := by
  refine (lawful.exp10_plus _).resolve_left ?_
  rw [show (lib.exp10 (level / 10)).isNaN = false from isNaN_eq_false_of_isFinite finite]
  exact Bool.false_ne_true

theorem isUnsigned_power_mul (lawful : lib.Lawful) {w : Binary64} (hw : IsWeight w)
    (level : Binary64) : (lib.power level * w).IsUnsigned :=
  isUnsigned_mul (lawful.exp10_plus _) hw.plus

theorem level_of_isNaN (lawful : lib.Lawful) {power : Binary64} (undefined : power.isNaN) :
    lib.level power = nan :=
  mul_of_isNaN (.inr (lawful.log10_isNaN _ undefined))

theorem blend_of_weight_eq_zero (lawful : lib.Lawful) (weights : ∀ a, IsWeight (weighs a))
    (zero : weighs arrangement = 0) (cell : Cell Binary64)
    (finite : (lib.power (cell.lowerSide arrangement).1).isFinite ∧
      (lib.power (cell.lowerSide arrangement).2).isFinite) :
    cell.blend lib.power lib.level (weighs .byElevation) (weighs .byAzimuth) =
      lib.level (lib.power (cell.upperSide arrangement).1 * (1 - weighs arrangement.other) +
        lib.power (cell.upperSide arrangement).2 * weighs arrangement.other) := by
  have unsigned : ∀ level w, IsWeight w → (lib.power level * w).IsUnsigned :=
    fun level _ hw => isUnsigned_power_mul lawful hw level
  cases arrangement with
  | byElevation =>
    have finite' : (lib.power cell.c10).isFinite ∧ (lib.power cell.c11).isFinite := finite
    have azimuth := weights .byAzimuth
    have rest := azimuth.one_sub
    -- A light elevation is zero before the azimuth counts.
    have light : ∀ level w, (lib.power level).isFinite → IsWeight w → lib.power level * 0 * w = 0 :=
      fun level w finite hw => by
        rw [mul_zero_eq finite (power_plus lawful finite), zero_mul_eq hw.isFinite hw.plus]
    simp only [blend, zero, one_sub_zero, mul_one_mul, light _ _ finite'.1 rest,
      light _ _ finite'.2 azimuth, upperSide, Arrangement.other]
    rw [(unsigned _ _ rest).add_zero, ((unsigned _ _ rest).add (unsigned _ _ azimuth)).add_zero]
  | byAzimuth =>
    have finite' : (lib.power cell.c01).isFinite ∧ (lib.power cell.c11).isFinite := finite
    have elevation := weights .byElevation
    have rest := elevation.one_sub
    have light : ∀ level w, (lib.power level).isFinite → IsWeight w → lib.power level * w * 0 = 0 :=
      fun level w finite hw => mul_zero_eq (hw.isFinite_mul finite) (unsigned level w hw).plus
    simp only [blend, zero, one_sub_zero, (unsigned _ _ rest).mul_one,
      (unsigned _ _ elevation).mul_one, light _ _ finite'.1 rest, light _ _ finite'.2 elevation,
      upperSide, Arrangement.other]
    have sum := (unsigned cell.c00 _ rest).add (unsigned cell.c10 _ elevation)
    rw [sum.add_zero, sum.add_zero]

theorem blend_of_weights_eq_zero (lawful : lib.Lawful) (zero : ∀ a, weighs a = 0)
    {cell : Cell Binary64} (h10 : (lib.power cell.c10).isFinite)
    (h11 : (lib.power cell.c11).isFinite) (h01 : (lib.power cell.c01).isFinite) :
    cell.blend lib.power lib.level (weighs .byElevation) (weighs .byAzimuth) =
      lib.level (lib.power cell.c00) := by
  have weights : ∀ a, IsWeight (weighs a) := fun a => zero a ▸ isWeight_zero
  have single := isUnsigned_power_mul lawful isWeight_one cell.c00
  rw [blend_of_weight_eq_zero lawful weights (zero .byElevation) cell ⟨h10, h11⟩, zero]
  show lib.level (lib.power cell.c00 * (1 - 0) + lib.power cell.c01 * 0) = _
  rw [one_sub_zero, mul_zero_eq h01 (power_plus lawful h01), single.add_zero, mul_one_eq]
  split_ifs with undefined
  · rw [level_of_isNaN lawful isNaN_nan, level_of_isNaN lawful undefined]
  · rfl

/-- Weight zero does not keep out a power that is not finite: the blend is a NaN. -/
theorem blend_of_not_isFinite (lawful : lib.Lawful) (zero : weighs arrangement = 0)
    (cell : Cell Binary64)
    (infinite : ¬ (lib.power (cell.lowerSide arrangement).1).isFinite ∨
      ¬ (lib.power (cell.lowerSide arrangement).2).isFinite) :
    cell.blend lib.power lib.level (weighs .byElevation) (weighs .byAzimuth) = nan := by
  have undefined := isNaN_nan
  have level : lib.level nan = nan := level_of_isNaN lawful undefined
  cases arrangement with
  | byElevation =>
    have lower : ¬ (lib.power cell.c10).isFinite ∨ ¬ (lib.power cell.c11).isFinite := infinite
    rw [blend, zero]
    rcases lower with c10 | c11
    · rw [mul_zero_of_not_isFinite c10, mul_of_isNaN (.inl undefined),
        add_of_isNaN (.inr undefined), add_of_isNaN (.inl undefined),
        add_of_isNaN (.inl undefined), level]
    · rw [mul_zero_of_not_isFinite c11, mul_of_isNaN (.inl undefined),
        add_of_isNaN (.inr undefined), level]
  | byAzimuth =>
    have lower : ¬ (lib.power cell.c01).isFinite ∨ ¬ (lib.power cell.c11).isFinite := infinite
    rw [blend, zero]
    rcases lower with c01 | c11
    · rw [mul_zero_of_not_isFinite (not_isFinite_mul c01 _), add_of_isNaN (.inr undefined),
        add_of_isNaN (.inl undefined), level]
    · rw [mul_zero_of_not_isFinite (not_isFinite_mul c11 _), add_of_isNaN (.inr undefined), level]

end Blend

theorem value_interpolate (lib : Elementary) (cell : Cell Record) (direction : Direction)
    {column : Nat} (inside : ∀ record ∈ cell.corners, column < record.attenuation.size) :
    (cell.interpolate lib direction).value column =
      (cell.map (Record.value · column)).blend lib.power lib.level
        (cell.weight lib direction .byElevation) (cell.weight lib direction .byAzimuth) := by
  simp only [corners, List.forall_mem_cons] at inside
  obtain ⟨h00, h10, h11, h01, -⟩ := inside
  simp [interpolate, Record.value, bands, Cell.map, weight, h00, h10, h11, h01]

end Cell

end Directivity
