import Directivity.Proofs.Difference
import Directivity.Proofs.Store.Measured
import Directivity.Proofs.Store.Sizes
import Mathlib.Analysis.SpecialFunctions.Log.Base
import Mathlib.Analysis.SpecialFunctions.Pow.Real

/-!
Levels between the corners of a cell.

A share lies between zero and one whatever the distances are. So, read as real numbers, the weights
of a cell give each corner a part of the whole, and the power between the corners is a mean of
theirs. As a level grows with its power, the level between the corners lies between the least and
the greatest there.
-/

set_option autoImplicit false
set_option relaxedAutoImplicit false

namespace Directivity

namespace Binary64

variable {x y low high : Binary64}

noncomputable def toReal (x : Binary64) : ℝ :=
  x.signedUnits / oneUnits

theorem toReal_mono (le : x ≤ y) : x.toReal ≤ y.toReal := by
  have units : (x.signedUnits : ℝ) ≤ y.signedUnits := Int.cast_le.mpr (signedUnits_mono le.2)
  exact div_le_div_of_nonneg_right units (Nat.cast_nonneg _)

theorem toReal_of_signedUnits {n : ℤ} (units : x.signedUnits = n * oneUnits) : x.toReal = n := by
  have positive : (oneUnits : ℝ) ≠ 0 := Nat.cast_ne_zero.mpr oneUnits_pos.ne'
  rw [toReal, units, Int.cast_mul, Int.cast_natCast, mul_div_cancel_right₀ _ positive]

theorem toReal_zero : (0 : Binary64).toReal = 0 := by
  have value := toReal_of_signedUnits (x := 0) (n := 0) (by decide +kernel)
  rwa [Int.cast_zero] at value

theorem toReal_one : (1 : Binary64).toReal = 1 := by
  have value := toReal_of_signedUnits (x := 1) (n := 1) (by decide +kernel)
  rwa [Int.cast_one] at value

theorem clamp_between (defined : x.isNaN = false) (le : low ≤ high) :
    low ≤ x.clamp low high ∧ x.clamp low high ≤ high := by
  obtain ⟨hl, hh⟩ : low.isNaN = false ∧ high.isNaN = false := by simpa [comparable] using le.1
  unfold clamp
  split_ifs with below above
  · exact ⟨⟨by simp [comparable, hl], Int.le_refl _⟩, le⟩
  · exact ⟨le, by simp [comparable, hh], Int.le_refl _⟩
  · exact ⟨Binary64.le_of_not_lt (by simp [comparable, hl, defined]) below,
      Binary64.le_of_not_lt (by simp [comparable, hh, defined]) above⟩

end Binary64

namespace Cell

theorem share_between (part length : Binary64) :
    0 ≤ share part length ∧ share part length ≤ 1 := by
  simp only [share]
  split_ifs with undefined
  · decide +kernel
  · exact Binary64.clamp_between (Bool.not_eq_true _ ▸ undefined) (by decide +kernel)

theorem weight_between (lib : Elementary) (cell : Cell Record) (direction : Direction)
    (arrangement : Arrangement) :
    0 ≤ cell.weight lib direction arrangement ∧ cell.weight lib direction arrangement ≤ 1 := by
  cases arrangement <;> exact share_between _ _

/-- How much of the whole each corner is, where the lower elevation has weight `x` and the lower
azimuth weight `y`. -/
noncomputable def parts (x y : ℝ) : Cell ℝ where
  c00 := (1 - x) * (1 - y)
  c10 := x * (1 - y)
  c11 := x * y
  c01 := (1 - x) * y

theorem parts_nonneg {x y : ℝ} (hx : x ∈ Set.Icc 0 1) (hy : y ∈ Set.Icc 0 1) :
    ∀ part ∈ (parts x y).corners, 0 ≤ part := by
  have hx' : 0 ≤ 1 - x := sub_nonneg.mpr hx.2
  have hy' : 0 ≤ 1 - y := sub_nonneg.mpr hy.2
  simp [corners, parts, mul_nonneg, hx.1, hy.1, hx', hy']

theorem sum_parts (x y : ℝ) : (parts x y).corners.sum = 1 := by
  simp only [corners, parts, List.sum_cons, List.sum_nil]
  ring

noncomputable def mean (parts values : Cell ℝ) : ℝ :=
  values.c00 * parts.c00 + values.c10 * parts.c10 + values.c11 * parts.c11 +
    values.c01 * parts.c01

theorem mean_mem_Icc {parts values : Cell ℝ} {low high : ℝ}
    (nonneg : ∀ part ∈ parts.corners, 0 ≤ part) (whole : parts.corners.sum = 1)
    (bounded : ∀ value ∈ values.corners, value ∈ Set.Icc low high) :
    mean parts values ∈ Set.Icc low high := by
  have constant : ∀ a, mean parts ⟨a, a, a, a⟩ = a := by
    intro a
    simp only [corners, List.sum_cons, List.sum_nil, add_zero] at whole
    simp only [mean, ← mul_add, add_assoc, whole, mul_one]
  simp only [corners, List.forall_mem_cons] at nonneg bounded
  obtain ⟨p00, p10, p11, p01, -⟩ := nonneg
  obtain ⟨v00, v10, v11, v01, -⟩ := bounded
  constructor
  · calc low = mean parts ⟨low, low, low, low⟩ := (constant low).symm
      _ ≤ mean parts values := by
        unfold mean
        gcongr
        exacts [v00.1, v10.1, v11.1, v01.1]
  · calc mean parts values ≤ mean parts ⟨high, high, high, high⟩ := by
          unfold mean
          gcongr
          exacts [v00.2, v10.2, v11.2, v01.2]
      _ = high := constant high

theorem blend_eq_level_mean (power level : ℝ → ℝ) (x y : ℝ) (cell : Cell ℝ) :
    cell.blend power level x y = level (mean (parts x y) (cell.map power)) := by
  simp only [blend, mean, parts, map]
  congr 1
  ring

noncomputable def least (cell : Cell ℝ) : ℝ :=
  cell.c00 ⊓ cell.c10 ⊓ cell.c11 ⊓ cell.c01

noncomputable def greatest (cell : Cell ℝ) : ℝ :=
  cell.c00 ⊔ cell.c10 ⊔ cell.c11 ⊔ cell.c01

theorem mem_Icc_least_greatest (cell : Cell ℝ) :
    ∀ value ∈ cell.corners, value ∈ Set.Icc cell.least cell.greatest := by
  simp [corners, least, greatest]

end Cell

/-- A scale of levels for powers: powers grow with their level, every power has its level back, and
between two powers a level grows with its power. That powers are positive, as they are for decibels,
is not needed. -/
structure IsScale (power level : ℝ → ℝ) : Prop where
  power_strictMono : StrictMono power
  level_power : Function.LeftInverse level power
  level_strictMonoOn : ∀ a b, StrictMonoOn level (Set.Icc (power a) (power b))

theorem isScale_decibels : IsScale (fun a => 10 ^ (a / 10)) (fun w => 10 * Real.logb 10 w) where
  power_strictMono a b less := by
    refine Real.rpow_lt_rpow_of_exponent_lt (by norm_num) ?_
    linarith
  level_power a := by
    dsimp only
    rw [Real.logb_rpow (by norm_num) (by norm_num)]
    ring
  level_strictMonoOn a b v hv w hw less := by
    have positive : (0 : ℝ) < v := (Real.rpow_pos_of_pos (by norm_num) _).trans_le hv.1
    have grows := Real.logb_lt_logb (b := 10) (by norm_num) positive less
    linarith

namespace Cell

theorem blend_mem_Icc {power level : ℝ → ℝ} (scale : IsScale power level) {x y low high : ℝ}
    (hx : x ∈ Set.Icc 0 1) (hy : y ∈ Set.Icc 0 1) {cell : Cell ℝ}
    (bounded : ∀ value ∈ cell.corners, value ∈ Set.Icc low high) :
    cell.blend power level x y ∈ Set.Icc low high := by
  have powers : ∀ value ∈ (cell.map power).corners, value ∈ Set.Icc (power low) (power high) := by
    rw [corners_map, List.forall_mem_map]
    intro value member
    have between := bounded value member
    exact ⟨scale.power_strictMono.monotone between.1, scale.power_strictMono.monotone between.2⟩
  have mean := mean_mem_Icc (parts_nonneg hx hy) (sum_parts x y) powers
  have ends : power low ≤ power high := mean.1.trans mean.2
  have grows := (scale.level_strictMonoOn low high).monotoneOn
  rw [blend_eq_level_mean]
  constructor
  · calc low = level (power low) := (scale.level_power _).symm
      _ ≤ level (Cell.mean (parts x y) (cell.map power)) :=
        grows (Set.left_mem_Icc.mpr ends) mean mean.1
  · calc level (Cell.mean (parts x y) (cell.map power)) ≤ level (power high) :=
        grows mean (Set.right_mem_Icc.mpr ends) mean.2
      _ = high := scale.level_power _

end Cell

namespace Store

variable {store : Store} {direction : Direction}

/-- The answer between the directions of a store is the level of a mean power of the four corners.
Whatever the elementary functions and so the distances are, both weights lie between zero and one.
In real numbers, on any scale and for any reading of the stored levels, the parts of the corners
then make up the whole, and the level between the corners lies between the least and the greatest
there; where all four are the same, it is that level. -/
theorem blend_between_corners (reachable : store.Reachable) {cell : Cell Record}
    (found : store.cell? direction = some cell) (lib : Elementary) {column : Nat}
    (inside : column < store.axis.size) :
    let values := cell.map (Record.value · column)
    let weight := cell.weight lib direction
    let x := (weight .byElevation).toReal
    let y := (weight .byAzimuth).toReal
    (store.answerBy lib .bilinear direction).value.record.value column =
        values.blend lib.power lib.level (weight .byElevation) (weight .byAzimuth) ∧
      (∀ arrangement, 0 ≤ weight arrangement ∧ weight arrangement ≤ 1) ∧
      (∀ part ∈ (Cell.parts x y).corners, 0 ≤ part) ∧ (Cell.parts x y).corners.sum = 1 ∧
      ∀ (power level : ℝ → ℝ), IsScale power level → ∀ reading : Binary64 → ℝ,
        let levels := values.map reading
        levels.blend power level x y = level (Cell.mean (Cell.parts x y) (levels.map power)) ∧
          levels.least ≤ levels.blend power level x y ∧
          levels.blend power level x y ≤ levels.greatest ∧
          ∀ a, (∀ value ∈ values.corners, value = a) →
            levels.blend power level x y = reading a := by
  intro values weight x y
  have stored := cell?_mem found
  have between := cell.weight_between lib direction
  have unit : ∀ arrangement, (weight arrangement).toReal ∈ Set.Icc (0 : ℝ) 1 := fun arrangement =>
    ⟨Binary64.toReal_zero ▸ Binary64.toReal_mono (between arrangement).1,
      Binary64.toReal_one ▸ Binary64.toReal_mono (between arrangement).2⟩
  refine ⟨value_answerBy_bilinear reachable.arranged lib found stored inside, between,
    Cell.parts_nonneg (unit _) (unit _), Cell.sum_parts x y, fun power level scale reading => ?_⟩
  intro levels
  have blend_mem : ∀ low high, (∀ value ∈ levels.corners, value ∈ Set.Icc low high) →
      levels.blend power level x y ∈ Set.Icc low high := fun _ _ =>
    Cell.blend_mem_Icc scale (unit .byElevation) (unit .byAzimuth)
  have bounds := blend_mem _ _ levels.mem_Icc_least_greatest
  refine ⟨Cell.blend_eq_level_mean power level x y levels, bounds.1, bounds.2, fun a same => ?_⟩
  have constant : ∀ value ∈ levels.corners, value ∈ Set.Icc (reading a) (reading a) := by
    rw [Cell.corners_map, List.forall_mem_map]
    intro value member
    rw [same value member]
    exact Set.left_mem_Icc.mpr le_rfl
  have single := blend_mem _ _ constant
  rwa [Set.Icc_self, Set.mem_singleton_iff] at single

/-- Four records at once: `0` dB at elevation `0`, and `20` dB at elevation `1`. -/
def slopeRun : List Operation :=
  [.insertAll [⟨⟨⟨0⟩, ⟨0⟩⟩, #[0]⟩, ⟨⟨⟨0⟩, ⟨0x3FF0000000000000⟩⟩, #[0]⟩,
    ⟨⟨⟨0x3FF0000000000000⟩, ⟨0⟩⟩, #[20]⟩,
    ⟨⟨⟨0x3FF0000000000000⟩, ⟨0x3FF0000000000000⟩⟩, #[20]⟩]]

theorem blend_between_corners_slopeRun :
    ∃ store : Store, store.Reachable ∧ ∀ (lib : Elementary) (direction : Direction),
      ∃ cell, store.cell? direction = some cell ∧
        (cell.map (Binary64.toReal <| Record.value · 0)).blend
            (fun a => 10 ^ (a / 10)) (fun w => 10 * Real.logb 10 w)
            (cell.weight lib direction .byElevation).toReal
            (cell.weight lib direction .byAzimuth).toReal ∈ Set.Icc 0 20 := by
  obtain ⟨store, reachable, size, grid, offered⟩ :=
    exists_reachable_grid slopeRun {⟨0⟩, ⟨0x3FF0000000000000⟩} {⟨0⟩, ⟨0x3FF0000000000000⟩}
      (by decide) (by decide) (by decide) (by decide) (by decide) (by decide)
  have twenty : (20 : Binary64).toReal = 20 := by
    have value := Binary64.toReal_of_signedUnits (x := 20) (n := 20) (by decide +kernel)
    rwa [Int.cast_ofNat] at value
  have levels : ∀ record ∈ store.arena, (record.value 0).toReal ∈ Set.Icc (0 : ℝ) 20 := by
    intro record member
    have level := (by decide +kernel : ∀ record ∈ slopeRun.flatMap Operation.offered,
      record.value 0 = 0 ∨ record.value 0 = 20) record ((offered record).mp member)
    rcases level with zero | other
    · rw [zero, Binary64.toReal_zero]
      norm_num
    · rw [other, twenty]
      norm_num
  refine ⟨store, reachable, fun lib direction => ?_⟩
  obtain ⟨cell, found, stored⟩ := grid.exists_cell? reachable.arranged direction
  have inside : 0 < store.axis.size := by
    rw [size]
    exact Nat.one_pos
  obtain ⟨-, -, -, -, real⟩ := blend_between_corners reachable found lib inside
  obtain ⟨-, above, below, -⟩ := real _ _ isScale_decibels Binary64.toReal
  have bounded : ∀ record ∈ cell.corners, (record.value 0).toReal ∈ Set.Icc (0 : ℝ) 20 :=
    fun record member => levels record (stored record member)
  simp only [Cell.corners, List.forall_mem_cons] at bounded
  obtain ⟨h00, h10, h11, h01, -⟩ := bounded
  have least : (0 : ℝ) ≤ ((cell.map (Record.value · 0)).map Binary64.toReal).least :=
    le_inf (le_inf (le_inf h00.1 h10.1) h11.1) h01.1
  have greatest : ((cell.map (Record.value · 0)).map Binary64.toReal).greatest ≤ (20 : ℝ) :=
    sup_le (sup_le (sup_le h00.2 h10.2) h11.2) h01.2
  exact ⟨cell, found, least.trans above, below.trans greatest⟩

end Store

end Directivity
