import Directivity.Direction
import Mathlib.Data.Prod.Lex
import Mathlib.Order.Compare

set_option autoImplicit false
set_option relaxedAutoImplicit false

namespace Directivity

namespace Binary64

theorem toNat_bits (x : Binary64) :
    x.bits.toNat = if x.isNegative then signWeight + x.magnitude else x.magnitude := by
  have bound : x.bits.toNat < 2 ^ 64 := x.bits.toNat_lt
  simp only [isNegative, decide_eq_true_eq]
  unfold magnitude signWeight
  split <;> omega

theorem rank_injective : Function.Injective rank := by
  intro x y same
  have hx := toNat_bits x
  have hy := toNat_bits y
  have bits : x.bits.toNat = y.bits.toNat := by
    simp only [rank] at same
    split at same <;> split at same <;> simp_all <;> omega
  cases x
  cases y
  exact congrArg Binary64.mk (UInt64.toNat_inj.mp bits)

end Binary64

namespace Arrangement

/-- The key of a direction: the ranks of its angles, of which the leading one counts first. -/
def key : Arrangement → Direction → ℤ ×ₗ ℤ
  | .byElevation, d => toLex (d.elevation.rank, d.azimuth.rank)
  | .byAzimuth, d => toLex (d.azimuth.rank, d.elevation.rank)

theorem key_injective (arrangement : Arrangement) : Function.Injective arrangement.key := by
  rintro ⟨x, y⟩ ⟨x', y'⟩ same
  cases arrangement with
  | byElevation =>
    simp only [key, EmbeddingLike.apply_eq_iff_eq, Prod.mk.injEq] at same
    rw [Binary64.rank_injective same.1, Binary64.rank_injective same.2]
  | byAzimuth =>
    simp only [key, EmbeddingLike.apply_eq_iff_eq, Prod.mk.injEq] at same
    rw [Binary64.rank_injective same.1, Binary64.rank_injective same.2]

theorem compare_eq_compare_key (arrangement : Arrangement) (a b : Direction) :
    arrangement.compare a b = Ord.compare (arrangement.key a) (arrangement.key b) := by
  cases arrangement <;>
    simp [Arrangement.compare, key, Prod.Lex.compare_def, compareLex, compareOn,
      Binary64.totalCompare]

theorem compare_eq_lt (arrangement : Arrangement) (a b : Direction) :
    arrangement.compare a b = .lt ↔ arrangement.key a < arrangement.key b := by
  rw [compare_eq_compare_key, compare_lt_iff_lt]

theorem isLE_compare (arrangement : Arrangement) (a b : Direction) :
    (arrangement.compare a b).isLE ↔ arrangement.key a ≤ arrangement.key b := by
  rw [compare_eq_compare_key, ← compare_le_iff_le, Ordering.isLE_iff_ne_gt]

def leading : Arrangement → Direction → Binary64
  | .byElevation, d => d.elevation
  | .byAzimuth, d => d.azimuth

def other : Arrangement → Arrangement
  | .byElevation => .byAzimuth
  | .byAzimuth => .byElevation

@[simp]
theorem other_other (arrangement : Arrangement) : arrangement.other.other = arrangement := by
  cases arrangement <;> rfl

theorem leading_le_leading {arrangement : Arrangement} {a b : Direction}
    (le : arrangement.key a ≤ arrangement.key b) :
    (arrangement.leading a).rank ≤ (arrangement.leading b).rank := by
  cases arrangement <;>
    · rcases Prod.Lex.toLex_le_toLex.mp le with less | ⟨same, _⟩
      · exact less.le
      · exact same.le

theorem key_lt_key_of_leading {arrangement : Arrangement} {a b : Direction}
    (less : (arrangement.leading a).rank < (arrangement.leading b).rank) :
    arrangement.key a < arrangement.key b := by
  cases arrangement <;> exact Prod.Lex.toLex_lt_toLex.mpr (.inl less)

end Arrangement

end Directivity
