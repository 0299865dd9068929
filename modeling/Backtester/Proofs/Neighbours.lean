import Backtester.Proofs.Nearest

/-!
# Neighbours of a double

A real number that is nearer to a double than to its two neighbours rounds to it, and so does one
in the middle, if the double is even.

* `IsDouble.next_le`, `IsDouble.le_previous` — the doubles above and below `m · 2 ^ e`.
* `not_isEven` — a double whose last digit is odd.
* `IsNearest.le_of_next` — rounding does not reach the neighbour above.
-/

namespace Backtester
namespace Doubles

/-- The doubles from `2 ^ (e + 52)` on, or all doubles for the smallest `e`, are multiples of
`2 ^ e`. -/
theorem IsDouble.exists_multiple_of_place {z : ℝ} (h : IsDouble z) {e : ℤ}
    (he : e = -1074 ∨ 2 ^ (e + 52) ≤ |z|) : ∃ j : ℤ, z = j * 2 ^ e := by
  rcases he with rfl | hlarge
  · obtain ⟨k, q, -, hq, rfl⟩ := h
    obtain ⟨n, rfl⟩ : ∃ n : ℕ, q = n + -1074 := ⟨(q + 1074).toNat, by omega⟩
    refine ⟨k * 2 ^ n, ?_⟩
    rw [zpow_add₀ (by norm_num), zpow_natCast]
    push_cast
    ring
  · exact h.exists_multiple hlarge

theorem two_zpow_add_52 (e : ℤ) : (2 : ℝ) ^ (e + 52) = 2 ^ 52 * 2 ^ e := by
  rw [zpow_add₀ (by norm_num), mul_comm]
  norm_num

section

variable {m : ℕ} {e : ℤ} {z : ℝ}

/-- No double lies between `m · 2 ^ e` and the next multiple. -/
theorem IsDouble.next_le (h : IsDouble z) (hfull : e = -1074 ∨ 2 ^ 52 ≤ m) (hlt : m * 2 ^ e < z) :
    (m + 1) * 2 ^ e ≤ z := by
  have hpos : (0 : ℝ) < 2 ^ e := by positivity
  obtain ⟨j, rfl⟩ := h.exists_multiple_of_place (e := e) (hfull.imp_right fun hm => by
    have hm' : (2 : ℝ) ^ 52 ≤ m := by exact_mod_cast hm
    rw [two_zpow_add_52]
    exact (mul_le_mul_of_nonneg_right hm' hpos.le).trans (hlt.le.trans (le_abs_self z)))
  have hint : (m : ℤ) < j := by exact_mod_cast lt_of_mul_lt_mul_right hlt hpos.le
  have hnext : ((m : ℝ) + 1) ≤ j := by exact_mod_cast hint
  exact mul_le_mul_of_nonneg_right hnext hpos.le

/-- No double lies between `m · 2 ^ e` and the previous multiple. -/
theorem IsDouble.le_previous (h : IsDouble z) (hfull : e = -1074 ∨ 2 ^ 52 < m)
    (hlt : z < m * 2 ^ e) : z ≤ (m - 1) * 2 ^ e := by
  have hpos : (0 : ℝ) < 2 ^ e := by positivity
  by_cases hplace : e = -1074 ∨ 2 ^ (e + 52) ≤ |z|
  · obtain ⟨j, rfl⟩ := h.exists_multiple_of_place hplace
    have hint : j < (m : ℤ) := by exact_mod_cast lt_of_mul_lt_mul_right hlt hpos.le
    have hprevious : (j : ℝ) ≤ m - 1 := by
      rw [le_sub_iff_add_le]
      exact_mod_cast hint
    exact mul_le_mul_of_nonneg_right hprevious hpos.le
  · obtain ⟨hnot, hsmall⟩ := not_or.mp hplace
    have hm : (2 : ℝ) ^ 52 + 1 ≤ m := by exact_mod_cast hfull.resolve_left hnot
    rw [not_le, two_zpow_add_52] at hsmall
    exact (le_abs_self z).trans
      (hsmall.le.trans (mul_le_mul_of_nonneg_right (by linarith) hpos.le))

/-- A double whose last digit is odd is not even. -/
theorem not_isEven (hodd : m % 2 = 1) (hfull : e = -1074 ∨ 2 ^ 52 < m) : ¬IsEven (m * 2 ^ e) := by
  rintro ⟨k, p, hk, hp, heq⟩
  by_cases hle : p ≤ e
  · obtain ⟨n, rfl⟩ : ∃ n : ℕ, e = n + p := ⟨(e - p).toNat, by omega⟩
    rw [zpow_add₀ (by norm_num), ← mul_assoc, zpow_natCast] at heq
    have hint : (m : ℤ) * 2 ^ n = k := by exact_mod_cast mul_right_cancel₀ (by positivity) heq
    have hlarge : 2 ^ 52 < (m : ℤ) := by exact_mod_cast hfull.resolve_left (by omega)
    have hpower : (m : ℤ) ≤ m * 2 ^ n := le_mul_of_one_le_right (by omega) (one_le_pow₀ (by norm_num))
    have hshort := (le_abs_self k).trans hk
    omega
  · obtain ⟨n, rfl⟩ : ∃ n : ℕ, p = (n + 1 : ℕ) + e := ⟨(p - e - 1).toNat, by omega⟩
    rw [zpow_add₀ (by norm_num), ← mul_assoc, zpow_natCast] at heq
    have hint : (m : ℤ) = k * 2 ^ (n + 1) := by
      exact_mod_cast mul_right_cancel₀ (by positivity) heq
    rw [pow_succ, ← mul_assoc] at hint
    omega

end

/-- Rounding does not reach the neighbour above a double from the lower half of the way to it, nor
from the middle if the neighbour is not even. -/
theorem IsNearest.le_of_next {r x y next : ℝ} (h : IsNearest r y) (hx : IsDouble x)
    (hnext : ∀ z, IsDouble z → x < z → next ≤ z) (hle : r ≤ (x + next) / 2)
    (htie : r < (x + next) / 2 ∨ ¬IsEven next) : y ≤ x := by
  by_contra hlt
  rw [not_le] at hlt
  have hfar := hnext y h.isDouble hlt
  have hnearest := h.nearest x hx
  rw [abs_of_nonpos (show r - y ≤ 0 by linarith)] at hnearest
  -- Only the middle is as near to the neighbour.
  have hmiddle : r = (x + next) / 2 ∧ y = next := by
    rcases abs_cases (r - x) with ⟨habs, -⟩ | ⟨habs, -⟩
    · constructor <;> linarith
    · linarith
  rcases htie with hlower | hodd
  · exact absurd hmiddle.1 hlower.ne
  · have heven := h.even x hx hlt.ne (by
      rw [hmiddle.1, hmiddle.2, abs_of_nonneg (by linarith), abs_of_nonpos (by linarith)]
      ring)
    rw [hmiddle.2] at heven
    exact hodd heven

/-- Rounding does not reach the neighbour below a double from the upper half of the way to it, nor
from the middle if the neighbour is not even. -/
theorem IsNearest.ge_of_previous {r x y previous : ℝ} (h : IsNearest r y) (hx : IsDouble x)
    (hprevious : ∀ z, IsDouble z → z < x → z ≤ previous) (hle : (previous + x) / 2 ≤ r)
    (htie : (previous + x) / 2 < r ∨ ¬IsEven previous) : x ≤ y := by
  have hnext : ∀ z, IsDouble z → -x < z → -previous ≤ z := by
    intro z hz hlt
    have hbelow := hprevious (-z) hz.neg (by linarith)
    linarith
  have htie' : -r < (-x + -previous) / 2 ∨ ¬IsEven (-previous) := by
    rcases htie with hupper | hodd
    · left
      linarith
    · right
      intro heven
      have hback := heven.neg
      rw [neg_neg] at hback
      exact hodd hback
  have hneg := h.neg.le_of_next hx.neg hnext (by linarith) htie'
  linarith

end Doubles
end Backtester
