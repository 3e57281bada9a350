import Mathlib.Algebra.Order.Round
import Mathlib.Data.Int.Log
import Mathlib.Data.Rat.Floor
import Mathlib.Tactic.Linarith
import Mathlib.Tactic.NormNum
import Mathlib.Tactic.Positivity

/-! Numbers of 53 significant bits: the arithmetic of doubles, as long as nothing overflows or underflows. -/
namespace Data.Double

/-- The nearest integer; in the middle between two, the even one. -/
def nearest (q : ℚ) : ℤ :=
  if q - ⌊q⌋ < 1 / 2 ∨ (q - ⌊q⌋ = 1 / 2 ∧ ⌊q⌋ % 2 = 0) then ⌊q⌋ else ⌊q⌋ + 1

/-- What the last of 53 bits is worth. -/
def lastBit (q : ℚ) : ℚ := 2 ^ (Int.log 2 |q| - 52)

/-- The double for `q`. -/
def of (q : ℚ) : ℚ := nearest (q / lastBit q) * lastBit q

def add (x y : ℚ) : ℚ := of (x + y)

def sub (x y : ℚ) : ℚ := of (x - y)

def mul (x y : ℚ) : ℚ := of (x * y)

def div (x y : ℚ) : ℚ := of (x / y)

/-- The part of a number by which its double can be off. -/
def eps : ℚ := 1 / 2 ^ 53

/-! ### One rounding -/

theorem abs_nearest_sub_le (q : ℚ) : |(nearest q : ℚ) - q| ≤ 1 / 2 := by
  have hlow := Int.floor_le q
  have hhigh := Int.lt_floor_add_one q
  unfold nearest
  split
  · rename_i h
    have hhalf : q - ⌊q⌋ ≤ 1 / 2 := h.elim le_of_lt fun h => h.1.le
    rw [abs_le]
    constructor <;> linarith
  · rename_i h
    have hhalf : 1 / 2 ≤ q - ⌊q⌋ := not_lt.mp fun hlt => h (.inl hlt)
    push_cast
    rw [abs_le]
    constructor <;> linarith

theorem lastBit_pos (q : ℚ) : 0 < lastBit q := zpow_pos (by norm_num) _

/-- Half of the last bit is no more than `eps` of the number. -/
theorem lastBit_le {q : ℚ} (hq : q ≠ 0) : lastBit q / 2 ≤ eps * |q| := by
  have hlog : (2 : ℚ) ^ Int.log 2 |q| ≤ |q| := Int.zpow_log_le_self (by norm_num) (abs_pos.mpr hq)
  have hsplit : lastBit q = 2 ^ Int.log 2 |q| / 2 ^ 52 := by
    rw [lastBit, zpow_sub₀ (by norm_num)]
    norm_num
  rw [hsplit, eps]
  linarith

theorem abs_of_sub_le (q : ℚ) : |of q - q| ≤ eps * |q| := by
  by_cases hq : q = 0
  · subst hq
    simp [of, nearest]
  · have hpos := lastBit_pos q
    have hscaled : of q - q = (nearest (q / lastBit q) - q / lastBit q) * lastBit q := by
      rw [sub_mul, div_mul_cancel₀ q hpos.ne', of]
    rw [hscaled, abs_mul, abs_of_pos hpos]
    calc |(nearest (q / lastBit q) : ℚ) - q / lastBit q| * lastBit q ≤ 1 / 2 * lastBit q :=
          mul_le_mul_of_nonneg_right (abs_nearest_sub_le _) hpos.le
      _ = lastBit q / 2 := by ring
      _ ≤ eps * |q| := lastBit_le hq

theorem mul_eps_le {n : ℕ} (hn : n ≤ 2 ^ 53) : (n : ℚ) * eps ≤ 1 := by
  have hcast : (n : ℚ) ≤ 2 ^ 53 := by exact_mod_cast hn
  rw [eps]
  linarith

/-! ### Several roundings -/

/-- `x` is off `y` by `n` roundings of numbers up to `scale`. -/
structure Off (n : ℕ) (scale x y : ℚ) : Prop where
  within : |y| ≤ scale
  off : |x - y| ≤ n * eps * scale

namespace Off
variable {n m : ℕ} {s s' x x' y y' c : ℚ}

theorem scale_nonneg (h : Off n s x y) : 0 ≤ s := (abs_nonneg y).trans h.within

theorem exact (h : |y| ≤ s) : Off 0 s y y := ⟨h, by simp⟩

theorem abs_le (h : Off n s x y) : |x| ≤ s + n * eps * s := by
  have htriangle := abs_add_le (x - y) y
  rw [sub_add_cancel] at htriangle
  linarith [h.within, h.off]

theorem rounded (h : Off n s x y) (hn : n ≤ 2 ^ 53) : Off (n + 2) s (Double.of x) y := by
  refine ⟨h.within, ?_⟩
  have htriangle := abs_add_le (Double.of x - x) (x - y)
  rw [sub_add_sub_cancel] at htriangle
  have hround := abs_of_sub_le x
  have hscale := mul_le_mul_of_nonneg_right (mul_eps_le hn) h.scale_nonneg
  have heps : eps * |x| ≤ eps * (s + s) := by
    apply mul_le_mul_of_nonneg_left _ (by norm_num [eps])
    linarith [h.abs_le]
  push_cast
  linarith [h.off]

theorem add (h : Off n s x y) (h' : Off m s x' y') (hwithin : |y + y'| ≤ s) : Off (n + m) s (x + x') (y + y') := by
  refine ⟨hwithin, ?_⟩
  have htriangle := abs_add_le (x - y) (x' - y')
  rw [sub_add_sub_comm] at htriangle
  push_cast
  linarith [h.off, h'.off]

theorem sub (h : Off n s x y) (h' : Off m s x' y') (hwithin : |y - y'| ≤ s) : Off (n + m) s (x - x') (y - y') := by
  refine ⟨hwithin, ?_⟩
  have htriangle := abs_sub (x - y) (x' - y')
  rw [sub_sub_sub_comm] at htriangle
  push_cast
  linarith [h.off, h'.off]

theorem mul (h : Off n s x y) (h' : Off m s' x' y') (hnm : n * m ≤ 2 ^ 53) :
    Off (n + m + 1) (s * s') (x * x') (y * y') := by
  have hs := h.scale_nonneg
  have hs' := h'.scale_nonneg
  refine ⟨?_, ?_⟩
  · rw [abs_mul]
    exact mul_le_mul h.within h'.within (abs_nonneg _) hs
  · have hsplit : x * x' - y * y' = (x - y) * x' + y * (x' - y') := by ring
    have hfirst : |x - y| * |x'| ≤ n * eps * s * (s' + m * eps * s') :=
      mul_le_mul h.off h'.abs_le (abs_nonneg _) ((abs_nonneg _).trans h.off)
    have hsecond : |y| * |x' - y'| ≤ s * (m * eps * s') := mul_le_mul h.within h'.off (abs_nonneg _) hs
    have hcross := mul_le_mul_of_nonneg_right (mul_eps_le hnm) (mul_nonneg (mul_nonneg (by norm_num [eps] : (0 : ℚ) ≤ eps) hs) hs')
    rw [hsplit]
    refine (abs_add_le _ _).trans ?_
    rw [abs_mul, abs_mul]
    push_cast at hcross ⊢
    linarith

theorem scale (h : Off n s x y) (hc : 0 ≤ c) : Off n (s * c) (x * c) (y * c) := by
  refine ⟨?_, ?_⟩
  · rw [abs_mul, abs_of_nonneg hc]
    exact mul_le_mul_of_nonneg_right h.within hc
  · rw [← sub_mul, abs_mul, abs_of_nonneg hc, ← mul_assoc]
    exact mul_le_mul_of_nonneg_right h.off hc

/-- Adding up: each number is rounded, and so is each sum. -/
theorem foldl_add {l : List ℚ} (h : Off n s x y) (hsum : |y| + (l.map abs).sum ≤ s)
    (hn : n + 4 * l.length ≤ 2 ^ 53) :
    Off (n + 4 * l.length) s ((l.map Double.of).foldl Double.add x) (y + l.sum) := by
  induction l generalizing n x y with
  | nil => simpa using h
  | cons z rest ih =>
    have hlength : n + 2 + 2 + 4 * rest.length = n + 4 * (z :: rest).length := by
      rw [List.length_cons]
      omega
    simp only [List.map_cons, List.sum_cons] at hsum
    have hrest : 0 ≤ (rest.map abs).sum := List.sum_nonneg (by simp)
    have htriangle := abs_add_le y z
    have hz : Off 2 s (Double.of z) z := (exact (by linarith [abs_nonneg y])).rounded (Nat.zero_le _)
    have hadded : Off (n + 2 + 2) s (Double.add x (Double.of z)) (y + z) :=
      (h.add hz (by linarith [abs_nonneg z])).rounded (by omega)
    rw [List.map_cons, List.foldl_cons, List.sum_cons, ← add_assoc, ← hlength]
    exact ih hadded (by linarith) (hlength.trans_le hn)

/-- Up to sixteen roundings. -/
theorem close (h : Off n s x y) (hn : n ≤ 16) : |x - y| ≤ s / 2 ^ 49 := by
  have hcast : (n : ℚ) ≤ 16 := by exact_mod_cast hn
  have hbound := mul_le_mul_of_nonneg_right hcast (mul_nonneg (by norm_num [eps] : (0 : ℚ) ≤ eps) h.scale_nonneg)
  have hsixteen : 16 * (eps * s) = s / 2 ^ 49 := by
    rw [eps]
    ring
  linarith [h.off]

/-- And one to an integer. -/
theorem round_close (h : Off n s x y) (hn : n ≤ 16) : |(round x : ℚ) - y| ≤ 1 / 2 + s / 2 ^ 49 := by
  have htriangle := abs_add_le ((round x : ℚ) - x) (x - y)
  rw [sub_add_sub_cancel] at htriangle
  have hround := abs_sub_round x
  rw [abs_sub_comm] at hround
  linarith [h.close hn]

end Off
end Data.Double
