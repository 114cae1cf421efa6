import Mathlib.Tactic.Ring
import FormatServer.Number.Binary64

/-!
Rounding to floating-point numbers, which is monotone (`roundTicks_mono`), and which integers have a nearest one. Main
statement (`ofInt?_eq_none_iff`): all but those from the middle between the largest finite number and the next power of
two on.
-/

namespace FormatServer.Binary64

/-! ## Rounded quotients -/

theorem div_le_roundDiv (num den : Nat) : num / den ≤ roundDiv num den := by
  simp only [roundDiv]
  repeat' split
  all_goals omega

theorem roundDiv_le (num den : Nat) : roundDiv num den ≤ num / den + 1 := by
  simp only [roundDiv]
  repeat' split
  all_goals omega

theorem roundDiv_mono {m n : Nat} (h : m ≤ n) (den : Nat) : roundDiv m den ≤ roundDiv n den := by
  rcases Nat.eq_or_lt_of_le (Nat.div_le_div_right (c := den) h) with heq | hlt
  · have hm := Nat.div_add_mod m den
    have hn := Nat.div_add_mod n den
    have hmod : m % den ≤ n % den := by rw [heq] at hm; omega
    simp only [roundDiv, heq]
    repeat' split
    all_goals omega
  · exact (roundDiv_le m den).trans (hlt.trans_le (div_le_roundDiv n den))

/-- The largest odd quotient before an even bound is rounded up to the bound from the middle on. -/
private theorem roundDiv_lt_iff {num half bound : Nat} (hhalf : 0 < half)
    (hnum : num < 2 * bound * (2 * half)) :
    roundDiv num (2 * half) < 2 * bound ↔ num + half < 2 * bound * (2 * half) := by
  have hdiv := Nat.div_add_mod num (2 * half)
  have hmod := Nat.mod_lt num (show 0 < 2 * half by omega)
  have hq : num / (2 * half) < 2 * bound := Nat.div_lt_of_lt_mul (by rwa [Nat.mul_comm])
  have hle := roundDiv_le num (2 * half)
  by_cases hlast : num / (2 * half) + 1 = 2 * bound
  · have hbound : 2 * bound * (2 * half) = 2 * half * (num / (2 * half)) + 2 * half := by
      rw [← hlast]
      ring
    have hodd : num / (2 * half) % 2 = 1 := by omega
    rw [hbound]
    simp only [roundDiv, hodd]
    repeat' split
    all_goals omega
  · have hroom : 2 * half * (num / (2 * half) + 2) ≤ 2 * half * (2 * bound) :=
      Nat.mul_le_mul_left _ (by omega)
    rw [Nat.mul_add, Nat.mul_comm (2 * half) (2 * bound)] at hroom
    constructor
    · intro _
      omega
    · intro _
      omega

/-! ## Rounded ticks -/

private theorem roundTicks_one (n : Nat) :
    roundTicks n 1 = roundDiv n (2 ^ (n.log2 - 52)) * 2 ^ (n.log2 - 52) := by
  simp only [roundTicks, spacing, Nat.div_one, Nat.one_mul]
  rfl

/-- A number is rounded to one between the powers of two around it. -/
theorem roundTicks_bounds {n : Nat} (hn : n ≠ 0) :
    2 ^ n.log2 ≤ roundTicks n 1 ∧ roundTicks n 1 ≤ 2 ^ (n.log2 + 1) := by
  have hlow := Nat.log2_self_le hn
  have hhigh := Nat.lt_log2_self (n := n)
  have hpos : 0 < 2 ^ (n.log2 - 52) := Nat.two_pow_pos _
  rw [roundTicks_one]
  constructor
  · have hexp : n.log2 = (n.log2 - (n.log2 - 52)) + (n.log2 - 52) := by omega
    have hq : 2 ^ (n.log2 - (n.log2 - 52)) ≤ n / 2 ^ (n.log2 - 52) := by
      rw [Nat.le_div_iff_mul_le hpos, ← Nat.pow_add, ← hexp]
      exact hlow
    calc 2 ^ n.log2 = 2 ^ (n.log2 - (n.log2 - 52)) * 2 ^ (n.log2 - 52) := by rw [← Nat.pow_add, ← hexp]
      _ ≤ _ := Nat.mul_le_mul_right _ (hq.trans (div_le_roundDiv n _))
  · have hexp : n.log2 + 1 = (n.log2 + 1 - (n.log2 - 52)) + (n.log2 - 52) := by omega
    have hq : n / 2 ^ (n.log2 - 52) < 2 ^ (n.log2 + 1 - (n.log2 - 52)) := by
      rw [Nat.div_lt_iff_lt_mul hpos, ← Nat.pow_add, ← hexp]
      exact hhigh
    calc _ ≤ 2 ^ (n.log2 + 1 - (n.log2 - 52)) * 2 ^ (n.log2 - 52) :=
          Nat.mul_le_mul_right _ ((roundDiv_le n _).trans hq)
      _ = 2 ^ (n.log2 + 1) := by rw [← Nat.pow_add, ← hexp]

/-- **Rounding is monotone.** -/
theorem roundTicks_mono {m n : Nat} (h : m ≤ n) : roundTicks m 1 ≤ roundTicks n 1 := by
  rcases Nat.eq_zero_or_pos m with rfl | hm
  · exact Nat.zero_le _
  have hm0 : m ≠ 0 := Nat.pos_iff_ne_zero.mp hm
  have hn0 : n ≠ 0 := by omega
  have hlog : m.log2 ≤ n.log2 := (Nat.le_log2 hn0).mpr ((Nat.log2_self_le hm0).trans h)
  rcases Nat.eq_or_lt_of_le hlog with heq | hlt
  · rw [roundTicks_one, roundTicks_one, heq]
    exact Nat.mul_le_mul_right _ (roundDiv_mono h _)
  · calc roundTicks m 1 ≤ 2 ^ (m.log2 + 1) := (roundTicks_bounds hm0).2
      _ ≤ 2 ^ n.log2 := Nat.pow_le_pow_right (by decide) hlt
      _ ≤ roundTicks n 1 := (roundTicks_bounds hn0).1

/-- **Rounding to 53 binary digits stays below a power of two exactly up to the middle of the last gap.** -/
theorem roundTicks_lt_iff (n k : Nat) :
    roundTicks n 1 < 2 ^ (k + 54) ↔ n + 2 ^ k < 2 ^ (k + 54) := by
  have hpow : (2 : Nat) ^ (k + 54) = 2 ^ (k + 53) + 2 ^ (k + 53) := by ring
  have hk : (2 : Nat) ^ k < 2 ^ (k + 53) := Nat.pow_lt_pow_right (by decide) (by omega)
  have hpos : 0 < 2 ^ (n.log2 - 52) := Nat.two_pow_pos _
  have hself := Nat.lt_log2_self (n := n)
  rw [roundTicks_one]
  -- The last gap has the spacing of numbers with `k + 54` digits; others are off the bound for good.
  rcases Nat.lt_trichotomy n.log2 (k + 53) with hsmall | hlast | hlarge
  · have hn : n < 2 ^ (k + 53) :=
      Nat.lt_of_lt_of_le hself (Nat.pow_le_pow_right (by decide) (by omega))
    have hspacing : 2 ^ (n.log2 - 52) ≤ 2 ^ k := Nat.pow_le_pow_right (by decide) (by omega)
    have hrounded := Nat.mul_le_mul_right (2 ^ (n.log2 - 52)) (roundDiv_le n (2 ^ (n.log2 - 52)))
    have hdiv := Nat.div_mul_le_self n (2 ^ (n.log2 - 52))
    rw [Nat.add_mul, Nat.one_mul] at hrounded
    constructor <;> intro _ <;> omega
  · have hspacing : (2 : Nat) ^ (n.log2 - 52) = 2 * 2 ^ k := by
      rw [hlast, show k + 53 - 52 = k + 1 by omega]
      ring
    have hbound : (2 : Nat) ^ (k + 54) = 2 * 2 ^ 52 * (2 * 2 ^ k) := by ring
    rw [hlast, show k + 53 + 1 = k + 54 by omega] at hself
    rw [hspacing, hbound, Nat.mul_lt_mul_right (by omega)]
    exact roundDiv_lt_iff (Nat.two_pow_pos k) (hbound ▸ hself)
  · have hn : n ≠ 0 := by
      rintro rfl
      simp at hlarge
    have hge : 2 ^ (k + 54) ≤ n :=
      (Nat.pow_le_pow_right (by decide) hlarge).trans (Nat.log2_self_le hn)
    have hquotient : 2 ^ 52 ≤ n / 2 ^ (n.log2 - 52) := by
      rw [Nat.le_div_iff_mul_le hpos, ← Nat.pow_add, show 52 + (n.log2 - 52) = n.log2 by omega]
      exact Nat.log2_self_le hn
    have hrounded := Nat.mul_le_mul_right (2 ^ (n.log2 - 52))
      (hquotient.trans (div_le_roundDiv n (2 ^ (n.log2 - 52))))
    rw [← Nat.pow_add, show 52 + (n.log2 - 52) = n.log2 by omega] at hrounded
    have hle : (2 : Nat) ^ (k + 54) ≤ 2 ^ n.log2 := Nat.pow_le_pow_right (by decide) hlarge
    constructor
    · intro hlt
      exact absurd (hle.trans hrounded) (Nat.not_le.mpr hlt)
    · intro hlt
      exact absurd (Nat.le_add_right_of_le hge) (Nat.not_le.mpr hlt)

/-- The same for whole multiples of a power of two. -/
private theorem roundTicks_mul_lt_iff {a b c d unit limit : Nat} (n : Nat)
    (hunit : unit = Nat.pow 2 b) (hlimit : limit = Nat.pow 2 c) (hc : a + b + 54 = c)
    (hd : a + 54 = d) :
    roundTicks (n * unit) 1 < limit ↔ n + 2 ^ a < 2 ^ d := by
  subst hunit hlimit hc hd
  have hbound : (2 : Nat) ^ (a + b + 54) = 2 ^ (a + 54) * 2 ^ b := by ring
  rw [Nat.pow_eq, Nat.pow_eq, roundTicks_lt_iff, hbound, Nat.pow_add 2 a b, ← Nat.add_mul,
    Nat.mul_lt_mul_right (Nat.two_pow_pos b)]

/-! ## Integers -/

/-- The first whole number that is nearer to no finite number. -/
def integerLimit : Nat := 2 ^ 1024 - 2 ^ 970

theorem isFinite_ofTicks (negative : Bool) (ticks : Nat) :
    (ofTicks negative ticks).isFinite = true ↔ ticks < tickLimit := by
  rw [ofTicks]
  split
  · next h => simp only [isFinite, h]
  · next h => simp only [isFinite, h, Bool.false_eq_true]

/-- **An integer has a nearest number exactly when it is below the limit in size.** -/
theorem ofInt?_eq_none_iff (i : Int) : ofInt? i = none ↔ integerLimit ≤ i.natAbs := by
  have hunit : ticksPerUnit = Nat.pow 2 1074 := by decide +kernel
  have hlimit : tickLimit = Nat.pow 2 2098 := by decide +kernel
  have hfinite : (ofRatio (i < 0) i.natAbs 1).isFinite = true ↔ i.natAbs + 2 ^ 970 < 2 ^ 1024 :=
    (isFinite_ofTicks _ _).trans (roundTicks_mul_lt_iff i.natAbs hunit hlimit rfl rfl)
  rw [ofInt?, Option.guard_eq_none_iff, Bool.eq_false_iff, Ne, hfinite, Nat.not_lt, integerLimit,
    Nat.sub_le_iff_le_add]

/-- Rounding to 53 binary digits makes no number vanish. -/
theorem roundTicks_pos {n : Nat} (hn : 0 < n) : 0 < roundTicks n 1 :=
  (Nat.two_pow_pos _).trans_le (roundTicks_bounds (Nat.pos_iff_ne_zero.mp hn)).1

private theorem isPositive_ofTicks {ticks : Nat} (h : 0 < ticks) : (ofTicks false ticks).isPositive = true := by
  unfold ofTicks
  split
  · exact decide_eq_true h
  · rfl

/-- **The number nearest to a positive integer is finite and positive.** -/
theorem isPositive_of_ofInt? {i : Int} {x : Binary64} (hx : ofInt? i = some x) (hi : 0 < i) :
    x.isFinite = true ∧ x.isPositive = true := by
  obtain ⟨rfl, hfinite⟩ := Option.guard_eq_some_iff.mp hx
  refine ⟨hfinite, ?_⟩
  have hunit : 0 < ticksPerUnit := by decide +kernel
  have hsign : decide (i < 0) = false := decide_eq_false (Int.not_lt.mpr (Int.le_of_lt hi))
  rw [ofRatio, hsign]
  exact isPositive_ofTicks (roundTicks_pos (Nat.mul_pos (Int.natAbs_pos.mpr (Int.ne_of_gt hi)) hunit))

end FormatServer.Binary64
