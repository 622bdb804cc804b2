import Mathlib.Algebra.Order.Field.Power
import Mathlib.Algebra.Order.Field.Rat
import Mathlib.Data.Int.Log
import Mathlib.Data.Rat.Floor
import Mathlib.Tactic.FieldSimp
import Mathlib.Tactic.Linarith
import Mathlib.Tactic.NormNum
import Mathlib.Tactic.Positivity
import Mathlib.Tactic.Ring
import ShaderFlatten.Number.Shortest

/-!
# Rounding to the binary format

The nearest number depends only on the value of a ratio or of a decimal, not on how it is written, and a value that
has the format is its own nearest number.  Hence the decimal that is chosen for a number reads back as the number:

    ofDecimal (shortest m e) = finite m e
-/

namespace ShaderFlatten.Binary64

/-! ## Numbers of the format -/

/-- A mantissa and an exponent that a finite number has. -/
structure Fits (m : Nat) (e : Int) : Prop where
  mantissa : m < 2 ^ 53
  least : minExponent ≤ e
  greatest : e ≤ maxExponent
  /-- only the numbers closest to zero have fewer than 53 binary digits -/
  normal : 2 ^ 52 ≤ m ∨ e = minExponent

/-- What is finite has a mantissa and an exponent of the format. -/
def WellFormed : Binary64 → Prop
  | finite _ m e => Fits m e
  | _ => True

theorem fits_zero : Fits 0 minExponent := ⟨by decide, le_rfl, by decide, .inr rfl⟩

/-! ## The nearest integer -/

section
variable {n d k : Nat}

theorem divNearest_mul_right (hk : 0 < k) : divNearest (n * k) (d * k) = divNearest n d := by
  have hlt : d * k < 2 * (n % d * k) ↔ d < 2 * (n % d) := by
    rw [← Nat.mul_assoc, Nat.mul_lt_mul_right hk]
  have heq : 2 * (n % d * k) = d * k ↔ 2 * (n % d) = d := by
    rw [← Nat.mul_assoc, Nat.mul_left_inj hk.ne']
  simp only [divNearest, Nat.mul_div_mul_right _ _ hk, Nat.mul_mod_mul_right, hlt, heq]

theorem le_divNearest (hd : 0 < d) (h : k * d ≤ n) : k ≤ divNearest n d := by
  have hquotient : k ≤ n / d := (Nat.le_div_iff_mul_le hd).mpr h
  simp only [divNearest]
  split <;> omega

theorem divNearest_le (hd : 0 < d) (h : n ≤ k * d) : divNearest n d ≤ k := by
  have hquotient : n / d ≤ k := Nat.div_le_of_le_mul (Nat.mul_comm k d ▸ h)
  rcases hquotient.lt_or_eq with hless | hequal
  · simp only [divNearest]
    split <;> omega
  · -- The quotient is the bound itself, so that nothing remains to be rounded up.
    have hrest : n % d = 0 := by
      have := Nat.div_add_mod n d
      rw [hequal, Nat.mul_comm] at this
      omega
    have hdown : ¬ d < 0 ∧ ¬ 0 = d := by omega
    simp [divNearest, hrest, hequal, hdown.2]

theorem divNearest_exact (hd : 0 < d) : divNearest (k * d) d = k :=
  le_antisymm (divNearest_le hd le_rfl) (le_divNearest hd le_rfl)

end

/-! ## Ratios by value -/

section
variable {n d n' d' : Nat}

theorem div_scaleBinary (n d : Nat) (e : Int) :
    ((scaleBinary n d e).1 : ℚ) / (scaleBinary n d e).2 = n / d / 2 ^ e := by
  cases e with
  | ofNat k => simp [scaleBinary, div_div]
  | negSucc k => simp [scaleBinary, zpow_negSucc, div_inv_eq_mul, mul_div_right_comm]

theorem scaleBinary_pos (hd : 0 < d) (e : Int) : 0 < (scaleBinary n d e).2 := by
  cases e with
  | ofNat k => exact Nat.mul_pos hd (Nat.two_pow_pos k)
  | negSucc k => exact hd

theorem mul_le_scaleBinary (hd : 0 < d) (k : Nat) (e : Int) :
    k * (scaleBinary n d e).2 ≤ (scaleBinary n d e).1 ↔ k * (2 : ℚ) ^ e ≤ n / d := by
  have hpos : (0 : ℚ) < (scaleBinary n d e).2 := by exact_mod_cast scaleBinary_pos hd e
  rw [← le_div_iff₀ (by positivity : (0 : ℚ) < 2 ^ e), ← div_scaleBinary, le_div_iff₀ hpos]
  exact_mod_cast Iff.rfl

theorem scaleBinary_le_mul (hd : 0 < d) (k : Nat) (e : Int) :
    (scaleBinary n d e).1 ≤ k * (scaleBinary n d e).2 ↔ (n / d : ℚ) ≤ k * 2 ^ e := by
  have hpos : (0 : ℚ) < (scaleBinary n d e).2 := by exact_mod_cast scaleBinary_pos hd e
  rw [← div_le_iff₀ (by positivity : (0 : ℚ) < 2 ^ e), ← div_scaleBinary, div_le_iff₀ hpos]
  exact_mod_cast Iff.rfl

/-- **The exponent of a ratio is told by its value.** -/
theorem exponentOf_eq (hn : 0 < n) (hd : 0 < d) :
    exponentOf n d = max minExponent (Int.log 2 (n / d : ℚ) - 52) := by
  have hn' : (0 : ℚ) < n := by exact_mod_cast hn
  have hd' : (0 : ℚ) < d := by exact_mod_cast hd
  have hvalue : (0 : ℚ) < n / d := div_pos hn' hd'
  -- The two binary lengths tell the logarithm up to one.
  have hlow : (2 : ℚ) ^ ((n.log2 : Int) - d.log2 - 1) ≤ n / d := by
    have hnumerator : (2 : ℚ) ^ n.log2 ≤ n := by exact_mod_cast Nat.log2_self_le hn.ne'
    have hdenominator : (d : ℚ) ≤ 2 ^ (d.log2 + 1) := by exact_mod_cast Nat.lt_log2_self.le
    rw [sub_sub, zpow_sub₀ two_ne_zero]
    exact div_le_div₀ hn'.le hnumerator hd' hdenominator
  have hhigh : (n / d : ℚ) < 2 ^ ((n.log2 : Int) - d.log2 + 1) := by
    have hnumerator : (n : ℚ) < 2 ^ (n.log2 + 1) := by exact_mod_cast Nat.lt_log2_self
    have hdenominator : (2 : ℚ) ^ d.log2 ≤ d := by exact_mod_cast Nat.log2_self_le hd.ne'
    rw [sub_add_eq_add_sub, zpow_sub₀ two_ne_zero]
    exact div_lt_div₀ hnumerator hdenominator (by positivity) (by positivity)
  have hlog := (Int.zpow_le_iff_le_log (by decide) hvalue).mp hlow
  have hlog' := (Int.lt_zpow_iff_log_lt (by decide) hvalue).mp hhigh
  have hguess := mul_le_scaleBinary (n := n) hd 1 ((n.log2 : Int) - d.log2)
  rw [Nat.one_mul, Nat.cast_one, one_mul] at hguess
  have hstep := Int.zpow_le_iff_le_log (b := 2) (by decide) hvalue (x := (n.log2 : Int) - d.log2)
  simp only [Nat.cast_ofNat] at hstep hlog hlog'
  simp only [exponentOf]
  split
  · next h =>
    have := hstep.mp (hguess.mp h)
    congr 1
    omega
  · next h =>
    have := mt hstep.mpr (mt hguess.mpr h)
    congr 1
    omega

theorem ofRatio_eq (hn : n ≠ 0) (negative : Bool) :
    ofRatio negative n d = pack negative
      (divNearest (scaleBinary n d (exponentOf n d)).1 (scaleBinary n d (exponentOf n d)).2) (exponentOf n d) := by
  rw [ofRatio, if_neg hn]

/-- **Rounding depends on the value of a ratio alone.** -/
theorem ofRatio_congr (hd : 0 < d) (hd' : 0 < d') (h : (n / d : ℚ) = n' / d') (negative : Bool) :
    ofRatio negative n d = ofRatio negative n' d' := by
  have hdq : (d : ℚ) ≠ 0 := by exact_mod_cast hd.ne'
  have hdq' : (d' : ℚ) ≠ 0 := by exact_mod_cast hd'.ne'
  rcases Nat.eq_zero_or_pos n with rfl | hn
  · have hn' : n' = 0 := by simpa [hdq', eq_comm] using h
    rw [hn', ofRatio, ofRatio, if_pos rfl, if_pos rfl]
  · have hn' : 0 < n' := by
      rcases Nat.eq_zero_or_pos n' with rfl | hn'
      · simp [hdq, hn.ne'] at h
      · exact hn'
    have hexponent : exponentOf n d = exponentOf n' d' := by
      rw [exponentOf_eq hn hd, exponentOf_eq hn' hd', h]
    rw [ofRatio_eq hn.ne', ofRatio_eq hn'.ne', ← hexponent]
    congr 1
    -- The scaled ratios have the same value too: bring them to one denominator.
    have hpos := scaleBinary_pos hd (n := n) (exponentOf n d)
    have hpos' := scaleBinary_pos hd' (n := n') (exponentOf n d)
    have hcross : (scaleBinary n d (exponentOf n d)).1 * (scaleBinary n' d' (exponentOf n d)).2 =
        (scaleBinary n' d' (exponentOf n d)).1 * (scaleBinary n d (exponentOf n d)).2 := by
      have hscaled := div_scaleBinary n d (exponentOf n d)
      rw [h, ← div_scaleBinary n' d'] at hscaled
      rw [div_eq_div_iff (by exact_mod_cast hpos.ne') (by exact_mod_cast hpos'.ne')] at hscaled
      exact_mod_cast hscaled
    rw [← divNearest_mul_right hpos', hcross, Nat.mul_comm (scaleBinary n d _).2, divNearest_mul_right hpos]

/-- **A ratio rounds to a number of the format.** -/
theorem wellFormed_ofRatio (hd : 0 < d) (negative : Bool) : (ofRatio negative n d).WellFormed := by
  rcases Nat.eq_zero_or_pos n with rfl | hn
  · exact fits_zero
  have hvalue : (0 : ℚ) < n / d := div_pos (by exact_mod_cast hn) (by exact_mod_cast hd)
  have hbelow := Int.lt_zpow_succ_log_self (b := 2) (by decide) (n / d : ℚ)
  have habove := Int.zpow_log_le_self (b := 2) (by decide) hvalue
  rw [ofRatio_eq hn.ne', exponentOf_eq hn hd]
  generalize Int.log 2 (n / d : ℚ) = l at *
  generalize he : max minExponent (l - 52) = e
  have hpos := scaleBinary_pos hd (n := n) e
  have hmost : divNearest (scaleBinary n d e).1 (scaleBinary n d e).2 ≤ 2 ^ 53 := by
    refine divNearest_le hpos ((scaleBinary_le_mul hd _ _).mpr (hbelow.le.trans ?_))
    rw [Nat.cast_pow, Nat.cast_ofNat, ← zpow_natCast, ← zpow_add₀ two_ne_zero]
    exact zpow_le_zpow_right₀ one_le_two (by omega)
  have hleast : 2 ^ 52 ≤ divNearest (scaleBinary n d e).1 (scaleBinary n d e).2 ∨ e = minExponent := by
    rcases max_choice minExponent (l - 52) with hmin | hexact
    · exact .inr (he.symm.trans hmin)
    · refine .inl (le_divNearest hpos ((mul_le_scaleBinary hd _ _).mpr (le_trans ?_ habove)))
      rw [Nat.cast_pow, Nat.cast_ofNat, ← zpow_natCast, ← zpow_add₀ two_ne_zero]
      exact zpow_le_zpow_right₀ one_le_two (by omega)
  have hlow : minExponent ≤ e := he ▸ le_max_left _ _
  generalize divNearest (scaleBinary n d e).1 (scaleBinary n d e).2 = m at *
  rw [pack]
  by_cases hcarry : m = 2 ^ 53
  · simp only [if_pos hcarry, Nat.pow_eq]
    split
    · trivial
    · next hfinite => exact ⟨by decide, by omega, by omega, .inl le_rfl⟩
  · simp only [if_neg hcarry, Nat.pow_eq]
    split
    · trivial
    · next hfinite => exact ⟨by omega, hlow, by omega, hleast⟩

/-- **What has the format is its own nearest number.** -/
theorem ofRatio_exact {m : Nat} {e : Int} (hfits : Fits m e) (hm : m ≠ 0) (hd : 0 < d)
    (h : (n / d : ℚ) = m * 2 ^ e) (negative : Bool) : ofRatio negative n d = finite negative m e := by
  have hmq : (0 : ℚ) < m := by exact_mod_cast Nat.pos_of_ne_zero hm
  have hvalue : (0 : ℚ) < m * 2 ^ e := by positivity
  have hn : 0 < n := by
    rcases Nat.eq_zero_or_pos n with rfl | hn
    · rw [Nat.cast_zero, zero_div] at h
      exact absurd h hvalue.ne
    · exact hn
  have hexponent : exponentOf n d = e := by
    rw [exponentOf_eq hn hd, h]
    have hbelow : Int.log 2 (m * 2 ^ e : ℚ) < 53 + e := by
      rw [← Int.lt_zpow_iff_log_lt (by decide) hvalue, Nat.cast_ofNat, zpow_add₀ two_ne_zero]
      have : (m : ℚ) < 2 ^ 53 := by exact_mod_cast hfits.mantissa
      exact mul_lt_mul_of_pos_right this (by positivity)
    rcases hfits.normal with hnormal | hmin
    · have habove : 52 + e ≤ Int.log 2 (m * 2 ^ e : ℚ) := by
        rw [← Int.zpow_le_iff_le_log (by decide) hvalue, Nat.cast_ofNat, zpow_add₀ two_ne_zero]
        have : (2 : ℚ) ^ 52 ≤ m := by exact_mod_cast hnormal
        exact mul_le_mul_of_nonneg_right this (by positivity)
      have := hfits.least
      omega
    · omega
  have hpos := scaleBinary_pos hd (n := n) e
  have hscaled : (scaleBinary n d e).1 = m * (scaleBinary n d e).2 :=
    le_antisymm ((scaleBinary_le_mul hd m e).mpr h.le) ((mul_le_scaleBinary hd m e).mpr h.ge)
  have hcarry : m ≠ Nat.pow 2 53 := hfits.mantissa.ne
  have hfinite : ¬ maxExponent < e := not_lt.mpr hfits.greatest
  rw [ofRatio_eq hn.ne', hexponent, hscaled, divNearest_exact hpos, pack, if_neg hcarry]
  exact if_neg hfinite

end

/-! ## Decimals by value -/

section
variable {n n' : Nat} {e e' : Int}

theorem digitCount_eq (hn : n ≠ 0) : (digitCount n : Int) = Int.log 10 (n : ℚ) + 1 := by
  have hlength (k : Nat) (hk : 0 < k) : digitCount n ≤ k ↔ n < 10 ^ k :=
    Nat.length_toDigits_le_iff (by decide) hk
  have hpos : 0 < digitCount n := Nat.length_toDigits_pos
  have hlog (k : Nat) : n < 10 ^ k ↔ Nat.log 10 n < k := (Nat.log_lt_iff_lt_pow (by decide) hn).symm
  have hmost := (hlength (Nat.log 10 n + 1) (by omega)).mpr ((hlog _).mpr (by omega))
  have hleast := (hlog (digitCount n)).mp ((hlength _ hpos).mp le_rfl)
  rw [Int.log_natCast]
  omega

theorem log_mul_zpow {r : ℚ} (hr : 0 < r) (e : Int) : Int.log 10 (r * 10 ^ e) = Int.log 10 r + e := by
  refine eq_of_forall_le_iff fun x => ?_
  have hpower : (0 : ℚ) < 10 ^ e := by positivity
  rw [← Int.zpow_le_iff_le_log (by decide) (mul_pos hr hpower), ← sub_le_iff_le_add,
    ← Int.zpow_le_iff_le_log (by decide) hr, Nat.cast_ofNat, zpow_sub₀ (by norm_num), div_le_iff₀ hpower]

theorem ofDecimal_zero (negative : Bool) (e : Int) : ofDecimal negative 0 e = zero negative := by
  simp [ofDecimal]

/-- A decimal is rounded as a ratio of its value, unless the place of its first digit decides. -/
theorem exists_ofDecimal_eq (hn : n ≠ 0) (e : Int) (negative : Bool) :
    ∃ p q : Nat, 0 < q ∧ (p / q : ℚ) = n * 10 ^ e ∧ ofDecimal negative n e =
      if 310 < Int.log 10 (n * 10 ^ e : ℚ) + 1 then infinite negative
      else if Int.log 10 (n * 10 ^ e : ℚ) + 1 < -330 then zero negative
      else ofRatio negative p q := by
  have hmagnitude : (digitCount n : Int) + e = Int.log 10 (n * 10 ^ e : ℚ) + 1 := by
    rw [log_mul_zpow (by exact_mod_cast Nat.pos_of_ne_zero hn), digitCount_eq hn]
    ring
  cases e with
  | ofNat k =>
    refine ⟨n * 10 ^ k, 1, one_pos, by simp, ?_⟩
    simp only [ofDecimal, if_neg hn, hmagnitude, Nat.pow_eq]
  | negSucc k =>
    refine ⟨n, 10 ^ (k + 1), by positivity, by simp [zpow_negSucc, div_eq_mul_inv], ?_⟩
    simp only [ofDecimal, if_neg hn, hmagnitude, Nat.pow_eq]

/-- **Rounding depends on the value of a decimal alone.** -/
theorem ofDecimal_congr (h : (n * 10 ^ e : ℚ) = n' * 10 ^ e') (negative : Bool) :
    ofDecimal negative n e = ofDecimal negative n' e' := by
  have hpower (x : Int) : (10 : ℚ) ^ x ≠ 0 := by positivity
  rcases Nat.eq_zero_or_pos n with rfl | hn
  · have hn' : n' = 0 := by simpa [hpower, eq_comm] using h
    rw [hn', ofDecimal_zero, ofDecimal_zero]
  · have hn' : n' ≠ 0 := by
      rintro rfl
      simp [hpower, hn.ne'] at h
    obtain ⟨p, q, hq, hvalue, heq⟩ := exists_ofDecimal_eq hn.ne' e negative
    obtain ⟨p', q', hq', hvalue', heq'⟩ := exists_ofDecimal_eq hn' e' negative
    rw [heq, heq', h, ofRatio_congr hq hq' (by rw [hvalue, hvalue', h])]

theorem wellFormed_ofDecimal (n : Nat) (e : Int) (negative : Bool) :
    (ofDecimal negative n e).WellFormed := by
  rcases eq_or_ne n 0 with rfl | hn
  · rw [ofDecimal_zero]
    exact fits_zero
  · obtain ⟨p, q, hq, -, heq⟩ := exists_ofDecimal_eq hn e negative
    rw [heq]
    split
    · trivial
    · split
      · exact fits_zero
      · exact wellFormed_ofRatio hq negative

theorem pack_neg (negative : Bool) (m : Nat) (e : Int) : pack (!negative) m e = (pack negative m e).neg := by
  simp only [pack]
  split <;> split <;> rfl

/-- The sign is only passed on. -/
theorem ofDecimal_neg (negative : Bool) (n : Nat) (e : Int) :
    ofDecimal (!negative) n e = (ofDecimal negative n e).neg := by
  have hratio (n d : Nat) : ofRatio (!negative) n d = (ofRatio negative n d).neg := by
    simp only [ofRatio, pack_neg]
    split <;> rfl
  simp only [ofDecimal, hratio]
  split
  · rfl
  · split
    · rfl
    · split
      · rfl
      · cases e <;> rfl

end

/-! ## The decimal that is chosen -/

section
variable {m : Nat} {e : Int}

theorem candidate?_readsBack {count : Nat} {d : Decimal} (h : candidate? m e count = some d) :
    ofDecimal false d.digits d.exponent = finite false m e := by
  simp only [candidate?] at h
  split at h
  · next hlow hnext =>
    cases h
    dsimp only
    split
    · simpa using hlow
    · simpa using hnext
  · next hlow _ =>
    cases h
    simpa using hlow
  · next _ hnext =>
    cases h
    simpa using hnext
  · cases h

theorem value_expansion (m : Nat) (e : Int) :
    ((expansion m e).digits * 10 ^ (expansion m e).exponent : ℚ) = m * 2 ^ e := by
  cases e with
  | ofNat k => simp [expansion]
  | negSucc k =>
    have hexponent : -((k : Int) + 1) = -((k + 1 : Nat) : Int) := by push_cast; ring
    have hten : (10 : ℚ) = 5 * 2 := by norm_num
    simp only [expansion, Nat.pow_eq, Nat.cast_mul, Nat.cast_pow, Nat.cast_ofNat, hexponent, zpow_neg, zpow_natCast,
      zpow_negSucc]
    rw [hten, mul_pow]
    field_simp

/-- A number of the format does not lie beyond the decimals that are read exactly. -/
theorem magnitude_bounds (hfits : Fits m e) (hm : m ≠ 0) :
    ¬ 310 < Int.log 10 (m * 2 ^ e : ℚ) + 1 ∧ ¬ Int.log 10 (m * 2 ^ e : ℚ) + 1 < -330 := by
  have hmq : (1 : ℚ) ≤ m := by exact_mod_cast Nat.pos_of_ne_zero hm
  have hvalue : (0 : ℚ) < m * 2 ^ e := by positivity
  have hbelow : (m * 2 ^ e : ℚ) < 10 ^ (309 : Int) := by
    have hmantissa : (m : ℚ) < 2 ^ 53 := by exact_mod_cast hfits.mantissa
    have hpower : (2 : ℚ) ^ e ≤ 2 ^ (971 : Int) := zpow_le_zpow_right₀ one_le_two hfits.greatest
    calc (m * 2 ^ e : ℚ) < 2 ^ 53 * 2 ^ (971 : Int) := mul_lt_mul hmantissa hpower (by positivity) (by positivity)
      _ ≤ 10 ^ (309 : Int) := by exact_mod_cast (by decide +kernel : 2 ^ 53 * 2 ^ 971 ≤ 10 ^ 309)
  have habove : (10 : ℚ) ^ (-330 : Int) ≤ m * 2 ^ e := by
    have hpower : (2 : ℚ) ^ (-1074 : Int) ≤ 2 ^ e := zpow_le_zpow_right₀ one_le_two hfits.least
    have hten : (2 : ℚ) ^ 1074 ≤ 10 ^ 330 := by exact_mod_cast (by decide +kernel : 2 ^ 1074 ≤ 10 ^ 330)
    calc (10 : ℚ) ^ (-330 : Int) ≤ 2 ^ (-1074 : Int) := by
          rw [zpow_neg, zpow_neg]
          exact inv_anti₀ (by positivity) hten
      _ ≤ 2 ^ e := hpower
      _ ≤ m * 2 ^ e := le_mul_of_one_le_left (by positivity) hmq
  have hlog := (Int.lt_zpow_iff_log_lt (b := 10) (by decide) hvalue).mp hbelow
  have hlog' := (Int.zpow_le_iff_le_log (b := 10) (by decide) hvalue).mp habove
  omega

theorem expansion_readsBack (hfits : Fits m e) (hm : m ≠ 0) :
    ofDecimal false (expansion m e).digits (expansion m e).exponent = finite false m e := by
  have hvalue := value_expansion m e
  have hdigits : (expansion m e).digits ≠ 0 := by
    intro hzero
    have hpower : (2 : ℚ) ^ e ≠ 0 := by positivity
    simp [hzero, hm, hpower] at hvalue
  obtain ⟨p, q, hq, hratio, heq⟩ := exists_ofDecimal_eq hdigits (expansion m e).exponent false
  obtain ⟨hmost, hleast⟩ := magnitude_bounds hfits hm
  rw [heq, hvalue, if_neg hmost, if_neg hleast]
  exact ofRatio_exact hfits hm hq (hratio.trans hvalue) false

/-- **The decimal chosen for a number reads back as the number.** -/
theorem shortest_readsBack (hfits : Fits m e) (hm : m ≠ 0) :
    ofDecimal false (shortest m e).digits (shortest m e).exponent = finite false m e := by
  rw [shortest]
  cases hfound : (List.range' 1 17).findSome? (candidate? m e) with
  | none => exact expansion_readsBack hfits hm
  | some d =>
    obtain ⟨count, -, hcandidate⟩ := List.exists_of_findSome?_eq_some hfound
    exact candidate?_readsBack hcandidate

theorem shortest_ne_zero (hfits : Fits m e) (hm : m ≠ 0) : (shortest m e).digits ≠ 0 := by
  intro hzero
  have hread := shortest_readsBack hfits hm
  rw [hzero, ofDecimal_zero, zero] at hread
  exact hm (by injection hread with _ h; exact h.symm)

end

end ShaderFlatten.Binary64
