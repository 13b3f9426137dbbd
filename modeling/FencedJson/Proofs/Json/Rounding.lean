import FencedJson.Json.Value
import Mathlib.Algebra.Order.Field.Power
import Mathlib.Tactic.FieldSimp
import Mathlib.Tactic.Linarith
import Mathlib.Tactic.NormNum
import Mathlib.Tactic.Positivity
import Mathlib.Tactic.Ring

/-! # Rounding to the nearest double

A decimal literal becomes the double nearest to the number that it writes, of
two that are as near the even one. Infinity stands at the power of two behind
the largest double.
-/

namespace FencedJson.Json

namespace Double

def number (bits : Nat) : ℚ :=
  if bits < 2 ^ 52 then bits * 2 ^ (-1074 : ℤ)
  else ((2 ^ 52 + bits % 2 ^ 52 : ℕ) : ℚ) * 2 ^
    (((bits / 2 ^ 52 : ℕ) : ℤ) - 1075)

/-- The bits of the double nearest to a number that is not negative. -/
structure IsNearest (x : ℚ) (bits : Nat) : Prop where
  finite : bits ≤ infinityBits
  nearest : ∀ other ≤ infinityBits, |x - number bits| ≤ |x - number other|
  even : ∀ other ≤ infinityBits, other ≠ bits →
    |x - number bits| = |x - number other| → Even bits

/-! ## The line of doubles -/

theorem exponentUnit_eq : exponentUnit = 2 ^ 52 := by decide

theorem number_place (place significand : Nat) (small : significand ≤ 2 ^ 53)
    (normal : place = 0 ∨ 2 ^ 52 ≤ significand) :
    number (place * 2 ^ 52 + significand) = significand * 2 ^
      ((place : ℤ) - 1074) := by
  by_cases subnormal : place * 2 ^ 52 + significand < 2 ^ 52
  · have whole : place * 2 ^ 52 + significand = significand := by omega
    have exponent : (place : ℤ) - 1074 = -1074 := by omega
    rw [number, if_pos subnormal, whole, exponent]
  · rw [number, if_neg subnormal]
    by_cases carries : significand = 2 ^ 53
    · have quotient : (place * 2 ^ 52 + significand) / 2 ^ 52 = place + 2 := by
        omega
      have remainder : (place * 2 ^ 52 + significand) % 2 ^ 52 = 0 := by omega
      have exponent : ((place + 2 : ℕ) : ℤ) - 1075 = 1 +
          ((place : ℤ) - 1074) := by omega
      rw [quotient, remainder, carries, exponent,
        zpow_add₀ (by norm_num), ← mul_assoc]
      norm_num
    · have quotient : (place * 2 ^ 52 + significand) / 2 ^ 52 = place + 1 := by
        omega
      have remainder : 2 ^ 52 + (place * 2 ^ 52 + significand) % 2 ^ 52 =
          significand := by omega
      have exponent : ((place + 1 : ℕ) : ℤ) - 1075 = (place : ℤ) - 1074 := by
        omega
      rw [quotient, remainder, exponent]

private theorem exists_place (bits : Nat) :
    ∃ place significand, bits = place * 2 ^ 52 + significand ∧
    significand < 2 ^ 53 ∧ (place = 0 ∨ 2 ^ 52 ≤ significand) := by
  by_cases subnormal : bits < 2 ^ 52
  · exact ⟨0, bits, by omega, by omega, .inl rfl⟩
  · exact ⟨bits / 2 ^ 52 - 1,
      2 ^ 52 + bits % 2 ^ 52, by omega, by omega, .inr (by omega)⟩

theorem number_lt_succ (bits : Nat) : number bits < number (bits + 1) := by
  rcases exists_place bits with ⟨place, significand, rfl, small, normal⟩
  rw [Nat.add_assoc, number_place place significand small.le normal,
    number_place place (significand + 1) small
      (normal.imp_right Nat.le_succ_of_le)]
  have unit : (0 : ℚ) < 2 ^ ((place : ℤ) - 1074) := by positivity
  push_cast
  linarith

theorem number_strictMono : StrictMono number :=
  strictMono_nat_of_lt_succ number_lt_succ

theorem isNearest_of_neighbours {x : ℚ} {bits : Nat}
    (finite : bits ≤ infinityBits)
    (upper : bits < infinityBits → 2 * x ≤ number bits + number (bits + 1) ∧
      (2 * x = number bits + number (bits + 1) → Even bits))
    (lower : ∀ before, bits = before + 1 → number before + number bits ≤ 2 * x ∧
      (number before + number bits = 2 * x → Even bits)) :
      IsNearest x bits := by
  -- Numbers grow with their bits, so whatever else there is lies behind one of
  -- the neighbours.
  have compared : ∀ other ≤ infinityBits, other ≠ bits →
      |x - number bits| ≤ |x - number other| ∧
        (|x - number bits| = |x - number other| → Even bits) := by
    intro other within differs
    rcases Nat.lt_or_gt_of_ne differs with below | above
    · rcases Nat.exists_eq_succ_of_ne_zero (Nat.ne_zero_of_lt below) with
        ⟨before, rfl⟩
      rcases lower before rfl with ⟨bound, tie⟩
      have step := number_lt_succ before
      have order := number_strictMono.monotone (Nat.le_of_lt_succ below)
      have distance : |x - number other| = x - number other :=
        abs_of_nonneg (by linarith)
      rw [distance]
      rcases le_total x (number (before + 1)) with short | long
      · rw [abs_of_nonpos (by linarith)]
        exact ⟨by linarith, fun same => tie (by linarith)⟩
      · rw [abs_of_nonneg (by linarith)]
        exact ⟨by linarith, fun same => absurd same (by linarith)⟩
    · rcases upper (Nat.lt_of_lt_of_le above within) with ⟨bound, tie⟩
      have step := number_lt_succ bits
      have order := number_strictMono.monotone (Nat.succ_le_of_lt above)
      have distance : |x - number other| = number other - x := by
        rw [abs_of_nonpos (by linarith), neg_sub]
      rw [distance]
      rcases le_total x (number bits) with short | long
      · rw [abs_of_nonpos (by linarith)]
        exact ⟨by linarith, fun same => absurd same (by linarith)⟩
      · rw [abs_of_nonneg (by linarith)]
        exact ⟨by linarith, fun same => tie (by linarith)⟩
  refine ⟨finite, fun other within => ?_,
    fun other within differs => (compared other within differs).2⟩
  by_cases same : other = bits
  · rw [same]
  · exact (compared other within same).1

/-! ## Rounding at a place -/

section

variable {x y : ℚ} {place significand : Nat}

/-- A significand is an integer nearest to a number, the even one of two. -/
structure IsRounded (y : ℚ) (significand : Nat) : Prop where
  lower : 2 * (significand : ℚ) ≤ 2 * y + 1
  upper : 2 * y ≤ 2 * significand + 1
  even : 2 * (significand : ℚ) = 2 * y + 1 ∨ 2 * y = 2 * significand + 1 →
      Even significand

theorem even_place (even : Even significand) :
    Even (place * 2 ^ 52 + significand) :=
  (Nat.even_mul.2 (.inr ((Nat.even_pow' (by decide)).2 even_two))).add even

theorem number_place_succ (small : significand ≤ 2 ^ 53)
    (normal : place = 0 ∨ 2 ^ 52 ≤ significand) :
    (significand + 1 : ℚ) * 2 ^ ((place : ℤ) - 1074) ≤
      number (place * 2 ^ 52 + significand + 1) := by
  rcases Nat.lt_or_eq_of_le small with inside | carries
  · rw [Nat.add_assoc, number_place place (significand + 1) inside
      (normal.imp_right Nat.le_succ_of_le)]
    push_cast
    exact le_refl _
  · have next : place * 2 ^ 52 + significand + 1 = (place + 1) * 2 ^ 52 +
        (2 ^ 52 + 1) := by omega
    have exponent : ((place + 1 : ℕ) : ℤ) - 1074 = 1 +
        ((place : ℤ) - 1074) := by omega
    rw [next, number_place (place + 1) (2 ^ 52 + 1) (by norm_num)
      (.inr (by norm_num)), exponent, zpow_add₀ (by norm_num),
      ← mul_assoc, carries]
    have unit : (0 : ℚ) < 2 ^ ((place : ℤ) - 1074) := by positivity
    push_cast
    linarith

theorem significand_bounds (rounded : IsRounded y significand)
    (small : y < 2 ^ 53) (normal : place = 0 ∨ 2 ^ 52 ≤ y) :
    significand ≤ 2 ^ 53 ∧ (place = 0 ∨ 2 ^ 52 ≤ significand) := by
  constructor
  · have bound : (significand : ℚ) < (2 ^ 53 + 1 : ℕ) := by
      have := rounded.lower
      push_cast
      linarith
    exact Nat.le_of_lt_succ (Nat.cast_lt.1 bound)
  · refine normal.imp_right fun large => ?_
    have bound : ((2 ^ 52 : ℕ) : ℚ) < (significand + 1 : ℕ) := by
      have := rounded.upper
      push_cast
      linarith
    exact Nat.le_of_lt_succ (Nat.cast_lt.1 bound)

theorem lower_neighbour (rounded : IsRounded y significand)
    (scaled : x = y * 2 ^ ((place : ℤ) - 1074)) (small : y < 2 ^ 53)
    (normal : place = 0 ∨ 2 ^ 52 ≤ y) {before : Nat}
    (follows : place * 2 ^ 52 + significand = before + 1) :
    number before + number (before + 1) ≤ 2 * x ∧
      (number before + number (before + 1) = 2 * x → Even (before + 1)) := by
  rcases significand_bounds rounded small normal with ⟨within, enough⟩
  have here := number_place place significand within enough
  have unit : (0 : ℚ) < 2 ^ ((place : ℤ) - 1074) := by positivity
  rw [follows] at here
  rcases lt_or_ge y significand with short | long
  · -- The number lies below its significand, whose neighbour is in the same
    -- place.
    obtain ⟨previous, rfl⟩ : ∃ previous, significand = previous + 1 :=
      Nat.exists_eq_succ_of_ne_zero (by omega)
    have same : before = place * 2 ^ 52 + previous := by omega
    have enough' : place = 0 ∨ 2 ^ 52 ≤ previous := by
      refine normal.imp_right fun large => ?_
      have bound : ((2 ^ 52 : ℕ) : ℚ) < (previous + 1 : ℕ) := by
        push_cast at short ⊢
        linarith
      exact Nat.le_of_lt_succ (Nat.cast_lt.1 bound)
    have there := number_place place previous (by omega) enough'
    have lower := rounded.lower
    rw [← same] at there
    rw [here, there, scaled, ← add_mul, ← mul_assoc, mul_le_mul_iff_left₀ unit,
      mul_left_inj' unit.ne']
    push_cast at lower ⊢
    refine ⟨by linarith, fun equal => ?_⟩
    rw [← follows]
    exact even_place (rounded.even (.inl (by push_cast; linarith)))
  · have step := number_lt_succ before
    have bound : number (before + 1) ≤ x := by
      rw [here, scaled]
      exact mul_le_mul_of_nonneg_right long unit.le
    exact ⟨by linarith, fun equal => absurd equal (by linarith)⟩

theorem number_infinityBits : number infinityBits = 2 ^ 1024 := by
  have split : infinityBits = 2046 * 2 ^ 52 + 2 ^ 52 := by decide
  have exponent : ((2046 : ℕ) : ℤ) - 1074 = (972 : ℕ) := by norm_num
  rw [split, number_place 2046 (2 ^ 52) (by norm_num) (.inr (le_refl _)),
    exponent, zpow_natCast, Nat.cast_pow, Nat.cast_ofNat, ← pow_add]

theorem isNearest_infinityBits (large : number infinityBits ≤ x) :
    IsNearest x infinityBits := by
  refine isNearest_of_neighbours (le_refl _)
    (fun below => absurd below (lt_irrefl _)) ?_
  intro before follows
  have step := number_lt_succ before
  rw [← follows] at step
  exact ⟨by linarith, fun equal => absurd equal (by linarith)⟩

theorem isNearest_place (rounded : IsRounded y significand)
    (scaled : x = y * 2 ^ ((place : ℤ) - 1074)) (small : y < 2 ^ 53)
    (normal : place = 0 ∨ 2 ^ 52 ≤ y) :
    IsNearest x (min infinityBits (place * 2 ^ 52 + significand)) := by
  rcases significand_bounds rounded small normal with ⟨within, enough⟩
  rcases Nat.lt_or_ge infinityBits (place * 2 ^ 52 + significand) with
    overflow | finite
  · rw [Nat.min_eq_left overflow.le]
    apply isNearest_infinityBits
    rcases Nat.exists_eq_succ_of_ne_zero (Nat.ne_zero_of_lt overflow) with
      ⟨before, follows⟩
    rcases lower_neighbour rounded scaled small normal follows with ⟨bound, -⟩
    have order :=
        number_strictMono.monotone (show infinityBits ≤ before by omega)
    have step := number_lt_succ before
    linarith
  · rw [Nat.min_eq_right finite]
    refine isNearest_of_neighbours finite (fun _ => ?_) ?_
    · have here := number_place place significand within enough
      have next := number_place_succ within enough
      have unit : (0 : ℚ) < 2 ^ ((place : ℤ) - 1074) := by positivity
      have upper := mul_le_mul_of_nonneg_right rounded.upper unit.le
      rw [mul_assoc, ← scaled] at upper
      refine ⟨by linarith, fun equal => even_place (rounded.even (.inr ?_))⟩
      have bound : (2 * (significand : ℚ) + 1) * 2 ^ ((place : ℤ) - 1074) ≤
          2 * y * 2 ^ ((place : ℤ) - 1074) := by
        rw [mul_assoc 2 y, ← scaled]
        linarith
      exact le_antisymm rounded.upper (le_of_mul_le_mul_right bound unit)
    · intro before follows
      rw [follows]
      exact lower_neighbour rounded scaled small normal follows

end

/-! ## Fractions -/

section

variable {numerator denominator : Nat}

theorem isRounded_roundHalfEven (numerator : Nat) (positive : 0 < denominator) :
    IsRounded ((numerator : ℚ) / denominator)
    (roundHalfEven numerator denominator) := by
  have whole := Nat.div_add_mod numerator denominator
  have bound := Nat.mod_lt numerator positive
  have unit : (0 : ℚ) < denominator := Nat.cast_pos.2 positive
  unfold roundHalfEven
  generalize numerator / denominator = quotient at whole ⊢
  generalize numerator % denominator = remainder at whole bound ⊢
  subst whole
  -- The branches compare twice the remainder with the denominator, that is
  -- twice the fraction with one.
  have value : ((denominator * quotient + remainder : ℕ) : ℚ) / denominator =
      quotient + remainder / denominator := by
    push_cast
    field_simp
  have nonneg : (0 : ℚ) ≤ remainder / denominator := by positivity
  have below : (remainder : ℚ) / denominator < 1 :=
    (div_lt_one unit).2 (Nat.cast_lt.2 bound)
  rw [value]
  dsimp only
  split
  · next less =>
      have half : 2 * ((remainder : ℚ) / denominator) < 1 := by
        rw [← mul_div_assoc, div_lt_one unit]
        exact_mod_cast less
      exact
        ⟨by linarith, by
          linarith, fun tie => by rcases tie with tie | tie <;> linarith⟩
  · split
    · next more =>
        have half : 1 < 2 * ((remainder : ℚ) / denominator) := by
          rw [← mul_div_assoc, one_lt_div unit]
          exact_mod_cast more
        refine ⟨?_, ?_, fun tie => ?_⟩ <;> push_cast at *
        · linarith
        · linarith
        · rcases tie with tie | tie <;> linarith
    · next notLess notMore =>
        have half : 2 * ((remainder : ℚ) / denominator) = 1 := by
          rw [← mul_div_assoc, div_eq_one_iff_eq unit.ne']
          exact_mod_cast (show 2 * remainder = denominator by omega)
        rcases Nat.even_or_odd quotient with even | odd
        · rw [Nat.even_iff.1 even, Nat.add_zero]
          exact ⟨by linarith, by linarith, fun _ => even⟩
        · rw [Nat.odd_iff.1 odd]
          exact
            ⟨by push_cast; linarith, by
              push_cast; linarith, fun _ => odd.add_one⟩

theorem scale_spec (numerator : Nat) (positive : 0 < denominator)
    (exponent : Int) :
    0 < (scale numerator denominator exponent).2 ∧
      ((scale numerator denominator exponent).1 : ℚ) /
        (scale numerator denominator exponent).2 =
          numerator / denominator / 2 ^ exponent := by
  unfold scale
  split
  · next below =>
      refine ⟨positive, ?_⟩
      obtain ⟨size, rfl⟩ : ∃ size : ℕ, exponent = -(size : ℤ) :=
        ⟨exponent.natAbs, by omega⟩
      simp only [Int.natAbs_neg, Int.natAbs_natCast, Nat.shiftLeft_eq]
      push_cast
      rw [zpow_neg, zpow_natCast]
      field_simp
  · next above =>
      obtain ⟨size, rfl⟩ : ∃ size : ℕ, exponent = (size : ℤ) :=
        ⟨exponent.natAbs, by omega⟩
      simp only [Int.natAbs_natCast, Nat.shiftLeft_eq]
      refine ⟨Nat.mul_pos positive (by positivity), ?_⟩
      push_cast
      rw [zpow_natCast, div_div]

theorem log2_bounds {n : Nat} (nonzero : 0 < n) :
    (2 : ℚ) ^ (n.log2 : ℤ) ≤ n ∧ (n : ℚ) < 2 ^ ((n.log2 : ℤ) + 1) := by
  rw [← Nat.cast_succ, zpow_natCast, zpow_natCast]
  constructor
  · exact_mod_cast Nat.log2_self_le nonzero.ne'
  · exact_mod_cast Nat.lt_log2_self

private theorem estimate_bounds (nonzero : 0 < numerator)
    (positive : 0 < denominator) :
    2 ^ 52 ≤ (numerator : ℚ) / denominator / 2 ^
      ((numerator.log2 : ℤ) - denominator.log2 - 53) ∧
      (numerator : ℚ) / denominator / 2 ^
        ((numerator.log2 : ℤ) - denominator.log2 - 53) < 2 ^ 54 := by
  rcases log2_bounds nonzero with ⟨least, most⟩
  rcases log2_bounds positive with ⟨least', most'⟩
  generalize (numerator.log2 : ℤ) = a at *
  generalize (denominator.log2 : ℤ) = b at *
  have unit : (0 : ℚ) < denominator := Nat.cast_pos.2 positive
  have scaled : (0 : ℚ) < 2 ^ (a - b - 53) := by positivity
  have power (k : ℕ) : (2 : ℚ) ^ k * 2 ^ (a - b - 53) =
      2 ^ (a - b - 53 + k) := by
    rw [zpow_add₀ (by norm_num), zpow_natCast, mul_comm]
  rw [le_div_iff₀ scaled, div_lt_iff₀ scaled, power, power, le_div_iff₀ unit,
    div_lt_iff₀ unit]
  constructor
  · calc (2 : ℚ) ^ (a - b - 53 + (52 : ℕ)) * denominator
      _ ≤ 2 ^ (a - b - 53 + (52 : ℕ)) * 2 ^ (b + 1) := by gcongr
      _ = 2 ^ a := by
        rw [← zpow_add₀ (by norm_num)]
        congr 1
        push_cast
        ring
      _ ≤ numerator := least
  · calc (numerator : ℚ)
      _ < 2 ^ (a + 1) := most
      _ = 2 ^ (a - b - 53 + (54 : ℕ)) * 2 ^ b := by
        rw [← zpow_add₀ (by norm_num)]
        congr 1
        push_cast
        ring
      _ ≤ 2 ^ (a - b - 53 + (54 : ℕ)) * denominator := by gcongr

private theorem lastPlace_eq_max (nonzero : 0 < numerator)
    (positive : 0 < denominator) :
    ∃ exponent : ℤ, lastPlace numerator denominator = max (-1074) exponent ∧
      (numerator : ℚ) / denominator / 2 ^ exponent < 2 ^ 53 ∧
      2 ^ 52 ≤ (numerator : ℚ) / denominator / 2 ^ exponent := by
  rcases estimate_bounds nonzero positive with ⟨lower, upper⟩
  unfold lastPlace
  rw [exponentUnit_eq, ← pow_succ']
  generalize (numerator.log2 : ℤ) - denominator.log2 - 53 = e at *
  rcases scale_spec numerator positive e with ⟨scaledPositive, scaled⟩
  have unit : (0 : ℚ) < (scale numerator denominator e).2 :=
    Nat.cast_pos.2 scaledPositive
  dsimp only
  split
  · next fits =>
      rw [Nat.div_lt_iff_lt_mul scaledPositive] at fits
      refine ⟨e, rfl, ?_, lower⟩
      rw [← scaled, div_lt_iff₀ unit]
      exact_mod_cast fits
  · next wide =>
      rw [Nat.div_lt_iff_lt_mul scaledPositive, Nat.not_lt] at wide
      have large : (2 : ℚ) ^ 53 ≤ (numerator : ℚ) / denominator / 2 ^ e := by
        rw [← scaled, le_div_iff₀ unit]
        exact_mod_cast wide
      refine ⟨e + 1, rfl, ?_⟩
      rw [zpow_add_one₀ (by norm_num), ← div_div]
      constructor <;> linarith

private theorem lastPlace_spec (nonzero : 0 < numerator)
    (positive : 0 < denominator) :
    ∃ place : ℕ, lastPlace numerator denominator = (place : ℤ) - 1074 ∧
      (numerator : ℚ) / denominator / 2 ^ ((place : ℤ) - 1074) < 2 ^ 53 ∧
      (place = 0 ∨ 2 ^ 52 ≤ (numerator : ℚ) / denominator / 2 ^
        ((place : ℤ) - 1074)) := by
  rcases lastPlace_eq_max nonzero positive with ⟨exponent, same, small, large⟩
  rcases le_or_gt (-1074) exponent with normal | subnormal
  · obtain ⟨place, rfl⟩ : ∃ place : ℕ, exponent = (place : ℤ) - 1074 :=
      ⟨(exponent + 1074).toNat, by omega⟩
    exact ⟨place, by rw [same, max_eq_right normal], small, .inr large⟩
  · refine ⟨0, by rw [same, max_eq_left subnormal.le]; rfl, ?_, .inl rfl⟩
    have order : (2 : ℚ) ^ exponent ≤ 2 ^ (((0 : ℕ) : ℤ) - 1074) :=
      zpow_le_zpow_right₀ (by norm_num) (by simpa using subnormal.le)
    apply lt_of_le_of_lt _ small
    exact div_le_div_of_nonneg_left (by positivity) (by positivity) order

theorem isNearest_nearestBits (nonzero : 0 < numerator)
    (positive : 0 < denominator) :
    IsNearest ((numerator : ℚ) / denominator)
    (nearestBits numerator denominator) := by
  rcases lastPlace_spec nonzero positive with ⟨place, same, small, normal⟩
  rcases scale_spec numerator positive (lastPlace numerator denominator) with
    ⟨scaledPositive, scaled⟩
  have rounded := isRounded_roundHalfEven
    (scale numerator denominator (lastPlace numerator denominator)).1
      scaledPositive
  rw [scaled, same] at rounded
  have unit : (2 : ℚ) ^ ((place : ℤ) - 1074) ≠ 0 := by positivity
  have nearest := isNearest_place rounded
      (div_mul_cancel₀ _ unit).symm small normal
  have exponent : ((place : ℤ) - 1074 + 1074).toNat = place := by omega
  rw [nearestBits, exponentUnit_eq]
  simp only [same, exponent]
  exact nearest

end

/-! ## Decimal literals -/

theorem two_pow_le_ten_pow {n m : Nat} (bound : n ≤ 3 * m) :
    (2 : ℚ) ^ n ≤ 10 ^ m :=
  calc (2 : ℚ) ^ n
    _ ≤ 2 ^ (3 * m) := pow_le_pow_right₀ (by norm_num) bound
    _ = 8 ^ m := by rw [pow_mul]; norm_num
    _ ≤ 10 ^ m := pow_le_pow_left₀ (by norm_num) (by norm_num) m

theorem isNearest_zero {x : ℚ} (small : 2 * x < 2 ^ (-1074 : ℤ)) :
    IsNearest x 0 := by
  have zero : number 0 = 0 := by simp [number]
  have one : number (0 + 1) = 2 ^ (-1074 : ℤ) := by simp [number]
  refine isNearest_of_neighbours (Nat.zero_le _) (fun _ => ?_)
    (fun before follows => by cases follows)
  rw [zero, one]
  exact ⟨by linarith, fun equal => absurd equal (by linarith)⟩

section

variable {digits : Nat} {exponent : Int}

theorem isNearest_of_large (positive : 0 < digits) (large : 400 < exponent) :
    IsNearest (digits * 10 ^ exponent) infinityBits := by
  have one : (1 : ℚ) ≤ digits := by exact_mod_cast positive
  apply isNearest_infinityBits
  rw [number_infinityBits]
  calc (2 : ℚ) ^ 1024
    _ ≤ 10 ^ 401 := two_pow_le_ten_pow (by norm_num)
    _ = 10 ^ (401 : ℤ) := by rw [← zpow_natCast]; rfl
    _ ≤ 10 ^ exponent := zpow_le_zpow_right₀ (by norm_num) large
    _ ≤ digits * 10 ^ exponent := le_mul_of_one_le_left (by positivity) one

private theorem isNearest_of_small (positive : 0 < digits)
    (small : exponent < -400 - digits.log2) :
    IsNearest (digits * 10 ^ exponent) 0 := by
  have short : (digits : ℚ) < 10 ^ ((digits.log2 : ℤ) + 1) :=
    lt_of_lt_of_le (log2_bounds positive).2
      (zpow_le_zpow_left₀ (by positivity) (by norm_num) (by norm_num))
  have tiny : (10 : ℚ) ^ exponent ≤ 10 ^ (-401 - (digits.log2 : ℤ)) :=
    zpow_le_zpow_right₀ (by norm_num) (by omega)
  apply isNearest_zero
  calc 2 * ((digits : ℚ) * 10 ^ exponent)
    _ < 2 * (10 ^ ((digits.log2 : ℤ) + 1) * 10 ^ exponent) := by gcongr
    _ ≤ 2 *
      (10 ^ ((digits.log2 : ℤ) + 1) * 10 ^ (-401 - (digits.log2 : ℤ))) := by
      exact mul_le_mul_of_nonneg_left
        (mul_le_mul_of_nonneg_left tiny (by positivity)) (by norm_num)
    _ = 2 * 10 ^ (-400 : ℤ) := by
      rw [← zpow_add₀ (by norm_num)]
      congr 2
      ring
    _ ≤ 2 ^ (-1074 : ℤ) := by
      have order := two_pow_le_ten_pow (n := 1075) (m := 400) (by norm_num)
      rw [zpow_neg, zpow_neg, ← div_eq_mul_inv, div_le_iff₀ (by positivity),
        ← div_eq_inv_mul, le_div_iff₀ (by positivity)]
      rw [pow_succ', ← zpow_natCast, ← zpow_natCast] at order
      exact order

theorem isNearest_ofDecimal (negative : Bool) (digits : Nat) (exponent : Int) :
    ∃ bits, ofDecimal negative digits exponent = signed negative bits ∧
      IsNearest (digits * 10 ^ exponent) bits := by
  unfold ofDecimal
  split
  · next zero =>
      refine ⟨0, rfl, isNearest_zero ?_⟩
      rw [zero, Nat.cast_zero, zero_mul, mul_zero]
      positivity
  · next nonzero =>
      have positive : 0 < digits := Nat.pos_of_ne_zero nonzero
      split
      · next large =>
            exact ⟨infinityBits, rfl, isNearest_of_large positive large⟩
      · split
        · next small => exact ⟨0, rfl, isNearest_of_small positive small⟩
        · split
          · next above =>
              obtain ⟨size, rfl⟩ : ∃ size : ℕ, exponent = (size : ℤ) :=
                ⟨exponent.toNat, by omega⟩
              have scaled : 0 < digits * 10 ^ size := by positivity
              have nearest := isNearest_nearestBits scaled one_pos
              refine ⟨_, rfl, ?_⟩
              rw [Int.natAbs_natCast, zpow_natCast]
              simpa using nearest
          · next below =>
              obtain ⟨size, rfl⟩ : ∃ size : ℕ, exponent = -(size : ℤ) :=
                ⟨exponent.natAbs, by omega⟩
              have power : 0 < 10 ^ size := by positivity
              have nearest := isNearest_nearestBits positive power
              refine ⟨_, rfl, ?_⟩
              rw [Int.natAbs_neg, Int.natAbs_natCast, zpow_neg, zpow_natCast,
                ← div_eq_mul_inv]
              simpa using nearest

end

end Double

namespace Decimal

def size (literal : Decimal) : ℚ :=
  decimalNumber (literal.whole ++ literal.fraction.getD []) *
    10 ^ (literal.power - (literal.fraction.getD []).length)

/-- The value is the integer that the literal writes, or the nearest double
where it has a point or an exponent. -/
def Denotes (literal : Decimal) : Value → Prop
  | .integer n => literal.isInteger ∧
      (n : ℚ) = if literal.negative then -literal.size else literal.size
  | .double x => literal.isInteger = false ∧
      ∃ bits, x = .signed literal.negative bits ∧
      Double.IsNearest literal.size bits
  | _ => False

private theorem size_of_isInteger {literal : Decimal}
    (integer : literal.isInteger) :
    literal.size = decimalNumber literal.whole := by
  simp only [isInteger, Bool.and_eq_true, Option.isNone_iff_eq_none] at integer
  simp [size, power, integer]

theorem denotes_toInt {literal : Decimal} (integer : literal.isInteger) :
    literal.Denotes (.integer literal.toInt) := by
  refine ⟨integer, ?_⟩
  rw [size_of_isInteger integer, toInt]
  split <;> simp

theorem denotes_toDouble {literal : Decimal}
    (broken : literal.isInteger = false) :
    literal.Denotes (.double literal.toDouble) :=
  ⟨broken, Double.isNearest_ofDecimal _ _ _⟩

end Decimal
end FencedJson.Json
