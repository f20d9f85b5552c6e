import Fleet.Duration.Reader
import Mathlib.Data.Rat.Floor
import Mathlib.Tactic.FieldSimp
import Mathlib.Tactic.Linarith
import Mathlib.Tactic.Positivity

/-! How far rounding goes. A number and a unit whose product is below two to the 63rd seconds make a
span of time, which is off by no more than half a nanosecond and four units in the last binary
place. -/
namespace Fleet

namespace Decimal

/-- Rounding goes at most half a unit away. -/
lemma abs_roundHalfEven_sub_le (x : Rat) : |(roundHalfEven x : Rat) - x| ≤ 1 / 2 := by
  have hfloor : (x.floor : Rat) ≤ x := Rat.floor_le x
  have hnext : x < (x.floor : Rat) + 1 := mod_cast Rat.lt_floor_add_one x
  unfold roundHalfEven
  dsimp only
  split_ifs <;> rw [abs_le] <;> push_cast <;> constructor <;> linarith

lemma roundHalfEven_nonneg {x : Rat} (hx : 0 ≤ x) : 0 ≤ roundHalfEven x := by
  have hnear := (abs_le.1 (abs_roundHalfEven_sub_le x)).1
  have habove : (-1 : Rat) < roundHalfEven x := by linarith
  have hint : -1 < roundHalfEven x := by exact_mod_cast habove
  omega

lemma hiddenBit_eq : (hiddenBit : Rat) = 2 ^ (52 : Int) := by norm_num [hiddenBit]

lemma hiddenBit_pos : (0 : Rat) < hiddenBit := by norm_num [hiddenBit]

lemma two_pow_log2_le {n : Nat} (hn : n ≠ 0) : (2 : Rat) ^ (n.log2 : Int) ≤ n := by
  rw [zpow_natCast]
  exact_mod_cast Nat.log2_self_le hn

lemma lt_two_pow_log2_succ (n : Nat) : (n : Rat) < 2 ^ ((n.log2 : Int) + 1) := by
  have h : (n : Rat) < (2 ^ (n.log2 + 1) : Nat) := Nat.cast_lt.2 Nat.lt_log2_self
  exact_mod_cast h

/-- The lengths of numerator and denominator bound a quotient from below. -/
lemma two_pow_log2_sub_lt {x : Rat} (hx : 0 < x) :
    (2 : Rat) ^ ((x.num.natAbs.log2 : Int) - x.den.log2 - 1) < x := by
  have hnum : 0 < x.num := Rat.num_pos.2 hx
  have hnumerator := two_pow_log2_le (n := x.num.natAbs) (by omega)
  have hcast : (x.num.natAbs : Rat) = x * x.den := by
    rw [Rat.mul_den_eq_num, ← Int.cast_natCast, Int.natAbs_of_nonneg hnum.le]
  rw [sub_sub, zpow_sub₀ two_ne_zero, div_lt_iff₀ (zpow_pos two_pos _)]
  calc (2 : Rat) ^ (x.num.natAbs.log2 : Int)
      ≤ x * x.den := hcast ▸ hnumerator
    _ < x * 2 ^ ((x.den.log2 : Int) + 1) :=
        mul_lt_mul_of_pos_left (lt_two_pow_log2_succ x.den) hx

/-- A number has at least two to the 52nd units of its last place. -/
lemma hiddenBit_mul_le {x : Rat} (hx : 0 < x) : hiddenBit * (2 : Rat) ^ binade x ≤ x := by
  unfold binade
  dsimp only
  split_ifs with h
  · rw [hiddenBit_eq, ← zpow_add₀ two_ne_zero]
    refine le_of_eq_of_le (congrArg _ ?_) (two_pow_log2_sub_lt hx).le
    omega
  · exact not_lt.1 h

/-- Rounding to 53 binary digits goes at most one part in two to the 53rd away. -/
theorem abs_roundSignificand_sub_le {x : Rat} (hx : 0 ≤ x) :
    |roundSignificand x - x| ≤ x / (2 * hiddenBit) := by
  rcases hx.eq_or_lt with rfl | hpos
  · simp
  unfold roundSignificand
  rw [if_neg (not_le.2 hpos)]
  set scale := (2 : Rat) ^ binade x
  have hscale : 0 < scale := zpow_pos two_pos _
  have hle : hiddenBit * scale ≤ x := hiddenBit_mul_le hpos
  have hhidden := hiddenBit_pos
  calc |roundHalfEven (x / scale) * scale - x|
      = |(roundHalfEven (x / scale) : Rat) - x / scale| * scale := by
        rw [← abs_of_pos hscale, ← abs_mul, abs_of_pos hscale, sub_mul,
          div_mul_cancel₀ x hscale.ne']
    _ ≤ 1 / 2 * scale := mul_le_mul_of_nonneg_right (abs_roundHalfEven_sub_le _) hscale.le
    _ ≤ x / (2 * hiddenBit) := by
        rw [le_div_iff₀ (by positivity)]
        linarith

lemma roundSignificand_nonneg {x : Rat} (hx : 0 ≤ x) : 0 ≤ roundSignificand x := by
  have herror := (abs_le.1 (abs_roundSignificand_sub_le hx)).1
  have hpart : x / (2 * hiddenBit) ≤ x := div_le_self hx (by norm_num [hiddenBit])
  linarith

end Decimal

namespace Duration

open Decimal

variable {value : Rat} {unit : TimeUnit} {d : Duration}

lemma seconds_pos (unit : TimeUnit) : 0 < unit.seconds := by
  cases unit <;> norm_num [TimeUnit.seconds]

/-- The number of seconds that a number and a unit come to, after both roundings. -/
def rounded (value : Rat) (unit : TimeUnit) : Rat :=
  roundSignificand (roundSignificand value * unit.seconds)

/-- Both roundings together go at most four units in the last place away. -/
lemma abs_rounded_sub_le (hv : 0 ≤ value) (unit : TimeUnit) :
    |rounded value unit - value * unit.seconds| ≤ value * unit.seconds * (2 / hiddenBit) := by
  have hu := seconds_pos unit
  have hsingle := abs_roundSignificand_sub_le hv
  have htwice : roundSignificand value ≤ 2 * value := by
    have hpart : value / (2 * hiddenBit) ≤ value := div_le_self hv (by norm_num [hiddenBit])
    linarith [(abs_le.1 hsingle).2]
  have hproduct : |roundSignificand value * unit.seconds - value * unit.seconds| ≤
      value / (2 * hiddenBit) * unit.seconds := by
    rw [← sub_mul, abs_mul, abs_of_pos hu]
    exact mul_le_mul_of_nonneg_right hsingle hu.le
  have hsecond : |rounded value unit - roundSignificand value * unit.seconds| ≤
      2 * value * unit.seconds / (2 * hiddenBit) :=
    (abs_roundSignificand_sub_le (mul_nonneg (roundSignificand_nonneg hv) hu.le)).trans
      (div_le_div_of_nonneg_right (mul_le_mul_of_nonneg_right htwice hu.le)
        (mul_pos two_pos hiddenBit_pos).le)
  calc |rounded value unit - value * unit.seconds|
      ≤ 2 * value * unit.seconds / (2 * hiddenBit) + value / (2 * hiddenBit) * unit.seconds :=
        (abs_sub_le _ _ _).trans (add_le_add hsecond hproduct)
    _ = value * unit.seconds * (3 / (2 * hiddenBit)) := by ring
    _ ≤ value * unit.seconds * (2 / hiddenBit) :=
        mul_le_mul_of_nonneg_left (by norm_num [hiddenBit]) (mul_nonneg hv hu.le)

lemma rounded_nonneg (hv : 0 ≤ value) (unit : TimeUnit) : 0 ≤ rounded value unit :=
  roundSignificand_nonneg (mul_nonneg (roundSignificand_nonneg hv) (seconds_pos unit).le)

lemma ofNumeral?_eq_some_iff :
    ofNumeral? value unit = some d ↔
      rounded value unit < Word.limit ∧
        d = ⟨(roundHalfEven (rounded value unit * 1000000000)).toNat⟩ := by
  change ofRat? (rounded value unit) = some d ↔ _
  rw [ofRat?]
  split_ifs with h <;> simp [h, eq_comm]

/-- The span is the product to the nearest nanosecond, but for what the roundings before take. -/
theorem abs_nanos_sub_le (hv : 0 ≤ value) (hd : ofNumeral? value unit = some d) :
    |(d.nanos : Rat) - value * unit.seconds * 1000000000| ≤
      value * unit.seconds * 1000000000 * (2 / hiddenBit) + 1 / 2 := by
  obtain ⟨-, rfl⟩ := ofNumeral?_eq_some_iff.1 hd
  have hnear := abs_roundHalfEven_sub_le (rounded value unit * 1000000000)
  have hscaled : |rounded value unit * 1000000000 - value * unit.seconds * 1000000000| ≤
      value * unit.seconds * (2 / hiddenBit) * 1000000000 := by
    rw [← sub_mul, abs_mul, abs_of_pos (by norm_num : (0 : Rat) < 1000000000)]
    exact mul_le_mul_of_nonneg_right (abs_rounded_sub_le hv unit) (by norm_num)
  have hnanos : ((roundHalfEven (rounded value unit * 1000000000)).toNat : Rat) =
      roundHalfEven (rounded value unit * 1000000000) := by
    exact_mod_cast Int.toNat_of_nonneg (roundHalfEven_nonneg
      (mul_nonneg (rounded_nonneg hv unit) (by norm_num)))
  have hsum := (abs_sub_le _ _ _).trans (add_le_add hnear hscaled)
  rw [hnanos]
  linarith

/-- Whatever is below two to the 63rd seconds has a span, since rounding at most doubles it. -/
theorem exists_ofNumeral? (hv : 0 ≤ value) (h : value * unit.seconds < 2 ^ 63) :
    ∃ d, ofNumeral? value unit = some d := by
  refine ⟨_, ofNumeral?_eq_some_iff.2 ⟨?_, rfl⟩⟩
  have herror := (abs_le.1 (abs_rounded_sub_le hv unit)).2
  have hpart : value * unit.seconds * (2 / hiddenBit) ≤ value * unit.seconds :=
    mul_le_of_le_one_right (mul_nonneg hv (seconds_pos unit).le) (by norm_num [hiddenBit])
  calc rounded value unit ≤ 2 * (value * unit.seconds) := by linarith
    _ < 2 * 2 ^ 63 := by linarith
    _ = Word.limit := by norm_num [Word.limit]

end Duration

end Fleet
