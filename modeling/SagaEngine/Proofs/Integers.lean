import Mathlib.Algebra.Group.Int.Defs
import SagaEngine.Arithmetic

/-! Arithmetic on integers. What values that cast to integers come to is exact, or else an error; it
is never rounded and never wraps. Only the test of a divisor for zero goes through double precision,
and no integer but zero is zero there. -/

namespace SagaEngine

/-! ## Integers in double precision -/

namespace Binary64

theorem magnitude_ofWord (negative : Bool) {word : Nat} (h : word < signWord) :
    (ofWord negative word).magnitude = word := by
  unfold signWord at h
  unfold magnitude ofWord signWord
  dsimp only
  rw [UInt64.toNat_ofNat']
  split <;> omega

theorem isZero_ofRatio (negative : Bool) {num den : Nat} (hd : den ≠ 0) (h : den ≤ num) :
    (ofRatio negative num den).isZero = false := by
  have hnum : num ≠ 0 := by omega
  have hexp : -1 ≤ binaryExponent num den := by
    have hlog : den.log2 ≤ num.log2 := (Nat.le_log2 hnum).2 (Nat.le_trans (Nat.log2_self_le hd) h)
    unfold binaryExponent
    dsimp only
    split <;> omega
  unfold ofRatio
  rw [if_neg hnum]
  dsimp only
  generalize hq : max (binaryExponent num den - 52) minExponent = q
  generalize (if 0 ≤ q then roundHalfEven num (den * power 2 q)
    else roundHalfEven (num * power 2 (-q)) den) = m
  have hword : 0 < (q - minExponent).toNat * leadingBit + m := by
    unfold minExponent at hq ⊢
    unfold leadingBit
    omega
  unfold isZero
  split
  · unfold infinity
    rw [magnitude_ofWord negative (by decide)]
    rfl
  · rename_i hfinite
    rw [magnitude_ofWord negative (Nat.lt_trans (Nat.lt_of_not_le hfinite) (by decide))]
    exact beq_eq_false_iff_ne.2 (Nat.ne_of_gt hword)

theorem isZero_ofInt (n : Int) : (ofInt n).isZero = decide (n = 0) := by
  unfold ofInt
  by_cases hn : n = 0
  · subst hn
    rfl
  · rw [decide_eq_false hn, isZero_ofRatio _ Nat.one_ne_zero]
    omega

end Binary64

namespace Arithmetic

open Numeral (fitsInt64 readInt64? minInt64 maxInt64)

variable {x y : Json} {a b : Int}

/-! ## Casts -/

inductive CastsTo : Json → Int → Prop where
  | null : CastsTo .null 0
  | bool (b : Bool) : CastsTo (.bool b) (if b then 1 else 0)
  | int {n : Int} : fitsInt64 n = true → CastsTo (.int n) n
  | str {s : String} {n : Int} :
      readInt64? (Text.trim s.toList) = some n → CastsTo (.str s) n

theorem fitsInt64_iff {n : Int} : fitsInt64 n = true ↔ -2 ^ 63 ≤ n ∧ n ≤ 2 ^ 63 - 1 := by
  unfold fitsInt64 minInt64 maxInt64
  exact decide_eq_true_iff

theorem CastsTo.fits (h : CastsTo x a) : fitsInt64 a = true := by
  cases h with
  | null => rfl
  | bool b => cases b <;> rfl
  | int hn => exact hn
  | str hs => exact (Option.filter_eq_some_iff.1 hs).2

theorem CastsTo.toNum (h : CastsTo x a) : toNum x = .ok (.int a) := by
  cases h with
  | null => rfl
  | bool b => rfl
  | int hn =>
    unfold Arithmetic.toNum
    dsimp only
    rw [if_pos (of_decide_eq_true hn).2]
  | str hs =>
    unfold Arithmetic.toNum
    dsimp only
    rw [hs]

/-! ## Quotients and remainders -/

theorem fits_tdiv (ha : fitsInt64 a = true) (b : Int) :
    fitsInt64 (a.tdiv b) = true ↔ ¬(a = -2 ^ 63 ∧ b = -1) := by
  rw [fitsInt64_iff] at ha ⊢
  constructor
  · rintro ⟨-, hq⟩ ⟨rfl, rfl⟩
    revert hq
    decide
  · intro hne
    by_cases hb : b = -1
    · subst hb
      rw [Int.tdiv_neg, Int.tdiv_one]
      omega
    · by_cases hb' : b = 1
      · subst hb'
        rwa [Int.tdiv_one]
      · -- any other divisor at least halves what it divides
        have hq : (a.tdiv b).natAbs = a.natAbs / b.natAbs := Int.natAbs_tdiv a b
        have hhalf : a.natAbs / b.natAbs ≤ 2 ^ 62 := by
          rcases Nat.eq_zero_or_pos b.natAbs with hz | hpos
          · rw [hz, Nat.div_zero]
            exact Nat.zero_le _
          · have hle : a.natAbs / b.natAbs ≤ a.natAbs / 2 :=
              Nat.div_le_div_left (by omega) (by decide)
            omega
        omega

theorem tdiv_tmod (a : Int) {b : Int} (hb : b ≠ 0) :
    a = a.tdiv b * b + a.tmod b ∧ (a.tmod b).natAbs < b.natAbs ∧
      (a.tmod b = 0 ∨ (a.tmod b).sign = a.sign) := by
  refine ⟨(Int.tdiv_mul_add_tmod a b).symm, ?_, ?_⟩
  · rw [Int.natAbs_tmod]
    exact Nat.mod_lt _ (Int.natAbs_pos.2 hb)
  · by_cases hdvd : b ∣ a
    · exact .inl (Int.tmod_eq_zero_of_dvd hdvd)
    · exact .inr ((Int.sign_tmod a b).trans (if_neg hdvd))

/-! ## Operations -/

theorem isZero_int (n : Int) : (Num.int n).isZero = decide (n = 0) := Binary64.isZero_ofInt n

theorem multiply_int (hx : CastsTo x a) (hy : CastsTo y b) :
    multiply x y = ofInt "multiply" (a * b) := by
  unfold multiply
  rw [hx.toNum, hy.toNum]
  rfl

theorem divide_int (hx : CastsTo x a) (hy : CastsTo y b) :
    divide x y =
      if b = 0 then .error (.arithmetic "Division by zero") else ofInt "divide" (a.tdiv b) := by
  unfold divide
  rw [hx.toNum, hy.toNum]
  simp only [bind, Except.bind, isZero_int, decide_eq_true_eq]

theorem modulo_int (hx : CastsTo x a) (hy : CastsTo y b) :
    modulo x y =
      if b = 0 then .error (.arithmetic "Modulo by zero")
      else if fitsInt64 (a.tdiv b) then .ok (.int (a.tmod b)) else .error (overflow "modulo") := by
  unfold modulo
  rw [hx.toNum, hy.toNum]
  simp only [bind, Except.bind, isZero_int, decide_eq_true_eq]

theorem fits_tmod (ha : fitsInt64 a = true) (b : Int) : fitsInt64 (a.tmod b) = true := by
  rw [fitsInt64_iff] at ha ⊢
  have hsign := Int.sign_tmod a b
  have hle : (a.tmod b).natAbs ≤ a.natAbs := Int.natAbs_tmod a b ▸ Nat.mod_le _ _
  rcases Int.lt_or_le a 0 with hneg | hpos
  · have hr : (a.tmod b).sign ≤ 0 := by
      rw [hsign, Int.sign_eq_neg_one_of_neg hneg]
      split <;> decide
    have hr' := Int.sign_nonpos_iff.1 hr
    omega
  · have hr := Int.tmod_nonneg b hpos
    omega

inductive IntegerResult : Except EvalError Json → Prop where
  | ok {n : Int} : fitsInt64 n = true → IntegerResult (.ok (.int n))
  | error (text : String) : IntegerResult (.error (.arithmetic text))

theorem integerResult_ofInt (operation : String) (n : Int) : IntegerResult (ofInt operation n) := by
  unfold ofInt
  split
  · rename_i hn
    exact .ok hn
  · exact .error _

theorem integerResult_apply (o : Operation) (hx : CastsTo x a) (hy : CastsTo y b) :
    IntegerResult (o.apply x y) := by
  cases o with
  | multiply =>
    show IntegerResult (multiply x y)
    rw [multiply_int hx hy]
    exact integerResult_ofInt _ _
  | divide =>
    show IntegerResult (divide x y)
    rw [divide_int hx hy]
    split
    · exact .error _
    · exact integerResult_ofInt _ _
  | modulo =>
    show IntegerResult (modulo x y)
    rw [modulo_int hx hy]
    split
    · exact .error _
    · split
      · exact .ok (fits_tmod hx.fits b)
      · exact .error _

/-- Integers are multiplied and divided exactly, or there is an error; no result is a float. -/
theorem integers_exact (hx : CastsTo x a) (hy : CastsTo y b) :
    (-2 ^ 63 ≤ a * b ∧ a * b ≤ 2 ^ 63 - 1 → multiply x y = .ok (.int (a * b))) ∧
    (¬(-2 ^ 63 ≤ a * b ∧ a * b ≤ 2 ^ 63 - 1) →
      multiply x y = .error (.arithmetic "Integer overflow in multiply")) ∧
    (b = 0 → divide x y = .error (.arithmetic "Division by zero") ∧
      modulo x y = .error (.arithmetic "Modulo by zero")) ∧
    (a = -2 ^ 63 ∧ b = -1 → divide x y = .error (.arithmetic "Integer overflow in divide") ∧
      modulo x y = .error (.arithmetic "Integer overflow in modulo")) ∧
    (b ≠ 0 → ¬(a = -2 ^ 63 ∧ b = -1) →
      ∃ q r, divide x y = .ok (.int q) ∧ modulo x y = .ok (.int r) ∧
        a = q * b + r ∧ r.natAbs < b.natAbs ∧ (r = 0 ∨ r.sign = a.sign)) ∧
    ∀ o : Operation, IntegerResult (o.apply x y) := by
  have hquotient := fits_tdiv hx.fits b
  rw [divide_int hx hy, modulo_int hx hy, multiply_int hx hy, ← fitsInt64_iff]
  unfold ofInt
  refine ⟨fun h => if_pos h, fun h => if_neg h, ?_, ?_, ?_, fun o => integerResult_apply o hx hy⟩
  · intro hb
    exact ⟨if_pos hb, if_pos hb⟩
  · rintro ⟨ha, hb⟩
    have hb0 : b ≠ 0 := by omega
    have hout : ¬fitsInt64 (a.tdiv b) = true := fun h => hquotient.1 h ⟨ha, hb⟩
    rw [if_neg hb0, if_neg hb0, if_neg hout, if_neg hout]
    exact ⟨rfl, rfl⟩
  · intro hb hne
    have hin := hquotient.2 hne
    rw [if_neg hb, if_neg hb, if_pos hin, if_pos hin]
    exact ⟨_, _, rfl, rfl, tdiv_tmod a hb⟩

theorem refund_halved :
    let refund := Json.str " -7\u2003"
    CastsTo refund (-7) ∧ CastsTo (.int 2) 2 ∧ multiply refund (.int 2) = .ok (.int (-14)) ∧
      ∃ q r, divide refund (.int 2) = .ok (.int q) ∧ modulo refund (.int 2) = .ok (.int r) ∧
        -7 = q * 2 + r ∧ r.natAbs < 2 ∧ (r = 0 ∨ r.sign = -1) := by
  have hrefund : CastsTo (.str " -7\u2003") (-7) := .str (by decide)
  have hpeople : CastsTo (.int 2) 2 := .int rfl
  obtain ⟨hproduct, -, -, -, hdivided, -⟩ := integers_exact hrefund hpeople
  exact ⟨hrefund, hpeople, hproduct (by decide), hdivided (by decide) (by decide)⟩

end Arithmetic

end SagaEngine
