import SagaEngine.Proofs.Integers

/-! Casting. An operand counts only for the number that it casts to, so that null, the truth values and
the decimal spellings of an integer may stand in its place. A value that does not cast is an error
before anything is computed, the left one before the right. -/

namespace SagaEngine

namespace Text

variable {before core after : List Char}

theorem trim_padded (hb : ∀ c ∈ before, isBlank c = true) (ha : ∀ c ∈ after, isBlank c = true)
    (hc : ∀ c ∈ core, isBlank c = false) (hne : core ≠ []) : trim (before ++ core ++ after) = core := by
  have hkeep : ∀ {cs : List Char} (rest : List Char), cs ≠ [] → (∀ c ∈ cs, isBlank c = false) →
      (cs ++ rest).dropWhile isBlank = cs ++ rest := by
    intro cs rest hcs hs
    obtain ⟨c, cs, rfl⟩ := List.exists_cons_of_ne_nil hcs
    exact List.dropWhile_cons_of_neg (Bool.eq_false_iff.1 (hs c (.head _)))
  have hstart : trimStart (before ++ core ++ after) = core ++ after := by
    unfold trimStart
    rw [List.append_assoc, List.dropWhile_append_of_pos hb, hkeep after hne hc]
  have hend : trimEnd (core ++ after) = core := by
    unfold trimEnd
    rw [List.reverse_append, List.dropWhile_append_of_pos (by simpa using ha)]
    have hback := hkeep [] (List.reverse_ne_nil_iff.2 hne) (by simpa using hc)
    rw [List.append_nil] at hback
    rw [hback, List.reverse_reverse]
  unfold trim
  rw [hstart, hend]

theorem isBlank_of_isDigit {c : Char} (h : c.isDigit = true) : isBlank c = false := by
  have hc : 48 ≤ c.toNat ∧ c.toNat ≤ 57 := by
    simpa [Char.isDigit, UInt32.le_iff_toNat_le] using h
  unfold isBlank Ranges.contains blankRanges
  simp
  omega

end Text

namespace Numeral

def SignOf (n : Int) (sign : List Char) : Prop :=
  if n < 0 then sign = ['-'] else sign = [] ∨ sign = ['+']

/-- A decimal spelling of the integer, with any number of zeros in front and blanks around it. -/
def Spells (s : String) (n : Int) : Prop :=
  ∃ (before sign after : List Char) (zeros : Nat),
    (∀ c ∈ before, Text.isBlank c = true) ∧ (∀ c ∈ after, Text.isBlank c = true) ∧ SignOf n sign ∧
    s.toList = before ++ (sign ++ (List.replicate zeros '0' ++ Nat.toDigits 10 n.natAbs)) ++ after

theorem digitsValue_eq (cs : List Char) : digitsValue cs = Nat.ofDigitChars 10 cs 0 := rfl

theorem isDigit_padded {zeros m : Nat} {c : Char}
    (h : c ∈ List.replicate zeros '0' ++ Nat.toDigits 10 m) : c.isDigit = true := by
  rcases List.mem_append.1 h with h | h
  · rw [List.eq_of_mem_replicate h]
    rfl
  · exact Nat.isDigit_of_mem_toDigits (by decide) (by decide) h

theorem readNat_padded (zeros m : Nat) :
    readNat? (List.replicate zeros '0' ++ Nat.toDigits 10 m) = some m := by
  unfold readNat?
  rw [if_pos]
  · rw [digitsValue_eq, Nat.ofDigitChars_append, Nat.ofDigitChars_replicate_zero, Nat.mul_zero,
      Nat.ofDigitChars_ten_toDigits]
  · rw [Bool.and_eq_true]
    refine ⟨by simp, List.all_eq_true.2 fun c hc => isDigit_padded hc⟩

theorem splitSign_digits {cs : List Char} (h : ∀ c ∈ cs, c.isDigit = true) :
    splitSign cs = (false, cs) := by
  unfold splitSign
  split
  · exact absurd (h _ (.head _)) (by decide)
  · exact absurd (h _ (.head _)) (by decide)
  · rfl

theorem readInt_signed {sign : List Char} {n : Int} (zeros : Nat) (hs : SignOf n sign) :
    readInt? (sign ++ (List.replicate zeros '0' ++ Nat.toDigits 10 n.natAbs)) = some n := by
  have hread := readNat_padded zeros n.natAbs
  have hplain : splitSign (List.replicate zeros '0' ++ Nat.toDigits 10 n.natAbs) = (false, _) :=
    splitSign_digits fun _ => isDigit_padded
  unfold readInt?
  unfold SignOf at hs
  split at hs
  · have habs : -((n.natAbs : Nat) : Int) = n := by omega
    subst hs
    simp only [List.singleton_append, splitSign, hread]
    exact congrArg some habs
  · have habs : ((n.natAbs : Nat) : Int) = n := by omega
    rcases hs with rfl | rfl
    · simp only [List.nil_append, hplain, hread]
      exact congrArg some habs
    · simp only [List.singleton_append, splitSign, hread]
      exact congrArg some habs

theorem isBlank_signed {sign : List Char} {n : Int} {zeros : Nat} {c : Char} (hs : SignOf n sign)
    (hc : c ∈ sign ++ (List.replicate zeros '0' ++ Nat.toDigits 10 n.natAbs)) :
    Text.isBlank c = false := by
  rcases List.mem_append.1 hc with hc | hc
  · have hsign : c = '-' ∨ c = '+' := by
      unfold SignOf at hs
      split at hs
      · subst hs
        exact .inl (List.mem_singleton.1 hc)
      · rcases hs with rfl | rfl
        · cases hc
        · exact .inr (List.mem_singleton.1 hc)
    rcases hsign with rfl | rfl <;> decide
  · exact Text.isBlank_of_isDigit (isDigit_padded hc)

theorem Spells.read {s : String} {n : Int} (h : Spells s n) (hn : fitsInt64 n = true) :
    readInt64? (Text.trim s.toList) = some n := by
  obtain ⟨before, sign, after, zeros, hb, ha, hs, hspelled⟩ := h
  rw [hspelled, Text.trim_padded hb ha (fun c hc => isBlank_signed hs hc) (by simp)]
  unfold readInt64?
  rw [readInt_signed zeros hs, Option.filter_some, if_pos hn]

end Numeral

namespace Arithmetic

open Numeral (fitsInt64 readInt64? readFloat?)

variable {x y : Json} {n : Int} {e : EvalError}

inductive StandsFor : Json → Int → Prop where
  | null : StandsFor .null 0
  | bool (b : Bool) : StandsFor (.bool b) (if b then 1 else 0)
  | text {s : String} {n : Int} :
      fitsInt64 n = true → Numeral.Spells s n → StandsFor (.str s) n

theorem StandsFor.castsTo (h : StandsFor x n) : CastsTo x n := by
  cases h with
  | null => exact .null
  | bool b => exact .bool b
  | text hn hs => exact .str (hs.read hn)

theorem StandsFor.toNum (h : StandsFor x n) : toNum x = toNum (.int n) :=
  h.castsTo.toNum.trans (CastsTo.int h.castsTo.fits).toNum.symm

inductive Uncastable : Json → EvalError → Prop where
  | arr (items : List Json) : Uncastable (.arr items) uncastableStructure
  | obj (fields : List (String × Json)) : Uncastable (.obj fields) uncastableStructure
  | str {s : String} :
      readInt64? (Text.trim s.toList) = none → readFloat? (Text.trim s.toList) = none →
      Uncastable (.str s) (uncastableText (String.ofList (Text.trim s.toList)))

def Operation.onNums : Operation → Num → Num → Except EvalError Json
  | .multiply, .int a, .int b => ofInt "multiply" (a * b)
  | .multiply, a, b => ofBinary64 (a.toBinary64.mul b.toBinary64)
  | .divide, a, b =>
    if b.isZero then .error (.arithmetic "Division by zero")
    else match a, b with
      | .int a, .int b => ofInt "divide" (a.tdiv b)
      | a, b => ofBinary64 (a.toBinary64.div b.toBinary64)
  | .modulo, a, b =>
    if b.isZero then .error (.arithmetic "Modulo by zero")
    else match a, b with
      | .int a, .int b =>
        if fitsInt64 (a.tdiv b) then .ok (.int (a.tmod b)) else .error (overflow "modulo")
      | a, b => ofBinary64 (a.toBinary64.rem b.toBinary64)

theorem apply_eq (o : Operation) (x y : Json) :
    o.apply x y = (toNum x).bind fun a => (toNum y).bind fun b => o.onNums a b := by
  cases o with
  | multiply =>
    show multiply x y = _
    unfold multiply
    rcases toNum x with e | a
    · rfl
    · rcases toNum y with e | b
      · rfl
      · cases a <;> cases b <;> rfl
  | divide => rfl
  | modulo => rfl

theorem Uncastable.toNum (h : Uncastable x e) : toNum x = .error e := by
  cases h with
  | arr items => rfl
  | obj fields => rfl
  | str hint hfloat =>
    unfold Arithmetic.toNum
    dsimp only
    rw [hint, hfloat]

theorem castable_or_not (x : Json) : (∃ a, toNum x = .ok a) ∨ ∃ e, Uncastable x e := by
  cases x with
  | null => exact .inl ⟨_, rfl⟩
  | bool b => exact .inl ⟨_, rfl⟩
  | int n => exact .inl ⟨_, rfl⟩
  | float x => exact .inl ⟨_, rfl⟩
  | arr items => exact .inr ⟨_, .arr items⟩
  | obj fields => exact .inr ⟨_, .obj fields⟩
  | str s =>
    unfold toNum
    dsimp only
    rcases hint : readInt64? (Text.trim s.toList) with _ | n
    · rcases hfloat : readFloat? (Text.trim s.toList) with _ | a
      · exact .inr ⟨_, .str hint hfloat⟩
      · exact .inl ⟨_, rfl⟩
    · exact .inl ⟨_, rfl⟩

theorem Uncastable.typeCasting (h : Uncastable x e) : ∃ text, e = .typeCasting text := by
  cases h with
  | arr items => exact ⟨_, rfl⟩
  | obj fields => exact ⟨_, rfl⟩
  | str hint hfloat => exact ⟨_, rfl⟩

theorem apply_congr {x' y' : Json} (o : Operation) (hx : toNum x = toNum x') (hy : toNum y = toNum y') :
    o.apply x y = o.apply x' y' := by
  rw [apply_eq, apply_eq, hx, hy]

theorem apply_left (o : Operation) (h : Uncastable x e) (y : Json) : o.apply x y = .error e := by
  rw [apply_eq, h.toNum]
  rfl

theorem apply_right (o : Operation) (h : Uncastable y e) {a : Num} (hx : toNum x = .ok a) :
    o.apply x y = .error e := by
  rw [apply_eq, hx, h.toNum]
  rfl

/-- A spelling may stand for its integer in either place, and the left operand is cast first. -/
theorem casting_coherent (o : Operation) :
    (∀ {x : Json} {n : Int}, StandsFor x n → ∀ y,
      o.apply x y = o.apply (.int n) y ∧ o.apply y x = o.apply y (.int n)) ∧
    ∀ {x : Json} {e : EvalError}, Uncastable x e → (∃ text, e = .typeCasting text) ∧
      ∀ y, o.apply x y = .error e ∧ (∃ text, o.apply y x = .error (.typeCasting text)) ∧
        ((∀ d, ¬Uncastable y d) → o.apply y x = .error e) := by
  refine ⟨fun {x n} h y => ⟨apply_congr o h.toNum rfl, apply_congr o rfl h.toNum⟩,
    fun {x e} h => ⟨h.typeCasting, fun y => ⟨apply_left o h y, ?_⟩⟩⟩
  obtain ⟨text, rfl⟩ := h.typeCasting
  rcases castable_or_not y with ⟨a, ha⟩ | ⟨d, hd⟩
  · have hright := apply_right o h ha
    exact ⟨⟨text, hright⟩, fun _ => hright⟩
  · obtain ⟨text', rfl⟩ := hd.typeCasting
    exact ⟨⟨text', apply_left o hd x⟩, fun hn => absurd hd (hn _)⟩

theorem fee_spelled :
    let fee := Json.str "\u2003+007 "
    StandsFor fee 7 ∧ Uncastable (.arr []) uncastableStructure ∧
    divide fee .null = divide (.int 7) .null ∧ modulo (.int 30) fee = modulo (.int 30) (.int 7) ∧
    divide (.arr []) (.int 0) = .error uncastableStructure ∧
    divide fee (.arr []) = .error uncastableStructure := by
  have hfee : StandsFor (.str "\u2003+007 ") 7 := by
    have hsign : Numeral.SignOf 7 ['+'] := .inr rfl
    exact .text rfl ⟨['\u2003'], ['+'], [' '], 2, List.forall_mem_singleton.2 rfl,
      List.forall_mem_singleton.2 rfl, hsign, by decide⟩
  have hlist : Uncastable (.arr []) uncastableStructure := .arr []
  have hcast : ∀ d, ¬Uncastable (.str "\u2003+007 ") d := by
    intro d hd
    have hnum := hd.toNum
    rw [hfee.castsTo.toNum] at hnum
    cases hnum
  refine ⟨hfee, hlist, ?_, ?_, ?_, ?_⟩
  · exact ((casting_coherent .divide).1 hfee .null).1
  · exact ((casting_coherent .modulo).1 hfee (.int 30)).2
  · exact ((casting_coherent .divide).2 hlist).2 (.int 0) |>.1
  · exact (((casting_coherent .divide).2 hlist).2 _).2.2 hcast

end Arithmetic

end SagaEngine
