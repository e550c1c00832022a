import Mathlib.Data.List.Infix
import PromptWeave.Proofs.Script.Integers
import PromptWeave.Proofs.Script.Operands

/-!
# Exact arithmetic of integers

Sums, differences, products, negatives, absolute values and sums of lists are the exact integers or fail
for an overflow. The remainder is the one of a division that rounds down; words find it by correcting
the remainder of a division that rounds towards zero.
-/
namespace PromptWeave.Script

open PromptWeave.Script.Action

variable {limits : Limits} {m m' : Machine} {e : Expr}

/-- Whether an expression comes to an integer exactly: to that integer if it is one of 64 bits, and to
an overflow if it is none. -/
def GivesExactly (limits : Limits) (m : Machine) (e : Expr) (n : Int) (m' : Machine) : Prop :=
  if -2 ^ 63 ≤ n ∧ n ≤ 2 ^ 63 - 1 then ∃ w : Int64, w.toInt = n ∧ HasOutcome limits m e (.ok (.int w)) m'
  else Raises limits m e "integer overflow" m'

theorem givesExactly_of_hasOutcome {n : Int} (h : HasOutcome limits m e (exactInt n) m') :
    GivesExactly limits m e n m' := by
  by_cases hfits : fitsInt n = true
  · rw [exactInt_of_fits hfits] at h
    rw [GivesExactly, if_pos (fitsInt_iff.1 hfits)]
    exact ⟨Int64.ofInt n, toInt_ofInt_of_fits hfits, h⟩
  · rw [exactInt_of_not_fits hfits] at h
    rw [GivesExactly, if_neg fun hrange => hfits (fitsInt_iff.2 hrange)]
    exact ⟨.integerOverflow, h, rfl⟩

/-! ### Remainders -/

section

variable {a b : Int}

/-- The remainder of a division that rounds down lies between zero and the divisor, which it is never. -/
theorem fmod_between (hb : b ≠ 0) :
    0 ≤ a.fmod b ∧ a.fmod b < b ∨ b < a.fmod b ∧ a.fmod b ≤ 0 := by
  have hlow : 0 ≤ a % b := Int.emod_nonneg a hb
  have hhigh : a % b < b.natAbs := Int.emod_lt a hb
  rw [Int.fmod_eq_emod]
  split
  next h =>
    rcases h with hpos | hdvd
    · omega
    · rw [Int.emod_eq_zero_of_dvd hdvd]
      omega
  next h =>
    have hne : a % b ≠ 0 := fun hzero => h (.inr (Int.dvd_iff_emod_eq_zero.2 hzero))
    omega

theorem dvd_sub_fmod (a b : Int) : b ∣ a - a.fmod b :=
  ⟨a.fdiv b, by rw [Int.fmod_def]; omega⟩

theorem fitsInt_fmod (a : Int) {b : Int64} (hb : b.toInt ≠ 0) : fitsInt (a.fmod b.toInt) = true := by
  obtain ⟨hlow, hhigh⟩ := fitsInt_iff.1 (fitsInt_toInt b)
  have hbetween := fmod_between (a := a) hb
  rw [fitsInt_iff]
  omega

/-- The remainder of a division towards zero has the sign of the dividend. If that is not the sign of
the divisor, the divisor is added. -/
theorem fmod_eq_corrected (a b : Int) : a.fmod b =
    if a.tmod b ≠ 0 ∧ ¬(a.tmod b < 0 ↔ b < 0) then a.tmod b + b else a.tmod b := by
  have hnonneg : 0 ≤ a → 0 ≤ a.tmod b := Int.tmod_nonneg b
  have hnonpos : a ≤ 0 → a.tmod b ≤ 0 := fun ha => by
    have hopposite : 0 ≤ (-a).tmod b := Int.tmod_nonneg b (by omega)
    rw [Int.neg_tmod] at hopposite
    omega
  rw [Int.fmod_eq_tmod]
  simp only [Int.dvd_iff_tmod_eq_zero]
  split_ifs <;> omega

end

/-- The remainder as words find it. The remainder of the least integer by `-1` is 0, although the
quotient is no word. -/
def wordRemainder (a b : Int64) : Int64 :=
  if a % b ≠ 0 ∧ ¬(a % b < 0 ↔ b < 0) then a % b + b else a % b

/-- The signs of words are those of the integers. -/
theorem signs_differ_iff {a b : Int64} : (a % b ≠ 0 ∧ ¬(a % b < 0 ↔ b < 0)) ↔
    a.toInt.tmod b.toInt ≠ 0 ∧ ¬(a.toInt.tmod b.toInt < 0 ↔ b.toInt < 0) := by
  rw [← Int64.toInt_mod, Int64.lt_iff_toInt_lt, Int64.lt_iff_toInt_lt, ← Int64.toInt_zero, Ne, Ne,
    Int64.toInt_inj]

/-- The divisor is added to remainders of the other sign only, so that the sum fits. -/
theorem fitsInt_corrected {a b : Int64} (hb : b.toInt ≠ 0)
    (hsigns : a % b ≠ 0 ∧ ¬(a % b < 0 ↔ b < 0)) : fitsInt ((a % b).toInt + b.toInt) = true := by
  have hfits := fitsInt_fmod a.toInt hb
  rwa [fmod_eq_corrected, if_pos (signs_differ_iff.1 hsigns), ← Int64.toInt_mod] at hfits

theorem toInt_wordRemainder (a : Int64) {b : Int64} (hb : b.toInt ≠ 0) :
    (wordRemainder a b).toInt = a.toInt.fmod b.toInt := by
  rw [fmod_eq_corrected, wordRemainder]
  split
  next hsigns =>
    rw [if_pos (signs_differ_iff.1 hsigns), toInt_add_of_fits (fitsInt_corrected hb hsigns),
      Int64.toInt_mod]
  next hsigns =>
    rw [if_neg fun h => hsigns (signs_differ_iff.2 h), Int64.toInt_mod]

/-- The remainder of two integers is the one that words find. -/
theorem modulo_eq_wordRemainder (a : Int64) {b : Int64} (hb : b.toInt ≠ 0) :
    modulo (.int a) (.int b) = .ok (.int (wordRemainder a b)) := by
  rw [modulo, if_neg hb, ← toInt_wordRemainder a hb, exactInt_toInt]

/-! ### Sums of lists -/

/-- Whether the sum of each beginning of a list of integers, that of the whole list among them, is an
integer of 64 bits. -/
def PrefixSumsFit (ns : List Int64) : Prop :=
  ∀ front, front <+: ns →
    -2 ^ 63 ≤ (front.map Int64.toInt).sum ∧ (front.map Int64.toInt).sum ≤ 2 ^ 63 - 1

theorem sumInts_of_fit {total : Int64} {ns : List Int64}
    (h : ∀ front, front <+: ns → fitsInt (total.toInt + (front.map Int64.toInt).sum) = true) :
    sumInts total (ns.map .int) =
      .ok (.int (Int64.ofInt (total.toInt + (ns.map Int64.toInt).sum))) := by
  induction ns generalizing total with
  | nil => simp [sumInts, Int64.ofInt_toInt]
  | cons n rest ih =>
      have hnext : fitsInt (total.toInt + n.toInt) = true := by
        simpa using h [n] (List.prefix_append [n] rest)
      rw [List.map_cons, sumInts]
      rw [if_pos hnext, ih, toInt_ofInt_of_fits hnext, List.map_cons, List.sum_cons, Int.add_assoc]
      intro front hfront
      rw [toInt_ofInt_of_fits hnext, Int.add_assoc]
      simpa using h (n :: front) (List.cons_prefix_cons.2 ⟨rfl, hfront⟩)

theorem sumInts_of_not_fit {total : Int64} {front ns : List Int64} (hfront : front <+: ns)
    (h : ¬fitsInt (total.toInt + (front.map Int64.toInt).sum) = true) :
    sumInts total (ns.map .int) = .error .integerOverflow := by
  induction ns generalizing total front with
  | nil =>
      rw [List.prefix_nil.1 hfront] at h
      exact (h (by simpa using fitsInt_toInt total)).elim
  | cons n rest ih =>
      rw [List.map_cons, sumInts]
      by_cases hnext : fitsInt (total.toInt + n.toInt) = true
      · rw [if_pos hnext]
        rcases List.prefix_cons_iff.1 hfront with rfl | ⟨after, rfl, hafter⟩
        · exact (h (by simpa using fitsInt_toInt total)).elim
        · refine ih hafter ?_
          rwa [toInt_ofInt_of_fits hnext, Int.add_assoc, ← List.sum_cons, ← List.map_cons]
      · exact if_neg hnext

theorem sumOf_ints (ns : List Int64) : sumOf (ns.map .int) = sumInts 0 (ns.map .int) := by
  rw [sumOf, if_pos]
  rw [List.all_map, List.all_eq_true]
  exact fun _ _ => rfl

/-- The sum of a list of integers is exact if all sums on the way fit, and fails otherwise. -/
theorem sumOf_ints_eq (ns : List Int64) :
    (PrefixSumsFit ns → sumOf (ns.map .int) = .ok (.int (Int64.ofInt (ns.map Int64.toInt).sum))) ∧
    (¬PrefixSumsFit ns → sumOf (ns.map .int) = .error .integerOverflow) := by
  constructor
  · intro h
    rw [sumOf_ints, sumInts_of_fit, Int64.toInt_zero, Int.zero_add]
    intro front hfront
    rw [Int64.toInt_zero, Int.zero_add]
    exact fitsInt_iff.2 (h front hfront)
  · intro h
    obtain ⟨front, hfront⟩ := Classical.not_forall.1 h
    obtain ⟨hstarts, hwide⟩ := Classical.not_imp.1 hfront
    rw [sumOf_ints]
    refine sumInts_of_not_fit hstarts fun hfits => hwide (fitsInt_iff.1 ?_)
    rwa [Int64.toInt_zero, Int.zero_add] at hfits

/-! ### Exact or a failure -/

/-- Whether an expression comes to the remainder of a division that rounds down, or, if the divisor is
zero, to a failure that says so. -/
def GivesRemainder (limits : Limits) (m : Machine) (e : Expr) (a b : Int64) (m' : Machine) : Prop :=
  if b = 0 then Raises limits m e "modulo by zero" m'
  else ∃ r : Int64, HasOutcome limits m e (.ok (.int r)) m' ∧
    (0 ≤ r.toInt ∧ r.toInt < b.toInt ∨ b.toInt < r.toInt ∧ r.toInt ≤ 0) ∧
    b.toInt ∣ a.toInt - r.toInt

theorem givesRemainder_of_hasOutcome {a b : Int64}
    (h : HasOutcome limits m e (modulo (.int a) (.int b)) m') : GivesRemainder limits m e a b m' := by
  unfold GivesRemainder
  split
  next hzero =>
    rw [hzero, modulo, if_pos Int64.toInt_zero] at h
    exact ⟨.moduloByZero, h, rfl⟩
  next hne =>
    have hb : b.toInt ≠ 0 := fun hzero => hne (Int64.toInt_inj.1 hzero)
    rw [modulo_eq_wordRemainder a hb] at h
    refine ⟨wordRemainder a b, h, ?_⟩
    rw [toInt_wordRemainder a hb]
    exact ⟨fmod_between hb, dvd_sub_fmod ..⟩

/-- Whether an expression comes to the sum of a list of integers, or, if the sum of some beginning of
the list is no integer of 64 bits, to an overflow. -/
def GivesSum (limits : Limits) (m : Machine) (e : Expr) (ns : List Int64) (m' : Machine) : Prop :=
  (PrefixSumsFit ns →
    ∃ w : Int64, w.toInt = (ns.map Int64.toInt).sum ∧ HasOutcome limits m e (.ok (.int w)) m') ∧
  (¬PrefixSumsFit ns → Raises limits m e "integer overflow" m')

theorem givesSum_of_hasOutcome {ns : List Int64}
    (h : HasOutcome limits m e (sumOf (ns.map .int)) m') : GivesSum limits m e ns m' := by
  obtain ⟨hfit, hwide⟩ := sumOf_ints_eq ns
  constructor
  · intro hsums
    rw [hfit hsums] at h
    exact ⟨_, toInt_ofInt_of_fits (fitsInt_iff.2 (hsums ns List.prefix_rfl)), h⟩
  · intro hsums
    rw [hwide hsums] at h
    exact ⟨.integerOverflow, h, rfl⟩

/-- Arithmetic on integers never wraps. Sums, differences, products, negatives and absolute values are
the exact integers or overflows; remainders are those of a division that rounds down, for divisors and
dividends of either sign; and the sum of a list is exact exactly if all sums on the way to it fit. -/
theorem integer_arithmetic_is_exact_or_fails {limits : Limits} {m m' : Machine} :
    (∀ left right a b, Operands limits m [left, right] [.int a, .int b] m' →
      GivesExactly limits m (.binary .add left right) (a.toInt + b.toInt) m' ∧
      GivesExactly limits m (.binary .sub left right) (a.toInt - b.toInt) m' ∧
      GivesExactly limits m (.binary .mul left right) (a.toInt * b.toInt) m' ∧
      GivesRemainder limits m (.binary .mod left right) a b m') ∧
    (∀ operand a, Operands limits m [operand] [.int a] m' →
      GivesExactly limits m (.neg operand) (-a.toInt) m') ∧
    (∀ args a, Called limits m "abs" args [.int a] m' →
      GivesExactly limits m (.call (.var "abs") args) a.toInt.natAbs m') ∧
    (∀ args ns, Called limits m "sum" args [.list (ns.map .int)] m' →
      GivesSum limits m (.call (.var "sum") args) ns m') := by
  refine ⟨fun left right a b h => ⟨?_, ?_, ?_, ?_⟩, fun operand a h => ?_, fun args a h => ?_,
    fun args ns h => ?_⟩
  · exact givesExactly_of_hasOutcome (hasOutcome_binary .add h)
  · exact givesExactly_of_hasOutcome (hasOutcome_binary .sub h)
  · exact givesExactly_of_hasOutcome (hasOutcome_binary .mul h)
  · exact givesRemainder_of_hasOutcome (hasOutcome_binary .mod h)
  · exact givesExactly_of_hasOutcome (hasOutcome_neg h)
  · exact givesExactly_of_hasOutcome (hasOutcome_call (f := .abs) rfl h)
  · exact givesSum_of_hasOutcome (hasOutcome_call (f := .sum) rfl h)

/-- The remainder of the least integer by `-1` is 0, while their sum is an overflow, and so is the sum
of a list that leaves the integers on the way to the greatest one. -/
theorem integer_arithmetic_is_exact_or_fails_extremes :
    (∃ m', Operands ⟨100, 100⟩ (.start (.ofSeed 0)) [.int Int64.minValue, .int (-1)]
        [.int Int64.minValue, .int (-1)] m' ∧
      HasOutcome ⟨100, 100⟩ (.start (.ofSeed 0)) (.binary .mod (.int Int64.minValue) (.int (-1)))
        (.ok (.int 0)) m' ∧
      Raises ⟨100, 100⟩ (.start (.ofSeed 0)) (.binary .add (.int Int64.minValue) (.int (-1)))
        "integer overflow" m') ∧
    ∃ m', Called ⟨100, 100⟩ (.start (.ofSeed 0)) "sum"
        [.list [.int Int64.maxValue, .int 1, .int (-1)]]
        [.list [.int Int64.maxValue, .int 1, .int (-1)]] m' ∧
      Raises ⟨100, 100⟩ (.start (.ofSeed 0))
        (.call (.var "sum") [.list [.int Int64.maxValue, .int 1, .int (-1)]])
        "integer overflow" m' := by
  constructor
  · have hoperands : Operands ⟨100, 100⟩ (.start (.ofSeed 0)) [.int Int64.minValue, .int (-1)] _ _ :=
      ⟨by decide, succeeds_of_fst (evalAll [.int Int64.minValue, .int (-1)]) rfl⟩
    obtain ⟨hsum, -, -, hremainder⟩ := integer_arithmetic_is_exact_or_fails.1 _ _ _ _ hoperands
    obtain ⟨r, hr, hbetween, -⟩ := hremainder
    have hzero : r.toInt = (0 : Int64).toInt := by
      have hdivisor : (-1 : Int64).toInt = -1 := by decide
      rw [hdivisor] at hbetween
      rw [Int64.toInt_zero]
      omega
    rw [Int64.toInt_inj.1 hzero] at hr
    exact ⟨_, hoperands, hr, hsum⟩
  · have hcall : Called ⟨100, 100⟩ (.start (.ofSeed 0)) "sum"
        [.list [.int Int64.maxValue, .int 1, .int (-1)]] _ _ :=
      ⟨⟨by decide, succeeds_of_fst
        (evalAll [.list [.int Int64.maxValue, .int 1, .int (-1)]]) rfl⟩, rfl⟩
    obtain ⟨-, hwide⟩ := integer_arithmetic_is_exact_or_fails.2.2.2 _
      [Int64.maxValue, 1, -1] hcall
    refine ⟨_, hcall, hwide fun hfit => ?_⟩
    exact absurd (hfit [Int64.maxValue, 1] ⟨[-1], rfl⟩) (by decide)

end PromptWeave.Script
