import PromptWeave.Proofs.Decimal.Digits
import PromptWeave.Proofs.Decimal.ShortestDigits

/-!
# Texts of doubles

A finite double is written with a point among its digits, and the number that they write rounds to it. So
no two doubles have one text. Main statement: `display_injective`.
-/
namespace PromptWeave.Decimal

/-- Whether characters write a number with digits in front of a point and digits behind it. -/
def WritesDecimal (cs : List Char) (q : ℚ) : Prop :=
  ∃ whole places, cs = whole ++ '.' :: places ∧ whole ≠ [] ∧ (∀ c ∈ whole ++ places, c.isDigit = true) ∧
    q = digitsValue (whole ++ places) / 10 ^ places.length

variable {x y : Float} {negative : Bool} {m : Nat} {e : Int} {cs : List Char} {q q' : ℚ}

theorem digitsValue_append_zero (cs : List Char) : digitsValue (cs ++ ['0']) = 10 * digitsValue cs := by
  rw [digitsValue, List.foldl_append, ← digitsValue, mul_comm]
  rfl

theorem digitsValue_zeros (n : Nat) (cs : List Char) :
    digitsValue (List.replicate n '0' ++ cs) = digitsValue cs := by
  induction n with
  | zero => rfl
  | succ n ih => exact ih

theorem toList_toString (n : Nat) : (toString n).toList = Nat.toDigits 10 n := by
  have hrepr : toString n = n.repr := rfl
  rw [hrepr, Nat.repr_eq_ofList_toDigits, String.toList_ofList]

theorem isDigit_of_mem_toDigits {n : Nat} {c : Char} (h : c ∈ Nat.toDigits 10 n) : c.isDigit = true :=
  Nat.isDigit_of_mem_toDigits (by decide) (by decide) h

/-- Characters write one number at most. -/
theorem WritesDecimal.unique (h : WritesDecimal cs q) (h' : WritesDecimal cs q') : q = q' := by
  have hpoint {whole places : List Char} (hdigits : ∀ c ∈ whole ++ places, c.isDigit = true) :
      (whole ++ '.' :: places).takeWhile Char.isDigit = whole ∧
        (whole ++ '.' :: places).dropWhile Char.isDigit = '.' :: places := by
    have hwhole : ∀ c ∈ whole, c.isDigit = true := fun c hc => hdigits c (List.mem_append_left _ hc)
    rw [List.takeWhile_append_of_pos hwhole, List.dropWhile_append_of_pos hwhole]
    simp
  obtain ⟨whole, places, rfl, -, hdigits, rfl⟩ := h
  obtain ⟨whole', places', heq, -, hdigits', rfl⟩ := h'
  obtain ⟨htake, hdrop⟩ := hpoint hdigits
  obtain ⟨htake', hdrop'⟩ := hpoint hdigits'
  rw [heq] at htake hdrop
  obtain rfl : whole = whole' := htake.symm.trans htake'
  obtain rfl : places = places' := (List.cons.inj (hdrop.symm.trans hdrop')).2
  rfl

/-- A whole number is written with one place. -/
theorem writesDecimal_whole (n : Nat) : WritesDecimal (toString n ++ ".0").toList n := by
  refine ⟨Nat.toDigits 10 n, ['0'], ?_, Nat.toDigits_ne_nil, fun c hc => ?_, ?_⟩
  · rw [String.toList_append, toList_toString]
    rfl
  · rcases List.mem_append.1 hc with hc | hc
    · exact isDigit_of_mem_toDigits hc
    · rw [List.mem_singleton.1 hc]
      rfl
  · rw [digitsValue_append_zero, digitsValue_toDigits]
    simp

/-- Digits with places are written with a point in front of these. -/
theorem writesDecimal_positional {d : Digits} (hd : d.exponent < 0) :
    WritesDecimal d.positional.toList d.value := by
  obtain ⟨n, exponent⟩ := d
  obtain ⟨p, rfl⟩ : ∃ p : Nat, exponent = -(p + 1 : Nat) := ⟨(-exponent - 1).toNat, by simp at hd; omega⟩
  obtain ⟨cs, hcs, hdigits, rfl⟩ : ∃ cs, Nat.toDigits 10 n = cs ∧ (∀ c ∈ cs, c.isDigit = true) ∧
      n = digitsValue cs :=
    ⟨_, rfl, fun c => isDigit_of_mem_toDigits, (digitsValue_toDigits n).symm⟩
  rw [Digits.value, zpow_neg, zpow_natCast, ← div_eq_mul_inv, Digits.positional, if_neg (by simp only; omega)]
  simp only [neg_neg, Int.toNat_natCast, toList_toString, hcs]
  -- Digits that do not reach the point are filled up with zeros.
  split
  · refine ⟨cs.take (cs.length - (p + 1)), cs.drop (cs.length - (p + 1)), by simp, ?_, ?_, ?_⟩
    · rw [← List.length_pos_iff, List.length_take]
      omega
    · rwa [List.take_append_drop]
    · rw [List.take_append_drop, List.length_drop]
      congr 2
      omega
  · refine ⟨['0'], List.replicate (p + 1 - cs.length) '0' ++ cs, ?_, by simp, ?_, ?_⟩
    · simp [hcs]
    · simp only [List.mem_append, List.mem_replicate, List.mem_singleton]
      rintro c (rfl | ⟨-, rfl⟩ | hc)
      · rfl
      · rfl
      · exact hdigits c hc
    · rw [List.length_append, List.length_replicate]
      have hzeros := digitsValue_zeros (p + 1 - cs.length + 1) cs
      rw [List.replicate_succ] at hzeros
      rw [List.singleton_append, ← List.cons_append, hzeros]
      congr 2
      omega

/-- What stands in front of a text for the sign. -/
theorem toList_withSign (text : String) :
    (withSign negative text).toList = (if negative then ['-'] else []) ++ text.toList := by
  cases negative <;> simp [withSign]

/-- The digits of a double that is not whole have places. -/
theorem exponent_shortest_neg (h : Canonical m e) (hwhole : ¬∃ n : Nat, magnitudeOf m e = n) :
    (shortest m e).exponent < 0 := by
  have hm : 0 < m := by
    refine Nat.pos_of_ne_zero fun hzero => hwhole ⟨0, ?_⟩
    simp [magnitudeOf, hzero]
  have hrounds := roundsTo_shortest hm h
  by_contra hexponent
  obtain ⟨j, hj⟩ := Int.eq_ofNat_of_zero_le (not_lt.1 hexponent)
  have hvalue : (shortest m e).value = ((shortest m e).digits * 10 ^ j : Nat) := by
    rw [Digits.value, hj]
    push_cast
    rfl
  rw [hvalue] at hrounds
  rcases lt_or_ge e 0 with he | he
  · exact hwhole ⟨_, hrounds.eq_of_whole he⟩
  · obtain ⟨k, rfl⟩ := Int.eq_ofNat_of_zero_le he
    exact hwhole ⟨m * 2 ^ k, by simp [magnitudeOf]⟩

/-- A finite double is written as a number that rounds to it. -/
theorem exists_display (h : read x = .finite negative m e) :
    ∃ cs q, (display x).toList = (if negative then ['-'] else []) ++ cs ∧ WritesDecimal cs q ∧
      RoundsTo q m e := by
  have hcanonical := canonical_of_read h
  rw [display, h]
  dsimp only
  rw [toList_withSign]
  by_cases hwhole : ∃ n : Nat, magnitudeOf m e = n
  · obtain ⟨n, hn⟩ := hwhole
    have hmod := whole_iff.2 ⟨n, hn⟩
    have hdiv : (fraction m e).1 / (fraction m e).2 = n := by
      have hnum := fraction_num m e
      rw [hn] at hnum
      have hnum : (fraction m e).1 = n * (fraction m e).2 := by exact_mod_cast hnum
      rw [hnum, Nat.mul_div_cancel _ (fraction_den_pos m e)]
    refine ⟨_, n, rfl, ?_, hn ▸ roundsTo_magnitudeOf⟩
    rw [if_pos (by simpa using hmod), hdiv]
    exact writesDecimal_whole n
  · have hm : 0 < m := by
      refine Nat.pos_of_ne_zero fun hzero => hwhole ⟨0, ?_⟩
      simp [magnitudeOf, hzero]
    refine ⟨_, _, rfl, ?_, roundsTo_shortest hm hcanonical⟩
    rw [if_neg (by simpa using mt whole_iff.1 hwhole)]
    exact writesDecimal_positional (exponent_shortest_neg hcanonical hwhole)

theorem WritesDecimal.exists_head (h : WritesDecimal cs q) :
    ∃ c rest, cs = c :: rest ∧ c.isDigit = true := by
  obtain ⟨whole, places, rfl, hne, hdigits, -⟩ := h
  cases whole with
  | nil => exact absurd rfl hne
  | cons c whole => exact ⟨c, _, rfl, hdigits c (by simp)⟩

/-- How a double is written behind its sign. -/
inductive WrittenAs : Reading → Bool → List Char → Prop where
  | notANumber : WrittenAs .notANumber false ['N', 'a', 'N']
  | infinite (negative : Bool) : WrittenAs (.infinite negative) negative ['i', 'n', 'f']
  | finite {negative : Bool} {m : Nat} {e : Int} {cs : List Char} {q : ℚ} (h : Canonical m e)
      (hwrites : WritesDecimal cs q) (hrounds : RoundsTo q m e) : WrittenAs (.finite negative m e) negative cs

theorem exists_writtenAs (x : Float) :
    ∃ s cs, (display x).toList = (if s then ['-'] else []) ++ cs ∧ WrittenAs (read x) s cs := by
  cases h : read x with
  | notANumber =>
      refine ⟨_, _, ?_, .notANumber⟩
      rw [display, h]
      rfl
  | infinite negative =>
      refine ⟨_, _, ?_, .infinite negative⟩
      rw [display, h]
      exact toList_withSign "inf"
  | finite negative m e =>
      obtain ⟨cs, q, hcs, hwrites, hrounds⟩ := exists_display h
      exact ⟨_, cs, hcs, .finite (canonical_of_read h) hwrites hrounds⟩

theorem WrittenAs.head_ne {r : Reading} {s : Bool} (h : WrittenAs r s cs) : cs.head? ≠ some '-' := by
  cases h with
  | notANumber => decide
  | infinite => decide
  | finite _ hwrites _ =>
      obtain ⟨c, rest, rfl, hc⟩ := hwrites.exists_head
      rintro ⟨⟩
      cases hc

theorem WrittenAs.ne_nil {r : Reading} {s : Bool} (h : WrittenAs r s cs) : cs ≠ [] := by
  cases h with
  | notANumber => simp
  | infinite => simp
  | finite _ hwrites _ =>
      obtain ⟨c, rest, rfl, -⟩ := hwrites.exists_head
      simp

theorem not_writesDecimal_cons {c : Char} (hc : c.isDigit = false) (cs : List Char) :
    ¬WritesDecimal (c :: cs) q := by
  intro hwrites
  obtain ⟨d, ds, heq, hd⟩ := hwrites.exists_head
  rw [← (List.cons.inj heq).1, hc] at hd
  cases hd

/-- What is written behind a sign belongs to one reading only. -/
theorem WrittenAs.unique {r r' : Reading} {s : Bool} (h : WrittenAs r s cs) (h' : WrittenAs r' s cs) :
    r = r' := by
  cases h with
  | notANumber =>
      cases h' with
      | notANumber => rfl
      | finite _ hwrites _ => exact absurd hwrites (not_writesDecimal_cons (by decide) _)
  | infinite negative =>
      cases h' with
      | infinite => rfl
      | finite _ hwrites _ => exact absurd hwrites (not_writesDecimal_cons (by decide) _)
  | finite h hwrites hrounds =>
      cases h' with
      | notANumber => exact absurd hwrites (not_writesDecimal_cons (by decide) _)
      | infinite => exact absurd hwrites (not_writesDecimal_cons (by decide) _)
      | finite h' hwrites' hrounds' =>
          obtain rfl := hwrites.unique hwrites'
          obtain ⟨rfl, rfl⟩ := hrounds.unique h h' hrounds'
          rfl

/-- A sign can be told from what is written behind it. -/
theorem sign_append_inj {s t : Bool} {cs ds : List Char} (hc : cs.head? ≠ some '-')
    (hd : ds.head? ≠ some '-')
    (h : (if s then ['-'] else []) ++ cs = (if t then ['-'] else []) ++ ds) : s = t ∧ cs = ds := by
  cases s <;> cases t
  · exact ⟨rfl, h⟩
  · exact absurd (congrArg List.head? h) hc
  · exact absurd (congrArg List.head? h).symm hd
  · exact ⟨rfl, (List.cons.inj h).2⟩

/-- No two doubles have one text. -/
theorem display_injective : Function.Injective display := by
  intro x y hxy
  refine read_injective ?_
  obtain ⟨s, cs, hx, hwritten⟩ := exists_writtenAs x
  obtain ⟨t, ds, hy, hwritten'⟩ := exists_writtenAs y
  rw [hxy, hy] at hx
  obtain ⟨rfl, rfl⟩ := sign_append_inj hwritten'.head_ne hwritten.head_ne hx
  exact hwritten.unique hwritten'

end PromptWeave.Decimal
