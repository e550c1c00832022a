import PromptWeave.Proofs.Script.Sequences
import PromptWeave.Proofs.Script.StrictArithmetic
import PromptWeave.Proofs.Text.Search

/-!
# Searches and slices of texts

A text that occurs in another is cut out of it by the place at which it is found and by its length. The
place is counted in characters, as bounds of slices are, although it is looked for among bytes: as many
characters stand before the first occurrence among the bytes. Main statement:
`searches_and_slices_agree`.
-/
namespace PromptWeave.Script

open PromptWeave.Script.Action
open PromptWeave.Text (OccursFirst encode occursIn beginsWith)

/-- The number that a search gives. -/
def foundAt (s t : String) : Int64 :=
  match Text.position? t s with
  | some place => Int64.ofNat place
  | none => -1

/-- Whether a text stands in another from a place on for as many characters as it has. -/
def standsAt (s t : String) (k : Int64) : Outcome Value := do
  let size ← lengthOf (.str t)
  let stop ← add (.int k) size
  let part ← slice (.str s) (some (.int k)) (some stop)
  return .bool (part == .str t)

/-- The expression `x[k:k+len(y)] == y`. -/
def cutEquals (x k y : String) : Expr :=
  .binary .equal
    (.slice (.var x) (some (.var k)) (some (.binary .add (.var k) (.call (.var "len") [.var y]))))
    (.var y)

variable {limits : Limits} {m m' : Machine} {s t : String} {k : Int64} {target needle : Expr}

/-! ### What the expressions come to -/

/-- A call of a method of a text comes to what the method makes of the values of the arguments. -/
theorem hasOutcome_ask {name : String} {args : List Expr} {values : List Value}
    (h : Operands limits m (target :: args) (.str s :: values) m') :
    HasOutcome limits m (.call (.attribute target name) args) (ask (.str s) name values) m' := by
  obtain ⟨v, mid, rest, htarget, hargs, heq⟩ := succeeds_evalAll_cons.1 h.evaluated
  cases heq
  rw [HasOutcome, Expr.eval, evaluating_apply h.steps, bind_ok _ htarget, bind_ok _ hargs]
  exact ofOutcome_apply _

theorem ask_find (s t : String) : ask (.str s) "find" [.str t] = .ok (.int (foundAt s t)) := by
  change (match Text.position? t s with
    | some i => pure (ofCount i)
    | none => pure (.int (-1)) : Outcome Value) = _
  unfold foundAt
  cases Text.position? t s <;> rfl

/-- A slice with two bounds fails if its second bound does, and else comes to what is cut out. -/
theorem hasOutcome_slice_stop {start stop : Expr} {v a : Value} {m₁ m₂ : Machine} {o : Outcome Value}
    (hsteps : m.steps < limits.maxSteps) (htarget : Succeeds limits m.stepped target.eval v m₁)
    (hstart : Succeeds limits m₁ start.eval a m₂) (hstop : HasOutcome limits m₂ stop o m') :
    HasOutcome limits m (.slice target (some start) (some stop))
      (o >>= fun b => slice v (some a) (some b)) m' := by
  have hstart' : Succeeds limits m₁ (evalOptional (some start)) (some a) m₂ := by
    rw [evalOptional]
    exact succeeds_bind.2 ⟨a, m₂, hstart, succeeds_pure.2 ⟨rfl, rfl⟩⟩
  cases o with
  | error cause =>
      have hstop' : (evalOptional (some stop) : Action _) limits m₂ = (.error (.fault m'.line cause), m') := by
        rw [evalOptional]
        exact bind_error _ hstop
      rw [HasOutcome, Expr.eval, evaluating_apply hsteps, bind_ok _ htarget, bind_ok _ hstart',
        bind_error _ hstop']
      rfl
  | ok b =>
      have hstop' : Succeeds limits m₂ (evalOptional (some stop)) (some b) m' := by
        rw [evalOptional]
        exact succeeds_bind.2 ⟨b, m', hstop, succeeds_pure.2 ⟨rfl, rfl⟩⟩
      exact hasOutcome_slice ⟨hsteps, m₁, m₂, htarget, hstart', hstop'⟩

/-- Of the parts of the expression only the sum that says where the slice stops may fail. -/
theorem exists_hasOutcome_cutEquals {x i y : String} (hx : m.get? x = some (.str s))
    (hi : m.get? i = some (.int k)) (hy : m.get? y = some (.str t)) (hfree : m.get? "len" = none)
    (hsteps : m.steps + 9 ≤ limits.maxSteps) :
    ∃ m', HasOutcome limits m (cutEquals x i y) (standsAt s t k) m' := by
  have hcalled : Called limits (m.later 6) "len" [.var y] [.str t] (m.later 8) :=
    { steps := by
        change m.steps + 6 < _
        omega
      evaluated := succeeds_evalAll_one.2 (succeeds_var_later (n := 7) hy (by omega))
      free := hfree }
  have hlength : Succeeds limits (m.later 6) (Expr.call (.var "len") [.var y]).eval
      (ofCount t.length) (m.later 8) := hasOutcome_call (f := .len) rfl hcalled
  have hadded : Succeeds limits (m.later 5) (evalAll [.var i, .call (.var "len") [.var y]])
      [.int k, ofCount t.length] (m.later 8) :=
    succeeds_evalAll_two.2 ⟨_, succeeds_var_later hi (by omega), hlength⟩
  have hfour : (m.later 4).steps < limits.maxSteps := by
    change m.steps + 4 < _
    omega
  have hsum : HasOutcome limits (m.later 4) (.binary .add (.var i) (.call (.var "len") [.var y]))
      (add (.int k) (ofCount t.length)) (m.later 8) :=
    hasOutcome_binary .add { steps := hfour, evaluated := hadded }
  have hslice := hasOutcome_slice_stop (m := m.later 1) (by change m.steps + 1 < _; omega)
    (succeeds_var_later (n := 2) hx (by omega)) (succeeds_var_later (n := 3) hi (by omega)) hsum
  have hstands : standsAt s t k = ((add (.int k) (ofCount t.length) >>= fun stop =>
      slice (.str s) (some (.int k)) (some stop)) >>= fun part => .ok (.bool (part == .str t))) := by
    rw [bind_assoc]
    rfl
  rw [hstands]
  -- Whether the right side is evaluated depends on the slice.
  cases hpart : add (.int k) (ofCount t.length) >>= fun stop =>
      slice (.str s) (some (.int k)) (some stop) with
  | error cause =>
      rw [hpart] at hslice
      refine ⟨m.later 8, ?_⟩
      have hfirst : m.steps < limits.maxSteps := by omega
      rw [HasOutcome, cutEquals, Expr.eval, evaluating_apply hfirst]
      exact bind_error _ hslice
  | ok part =>
      rw [hpart] at hslice
      exact ⟨m.later 9, hasOutcome_binary .equal
        { steps := by omega
          evaluated := succeeds_evalAll_two.2
            ⟨_, hslice, succeeds_var_later (n := 8) hy (by omega)⟩ }⟩

/-! ### Where texts stand -/

variable {place : Nat}

theorem str_beq_str {a b : String} : (Value.str a == .str b) = true ↔ a = b := beq_iff_eq (a := a)

/-- What is cut out of a text between two integers. -/
theorem slice_str_int (s : String) (i j : Int64) :
    slice (.str s) (some (.int i)) (some (.int j)) =
      .ok (.str (String.ofList ((s.toList.drop (cutAt s.length i.toInt)).take
        (cutAt s.length j.toInt - cutAt s.length i.toInt)))) := by
  rw [slice, between_eq (cutPoint_int ..) (cutPoint_int ..), String.length_toList]
  rfl

/-- What stands in a text from an integer on stands where the integer cuts the text. -/
theorem isPrefix_of_standsAt (h : standsAt s t k = .ok (.bool true)) :
    t.toList <+: s.toList.drop (cutAt s.length k.toInt) := by
  obtain ⟨size, hsize, h⟩ := PromptWeave.bind_eq_ok.1 h
  obtain ⟨stop, hstop, h⟩ := PromptWeave.bind_eq_ok.1 h
  obtain ⟨part, hpart, h⟩ := PromptWeave.bind_eq_ok.1 h
  cases hsize
  obtain ⟨j, rfl⟩ : ∃ j : Int64, stop = .int j := by
    rw [ofCount, add, exactInt] at hstop
    split at hstop
    · cases hstop
      exact ⟨_, rfl⟩
    · cases hstop
  rw [slice_str_int] at hpart
  cases hpart
  have hequal := str_beq_str.1 (Value.bool.inj (Except.ok.inj h))
  rw [← hequal, String.toList_ofList]
  exact List.take_prefix _ _

/-- A text stands in another from the place on at which it occurs. -/
theorem standsAt_of_occurs (hs : s.length < memoryBytes) (hplace : place ≤ s.length)
    (h : t.toList <+: s.toList.drop place) : standsAt s t (Int64.ofNat place) = .ok (.bool true) := by
  have hend : place + t.length ≤ s.length := by
    have hle := h.length_le
    rw [List.length_drop, String.length_toList, String.length_toList] at hle
    omega
  have hk : (Int64.ofNat place).toInt = place := Strict.toInt_ofNat_of_lt (by omega)
  have hsize : (Int64.ofNat t.length).toInt = t.length := Strict.toInt_ofNat_of_lt (by omega)
  have hfits : fitsInt ((Int64.ofNat place).toInt + (Int64.ofNat t.length).toInt) = true := by
    unfold memoryBytes at hs
    rw [hk, hsize, fitsInt_iff]
    omega
  have hstop : (Int64.ofNat place + Int64.ofNat t.length).toInt = (place + t.length : Nat) := by
    rw [toInt_add_of_fits hfits, hk, hsize, Nat.cast_add]
  have hsum : add (.int (Int64.ofNat place)) (ofCount t.length) =
      .ok (.int (Int64.ofNat place + Int64.ofNat t.length)) := by
    rw [ofCount, add, exactInt_of_fits hfits, ofInt_add_toInt]
  have hpart : slice (.str s) (some (.int (Int64.ofNat place)))
      (some (.int (Int64.ofNat place + Int64.ofNat t.length))) = .ok (.str t) := by
    rw [slice_str_int, hk, hstop, cutAt_within hplace, cutAt_within hend, Nat.add_sub_cancel_left,
      ← String.length_toList, ← List.prefix_iff_eq_take.1 h, String.ofList_toList]
  have hequal : (.ok (.bool (Value.str t == .str t)) : Outcome Value) = .ok (.bool true) := by
    rw [str_beq_str.2 rfl]
  exact PromptWeave.bind_eq_ok.2 ⟨_, rfl, PromptWeave.bind_eq_ok.2 ⟨_, hsum,
    PromptWeave.bind_eq_ok.2 ⟨_, hpart, hequal⟩⟩⟩

/-- What is found is the number of characters before the first occurrence, or none. -/
theorem foundAt_cases (hs : s.length < memoryBytes) (t : String) :
    (occursIn t s = true ∧ ∃ place, OccursFirst t.toList s.toList place ∧
      Text.position? t s = some place ∧ foundAt s t = Int64.ofNat place ∧
      (foundAt s t).toInt = place) ∨
    occursIn t s = false ∧ Text.position? t s = none ∧ foundAt s t = -1 := by
  unfold foundAt occursIn
  cases hposition : Text.position? t s with
  | none => exact .inr ⟨rfl, rfl, rfl⟩
  | some place =>
      have hfirst := Text.position?_eq_some_iff.1 hposition
      have hle := hfirst.le_length
      rw [String.length_toList] at hle
      have hword : (Int64.ofNat place).toInt = place := Strict.toInt_ofNat_of_lt (by omega)
      exact .inl ⟨rfl, place, hfirst, rfl, rfl, hword⟩

theorem foundAt_eq_neg_one_iff (hs : s.length < memoryBytes) (t : String) :
    foundAt s t = -1 ↔ occursIn t s = false := by
  obtain ⟨hfound, place, -, -, -, hword⟩ | ⟨hfound, -, hnone⟩ := foundAt_cases hs t
  · rw [hfound]
    refine iff_of_false (fun hnone => ?_) nofun
    rw [hnone] at hword
    have hneg : (-1 : Int64).toInt = -1 := rfl
    omega
  · exact iff_of_true hnone hfound

theorem beginsWith_iff_foundAt (hs : s.length < memoryBytes) (t : String) :
    beginsWith t s = true ↔ foundAt s t = 0 := by
  rw [Text.beginsWith_iff_position?]
  obtain ⟨-, place, -, hposition, hfound, hword⟩ | ⟨-, hposition, hnone⟩ := foundAt_cases hs t
  · rw [hposition, Option.some_inj, ← Int64.toInt_inj, hword]
    exact Int.natCast_eq_zero.symm
  · rw [hposition, hnone]
    exact iff_of_false nofun (by decide)

/-- A text that occurs is found at the first of its places, and it stands there. -/
theorem foundAt_of_occursIn (hs : s.length < memoryBytes) (h : occursIn t s = true) :
    ∃ place, OccursFirst t.toList s.toList place ∧ (foundAt s t).toInt = place ∧
      standsAt s t (foundAt s t) = .ok (.bool true) := by
  obtain ⟨-, place, hfirst, -, hfound, hword⟩ | ⟨hnot, -, -⟩ := foundAt_cases hs t
  · have hle := hfirst.le_length
    rw [String.length_toList] at hle
    refine ⟨place, hfirst, hword, ?_⟩
    rw [hfound]
    exact standsAt_of_occurs hs hle hfirst.1
  · exact absurd h (by rw [hnot]; nofun)

/-- Where a text stands, it is not cut out in front of its first occurrence. -/
theorem foundAt_le_cutAt (hs : s.length < memoryBytes) (h : occursIn t s = true)
    (hk : standsAt s t k = .ok (.bool true)) : (foundAt s t).toInt ≤ cutAt s.length k.toInt := by
  obtain ⟨place, hfirst, hword, -⟩ := foundAt_of_occursIn hs h
  rw [hword]
  refine Int.ofNat_le.2 ?_
  by_contra hlt
  exact hfirst.2 _ (Nat.lt_of_not_le hlt) (isPrefix_of_standsAt hk)

theorem not_standsAt_of_lt_foundAt (hs : s.length < memoryBytes) (h : occursIn t s = true)
    (hzero : 0 ≤ k.toInt) (hk : k.toInt < (foundAt s t).toInt) :
    standsAt s t k ≠ .ok (.bool true) := by
  intro hstands
  obtain ⟨place, hfirst, hword, -⟩ := foundAt_of_occursIn hs h
  have hle := hfirst.le_length
  rw [String.length_toList] at hle
  have hcut : cutAt s.length (k.toInt.toNat : Int) = k.toInt.toNat := cutAt_within (by omega)
  rw [Int.toNat_of_nonneg hzero] at hcut
  have hleast := foundAt_le_cutAt hs h hstands
  omega

/-- What is found counts the characters in front of the first occurrence among the bytes. -/
theorem foundAt_eq_length_of_occursFirst (hs : s.length < memoryBytes) {b : Nat}
    (hb : OccursFirst (encode t) (encode s) b) :
    ∃ front, Text.slice? s 0 b = some front ∧ (foundAt s t).toInt = front.length := by
  obtain ⟨k, hk, rfl⟩ := Text.occursFirst_encode_iff.1 hb
  refine ⟨_, Text.slice?_take s k, ?_⟩
  obtain ⟨-, place, hfirst, -, -, hword⟩ | ⟨-, hposition, -⟩ := foundAt_cases hs t
  · have hle := hfirst.le_length
    rw [hword, hk.unique hfirst, String.length_ofList, List.length_take, Nat.min_eq_left hle]
  · rw [Text.position?_eq_some_iff.2 hk] at hposition
    cases hposition

theorem foundAt_of_not_occursFirst (hs : s.length < memoryBytes)
    (h : ∀ b, ¬OccursFirst (encode t) (encode s) b) : foundAt s t = -1 := by
  obtain ⟨-, place, hfirst, -, -, -⟩ | ⟨-, -, hnone⟩ := foundAt_cases hs t
  · exact absurd (Text.occursFirst_encode_iff.2 ⟨place, hfirst, rfl⟩) (h _)
  · exact hnone

/-- Searches and slices of a text agree. A text is not found exactly if it does not occur, and it is found
at the front exactly if the other begins with it. Where a text is found it is cut out with its length, and
it is cut out at no smaller place, nor by a bound that comes to one. The place is the number of
characters in front of the first occurrence among the bytes. -/
theorem searches_and_slices_agree {s t : String} (hs : s.utf8ByteSize < memoryBytes) :
    (∀ limits m target needle m', Operands limits m [target, needle] [.str s, .str t] m' →
      HasOutcome limits m (.call (.attribute target "find") [needle]) (.ok (.int (foundAt s t))) m' ∧
      HasOutcome limits m (.call (.attribute target "contains") [needle])
        (.ok (.bool (occursIn t s))) m' ∧
      HasOutcome limits m (.call (.attribute target "startswith") [needle])
        (.ok (.bool (beginsWith t s))) m') ∧
    (∀ limits m needle target m', Operands limits m [needle, target] [.str t, .str s] m' →
      HasOutcome limits m (.binary .isIn needle target) (.ok (.bool (occursIn t s))) m') ∧
    (∀ limits m x i y (k : Int64), m.get? x = some (.str s) → m.get? i = some (.int k) →
      m.get? y = some (.str t) → m.get? "len" = none → m.steps + 9 ≤ limits.maxSteps →
      ∃ m', HasOutcome limits m (cutEquals x i y) (standsAt s t k) m') ∧
    (foundAt s t = -1 ↔ occursIn t s = false) ∧
    (beginsWith t s = true ↔ foundAt s t = 0) ∧
    (occursIn t s = true →
      standsAt s t (foundAt s t) = .ok (.bool true) ∧
      (∀ j : Int64, 0 ≤ j.toInt → j.toInt < (foundAt s t).toInt →
        standsAt s t j ≠ .ok (.bool true)) ∧
      ∀ j : Int64, standsAt s t j = .ok (.bool true) →
        (foundAt s t).toInt ≤ cutAt s.length j.toInt) ∧
    (∀ b, OccursFirst (encode t) (encode s) b →
      ∃ front, Text.slice? s 0 b = some front ∧ (foundAt s t).toInt = front.length) ∧
    ((∀ b, ¬OccursFirst (encode t) (encode s) b) → foundAt s t = -1) := by
  have hlength := Nat.lt_of_le_of_lt (Text.length_le_utf8ByteSize s) hs
  refine ⟨fun limits m target needle m' h => ⟨?_, hasOutcome_ask h, hasOutcome_ask h⟩,
    fun limits m needle target m' h => hasOutcome_binary .isIn h,
    fun limits m x i y k => exists_hasOutcome_cutEquals, foundAt_eq_neg_one_iff hlength t,
    beginsWith_iff_foundAt hlength t, fun hoccurs => ⟨?_, ?_, ?_⟩,
    fun b => foundAt_eq_length_of_occursFirst hlength, foundAt_of_not_occursFirst hlength⟩
  · rw [← ask_find]
    exact hasOutcome_ask h
  · obtain ⟨-, -, -, hstands⟩ := foundAt_of_occursIn hlength hoccurs
    exact hstands
  · exact fun j => not_standsAt_of_lt_foundAt hlength hoccurs
  · exact fun j => foundAt_le_cutAt hlength hoccurs

/-- Of two occurrences behind a wide character the first is found, two characters and three bytes from the
front. -/
theorem searches_and_slices_agree_wide :
    let s := "añ≠b≠"
    s.utf8ByteSize < memoryBytes ∧ occursIn "≠" s = true ∧ foundAt s "≠" = 2 ∧
      standsAt s "≠" 2 = .ok (.bool true) ∧ standsAt s "≠" 1 ≠ .ok (.bool true) ∧
      OccursFirst (encode "≠") (encode s) 3 ∧
      ∃ front, Text.slice? s 0 3 = some front ∧ front.length = 2 := by
  intro s
  have hsize : s.utf8ByteSize < memoryBytes := by decide +kernel
  have hoccurs : occursIn "≠" s = true := by decide +kernel
  have hfound : foundAt s "≠" = 2 := by decide +kernel
  have hbytes : OccursFirst (encode "≠") (encode s) 3 := by
    unfold OccursFirst
    decide +kernel
  obtain ⟨-, -, -, -, -, hstands, hcount, -⟩ := searches_and_slices_agree (t := "≠") hsize
  rw [hfound] at hstands hcount
  obtain ⟨hhere, hearlier, -⟩ := hstands hoccurs
  obtain ⟨front, hfront, hlength⟩ := hcount 3 hbytes
  exact ⟨hsize, hoccurs, hfound, hhere, hearlier 1 (by decide) (by decide), hbytes, front, hfront,
    (Int.ofNat_inj.1 hlength).symm⟩

end PromptWeave.Script
