import PromptWeave.Proofs.Script.DuplicateKeys

/-!
# Lists without duplicates

A list loses every item whose key occurred before. Where equal items have one key, this leaves the first
of each class of equal items.
-/
namespace PromptWeave.Script

open PromptWeave.Decimal

section Erasing

variable {α : Type} [BEq α]

/-- What holds of the empty list, and of a list if it holds of the items that are not equal to the first,
holds of all lists. -/
theorem eraseDups_induction {motive : List α → Prop} (nil : motive [])
    (cons : ∀ a as, motive (as.filter fun b => !b == a) → motive (a :: as)) : (as : List α) → motive as
  | [] => nil
  | a :: as => cons a as (eraseDups_induction nil cons (as.filter fun b => !b == a))
termination_by as => as.length
decreasing_by exact Nat.lt_succ_of_le (List.length_filter_le _ as)

theorem eraseDups_sublist (as : List α) : as.eraseDups.Sublist as := by
  induction as using eraseDups_induction with
  | nil => exact .refl []
  | cons a as ih =>
      rw [List.eraseDups_cons]
      exact (ih.trans List.filter_sublist).cons_cons a

theorem pairwise_eraseDups (as : List α) : as.eraseDups.Pairwise fun v w => (w == v) = false := by
  induction as using eraseDups_induction with
  | nil => exact .nil
  | cons a as ih =>
      rw [List.eraseDups_cons]
      refine .cons (fun b hb => ?_) ih
      have hfilter := (eraseDups_sublist _).subset hb
      simpa using (List.mem_filter.1 hfilter).2

theorem exists_mem_eraseDups {as : List α} (hrefl : ∀ v ∈ as, (v == v) = true) :
    ∀ v ∈ as, ∃ w ∈ as.eraseDups, (v == w) = true := by
  induction as using eraseDups_induction with
  | nil => simp
  | cons a as ih =>
      rw [List.eraseDups_cons]
      have hrest : ∀ v ∈ as.filter fun b => !b == a, (v == v) = true := fun v hv =>
        hrefl v (List.mem_cons_of_mem a (List.mem_filter.1 hv).1)
      intro v hv
      rcases List.mem_cons.1 hv with rfl | hv
      · exact ⟨v, List.mem_cons_self, hrefl v List.mem_cons_self⟩
      · by_cases heq : (v == a) = true
        · exact ⟨a, List.mem_cons_self, heq⟩
        · obtain ⟨w, hw, hequal⟩ := ih hrest v (List.mem_filter.2 ⟨hv, by simpa using heq⟩)
          exact ⟨w, List.mem_cons_of_mem a hw, hequal⟩

end Erasing

/-! ### Keys that have occurred -/

/-- Items are compared by their keys with those that are kept. -/
theorem withoutRepeats_eq_loop {r : Value → Value → Bool} {items kept : List Value} {seen : Std.HashSet String}
    (hseen : ∀ key, seen.contains key = kept.any fun v => key == v.dedupKey)
    (hr : ∀ v ∈ items, ∀ w ∈ items ++ kept, r v w = (v.dedupKey == w.dedupKey)) :
    withoutRepeats seen kept items = List.eraseDupsBy.loop r items kept := by
  induction items generalizing seen kept with
  | nil => rfl
  | cons v rest ih =>
      have hkept : (kept.any fun w => v.dedupKey == w.dedupKey) = kept.any (r v) := by
        rw [Bool.eq_iff_iff, List.any_eq_true, List.any_eq_true]
        refine exists_congr fun w => and_congr_right fun hw => ?_
        rw [hr v List.mem_cons_self w (List.mem_append_right _ hw)]
      rw [withoutRepeats, List.eraseDupsBy.loop, hseen, hkept]
      cases hoccurs : kept.any (r v) with
      | true =>
          exact ih hseen fun w hw u hu => hr w (List.mem_cons_of_mem v hw) u (List.mem_cons_of_mem v hu)
      | false =>
          have hmem {u : Value} (hu : u ∈ rest ++ v :: kept) : u ∈ v :: rest ++ kept :=
            List.perm_middle.mem_iff.1 hu
          refine ih (fun key => ?_) fun w hw u hu => hr w (List.mem_cons_of_mem v hw) u (hmem hu)
          rw [Std.HashSet.contains_insert, hseen, List.any_cons, BEq.comm]

theorem withoutRepeats_eq {r : Value → Value → Bool} {items : List Value}
    (hr : ∀ v ∈ items, ∀ w ∈ items, r v w = (v.dedupKey == w.dedupKey)) :
    withoutRepeats ∅ [] items = items.eraseDupsBy r :=
  withoutRepeats_eq_loop (by simp) (by simpa using hr)

/-- Two values have one key exactly if they are equal and no integer in one stands where the other has a
double of 9e15 or more, and the items of a list that are left are the first of those that are equal in this
way. In a list where equal items never straddle that bound, these are the first of each class of equal
items: they stand in their order, no two of them are equal, and every item is equal to one of them. -/
theorem unique_leaves_first_of_equals {a b : Value} {items : List Value} (ha : NaNFree a)
    (hitems : ∀ v ∈ items, NaNFree v) :
    (a.dedupKey = b.dedupKey ↔ (a == b) = true ∧ a.straddles b = false) ∧
    Function.unique.apply [.list items] =
      .ok (.list (items.eraseDupsBy fun v w => v == w && !v.straddles w)) ∧
    ((∀ v ∈ items, ∀ w ∈ items, (v == w) = true → v.straddles w = false) →
      Function.unique.apply [.list items] = .ok (.list items.eraseDups) ∧
      items.eraseDups.Sublist items ∧
      (items.eraseDups.Pairwise fun v w => (w == v) = false) ∧
      ∀ v ∈ items, ∃ w ∈ items.eraseDups, (v == w) = true) := by
  have happly : Function.unique.apply [.list items] = .ok (.list (withoutRepeats ∅ [] items)) := rfl
  have hkeys : ∀ v ∈ items, ∀ w ∈ items, (v == w && !v.straddles w) = (v.dedupKey == w.dedupKey) := by
    intro v hv w hw
    rw [Bool.eq_iff_iff, beq_iff_eq (a := v.dedupKey), Value.dedupKey_eq_iff (hitems v hv), Bool.and_eq_true,
      Bool.not_eq_true']
  refine ⟨Value.dedupKey_eq_iff ha, by rw [happly, withoutRepeats_eq hkeys], fun hapart => ?_⟩
  have hequals : ∀ v ∈ items, ∀ w ∈ items, (v == w) = (v.dedupKey == w.dedupKey) := by
    intro v hv w hw
    rw [← hkeys v hv w hw]
    cases hequal : v == w with
    | true => rw [hapart v hv w hw hequal]; rfl
    | false => rfl
  have hrefl : ∀ v ∈ items, (v == v) = true := fun v hv => by rw [hequals v hv v hv, beq_self_eq_true]
  refine ⟨?_, eraseDups_sublist items, pairwise_eraseDups items, exists_mem_eraseDups hrefl⟩
  rw [happly, withoutRepeats_eq hequals]
  rfl

/-- Numbers that are equal across their kinds, a text with the same digits, and a list inside the list. -/
theorem unique_leaves_first_of_equals_mixed :
    let a : Value := .list [.int 2, .str "'"]
    let b : Value := .list [.float (.ofFloat 2.0), .str "'"]
    let items : List Value := [.int 1, .float (.ofFloat 1.0), a, .str "1", b]
    (∀ v ∈ items, NaNFree v) ∧
      (∀ v ∈ items, ∀ w ∈ items, (v == w) = true → v.straddles w = false) ∧
      a.dedupKey = b.dedupKey ∧
      items.eraseDups = [.int 1, a, .str "1"] ∧
      Function.unique.apply [.list items] = .ok (.list items.eraseDups) := by
  intro a b items
  have ha : NaNFree a := .list (by simpa using ⟨NaNFree.int 2, NaNFree.str "'"⟩)
  have hb : NaNFree b := .list (by simpa using ⟨NaNFree.float (by decide), NaNFree.str "'"⟩)
  have hfree : ∀ v ∈ items, NaNFree v := by
    simp only [items, List.forall_mem_cons]
    exact ⟨.int 1, .float (by decide), ha, .str "1", hb, by simp⟩
  have hapart : ∀ v ∈ items, ∀ w ∈ items, v.straddles w = false := by decide +kernel
  have hkept : items.eraseDups = [.int 1, a, .str "1"] := by rfl
  have hequal : a.beq b = true ∧ a.straddles b = false := by decide +kernel
  have hboth := unique_leaves_first_of_equals (b := b) ha hfree
  exact ⟨hfree, fun v hv w hw _ => hapart v hv w hw, hboth.1.2 hequal, hkept,
    (hboth.2.2 fun v hv w hw _ => hapart v hv w hw).1⟩

/-- Equal numbers are both left if one is an integer and the other a double above the bound. -/
theorem unique_leaves_equal_numbers :
    let a := Value.int 9100000000000000
    let b := Value.float (.ofFloat 9.1e15)
    NaNFree a ∧ NaNFree b ∧ (a == b) = true ∧ a.dedupKey ≠ b.dedupKey ∧
      Function.unique.apply [.list [a, b]] = .ok (.list [a, b]) := by
  intro a b
  have hequal : a.beq b = true := by decide +kernel
  have hstraddles : a.straddles b = true := by decide +kernel
  have hkeys : a.dedupKey ≠ b.dedupKey := by
    intro h
    obtain ⟨-, hapart⟩ := (Value.dedupKey_eq_iff (.int _)).1 h
    cases hstraddles.symm.trans hapart
  refine ⟨.int _, .float (by decide), hequal, hkeys, ?_⟩
  have happly : Function.unique.apply [.list [a, b]] = .ok (.list (withoutRepeats ∅ [] [a, b])) := rfl
  rw [happly, withoutRepeats_eq fun _ _ _ _ => rfl]
  simp [List.eraseDupsBy_cons, hkeys.symm]

end PromptWeave.Script
