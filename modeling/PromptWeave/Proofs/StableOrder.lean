import Mathlib.Order.Lattice

/-!
# The order of a key

Items are put in the order of a key while items with one key stay in the order in which they were
given. There is only one list like that, and a stable sort gives it.
-/
namespace PromptWeave

variable {α β : Type} [LinearOrder β] {key : α → β}

/-- Whether a list holds the given items in the order of a key, those with one key as they were
given. -/
structure Ordered (key : α → β) (given ordered : List α) : Prop where
  ascending : ordered.Pairwise fun a b => key a ≤ key b
  stable : ∀ k, ordered.filter (fun a => key a = k) = given.filter fun a => key a = k

theorem mem_iff_of_filter_key_eq {xs ys : List α}
    (h : ∀ k, xs.filter (fun a => key a = k) = ys.filter fun a => key a = k) (a : α) :
    a ∈ xs ↔ a ∈ ys := by
  have hsame : a ∈ xs.filter (fun b => key b = key a) ↔ a ∈ ys.filter fun b => key b = key a := by
    rw [h]
  simpa using hsame

/-- Ascending lists that have the same items in the same order for every key are the same. -/
theorem eq_of_filter_key_eq {xs ys : List α} (hxs : xs.Pairwise fun a b => key a ≤ key b)
    (hys : ys.Pairwise fun a b => key a ≤ key b)
    (h : ∀ k, xs.filter (fun a => key a = k) = ys.filter fun a => key a = k) : xs = ys := by
  have hmem := mem_iff_of_filter_key_eq h
  induction xs generalizing ys with
  | nil =>
      have hnone : ∀ a, a ∉ ys := by simpa using hmem
      exact (List.eq_nil_iff_forall_not_mem.2 hnone).symm
  | cons x xs ih =>
      cases ys with
      | nil =>
          have hx := (hmem x).1 List.mem_cons_self
          simp at hx
      | cons y ys =>
          obtain ⟨hfirst, hxs'⟩ := List.pairwise_cons.1 hxs
          obtain ⟨hfirst', hys'⟩ := List.pairwise_cons.1 hys
          have hle : key x ≤ key y := by
            rcases List.mem_cons.1 ((hmem y).2 List.mem_cons_self) with rfl | hy
            · exact le_rfl
            · exact hfirst y hy
          have hle' : key y ≤ key x := by
            rcases List.mem_cons.1 ((hmem x).1 List.mem_cons_self) with rfl | hx
            · exact le_rfl
            · exact hfirst' x hx
          have hkey : key x = key y := le_antisymm hle hle'
          -- The first items have one key, so they come first among the items with that key.
          have hhead : x = y := by
            have hfilter := h (key x)
            simp [hkey] at hfilter
            exact hfilter.1
          subst hhead
          have hrest : ∀ k, xs.filter (fun a => key a = k) = ys.filter fun a => key a = k := by
            intro k
            have hfilter := h k
            by_cases hk : key x = k
            · simpa [hk] using hfilter
            · simpa [hk] using hfilter
          rw [ih hxs' hys' hrest (mem_iff_of_filter_key_eq hrest)]

namespace Ordered

variable {given ordered other : List α}

/-- Each item is there as often as it was given. -/
theorem perm (h : Ordered key given ordered) : ordered.Perm given := by
  classical
  refine List.perm_iff_count.2 fun a => ?_
  have hordered : (ordered.filter fun b => key b = key a).count a = ordered.count a :=
    List.count_filter (by simp)
  have hgiven : (given.filter fun b => key b = key a).count a = given.count a :=
    List.count_filter (by simp)
  rw [← hordered, h.stable, hgiven]

theorem unique (h : Ordered key given ordered) (h' : Ordered key given other) : ordered = other :=
  eq_of_filter_key_eq h.ascending h'.ascending fun k => (h.stable k).trans (h'.stable k).symm

/-- Items that are left out leave the others in order. -/
theorem filter (h : Ordered key given ordered) (p : α → Bool) :
    Ordered key (given.filter p) (ordered.filter p) where
  ascending := h.ascending.filter p
  stable k := by
    have hstable := congrArg (List.filter p) (h.stable k)
    simpa only [List.filter_filter, Bool.and_comm] using hstable

end Ordered

/-- Sorting leaves items with one key as they were given. -/
theorem ordered_mergeSort (key : α → β) (given : List α) :
    Ordered key given (given.mergeSort fun a b => key a ≤ key b) := by
  have htrans : ∀ a b c : α, decide (key a ≤ key b) = true → decide (key b ≤ key c) = true →
      decide (key a ≤ key c) = true := by
    simpa using fun a b c => le_trans
  have htotal : ∀ a b : α, (decide (key a ≤ key b) || decide (key b ≤ key a)) = true := by
    simpa using fun a b => le_total (key a) (key b)
  refine ⟨by simpa using List.pairwise_mergeSort htrans htotal given, fun k => ?_⟩
  -- Items with one key are in order, so sorting has them as a sublist, of which none can be missing.
  have hequal : (given.filter fun a => key a = k).Pairwise fun a b => decide (key a ≤ key b) = true := by
    apply List.pairwise_of_forall_mem_list
    intro a ha b hb
    have hka : key a = k := by simpa using (List.mem_filter.1 ha).2
    have hkb : key b = k := by simpa using (List.mem_filter.1 hb).2
    simp [hka, hkb]
  have hsub : (given.filter fun a => key a = k).Sublist
      (given.mergeSort fun a b => key a ≤ key b) :=
    List.sublist_mergeSort htrans htotal hequal List.filter_sublist
  have hkept : (given.filter fun a => key a = k).Sublist
      ((given.mergeSort fun a b => key a ≤ key b).filter fun a => key a = k) := by
    simpa [List.filter_filter] using hsub.filter fun a => decide (key a = k)
  have hlength := ((List.mergeSort_perm given fun a b => decide (key a ≤ key b)).filter
    fun a => decide (key a = k)).length_eq
  exact (hkept.eq_of_length hlength.symm).symm

end PromptWeave
