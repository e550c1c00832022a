import Mathlib.Data.String.Basic
import PromptWeave.Script.Evaluation

/-!
# Values within the limits

A value is within the limits if no text in it, no list in it and no list's room is too large, at any
level. The operations that check what they make, and those that only take values apart, lead from
such values to such values. The others are named by the form of their call.
-/
namespace PromptWeave.Script

/-! ### The room of lists -/

namespace Value

theorem addSizes_eq (items : List Value) (total : Nat) :
    addSizes items total = total + listSizeBytes items := by
  induction items generalizing total with
  | nil => simp [listSizeBytes, addSizes]
  | cons v rest ih =>
      simp only [listSizeBytes, addSizes] at ih ⊢
      rw [ih, ih (0 + v.sizeBytes)]
      omega

@[simp] theorem listSizeBytes_nil : listSizeBytes [] = 0 := by simp [listSizeBytes, addSizes]

@[simp] theorem listSizeBytes_cons (v : Value) (rest : List Value) :
    listSizeBytes (v :: rest) = v.sizeBytes + listSizeBytes rest := by
  rw [listSizeBytes, addSizes, addSizes_eq, Nat.zero_add]

@[simp] theorem listSizeBytes_append (items more : List Value) :
    listSizeBytes (items ++ more) = listSizeBytes items + listSizeBytes more := by
  induction items with
  | nil => simp
  | cons v rest ih => simp [ih, Nat.add_assoc]

@[simp] theorem sizeBytes_list (items : List Value) :
    (Value.list items).sizeBytes = 32 + listSizeBytes items := by
  rw [sizeBytes, listSizeBytes]

theorem listSizeBytes_perm {items others : List Value} (h : items.Perm others) :
    listSizeBytes items = listSizeBytes others := by
  induction h with
  | nil => rfl
  | cons v _ ih => simp [ih]
  | swap v w rest => simp only [listSizeBytes_cons]; omega
  | trans _ _ ih ih' => exact ih.trans ih'

theorem listSizeBytes_sublist {items others : List Value} (h : items.Sublist others) :
    listSizeBytes items ≤ listSizeBytes others := by
  induction h with
  | slnil => exact Nat.le_refl _
  | cons v _ ih => rw [listSizeBytes_cons]; omega
  | cons_cons v _ ih => rw [listSizeBytes_cons, listSizeBytes_cons]; omega

/-- Numbers, truth values and the absent value take the same room. -/
theorem listSizeBytes_of_sizeBytes {items : List Value} (size : Nat)
    (h : ∀ v ∈ items, v.sizeBytes = size) : listSizeBytes items = items.length * size := by
  induction items with
  | nil => simp
  | cons v rest ih =>
      rw [listSizeBytes_cons, h v List.mem_cons_self,
        ih fun w hw => h w (List.mem_cons_of_mem _ hw), List.length_cons, Nat.succ_mul]
      omega

/-! ### Values within the limits -/

/-- Whether a value is within the limits at every level: no text has more bytes than a text may have,
no list has more items, and the items of no list take more room. -/
inductive Within : Value → Prop where
  | absent : Within .absent
  | bool (b : Bool) : Within (.bool b)
  | int (n : Int64) : Within (.int n)
  | float (x : Decimal.Double) : Within (.float x)
  | library (l : Library) : Within (.library l)
  | str {s : String} : s.utf8ByteSize ≤ maxTextBytes → Within (.str s)
  | list {items : List Value} : items.length ≤ maxItems → listSizeBytes items ≤ maxListBytes →
      (∀ v ∈ items, Within v) → Within (.list items)

theorem within_str_iff {s : String} : (Value.str s).Within ↔ s.utf8ByteSize ≤ maxTextBytes := by
  constructor
  · intro h
    cases h with
    | str hsize => exact hsize
  · exact .str

theorem within_list_iff {items : List Value} :
    (Value.list items).Within ↔
      items.length ≤ maxItems ∧ listSizeBytes items ≤ maxListBytes ∧ ∀ v ∈ items, v.Within := by
  constructor
  · intro h
    cases h with
    | list hlength hsize hitems => exact ⟨hlength, hsize, hitems⟩
  · rintro ⟨hlength, hsize, hitems⟩
    exact .list hlength hsize hitems

theorem Within.of_sublist {items others : List Value} (h : (Value.list others).Within)
    (hsub : items.Sublist others) : (Value.list items).Within := by
  obtain ⟨hlength, hsize, hitems⟩ := within_list_iff.1 h
  refine .list ?_ ?_ fun v hv => hitems v (hsub.subset hv)
  · exact Nat.le_trans hsub.length_le hlength
  · exact Nat.le_trans (listSizeBytes_sublist hsub) hsize

theorem Within.of_perm {items others : List Value} (h : (Value.list others).Within)
    (hperm : items.Perm others) : (Value.list items).Within := by
  obtain ⟨hlength, hsize, hitems⟩ := within_list_iff.1 h
  refine .list ?_ ?_ fun v hv => hitems v (hperm.subset hv)
  · rw [hperm.length_eq]
    exact hlength
  · rw [listSizeBytes_perm hperm]
    exact hsize

/-- Characters of a text make no longer text. -/
theorem Within.of_characters {s : String} {cs : List Char} (h : (Value.str s).Within)
    (hsub : cs.Sublist s.toList) : (Value.str (String.ofList cs)).Within := by
  refine .str (Nat.le_trans ?_ (within_str_iff.1 h))
  rw [String.utf8ByteSize_ofList, ← String.utf8Len_toList]
  exact String.utf8Len_le_of_sublist hsub

theorem within_char (c : Char) : (Value.str c.toString).Within := by
  refine .str ?_
  rw [Char.toString, String.utf8ByteSize_singleton]
  exact Nat.le_trans c.utf8Size_le_four (by decide)

/-- The items that a value is run over are within the limits, if the value is; their number may not
be. -/
theorem Within.of_itemsOf {v : Value} {items : List Value} (h : v.Within)
    (hitems : itemsOf? v = some items) : ∀ item ∈ items, item.Within := by
  cases v with
  | list others =>
      cases hitems
      exact (within_list_iff.1 h).2.2
  | str s =>
      cases hitems
      intro item hitem
      obtain ⟨c, _, rfl⟩ := List.mem_map.1 hitem
      exact within_char c
  | _ => cases hitems

end Value
end PromptWeave.Script
