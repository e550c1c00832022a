import PromptWeave.Proofs.Script.Within

/-!
# Operations that stay within the limits

An operation stays within the limits if it leads from values within them to such values. It does so
because it checks what it makes, because it takes its arguments apart, or because all that it makes
is small.
-/
namespace PromptWeave.Script

open PromptWeave.Script.Value

/-! ### Outcomes -/

/-- Whether all that an outcome may give has a property. -/
def Gives {α : Type} (P : α → Prop) (x : Outcome α) : Prop := ∀ a, x = .ok a → P a

theorem gives_ok {α : Type} {P : α → Prop} {a : α} (h : P a) : Gives P (.ok a) := by
  intro b hb
  cases hb
  exact h

theorem gives_error {α : Type} {P : α → Prop} (cause : Fault) : Gives P (.error cause) := by
  intro b hb
  cases hb

theorem gives_any {α : Type} (x : Outcome α) : Gives (fun _ => True) x := fun _ _ => trivial

theorem Gives.imp {α : Type} {P Q : α → Prop} {x : Outcome α} (hx : Gives P x)
    (h : ∀ a, P a → Q a) : Gives Q x := fun a ha => h a (hx a ha)

theorem Gives.bind {α β : Type} {P : α → Prop} {Q : β → Prop} {x : Outcome α} {f : α → Outcome β}
    (hx : Gives P x) (hf : ∀ a, P a → Gives Q (f a)) : Gives Q (x >>= f) := by
  cases x with
  | ok a => exact hf a (hx a rfl)
  | error cause => exact gives_error cause

theorem Gives.map {α β : Type} {P : α → Prop} {Q : β → Prop} {x : Outcome α} {f : α → β}
    (hx : Gives P x) (hf : ∀ a, P a → Q (f a)) : Gives Q (f <$> x) := by
  cases x with
  | ok a => exact gives_ok (hf a (hx a rfl))
  | error cause => exact gives_error cause

theorem gives_checkItems (count : Nat) : Gives (fun _ => count ≤ maxItems) (checkItems count) := by
  unfold checkItems
  split
  · exact gives_error _
  · exact gives_ok (by omega)

theorem gives_checkBytes (bytes : Nat) : Gives (fun _ => bytes ≤ maxListBytes) (checkBytes bytes) := by
  unfold checkBytes
  split
  · exact gives_error _
  · exact gives_ok (by omega)

theorem gives_boundedText (s : String) : Gives Within (boundedText s) := by
  unfold boundedText
  split
  · exact gives_error _
  · exact gives_ok (.str (by omega))

theorem gives_exactInt (n : Int) : Gives Within (exactInt n) := by
  unfold exactInt
  split
  · exact gives_ok (.int _)
  · exact gives_error _

theorem gives_integerOf (mode : Decimal.Rounding) (x : Float) : Gives Within (integerOf mode x) := by
  unfold integerOf
  split
  · split
    · exact gives_ok (.int _)
    · exact gives_error _
  · exact gives_error _

/-! ### Operators -/

theorem gives_negate (v : Value) : Gives Within (negate v) := by
  unfold negate
  split
  · exact gives_exactInt _
  · exact gives_ok (.float _)
  · exact gives_error _

theorem within_getD {items : List Value} (h : ∀ v ∈ items, v.Within) (i : Nat) :
    (items.getD i .absent).Within := by
  rw [List.getD_eq_getElem?_getD]
  cases hi : items[i]? with
  | none => exact .absent
  | some v => exact h v (List.mem_of_getElem? hi)

theorem gives_itemAt {target : Value} (index : Value) (h : target.Within) :
    Gives Within (itemAt target index) := by
  unfold itemAt
  split
  · exact (gives_any _).bind fun _ _ => gives_ok (within_getD (within_list_iff.1 h).2.2 _)
  · exact (gives_any _).bind fun _ _ => gives_ok (within_char _)
  · exact gives_error _

theorem gives_between {α : Type} (items : List α) (start stop : Option Value) :
    Gives (·.Sublist items) (between items start stop) := by
  unfold between
  refine (gives_any _).bind fun a _ => (gives_any _).bind fun b _ => gives_ok ?_
  exact (List.take_sublist _ _).trans (List.drop_sublist _ _)

theorem gives_slice {target : Value} (start stop : Option Value) (h : target.Within) :
    Gives Within (slice target start stop) := by
  unfold slice
  split
  · exact (gives_between _ start stop).map fun _ hsub => h.of_sublist hsub
  · exact (gives_between _ start stop).map fun _ hsub => h.of_characters hsub
  · exact gives_error _

theorem gives_iterate {v : Value} (h : v.Within) :
    Gives (fun items => ∀ item ∈ items, item.Within) (iterate v) := by
  unfold iterate
  split
  · rename_i items hitems
    exact gives_ok (h.of_itemsOf hitems)
  · exact gives_error _

theorem gives_add {left right : Value} (hleft : left.Within) (hright : right.Within) :
    Gives Within (add left right) := by
  unfold add
  split
  · exact gives_exactInt _
  · dsimp only
    split
    · exact gives_error _
    · exact gives_ok (.str (by omega))
  · refine (gives_checkItems _).bind fun _ hcount => (gives_checkBytes _).bind fun _ hbytes => ?_
    refine gives_ok (.list ?_ ?_ fun v hv => ?_)
    · rw [List.length_append]
      exact hcount
    · rw [listSizeBytes_append]
      exact hbytes
    · rcases List.mem_append.1 hv with hv | hv
      · exact (within_list_iff.1 hleft).2.2 v hv
      · exact (within_list_iff.1 hright).2.2 v hv
  · exact (gives_any _).bind fun _ _ => gives_ok (.float _)

theorem gives_subtract {left : Value} (right : Value) (hleft : left.Within) :
    Gives Within (subtract left right) := by
  unfold subtract
  split
  · exact gives_exactInt _
  · exact gives_ok (hleft.of_sublist List.filter_sublist)
  · exact (gives_any _).bind fun _ _ => gives_ok (.float _)

/-- What is counted item by item is multiplied by repetition. -/
theorem count_copies {α : Type} (count : List α → Nat) (hcount : ∀ a b, count (a ++ b) = count a + count b)
    (items : List α) (times : Nat) (behind : List α) :
    count (copies items times behind) = count items * times + count behind := by
  induction times generalizing behind with
  | zero => simp [copies]
  | succ times ih =>
      rw [copies, ih, hcount, Nat.mul_succ]
      omega

theorem mem_copies {α : Type} {items : List α} {times : Nat} {behind : List α} {a : α}
    (h : a ∈ copies items times behind) : a ∈ items ∨ a ∈ behind := by
  induction times generalizing behind with
  | zero => exact Or.inr h
  | succ times ih =>
      rcases ih h with hitems | hmore
      · exact Or.inl hitems
      · exact List.mem_append.1 hmore

theorem gives_repeatText (s : String) (count : Nat) : Gives Within (repeatText s count) := by
  unfold repeatText
  split
  · exact gives_error _
  · split
    · exact gives_ok (.str (by decide))
    · refine gives_ok (.str ?_)
      rw [String.utf8ByteSize_ofList,
        count_copies String.utf8Len String.utf8Len_append, String.utf8Len_toList, String.utf8Len_nil]
      omega

theorem gives_repeatList {items : List Value} (count : Nat) (h : (Value.list items).Within) :
    Gives Within (repeatList items count) := by
  unfold repeatList
  refine (gives_checkItems _).bind fun _ hcount => (gives_checkBytes _).bind fun _ hbytes => ?_
  have hlength : items.length * count ≤ maxItems := by
    have hmax : maxItems < words64 - 1 := by decide
    omega
  refine gives_ok (.list ?_ ?_ fun v hv => ?_)
  · rw [count_copies List.length fun _ _ => List.length_append]
    exact hlength
  · rw [count_copies listSizeBytes listSizeBytes_append, listSizeBytes_nil]
    exact hbytes
  · rcases mem_copies hv with hv | hv
    · exact (within_list_iff.1 h).2.2 v hv
    · exact absurd hv List.not_mem_nil

theorem gives_multiply {left right : Value} (hleft : left.Within) (hright : right.Within) :
    Gives Within (multiply left right) := by
  unfold multiply
  split
  · exact gives_exactInt _
  · exact gives_repeatText _ _
  · exact gives_repeatText _ _
  · exact gives_repeatList _ hleft
  · exact gives_repeatList _ hright
  · exact (gives_any _).bind fun _ _ => gives_ok (.float _)

theorem gives_divide (left right : Value) : Gives Within (divide left right) := by
  unfold divide
  refine (gives_any _).bind fun _ _ => ?_
  dsimp only
  split
  · exact gives_error _
  · exact gives_ok (.float _)

theorem gives_modulo (left right : Value) : Gives Within (modulo left right) := by
  unfold modulo
  split
  · split
    · exact gives_error _
    · exact gives_exactInt _
  · refine (gives_any _).bind fun _ _ => ?_
    dsimp only
    split
    · exact gives_error _
    · exact gives_ok (.float _)

/-- Every operator checks what it makes. -/
theorem gives_operator (op : BinaryOp) {left right : Value} (hleft : left.Within)
    (hright : right.Within) : Gives Within (op.apply left right) := by
  cases op with
  | add => exact gives_add hleft hright
  | sub => exact gives_subtract right hleft
  | mul => exact gives_multiply hleft hright
  | div => exact gives_divide left right
  | mod => exact gives_modulo left right
  | equal => exact gives_ok (.bool _)
  | notEqual => exact gives_ok (.bool _)
  | _ => exact (gives_any _).map fun _ _ => .bool _

end PromptWeave.Script
