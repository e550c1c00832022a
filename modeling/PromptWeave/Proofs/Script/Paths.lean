import PromptWeave.Proofs.Outcome
import PromptWeave.Script.Operators

/-!
# Items of nested lists

A path of indexes leads from a list to an item of an item. Writing an item at the end of a path is what
replacing one list after another comes to, from the innermost one outwards. What is written is read back
at the same path, and nothing changes at paths that part from it.
-/
namespace PromptWeave.Script

open PromptWeave (bind_eq_ok)

/-- What a path of indexes leads to. -/
def itemAlong (v : Value) (path : List Value) : Outcome Value := path.foldlM itemAt v

/-- A value with another item at the end of a path of indexes. -/
def withItemAlong (v : Value) (path : List Value) (item : Value) : Outcome Value :=
  match path with
  | [] => .ok item
  | i :: path => do
      let inner ← itemAt v i
      withItem v i (← withItemAlong inner path item)

/-- Whether two paths part: on the way they come to a list and go to different positions of it. -/
inductive Apart : Value → List Value → List Value → Prop where
  | here {items i j p q path other} : position items.length i = .ok p →
      position items.length j = .ok q → p ≠ q → Apart (.list items) (i :: path) (j :: other)
  | inside {items i j p path other} : position items.length i = .ok p →
      position items.length j = .ok p → Apart (items.getD p .absent) path other →
      Apart (.list items) (i :: path) (j :: other)

/-- Whether an index is an integer that names an item of a list, counted from either end. -/
def InRange (size : Nat) (i : Value) : Prop :=
  ∃ n, i = .int n ∧ -(size : Int) ≤ n.toInt ∧ n.toInt < size

/-- Whether every index of a path is in range for a list to which the indexes before it lead. -/
def Reaches (v : Value) (path : List Value) : Prop :=
  ∀ before i, before ++ [i] <+: path →
    ∃ items, itemAlong v before = .ok (.list items) ∧ InRange items.length i

variable {v w u item : Value} {i : Value} {path : List Value}

@[simp] theorem itemAlong_nil : itemAlong v [] = .ok v := rfl

theorem itemAlong_cons : itemAlong v (i :: path) = itemAt v i >>= (itemAlong · path) := rfl

theorem itemAlong_append_singleton :
    itemAlong v (path ++ [i]) = itemAlong v path >>= (itemAt · i) := by
  simp [itemAlong]

theorem withItemAlong_cons_eq_ok : withItemAlong v (i :: path) item = .ok u ↔
    ∃ inner changed, itemAt v i = .ok inner ∧ withItemAlong inner path item = .ok changed ∧
      withItem v i changed = .ok u := by
  simp only [withItemAlong, bind_eq_ok, exists_and_left]

/-! ### One index -/

theorem position_lt {size p : Nat} (h : position size i = .ok p) : p < size := by
  cases i with
  | int n =>
      dsimp only [position] at h
      generalize (if n.toInt < 0 then size + n.toInt else n.toInt : Int) = resolved at h
      split at h
      · cases h
      · cases h
        omega
  | _ => cases h

theorem inRange_iff {size : Nat} : InRange size i ↔ ∃ p, position size i = .ok p := by
  cases i with
  | int n =>
      simp only [InRange, position, Value.int.injEq, exists_eq_left']
      constructor
      · rintro ⟨hlow, hhigh⟩
        exact ⟨_, if_neg (by split <;> omega)⟩
      · rintro ⟨p, hp⟩
        generalize hresolved : (if n.toInt < 0 then size + n.toInt else n.toInt : Int) = resolved at hp
        split at hp
        · cases hp
        · split at hresolved <;> omega
  | _ => simp [InRange, position]

theorem withItem_eq_ok : withItem v i item = .ok u ↔
    ∃ items p, v = .list items ∧ position items.length i = .ok p ∧ u = .list (items.set p item) := by
  cases v with
  | list items =>
      simp only [withItem, bind_eq_ok]
      constructor
      · rintro ⟨p, hp, hset⟩
        cases hset
        exact ⟨items, p, rfl, hp, rfl⟩
      · rintro ⟨_, p, hsame, hp, rfl⟩
        cases hsame
        exact ⟨p, hp, rfl⟩
  | _ => simp [withItem]

theorem itemAt_list {items : List Value} {p : Nat} (h : position items.length i = .ok p) :
    itemAt (.list items) i = .ok (items.getD p .absent) := by
  rw [itemAt, h]
  rfl

theorem itemAt_set_same {items : List Value} {p : Nat} (h : position items.length i = .ok p)
    (item : Value) : itemAt (.list (items.set p item)) i = .ok item := by
  have hlt : p < items.length := position_lt h
  have hset : position (items.set p item).length i = .ok p := by rwa [List.length_set]
  rw [itemAt_list hset, List.getD_eq_getElem?_getD, List.getElem?_set_self hlt, Option.getD_some]

theorem itemAt_set_other {items : List Value} {p q : Nat} (h : position items.length i = .ok q)
    (hne : p ≠ q) (item : Value) : itemAt (.list (items.set p item)) i = itemAt (.list items) i := by
  have hset : position (items.set p item).length i = .ok q := by rwa [List.length_set]
  rw [itemAt_list hset, itemAt_list h, List.getD_eq_getElem?_getD, List.getD_eq_getElem?_getD,
    List.getElem?_set_ne hne]

/-- An item that can be replaced can be read. -/
theorem itemAt_of_withItem (h : withItem v i item = .ok u) : ∃ inner, itemAt v i = .ok inner := by
  obtain ⟨items, p, rfl, hp, -⟩ := withItem_eq_ok.1 h
  exact ⟨_, itemAt_list hp⟩

/-! ### Laws of reading and writing -/

/-- A value is written at the end of a path by changing the last list and writing that list back. -/
theorem withItemAlong_append_singleton_eq_ok : withItemAlong v (path ++ [i]) item = .ok u ↔
    ∃ last changed, itemAlong v path = .ok last ∧ withItem last i item = .ok changed ∧
      withItemAlong v path changed = .ok u := by
  induction path generalizing v u with
  | nil =>
      rw [List.nil_append, withItemAlong_cons_eq_ok]
      constructor
      · rintro ⟨_, _, -, ⟨⟩, hu⟩
        exact ⟨v, u, rfl, hu, rfl⟩
      · rintro ⟨_, _, ⟨⟩, hchanged, ⟨⟩⟩
        obtain ⟨inner, hinner⟩ := itemAt_of_withItem hchanged
        exact ⟨inner, item, hinner, rfl, hchanged⟩
  | cons j path ih =>
      rw [List.cons_append, withItemAlong_cons_eq_ok]
      simp only [itemAlong_cons, bind_eq_ok, withItemAlong_cons_eq_ok]
      constructor
      · rintro ⟨inner, outer, hinner, houter, hu⟩
        obtain ⟨last, changed, hlast, hchanged, houter⟩ := ih.1 houter
        exact ⟨last, changed, ⟨inner, hinner, hlast⟩, hchanged, inner, outer, hinner, houter, hu⟩
      · rintro ⟨last, changed, ⟨inner, hinner, hlast⟩, hchanged, inner', outer, hinner', houter, hu⟩
        obtain rfl : inner = inner' := by simpa [hinner] using hinner'
        exact ⟨inner, outer, hinner, ih.2 ⟨last, changed, hlast, hchanged, houter⟩, hu⟩

/-- What is written at the end of a path is there afterwards. -/
theorem itemAlong_of_withItemAlong (h : withItemAlong v path item = .ok u) :
    itemAlong u path = .ok item := by
  induction path generalizing v u with
  | nil =>
      cases h
      rfl
  | cons i path ih =>
      obtain ⟨inner, changed, -, hchanged, hu⟩ := withItemAlong_cons_eq_ok.1 h
      obtain ⟨items, p, rfl, hp, rfl⟩ := withItem_eq_ok.1 hu
      rw [itemAlong_cons, itemAt_set_same hp]
      exact ih hchanged

/-- Nothing changes at paths that part from the one at which is written. -/
theorem itemAlong_of_apart {other : List Value} (hapart : Apart v path other)
    (h : withItemAlong v path item = .ok u) : itemAlong u other = itemAlong v other := by
  induction hapart generalizing u with
  | @here items i j p q path other hp hq hne =>
      obtain ⟨_, changed, -, -, hu⟩ := withItemAlong_cons_eq_ok.1 h
      obtain ⟨_, _, ⟨⟩, hp', rfl⟩ := withItem_eq_ok.1 hu
      cases hp.symm.trans hp'
      rw [itemAlong_cons, itemAlong_cons, itemAt_set_other hq hne]
  | @inside items i j p path other hp hq hapart ih =>
      obtain ⟨inner, changed, hinner, hchanged, hu⟩ := withItemAlong_cons_eq_ok.1 h
      obtain ⟨_, _, ⟨⟩, hp', rfl⟩ := withItem_eq_ok.1 hu
      cases hp.symm.trans hp'
      cases (itemAt_list hp).symm.trans hinner
      rw [itemAlong_cons, itemAlong_cons, itemAt_set_same hq, itemAt_list hq]
      exact ih hchanged

/-! ### Paths that lead somewhere -/

theorem reaches_nil : Reaches v [] := by
  intro before i hbefore
  simp at hbefore

theorem reaches_cons : Reaches v (i :: path) ↔ ∃ items p, v = .list items ∧
    position items.length i = .ok p ∧ Reaches (items.getD p .absent) path := by
  constructor
  · intro h
    obtain ⟨items, ⟨⟩, hrange⟩ := h [] i (List.prefix_append [i] path)
    obtain ⟨p, hp⟩ := inRange_iff.1 hrange
    refine ⟨items, p, rfl, hp, fun before j hbefore => ?_⟩
    obtain ⟨inner, hinner, hj⟩ := h (i :: before) j (List.cons_prefix_cons.2 ⟨rfl, hbefore⟩)
    rw [itemAlong_cons, itemAt_list hp] at hinner
    exact ⟨inner, hinner, hj⟩
  · rintro ⟨items, p, rfl, hp, hrest⟩ before j hbefore
    cases before with
    | nil =>
        obtain ⟨rfl, -⟩ := List.cons_prefix_cons.1 hbefore
        exact ⟨items, rfl, inRange_iff.2 ⟨p, hp⟩⟩
    | cons k before =>
        obtain ⟨rfl, hinside⟩ := List.cons_prefix_cons.1 hbefore
        obtain ⟨inner, hinner, hj⟩ := hrest before j hinside
        rw [itemAlong_cons, itemAt_list hp]
        exact ⟨inner, hinner, hj⟩

theorem Reaches.isList (h : Reaches v path) (hpath : path ≠ []) : ∃ items, v = .list items := by
  cases path with
  | nil => exact (hpath rfl).elim
  | cons i path =>
      obtain ⟨items, _, hv, -, -⟩ := reaches_cons.1 h
      exact ⟨items, hv⟩

/-- An item can be written at the end of a path exactly if the path leads from list to list. -/
theorem withItemAlong_isOk_iff :
    (∃ u, withItemAlong v path item = .ok u) ↔ Reaches v path := by
  induction path generalizing v with
  | nil => exact ⟨fun _ => reaches_nil, fun _ => ⟨item, rfl⟩⟩
  | cons i path ih =>
      simp only [withItemAlong_cons_eq_ok, reaches_cons, ← ih]
      constructor
      · rintro ⟨u, inner, changed, hinner, hchanged, hu⟩
        obtain ⟨items, p, rfl, hp, rfl⟩ := withItem_eq_ok.1 hu
        cases (itemAt_list hp).symm.trans hinner
        exact ⟨items, p, rfl, hp, changed, hchanged⟩
      · rintro ⟨items, p, rfl, hp, changed, hchanged⟩
        exact ⟨_, _, changed, itemAt_list hp, hchanged, withItem_eq_ok.2 ⟨items, p, rfl, hp, rfl⟩⟩

/-- A list on the way to the item that is written keeps its length. -/
theorem length_of_withItemAlong {before : List Value} {items : List Value}
    (h : withItemAlong v (before ++ i :: path) item = .ok u)
    (hitems : itemAlong v before = .ok (.list items)) :
    ∃ after, itemAlong u before = .ok (.list after) ∧ after.length = items.length := by
  induction before generalizing v u with
  | nil =>
      cases hitems
      obtain ⟨_, changed, -, -, hu⟩ := withItemAlong_cons_eq_ok.1 h
      obtain ⟨_, p, ⟨⟩, -, rfl⟩ := withItem_eq_ok.1 hu
      exact ⟨_, rfl, List.length_set⟩
  | cons j before ih =>
      obtain ⟨inner, changed, hinner, hchanged, hu⟩ := withItemAlong_cons_eq_ok.1 h
      obtain ⟨_, p, rfl, hp, rfl⟩ := withItem_eq_ok.1 hu
      rw [itemAlong_cons, hinner] at hitems
      rw [itemAlong_cons, itemAt_set_same hp]
      exact ih hchanged hitems

end PromptWeave.Script
