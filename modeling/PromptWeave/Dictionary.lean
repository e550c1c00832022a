/-!
# Dictionaries in key order

A dictionary binds names to values, each name once, and lists its bindings in the order of the
names. The order is part of the type, so two dictionaries that answer every lookup alike are
equal, and whatever is listed from one is listed in the order of the names.
-/
namespace PromptWeave

/-- Bindings of names to values, strictly ascending by name. -/
structure Dictionary (α : Type) where
  toList : List (String × α)
  ascending : toList.Pairwise fun a b => a.1 < b.1 := by simp

namespace Dictionary

variable {α β : Type}

/-- Binds a name in an ordered list of bindings, in place of an earlier binding of it. -/
def insertBinding (key : String) (value : α) : List (String × α) → List (String × α)
  | [] => [(key, value)]
  | (k, v) :: rest =>
      if key < k then (key, value) :: (k, v) :: rest
      else if key = k then (key, value) :: rest
      else (k, v) :: insertBinding key value rest

theorem mem_insertBinding {key : String} {value : α} {bindings : List (String × α)}
    {b : String × α} (h : b ∈ insertBinding key value bindings) :
    b = (key, value) ∨ b ∈ bindings := by
  induction bindings with
  | nil => simpa [insertBinding] using h
  | cons head rest ih =>
      obtain ⟨k, v⟩ := head
      simp only [insertBinding] at h
      split at h
      · simpa using h
      · split at h
        · rcases List.mem_cons.1 h with h | h
          · exact Or.inl h
          · exact Or.inr (List.mem_cons_of_mem _ h)
        · rcases List.mem_cons.1 h with h | h
          · exact Or.inr (h ▸ List.mem_cons_self)
          · exact (ih h).imp id (List.mem_cons_of_mem _)

theorem ascending_insertBinding (key : String) (value : α) {bindings : List (String × α)}
    (h : bindings.Pairwise fun a b => a.1 < b.1) :
    (insertBinding key value bindings).Pairwise fun a b => a.1 < b.1 := by
  induction bindings with
  | nil => simp [insertBinding]
  | cons head rest ih =>
      obtain ⟨k, v⟩ := head
      rw [List.pairwise_cons] at h
      simp only [insertBinding]
      split
      · rename_i hlt
        refine List.pairwise_cons.2 ⟨?_, List.pairwise_cons.2 h⟩
        intro b hb
        rcases List.mem_cons.1 hb with rfl | hb
        · exact hlt
        · exact String.lt_trans hlt (h.1 b hb)
      · split
        · rename_i heq
          exact List.pairwise_cons.2 ⟨fun b hb => heq ▸ h.1 b hb, h.2⟩
        · rename_i hnlt hne
          refine List.pairwise_cons.2 ⟨?_, ih h.2⟩
          intro b hb
          rcases mem_insertBinding hb with rfl | hb
          · rcases Decidable.em (k < key) with hk | hk
            · exact hk
            · exact absurd (String.le_antisymm (String.not_lt.1 hk) (String.not_lt.1 hnlt)) hne
          · exact h.1 b hb

/-- The dictionary without bindings. -/
def empty : Dictionary α where
  toList := []

/-- Binds a name, in place of an earlier binding of it. -/
def insert (d : Dictionary α) (key : String) (value : α) : Dictionary α where
  toList := insertBinding key value d.toList
  ascending := ascending_insertBinding key value d.ascending

/-- Removes the binding of a name, if there is one. -/
def erase (d : Dictionary α) (key : String) : Dictionary α where
  toList := d.toList.filter fun b => b.1 != key
  ascending := d.ascending.filter _

/-- The value bound to a name. -/
def get? (d : Dictionary α) (key : String) : Option α :=
  (d.toList.find? fun b => b.1 == key).map Prod.snd

/-- Whether a name is bound. -/
def contains (d : Dictionary α) (key : String) : Bool := (d.get? key).isSome

/-- The bound names in ascending order. -/
def keys (d : Dictionary α) : List String := d.toList.map Prod.fst

/-- The number of bindings. -/
def size (d : Dictionary α) : Nat := d.toList.length

/-- Whether nothing is bound. -/
def isEmpty (d : Dictionary α) : Bool := d.toList.isEmpty

/-- Binds the pairs of a list one after the other, so that of two pairs with one name the later
one stays. -/
def ofList (bindings : List (String × α)) : Dictionary α :=
  bindings.foldl (fun d b => d.insert b.1 b.2) empty

/-- Keeps the bindings for which `f` gives a value, bound to that value. -/
def filterMap (d : Dictionary α) (f : String → α → Option β) : Dictionary β where
  toList := d.toList.filterMap fun b => (f b.1 b.2).map (b.1, ·)
  ascending := by
    refine List.pairwise_filterMap.2 (d.ascending.imp ?_)
    rintro ⟨k, v⟩ ⟨k', v'⟩ hlt x hx y hy
    obtain ⟨_, _, rfl⟩ := Option.map_eq_some_iff.1 hx
    obtain ⟨_, _, rfl⟩ := Option.map_eq_some_iff.1 hy
    exact hlt

instance : Inhabited (Dictionary α) := ⟨empty⟩

instance [BEq α] : BEq (Dictionary α) := ⟨fun a b => a.toList == b.toList⟩

@[ext] theorem ext {a b : Dictionary α} (h : a.toList = b.toList) : a = b := by
  cases a; cases b; cases h; rfl

@[simp] theorem get?_empty (key : String) : (empty : Dictionary α).get? key = none := rfl

theorem find?_insertBinding (key : String) (value : α) (name : String)
    (bindings : List (String × α)) :
    (insertBinding key value bindings).find? (fun b => b.1 == name) =
      if key = name then some (key, value) else bindings.find? fun b => b.1 == name := by
  induction bindings with
  | nil => by_cases h : key = name <;> simp [insertBinding, h]
  | cons head rest ih =>
      obtain ⟨k, v⟩ := head
      simp only [insertBinding]
      split
      · by_cases h : key = name <;> simp [h]
      · split
        · rename_i hk
          subst hk
          by_cases h : key = name <;> simp [h]
        · rename_i hk
          rw [List.find?_cons, ih, List.find?_cons]
          by_cases h : key = name
          · subst h
            have hne : (k == key) = false := beq_eq_false_iff_ne.2 fun e => hk e.symm
            simp [hne]
          · simp [h]

/-- A lookup after an insertion sees the new binding and no other change. -/
theorem get?_insert (d : Dictionary α) (key : String) (value : α) (name : String) :
    (d.insert key value).get? name = if key = name then some value else d.get? name := by
  simp only [get?, insert, find?_insertBinding]
  by_cases h : key = name <;> simp [h]

/-- A lookup after a removal misses the removed name only. -/
theorem get?_erase (d : Dictionary α) (key name : String) :
    (d.erase key).get? name = if key = name then none else d.get? name := by
  simp only [get?, erase, List.find?_filter]
  by_cases h : key = name
  · subst h
    simp
  · have same : (fun b : String × α => decide ((b.1 != key) = true ∧ (b.1 == name) = true)) =
        fun b => b.1 == name := by
      funext b
      by_cases hb : b.1 = name
      · simp [hb, Ne.symm h]
      · simp [hb]
    simp only [same, if_neg h]

theorem find?_filterMap {bindings : List (String × α)}
    (h : bindings.Pairwise fun a b => a.1 < b.1) (f : String → α → Option β) (name : String) :
    ((bindings.filterMap fun b => (f b.1 b.2).map (b.1, ·)).find? fun b => b.1 == name) =
      (bindings.find? fun b => b.1 == name).bind fun b => (f b.1 b.2).map (b.1, ·) := by
  induction bindings with
  | nil => rfl
  | cons head rest ih =>
      obtain ⟨k, v⟩ := head
      rw [List.pairwise_cons] at h
      have hrest := ih h.2
      by_cases hk : k = name
      · subst hk
        -- A name that is bound first is bound nowhere else.
        have hnone : (rest.find? fun b => b.1 == k) = none := by
          rw [List.find?_eq_none]
          intro b hb hkey
          have hlt := h.1 b hb
          rw [beq_iff_eq.1 hkey] at hlt
          exact String.lt_irrefl k hlt
        rw [hnone] at hrest
        cases hf : f k v with
        | none => simpa [hf] using hrest
        | some w => simp [hf]
      · have hne : (k == name) = false := beq_eq_false_iff_ne.2 hk
        cases hf : f k v with
        | none => simpa [hf, hne] using hrest
        | some w => simpa [hf, hne] using hrest

/-- A lookup among the bindings that are kept sees the value that is given for the bound one. -/
theorem get?_filterMap (d : Dictionary α) (f : String → α → Option β) (name : String) :
    (d.filterMap f).get? name = (d.get? name).bind (f name) := by
  simp only [get?, filterMap, find?_filterMap d.ascending]
  cases hfind : d.toList.find? fun b => b.1 == name with
  | none => rfl
  | some b =>
      have hname : b.1 = name := by simpa using List.find?_some hfind
      simp [hname, Function.comp_def]

theorem find?_of_mem {bindings : List (String × α)}
    (h : bindings.Pairwise fun a b => a.1 < b.1) {b : String × α} (hb : b ∈ bindings) :
    (bindings.find? fun other => other.1 == b.1) = some b := by
  induction bindings with
  | nil => exact absurd hb List.not_mem_nil
  | cons head rest ih =>
      obtain ⟨hhead, hrest⟩ := List.pairwise_cons.1 h
      rcases List.mem_cons.1 hb with rfl | hmem
      · simp
      · have hne : (head.1 == b.1) = false :=
          beq_eq_false_iff_ne.2 fun he => String.lt_irrefl b.1 (he ▸ hhead b hmem)
        rw [List.find?_cons, hne]
        exact ih hrest hmem

/-- What is listed is found by its name. -/
theorem get?_of_mem {d : Dictionary α} {key : String} {value : α} (h : (key, value) ∈ d.toList) :
    d.get? key = some value := by
  rw [get?, find?_of_mem d.ascending h]
  rfl

theorem mem_toList_iff {d : Dictionary α} {key : String} {value : α} :
    (key, value) ∈ d.toList ↔ d.get? key = some value := by
  refine ⟨get?_of_mem, fun h => ?_⟩
  obtain ⟨b, hfind, rfl⟩ := Option.map_eq_some_iff.1 h
  have hkey : b.1 = key := by simpa using List.find?_some hfind
  exact hkey ▸ List.mem_of_find?_eq_some hfind

/-- A name is listed exactly if it is bound. -/
theorem mem_keys_iff {d : Dictionary α} {key : String} : key ∈ d.keys ↔ (d.get? key).isSome := by
  rw [keys, List.mem_map, Option.isSome_iff_exists]
  constructor
  · rintro ⟨⟨_, value⟩, hmem, rfl⟩
    exact ⟨value, get?_of_mem hmem⟩
  · rintro ⟨value, hget⟩
    exact ⟨(key, value), mem_toList_iff.2 hget, rfl⟩

theorem nodup_keys (d : Dictionary α) : d.keys.Nodup :=
  List.pairwise_map.2 (d.ascending.imp fun hlt => String.ne_of_lt hlt)

theorem get?_foldl_insert (d : Dictionary α) (bindings : List (String × α)) (key : String) :
    (bindings.foldl (fun d b => d.insert b.1 b.2) d).get? key =
      (((bindings.filter (·.1 == key)).getLast?).map Prod.snd).or (d.get? key) := by
  induction bindings generalizing d with
  | nil => rfl
  | cons b rest ih =>
      rw [List.foldl_cons, ih, get?_insert, List.filter_cons]
      by_cases hkey : b.1 = key
      · cases hlast : (rest.filter (·.1 == key)).getLast? <;>
          simp [hkey, hlast, List.getLast?_cons]
      · simp [hkey]

/-- Of pairs with one name the last one stays. -/
theorem get?_ofList (bindings : List (String × α)) (key : String) :
    (ofList bindings).get? key = ((bindings.filter (·.1 == key)).getLast?).map Prod.snd := by
  rw [ofList, get?_foldl_insert, get?_empty, Option.or_none]

/-- A name behind all others is bound last. -/
theorem insertBinding_of_forall_lt {key : String} (value : α) {bindings : List (String × α)}
    (h : ∀ b ∈ bindings, b.1 < key) :
    insertBinding key value bindings = bindings ++ [(key, value)] := by
  induction bindings with
  | nil => rfl
  | cons head rest ih =>
      obtain ⟨k, v⟩ := head
      have hk : k < key := h (k, v) List.mem_cons_self
      have hnlt : ¬key < k := fun hlt => String.lt_irrefl k (String.lt_trans hk hlt)
      have hne : key ≠ k := fun he => String.lt_irrefl k (he ▸ hk)
      rw [insertBinding, if_neg hnlt, if_neg hne, ih fun b hb => h b (List.mem_cons_of_mem _ hb)]
      rfl

theorem toList_foldl_insert (d : Dictionary α) {bindings : List (String × α)}
    (h : (d.toList ++ bindings).Pairwise fun a b => a.1 < b.1) :
    (bindings.foldl (fun d b => d.insert b.1 b.2) d).toList = d.toList ++ bindings := by
  induction bindings generalizing d with
  | nil => simp
  | cons b rest ih =>
      have hlast : ∀ a ∈ d.toList, a.1 < b.1 := fun a ha =>
        (List.pairwise_append.1 h).2.2 a ha b List.mem_cons_self
      have hinsert : (d.insert b.1 b.2).toList = d.toList ++ [b] :=
        insertBinding_of_forall_lt b.2 hlast
      have hrest := ih (d.insert b.1 b.2)
      rw [hinsert, List.append_assoc] at hrest
      exact hrest h

/-- Binding the bindings of a dictionary one after the other makes the dictionary. -/
theorem ofList_toList (d : Dictionary α) : ofList d.toList = d :=
  ext (toList_foldl_insert empty d.ascending)

end Dictionary
end PromptWeave
