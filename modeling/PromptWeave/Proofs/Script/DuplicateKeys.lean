import PromptWeave.Proofs.Script.Literals
import PromptWeave.Proofs.Script.NumberKeys
import PromptWeave.Script.Functions

/-!
# Keys of values

Two values have one key if they are equal, unless an integer in one of them stands where the other has a
double of `9e15` or more. In the key of a list it can be told where the keys of the items end.
-/
namespace PromptWeave.Script

open PromptWeave.Decimal

/-- Whether nothing in a value fails to be a number that is a double. -/
inductive NaNFree : Value → Prop where
  | absent : NaNFree .absent
  | bool (b : Bool) : NaNFree (.bool b)
  | int (n : Int64) : NaNFree (.int n)
  | float {x : Double} : x.value.isNaN = false → NaNFree (.float x)
  | str (s : String) : NaNFree (.str s)
  | library (l : Library) : NaNFree (.library l)
  | list {items : List Value} : (∀ v ∈ items, NaNFree v) → NaNFree (.list items)

namespace Value

mutual

/-- Whether an integer in one value stands where the other has a double of `9e15` or more. -/
def straddles : Value → Value → Bool
  | int _, float x => !(x.value.abs < 9.0e15)
  | float x, int _ => !(x.value.abs < 9.0e15)
  | list as, list bs => anyStraddles as bs
  | _, _ => false

/-- The same of any items of two lists. -/
def anyStraddles : List Value → List Value → Bool
  | a :: as, b :: bs => a.straddles b || anyStraddles as bs
  | _, _ => false

end

/-- The keys of further items of a list, each with a comma and a space in front. -/
def furtherKeys : List Value → List Char
  | [] => []
  | v :: rest => ',' :: ' ' :: (v.dedupKey.toList ++ furtherKeys rest)

theorem toList_writeKeys (items : List Value) (written : String) :
    (writeKeys items false written).toList = written.toList ++ furtherKeys items := by
  induction items generalizing written with
  | nil => simp [writeKeys, furtherKeys]
  | cons v rest ih => simp [writeKeys, ih, furtherKeys]

theorem toList_dedupKey_nil : (list []).dedupKey.toList = ['[', ']'] := by
  simp [dedupKey, writeKeys]

theorem toList_dedupKey_cons (v : Value) (rest : List Value) : (list (v :: rest)).dedupKey.toList =
    '[' :: (v.dedupKey.toList ++ furtherKeys rest ++ [']']) := by
  simp [dedupKey, writeKeys, toList_writeKeys]

/-- The key of a list begins with a bracket. -/
theorem exists_toList_dedupKey_list (items : List Value) :
    ∃ rest, (list items).dedupKey.toList = '[' :: rest := by
  cases items with
  | nil => exact ⟨_, toList_dedupKey_nil⟩
  | cons v rest => exact ⟨_, toList_dedupKey_cons v rest⟩

theorem toList_dedupKey_str (s : String) :
    (str s).dedupKey.toList = '\'' :: (s.toList.flatMap escaped ++ ['\'']) := by
  rw [← toList_quoted]
  simp [dedupKey, repr]

/-! ### Equal values -/

mutual

/-- Equal values have one key, unless they straddle the bound. -/
theorem dedupKey_of_beq : (a b : Value) → a.beq b = true → a.straddles b = false →
    a.dedupKey = b.dedupKey
  | .list as, b, hbeq, hstraddles => by
      cases b with
      | list bs =>
          cases as with
          | nil =>
              cases bs with
              | nil => rfl
              | cons b bs => cases hbeq
          | cons a as =>
              cases bs with
              | nil => cases hbeq
              | cons b bs =>
                  obtain ⟨hfirst, hrest⟩ := Bool.and_eq_true_iff.1 hbeq
                  obtain ⟨hfirst', hrest'⟩ := Bool.or_eq_false_iff.1 hstraddles
                  rw [← String.toList_inj, toList_dedupKey_cons, toList_dedupKey_cons,
                    dedupKey_of_beq a b hfirst hfirst', furtherKeys_of_beqList as bs hrest hrest']
      | _ => cases hbeq
  | .int m, b, hbeq, hstraddles => by
      cases b with
      | int n => exact (dedupKey_int_int m n).2 (by simpa [beq] using hbeq)
      | float x => exact (dedupKey_int_float m x).2 ⟨hbeq, by simpa [straddles] using hstraddles⟩
      | _ => cases hbeq
  | .float x, b, hbeq, hstraddles => by
      cases b with
      | int n =>
          exact ((dedupKey_int_float n x).2 ⟨beq_symm hbeq, by simpa [straddles] using hstraddles⟩).symm
      | float y => exact (dedupKey_float_float (isNaN_eq_false_iff.2 (beq_iff_read.1 hbeq).1)).2 hbeq
      | _ => cases hbeq
  | .absent, b, hbeq, _ => by
      cases b with
      | absent => rfl
      | _ => cases hbeq
  | .bool x, b, hbeq, _ => by
      cases b with
      | bool y => rw [eq_of_beq (show (x == y) = true from hbeq)]
      | _ => cases hbeq
  | .str s, b, hbeq, _ => by
      cases b with
      | str t => rw [eq_of_beq (show (s == t) = true from hbeq)]
      | _ => cases hbeq
  | .library l, b, hbeq, _ => by
      cases b with
      | library k => rw [eq_of_beq (show (l == k) = true from hbeq)]
      | _ => cases hbeq

theorem furtherKeys_of_beqList : (as bs : List Value) → beqList as bs = true → anyStraddles as bs = false →
    furtherKeys as = furtherKeys bs
  | [], bs, hbeq, _ => by
      cases bs with
      | nil => rfl
      | cons b bs => cases hbeq
  | a :: as, bs, hbeq, hstraddles => by
      cases bs with
      | nil => cases hbeq
      | cons b bs =>
          obtain ⟨hfirst, hrest⟩ := Bool.and_eq_true_iff.1 hbeq
          obtain ⟨hfirst', hrest'⟩ := Bool.or_eq_false_iff.1 hstraddles
          rw [furtherKeys, furtherKeys, dedupKey_of_beq a b hfirst hfirst',
            furtherKeys_of_beqList as bs hrest hrest']

end

/-! ### Keys that stand alone -/

/-- Whether a character stands in the key of a number. -/
def InNumber (c : Char) : Prop := c.isDigit = true ∨ c ∈ ['-', '.', 'N', 'a', 'i', 'n', 'f']

/-- Whether characters begin like the key of no text and no list, and have no mark of a list in them. -/
def StandsAlone (cs : List Char) : Prop :=
  (∃ c rest, cs = c :: rest ∧ c ≠ '[' ∧ c ≠ '\'') ∧ ∀ c ∈ cs, c ≠ ',' ∧ c ≠ ']'

theorem inNumber_of_mem_integerChars {z : Int} {c : Char} (h : c ∈ integerChars z) : InNumber c := by
  rcases List.mem_append.1 h with hsign | hdigit
  · split at hsign
    · exact .inr (by simp_all)
    · cases hsign
  · exact .inl (isDigit_of_mem_toDigits hdigit)

theorem inNumber_of_mem_display {x : Float} {c : Char} (h : c ∈ (display x).toList) : InNumber c := by
  obtain ⟨s, cs, hcs, hwritten⟩ := exists_writtenAs x
  rw [hcs] at h
  rcases List.mem_append.1 h with hsign | hc
  · split at hsign
    · exact .inr (by simp_all)
    · cases hsign
  · generalize read x = r at hwritten
    cases hwritten with
    | notANumber => exact .inr (by simp at hc; rcases hc with rfl | rfl | rfl <;> simp)
    | infinite => exact .inr (by simp at hc; rcases hc with rfl | rfl | rfl <;> simp)
    | finite _ hwrites _ =>
        obtain ⟨whole, places, rfl, -, hdigits, -⟩ := hwrites
        rcases List.mem_append.1 hc with hc | hc
        · exact .inl (hdigits c (List.mem_append_left _ hc))
        · rcases List.mem_cons.1 hc with rfl | hc
          · exact .inr (by simp)
          · exact .inl (hdigits c (List.mem_append_right _ hc))

/-- The key of a number. -/
theorem dedupKey_of_isNumber {v : Value} (h : v.isNumber = true) :
    v.dedupKey.toList ≠ [] ∧ ∀ c ∈ v.dedupKey.toList, InNumber c := by
  have hinteger (z : Int) : integerChars z ≠ [] ∧ ∀ c ∈ integerChars z, InNumber c :=
    ⟨List.append_ne_nil_of_right_ne_nil _ Nat.toDigits_ne_nil, fun c => inNumber_of_mem_integerChars⟩
  cases v with
  | int n =>
      rw [toList_dedupKey_int]
      exact hinteger _
  | float x =>
      by_cases hshares : ∃ z, SharesKey x.value z
      · obtain ⟨z, hz⟩ := hshares
        rw [toList_dedupKey_of_sharesKey hz]
        exact hinteger z
      · rw [dedupKey_of_not_sharesKey hshares]
        obtain ⟨s, cs, hcs, hwritten⟩ := exists_writtenAs x.value
        refine ⟨?_, fun c => inNumber_of_mem_display⟩
        rw [hcs]
        exact List.append_ne_nil_of_right_ne_nil _ hwritten.ne_nil
  | _ => cases h

theorem standsAlone_of_isNumber {v : Value} (h : v.isNumber = true) : StandsAlone v.dedupKey.toList := by
  obtain ⟨hne, hchars⟩ := dedupKey_of_isNumber h
  have hother {c : Char} (hc : InNumber c) : c ≠ '[' ∧ c ≠ '\'' ∧ c ≠ ',' ∧ c ≠ ']' := by
    refine ⟨?_, ?_, ?_, ?_⟩ <;> rintro rfl <;> revert hc <;> simp [InNumber]
  cases hkey : v.dedupKey.toList with
  | nil => exact absurd hkey hne
  | cons c rest =>
      rw [hkey] at hchars
      obtain ⟨hbracket, hquote, -⟩ := hother (hchars c List.mem_cons_self)
      exact ⟨⟨c, rest, rfl, hbracket, hquote⟩, fun d hd => (hother (hchars d hd)).2.2⟩

/-! ### Keys of words -/

/-- Whether the key of a value is a word. -/
inductive IsWord : Value → Prop where
  | absent : IsWord .absent
  | bool (b : Bool) : IsWord (.bool b)
  | library (l : Library) : IsWord (.library l)

theorem dedupKey_absent : absent.dedupKey = "None" := by simp [dedupKey, repr]

theorem dedupKey_bool (b : Bool) : (bool b).dedupKey = if b then "True" else "False" := by
  cases b <;> simp [dedupKey, repr]

theorem dedupKey_library (l : Library) : (library l).dedupKey = "<module '" ++ l.name ++ "'>" := by
  simp [dedupKey, repr]

theorem name_injective : Function.Injective Library.name := by
  rintro (_ | _ | _) (_ | _ | _) h <;> first | rfl | simp [Library.name] at h

/-- Different words have different keys. -/
theorem IsWord.eq_of_dedupKey {a b : Value} (ha : IsWord a) (hb : IsWord b) (h : a.dedupKey = b.dedupKey) :
    a = b := by
  rw [← String.toList_inj] at h
  cases ha with
  | absent =>
      cases hb with
      | absent => rfl
      | bool y => cases y <;> simp [dedupKey_absent, dedupKey_bool] at h
      | library k => simp [dedupKey_absent, dedupKey_library] at h
  | bool x =>
      cases hb with
      | absent => cases x <;> simp [dedupKey_absent, dedupKey_bool] at h
      | bool y => cases x <;> cases y <;> first | rfl | simp [dedupKey_bool] at h
      | library k => cases x <;> simp [dedupKey_bool, dedupKey_library] at h
  | library l =>
      cases hb with
      | absent => simp [dedupKey_absent, dedupKey_library] at h
      | bool y => cases y <;> simp [dedupKey_bool, dedupKey_library] at h
      | library k =>
          have hname : l.name = k.name := by simpa [dedupKey_library, String.toList_inj] using h
          rw [name_injective hname]

theorem IsWord.standsAlone {v : Value} (h : IsWord v) : StandsAlone v.dedupKey.toList := by
  cases h with
  | absent => simp [StandsAlone, dedupKey_absent]
  | bool b => cases b <;> simp [StandsAlone, dedupKey_bool]
  | library l => cases l <;> simp [StandsAlone, dedupKey_library, Library.name]

/-- The key of a word has a character that no number has. -/
theorem IsWord.exists_not_inNumber {v : Value} (h : IsWord v) : ∃ c ∈ v.dedupKey.toList, ¬InNumber c := by
  cases h with
  | absent => exact ⟨'o', by simp [dedupKey_absent], by simp [InNumber]⟩
  | bool b =>
      cases b
      · exact ⟨'F', by simp [dedupKey_bool], by simp [InNumber]⟩
      · exact ⟨'T', by simp [dedupKey_bool], by simp [InNumber]⟩
  | library l => exact ⟨'<', by simp [dedupKey_library], by simp [InNumber]⟩

theorem IsWord.dedupKey_ne {a b : Value} (ha : IsWord a) (hb : b.isNumber = true) : a.dedupKey ≠ b.dedupKey := by
  obtain ⟨c, hc, hother⟩ := ha.exists_not_inNumber
  intro h
  exact hother ((dedupKey_of_isNumber hb).2 c (h ▸ hc))

/-! ### Atoms -/

/-- Whether a value is a number or a word. -/
def IsAtom (v : Value) : Prop := v.isNumber = true ∨ IsWord v

theorem IsAtom.standsAlone {v : Value} (h : v.IsAtom) : StandsAlone v.dedupKey.toList :=
  h.elim standsAlone_of_isNumber IsWord.standsAlone

/-- Numbers with one key are equal and do not straddle the bound. -/
theorem beq_of_dedupKey_number {a b : Value} (ha : a.isNumber = true) (hb : b.isNumber = true)
    (hfree : NaNFree a) (h : a.dedupKey = b.dedupKey) : a.beq b = true ∧ a.straddles b = false := by
  cases a with
  | int m =>
      cases b with
      | int n => exact ⟨by simpa [beq] using (dedupKey_int_int m n).1 h, rfl⟩
      | float x =>
          obtain ⟨hbeq, habs⟩ := (dedupKey_int_float m x).1 h
          exact ⟨hbeq, by simpa [straddles] using habs⟩
      | _ => cases hb
  | float x =>
      cases b with
      | int n =>
          obtain ⟨hbeq, habs⟩ := (dedupKey_int_float n x).1 h.symm
          exact ⟨beq_symm hbeq, by simpa [straddles] using habs⟩
      | float y =>
          cases hfree with
          | float hx => exact ⟨(dedupKey_float_float hx).1 h, rfl⟩
      | _ => cases hb
  | _ => cases ha

/-- Atoms with one key are equal and do not straddle the bound. -/
theorem beq_of_dedupKey_atom {a b : Value} (ha : a.IsAtom) (hb : b.IsAtom) (hfree : NaNFree a)
    (h : a.dedupKey = b.dedupKey) : a.beq b = true ∧ a.straddles b = false := by
  rcases ha with ha | ha <;> rcases hb with hb | hb
  · exact beq_of_dedupKey_number ha hb hfree h
  · exact absurd h.symm (hb.dedupKey_ne ha)
  · exact absurd h (ha.dedupKey_ne hb)
  · obtain rfl := ha.eq_of_dedupKey hb h
    cases ha with
    | absent => exact ⟨rfl, rfl⟩
    | bool x => exact ⟨by simp [beq], rfl⟩
    | library l => exact ⟨by simp [beq], rfl⟩

/-! ### Keys inside keys -/

theorem escaped_append_inj {c d : Char} {cs ds : List Char} (h : escaped c ++ cs = escaped d ++ ds) :
    c = d ∧ cs = ds := by
  by_cases hc : c == '\\' || c == '\'' <;> by_cases hd : d == '\\' || d == '\'' <;>
    simp only [escaped, hc, hd, if_true, if_false, Bool.false_eq_true, List.cons_append, List.nil_append,
      List.cons.injEq, true_and] at h
  · exact h
  · exact absurd (by simp [← h.1]) hd
  · exact absurd (by simp [h.1]) hc
  · exact h

/-- A quote that is not escaped ends a text. -/
theorem flatMap_escaped_inj {cs ds r r' : List Char}
    (h : cs.flatMap escaped ++ '\'' :: r = ds.flatMap escaped ++ '\'' :: r') : cs = ds ∧ r = r' := by
  have hquote (c : Char) (rest : List Char) : escaped c ++ rest ≠ '\'' :: r ∧ escaped c ++ rest ≠ '\'' :: r' := by
    by_cases hc : c == '\\' || c == '\'' <;> simp_all [escaped]
  induction cs generalizing ds with
  | nil =>
      cases ds with
      | nil => simpa using h
      | cons d ds => exact absurd (by simpa using h.symm) (hquote d _).1
  | cons c cs ih =>
      cases ds with
      | nil => exact absurd (by simpa using h) (hquote c _).2
      | cons d ds =>
          rw [List.flatMap_cons, List.flatMap_cons, List.append_assoc, List.append_assoc] at h
          obtain ⟨rfl, hrest⟩ := escaped_append_inj h
          obtain ⟨rfl, hclose⟩ := ih hrest
          exact ⟨rfl, hclose⟩

/-- Whether characters can stand behind the key of an item: none, a comma, or the end of the list. -/
def Closes (r : List Char) : Prop := ∀ c ∈ r.head?, c = ',' ∨ c = ']'

theorem closes_furtherKeys (items : List Value) (r : List Char) : Closes (furtherKeys items ++ ']' :: r) := by
  cases items with
  | nil => simp [Closes, furtherKeys]
  | cons v rest => simp [Closes, furtherKeys]

/-- Characters without a mark of a list end where such a mark begins. -/
theorem append_closes_inj {cs ds r r' : List Char} (hcs : ∀ c ∈ cs, c ≠ ',' ∧ c ≠ ']')
    (hds : ∀ c ∈ ds, c ≠ ',' ∧ c ≠ ']') (hr : Closes r) (hr' : Closes r') (h : cs ++ r = ds ++ r') :
    cs = ds ∧ r = r' := by
  induction cs generalizing ds with
  | nil =>
      cases ds with
      | nil => exact ⟨rfl, h⟩
      | cons d ds =>
          obtain ⟨hcomma, hbracket⟩ := hds d List.mem_cons_self
          rw [List.nil_append] at h
          exact absurd (hr d (by simp [h])) (by simp [hcomma, hbracket])
  | cons c cs ih =>
      cases ds with
      | nil =>
          obtain ⟨hcomma, hbracket⟩ := hcs c List.mem_cons_self
          rw [List.nil_append] at h
          exact absurd (hr' c (by simp [← h])) (by simp [hcomma, hbracket])
      | cons d ds =>
          obtain ⟨rfl, hrest⟩ := List.cons.inj h
          obtain ⟨rfl, hclose⟩ := ih (fun b hb => hcs b (List.mem_cons_of_mem _ hb))
            (fun b hb => hds b (List.mem_cons_of_mem _ hb)) hrest
          exact ⟨rfl, hclose⟩

theorem isAtom_or (v : Value) : v.IsAtom ∨ (∃ s, v = str s) ∨ ∃ items, v = list items := by
  cases v with
  | absent => exact .inl (.inr .absent)
  | bool b => exact .inl (.inr (.bool b))
  | int n => exact .inl (.inl rfl)
  | float x => exact .inl (.inl rfl)
  | str s => exact .inr (.inl ⟨s, rfl⟩)
  | list items => exact .inr (.inr ⟨items, rfl⟩)
  | library l => exact .inl (.inr (.library l))

/-- No key begins like the end of a list. -/
theorem exists_toList_dedupKey (v : Value) : ∃ c rest, v.dedupKey.toList = c :: rest ∧ c ≠ ']' := by
  obtain hatom | ⟨s, rfl⟩ | ⟨items, rfl⟩ := v.isAtom_or
  · obtain ⟨⟨c, rest, hkey, -⟩, hother⟩ := hatom.standsAlone
    exact ⟨c, rest, hkey, (hother c (hkey ▸ List.mem_cons_self)).2⟩
  · exact ⟨_, _, toList_dedupKey_str s, by decide⟩
  · obtain ⟨rest, hkey⟩ := exists_toList_dedupKey_list items
    exact ⟨_, rest, hkey, by decide⟩

/-- Whether a value can be told from its key in any list. -/
def KnownByKey (a : Value) : Prop :=
  ∀ (b : Value) (r r' : List Char), Closes r → Closes r' → a.dedupKey.toList ++ r = b.dedupKey.toList ++ r' →
    (a.beq b = true ∧ a.straddles b = false) ∧ r = r'

theorem knownByKey_of_isAtom {a : Value} (ha : a.IsAtom) (hfree : NaNFree a) : KnownByKey a := by
  intro b r r' hr hr' h
  obtain ⟨⟨c, rest, hkey, hbracket, hquote⟩, hother⟩ := ha.standsAlone
  obtain hatom | ⟨t, rfl⟩ | ⟨items, rfl⟩ := b.isAtom_or
  · obtain ⟨hkeys, hclose⟩ := append_closes_inj hother hatom.standsAlone.2 hr hr' h
    exact ⟨beq_of_dedupKey_atom ha hatom hfree (String.toList_inj.1 hkeys), hclose⟩
  · rw [hkey, toList_dedupKey_str] at h
    exact absurd (List.cons.inj h).1 hquote
  · obtain ⟨rest', hkey'⟩ := exists_toList_dedupKey_list items
    rw [hkey, hkey'] at h
    exact absurd (List.cons.inj h).1 hbracket

theorem knownByKey_str (s : String) : KnownByKey (str s) := by
  intro b r r' hr hr' h
  rw [toList_dedupKey_str] at h
  obtain hatom | ⟨t, rfl⟩ | ⟨items, rfl⟩ := b.isAtom_or
  · obtain ⟨⟨c, rest, hkey, -, hquote⟩, -⟩ := hatom.standsAlone
    rw [hkey] at h
    exact absurd (List.cons.inj h).1.symm hquote
  · rw [toList_dedupKey_str] at h
    have hrest : s.toList.flatMap escaped ++ '\'' :: r = t.toList.flatMap escaped ++ '\'' :: r' := by
      simpa using h
    obtain ⟨hs, hclose⟩ := flatMap_escaped_inj hrest
    obtain rfl := String.toList_inj.1 hs
    exact ⟨⟨by simp [beq], rfl⟩, hclose⟩
  · obtain ⟨rest, hkey⟩ := exists_toList_dedupKey_list items
    rw [hkey] at h
    cases h

/-- The items of a list can be told from what stands between the first key and the end of the list. -/
theorem furtherKeys_inj {as bs : List Value} {r r' : List Char} (has : ∀ a ∈ as, KnownByKey a)
    (h : furtherKeys as ++ ']' :: r = furtherKeys bs ++ ']' :: r') :
    (beqList as bs = true ∧ anyStraddles as bs = false) ∧ r = r' := by
  induction as generalizing bs with
  | nil =>
      cases bs with
      | nil => exact ⟨⟨rfl, rfl⟩, by simpa [furtherKeys] using h⟩
      | cons b bs => cases h
  | cons a as ih =>
      cases bs with
      | nil => cases h
      | cons b bs =>
          have hkeys : a.dedupKey.toList ++ (furtherKeys as ++ ']' :: r) =
              b.dedupKey.toList ++ (furtherKeys bs ++ ']' :: r') := by simpa [furtherKeys] using h
          obtain ⟨⟨hfirst, hfirst'⟩, hmore⟩ := has a List.mem_cons_self b _ _
            (closes_furtherKeys as r) (closes_furtherKeys bs r') hkeys
          obtain ⟨⟨hrest, hrest'⟩, hclose⟩ := ih (fun v hv => has v (List.mem_cons_of_mem a hv)) hmore
          exact ⟨⟨by rw [beqList, hfirst, hrest]; rfl, by rw [anyStraddles, hfirst', hrest']; rfl⟩, hclose⟩

theorem knownByKey_list {as : List Value} (has : ∀ a ∈ as, KnownByKey a) : KnownByKey (list as) := by
  intro b r r' hr hr' h
  obtain ⟨rest, hlist⟩ := exists_toList_dedupKey_list as
  obtain hatom | ⟨t, rfl⟩ | ⟨bs, rfl⟩ := b.isAtom_or
  · obtain ⟨⟨c, rest', hkey, hbracket, -⟩, -⟩ := hatom.standsAlone
    rw [hlist, hkey] at h
    exact absurd (List.cons.inj h).1.symm hbracket
  · rw [hlist, toList_dedupKey_str] at h
    cases h
  · -- The ends of the two first keys are found together; an empty list has its end there.
    have hend (v : Value) (rest tail tail' : List Char) :
        v.dedupKey.toList ++ rest ++ [']'] ++ tail ≠ ']' :: tail' := by
      obtain ⟨c, key, hkey, hne⟩ := v.exists_toList_dedupKey
      simp [hkey, hne]
    cases as with
    | nil =>
        cases bs with
        | nil => exact ⟨⟨rfl, rfl⟩, by simpa [toList_dedupKey_nil] using h⟩
        | cons b bs =>
            rw [toList_dedupKey_nil, toList_dedupKey_cons] at h
            exact absurd (List.cons.inj h).2.symm (hend b _ _ _)
    | cons a as =>
        cases bs with
        | nil =>
            rw [toList_dedupKey_nil, toList_dedupKey_cons] at h
            exact absurd (List.cons.inj h).2 (hend a _ _ _)
        | cons b bs =>
            have hfurther : furtherKeys (a :: as) ++ ']' :: r = furtherKeys (b :: bs) ++ ']' :: r' := by
              simpa [furtherKeys, toList_dedupKey_cons] using h
            exact furtherKeys_inj has hfurther

theorem knownByKey {a : Value} (h : NaNFree a) : KnownByKey a := by
  induction h with
  | absent => exact knownByKey_of_isAtom (.inr .absent) .absent
  | bool b => exact knownByKey_of_isAtom (.inr (.bool b)) (.bool b)
  | int n => exact knownByKey_of_isAtom (.inl rfl) (.int n)
  | float hx => exact knownByKey_of_isAtom (.inl rfl) (.float hx)
  | str s => exact knownByKey_str s
  | library l => exact knownByKey_of_isAtom (.inr (.library l)) (.library l)
  | list _ ih => exact knownByKey_list ih

/-- Two values have one key exactly if they are equal and do not straddle the bound. -/
theorem dedupKey_eq_iff {a b : Value} (h : NaNFree a) :
    a.dedupKey = b.dedupKey ↔ (a == b) = true ∧ a.straddles b = false := by
  constructor
  · intro hkeys
    exact (knownByKey h b [] [] (by simp [Closes]) (by simp [Closes]) (by rw [hkeys])).1
  · rintro ⟨hbeq, hstraddles⟩
    exact dedupKey_of_beq a b hbeq hstraddles

end Value
end PromptWeave.Script
