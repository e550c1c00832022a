import Mathlib.Data.String.Basic
import PromptWeave.Proofs.Text.Bytes
import PromptWeave.Proofs.Text.Slices
import PromptWeave.Text.Pieces

/-!
# Occurrences of a text in another

A text may be looked for among the characters of another or among its bytes. The bytes of a text occur
only where a character begins, so both find the same place, one of them as a number of characters and
the other as a number of bytes. Main statements: `position?_eq_some_iff`, `occursFirst_encode_iff`.
-/
namespace PromptWeave.Text

open String (utf8EncodeChar utf8Len utf8Len_append utf8Len_cons utf8Len_nil utf8Len_toList)

/-- Whether the first occurrence of a list in another begins at a place. -/
def OccursFirst {α : Type} (needle items : List α) (place : Nat) : Prop :=
  needle <+: items.drop place ∧ ∀ earlier < place, ¬needle <+: items.drop earlier

theorem OccursFirst.unique {α : Type} {needle items : List α} {a b : Nat}
    (ha : OccursFirst needle items a) (hb : OccursFirst needle items b) : a = b := by
  by_contra hne
  rcases Nat.lt_or_gt_of_ne hne with hlt | hgt
  · exact hb.2 a hlt ha.1
  · exact ha.2 b hgt hb.1

theorem occursFirst_nil {α : Type} {items : List α} {place : Nat} :
    OccursFirst [] items place ↔ place = 0 := by
  constructor
  · intro h
    by_contra hne
    exact h.2 0 (Nat.pos_of_ne_zero hne) List.nil_prefix
  · rintro rfl
    exact ⟨List.nil_prefix, fun _ hlt => absurd hlt (Nat.not_lt_zero _)⟩

/-! ### Among characters -/

theorem positionFrom?_eq_some_iff {needle cs : List Char} {start place : Nat} :
    positionFrom? needle cs start = some place ↔
      ∃ k, place = start + k ∧ k ≤ cs.length ∧ OccursFirst needle cs k := by
  induction cs generalizing start with
  | nil =>
      cases needle with
      | nil => simp [positionFrom?, occursFirst_nil, eq_comm]
      | cons d ds => simp [positionFrom?, OccursFirst]
  | cons c cs ih =>
      rw [positionFrom?]
      by_cases hfront : needle.isPrefixOf (c :: cs) = true
      · have hzero : OccursFirst needle (c :: cs) 0 :=
          ⟨List.isPrefixOf_iff_prefix.1 hfront, fun _ hlt => absurd hlt (Nat.not_lt_zero _)⟩
        rw [if_pos hfront]
        constructor
        · intro h
          exact ⟨0, (Option.some.inj h).symm, Nat.zero_le _, hzero⟩
        · rintro ⟨k, rfl, -, hk⟩
          rw [hk.unique hzero, Nat.add_zero]
      · have hnot : ¬needle <+: c :: cs := by rwa [← List.isPrefixOf_iff_prefix]
        -- The first occurrence is not at the front, so it is one further than in the rest.
        have hrest (k : Nat) : OccursFirst needle (c :: cs) (k + 1) ↔ OccursFirst needle cs k := by
          constructor
          · rintro ⟨hhere, hfirst⟩
            exact ⟨hhere, fun j hj => hfirst (j + 1) (Nat.succ_lt_succ hj)⟩
          · rintro ⟨hhere, hfirst⟩
            refine ⟨hhere, fun j hj => ?_⟩
            cases j with
            | zero => exact hnot
            | succ j => exact hfirst j (Nat.lt_of_succ_lt_succ hj)
        rw [if_neg hfront, ih]
        constructor
        · rintro ⟨k, rfl, hle, hk⟩
          exact ⟨k + 1, by omega, Nat.succ_le_succ hle, (hrest k).2 hk⟩
        · rintro ⟨k, rfl, hle, hk⟩
          cases k with
          | zero => exact absurd hk.1 hnot
          | succ k => exact ⟨k, by omega, Nat.le_of_succ_le_succ hle, (hrest k).1 hk⟩

/-- The first occurrence lies within the items. -/
theorem OccursFirst.le_length {α : Type} {needle items : List α} {place : Nat}
    (h : OccursFirst needle items place) : place ≤ items.length := by
  by_contra hlong
  refine h.2 items.length (Nat.lt_of_not_le hlong) ?_
  obtain ⟨hhere, -⟩ := h
  rwa [List.drop_eq_nil_of_le (Nat.le_of_not_le hlong), ← List.drop_length (l := items)] at hhere

/-- A search gives the place of the first occurrence, if there is one. -/
theorem position?_eq_some_iff {needle text : String} {place : Nat} :
    position? needle text = some place ↔ OccursFirst needle.toList text.toList place := by
  rw [position?, positionFrom?_eq_some_iff]
  constructor
  · rintro ⟨k, rfl, -, hk⟩
    rwa [Nat.zero_add]
  · intro h
    exact ⟨place, (Nat.zero_add _).symm, h.le_length, h⟩

/-- A text begins with another exactly if that one is found at the front. -/
theorem beginsWith_iff_position? {front text : String} :
    beginsWith front text = true ↔ position? front text = some 0 := by
  rw [beginsWith, List.isPrefixOf_iff_prefix, position?_eq_some_iff]
  exact ⟨fun h => ⟨h, fun _ hlt => absurd hlt (Nat.not_lt_zero _)⟩, fun h => h.1⟩

/-! ### Among bytes -/

/-- A text has no more characters than bytes. -/
theorem length_le_utf8ByteSize (text : String) : text.length ≤ text.utf8ByteSize := by
  rw [← String.length_toList, ← utf8Len_toList]
  induction text.toList with
  | nil => exact Nat.le_refl 0
  | cons c cs ih =>
      have hpos := c.utf8Size_pos
      rw [List.length_cons, utf8Len_cons]
      omega

theorem length_flatMap_encode (cs : List Char) : (cs.flatMap utf8EncodeChar).length = utf8Len cs := by
  induction cs with
  | nil => rfl
  | cons c cs ih =>
      rw [List.flatMap_cons, List.length_append, ih, String.length_utf8EncodeChar, utf8Len_cons,
        Nat.add_comm]

/-- The bytes of two characters that begin alike are those of one character. -/
theorem utf8EncodeChar_append_inj {c d : Char} {front rest : List UInt8}
    (h : utf8EncodeChar d ++ front = utf8EncodeChar c ++ rest) : d = c := by
  obtain ⟨lead, tail, hd, hread⟩ := charAt_utf8EncodeChar d front
  obtain ⟨lead', tail', hc, hread'⟩ := charAt_utf8EncodeChar c rest
  rw [hd, hc, List.cons_append, List.cons_append] at h
  obtain ⟨rfl, htail⟩ := List.cons.inj h
  rw [htail, hread'] at hread
  exact (Option.some.inj (Prod.mk.inj hread).1).symm

/-- Where the bytes of characters stand at the front, the characters do. -/
theorem isPrefix_of_flatMap_encode {ds cs : List Char}
    (h : ds.flatMap utf8EncodeChar <+: cs.flatMap utf8EncodeChar) : ds <+: cs := by
  induction ds generalizing cs with
  | nil => exact List.nil_prefix
  | cons d ds ih =>
      cases cs with
      | nil => simp [List.flatMap_cons] at h
      | cons c cs =>
          obtain ⟨rest, hrest⟩ := h
          rw [List.flatMap_cons, List.flatMap_cons, List.append_assoc] at hrest
          obtain rfl := utf8EncodeChar_append_inj hrest
          exact (List.prefix_cons_inj d).2 (ih ⟨rest, List.append_cancel_left hrest⟩)

/-- The bytes of characters occur in those of others only where a character begins. -/
theorem exists_of_encode_isPrefix_drop {ds cs : List Char} {b : Nat} (hds : ds ≠ [])
    (h : ds.flatMap utf8EncodeChar <+: (cs.flatMap utf8EncodeChar).drop b) :
    ∃ k, b = utf8Len (cs.take k) ∧ ds <+: cs.drop k := by
  induction cs generalizing b with
  | nil =>
      rw [List.flatMap_nil, List.drop_nil, List.prefix_nil, List.flatMap_eq_nil_iff] at h
      obtain ⟨d, hd⟩ := List.exists_mem_of_ne_nil ds hds
      exact absurd (h d hd) String.utf8EncodeChar_ne_nil
  | cons c cs ih =>
      rw [List.flatMap_cons] at h
      by_cases hinside : b < (utf8EncodeChar c).length
      · -- The first of the bytes leads a character, and of those of `c` only the first does.
        have hzero : b = 0 := by
          obtain ⟨d, ds, rfl⟩ := List.exists_cons_of_ne_nil hds
          have hpos : 0 < (utf8EncodeChar d).length :=
            List.length_pos_of_ne_nil String.utf8EncodeChar_ne_nil
          have hlead : (utf8EncodeChar d)[0] = (utf8EncodeChar c)[b] := by
            obtain ⟨rest, hrest⟩ := h
            have hfront := congrArg (·[0]?) hrest
            simp only [List.flatMap_cons, List.append_assoc, List.getElem?_drop, Nat.add_zero,
              List.getElem?_append_left hpos, List.getElem?_append_left hinside,
              List.getElem?_eq_getElem hpos, List.getElem?_eq_getElem hinside] at hfront
            exact Option.some.inj hfront
          have hfirst : (utf8EncodeChar d)[0].IsUTF8FirstByte :=
            UInt8.isUTF8FirstByte_getElem_utf8EncodeChar.2 rfl
          rw [hlead] at hfirst
          exact UInt8.isUTF8FirstByte_getElem_utf8EncodeChar.1 hfirst
        subst hzero
        exact ⟨0, rfl, isPrefix_of_flatMap_encode (by simpa using h)⟩
      · have hbeyond := Nat.le_of_not_lt hinside
        rw [List.drop_append, List.drop_eq_nil_of_le hbeyond, List.nil_append] at h
        obtain ⟨k, hk, hoccurs⟩ := ih h
        refine ⟨k + 1, ?_, hoccurs⟩
        rw [String.length_utf8EncodeChar] at hk hbeyond
        rw [List.take_succ_cons, utf8Len_cons, ← hk]
        omega

/-- Where characters occur, their bytes do, behind the bytes of the characters before. -/
theorem encode_isPrefix_drop {ds cs : List Char} {k : Nat} (h : ds <+: cs.drop k) :
    ds.flatMap utf8EncodeChar <+: (cs.flatMap utf8EncodeChar).drop (utf8Len (cs.take k)) := by
  obtain ⟨rest, hrest⟩ := h
  have hbytes : cs.flatMap utf8EncodeChar =
      (cs.take k).flatMap utf8EncodeChar ++ (cs.drop k).flatMap utf8EncodeChar := by
    rw [← List.flatMap_append, List.take_append_drop]
  rw [hbytes, ← length_flatMap_encode, List.drop_left, ← hrest, List.flatMap_append]
  exact List.prefix_append _ _

theorem utf8Len_take_lt {cs : List Char} {j k : Nat} (hjk : j < k) (hk : k ≤ cs.length) :
    utf8Len (cs.take j) < utf8Len (cs.take k) := by
  have hsplit : cs.take k = cs.take j ++ (cs.drop j).take (k - j) := by
    rw [← List.take_add, Nat.add_sub_cancel' hjk.le]
  have hmore : 0 < utf8Len ((cs.drop j).take (k - j)) := by
    rw [List.drop_eq_getElem_cons (by omega : j < cs.length)]
    obtain ⟨more, hmore⟩ : ∃ more, k - j = more + 1 := ⟨k - j - 1, by omega⟩
    have hpos := cs[j].utf8Size_pos
    rw [hmore, List.take_succ_cons, utf8Len_cons]
    omega
  rw [hsplit, utf8Len_append]
  omega

/-- The first occurrence among the bytes is the first among the characters: as many bytes stand before
it as the characters before it have. -/
theorem occursFirst_encode_iff {needle text : String} {b : Nat} :
    OccursFirst (encode needle) (encode text) b ↔
      ∃ k, OccursFirst needle.toList text.toList k ∧ b = utf8Len (text.toList.take k) := by
  rw [encode_eq, encode_eq]
  generalize needle.toList = ds
  generalize text.toList = cs
  rcases eq_or_ne ds [] with rfl | hds
  · simp [occursFirst_nil]
  constructor
  · rintro ⟨hhere, hfirst⟩
    obtain ⟨k, rfl, hk⟩ := exists_of_encode_isPrefix_drop hds hhere
    have hwithin : k < cs.length := by
      by_contra hlong
      rw [List.drop_eq_nil_of_le (Nat.le_of_not_lt hlong), List.prefix_nil] at hk
      exact hds hk
    refine ⟨k, ⟨hk, fun j hj hoccurs => ?_⟩, rfl⟩
    exact hfirst _ (utf8Len_take_lt hj hwithin.le) (encode_isPrefix_drop hoccurs)
  · rintro ⟨k, hk, rfl⟩
    refine ⟨encode_isPrefix_drop hk.1, fun earlier hearlier hoccurs => ?_⟩
    obtain ⟨j, rfl, hj⟩ := exists_of_encode_isPrefix_drop hds hoccurs
    by_cases hjk : j < k
    · exact hk.2 j hjk hj
    · have hle := String.utf8Len_le_of_prefix
        (List.take_prefix_take_left (l := cs) (Nat.le_of_not_lt hjk))
      omega

/-- The bytes before a place of a text are a part of it, the characters before that place. -/
theorem slice?_take (text : String) (k : Nat) :
    slice? text 0 (utf8Len (text.toList.take k)) = some (String.ofList (text.toList.take k)) := by
  have hsize : utf8Len (text.toList.take k) = (String.ofList (text.toList.take k)).utf8ByteSize := by
    rw [← utf8Len_toList, String.toList_ofList]
  have htext : text = "" ++ String.ofList (text.toList.take k) ++ String.ofList (text.toList.drop k) := by
    rw [← String.toList_inj]
    simp
  have hslice := slice?_append "" (String.ofList (text.toList.take k))
    (String.ofList (text.toList.drop k))
  rw [← htext] at hslice
  simpa [hsize] using hslice

end PromptWeave.Text
