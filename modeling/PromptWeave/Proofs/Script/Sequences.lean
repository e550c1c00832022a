import Mathlib.Data.List.Basic
import PromptWeave.Proofs.Script.Operands
import PromptWeave.Proofs.Script.Paths

/-!
# Indexes and slices of sequences

Lists and texts are read by the same positions, a text by its characters. A bound cuts a sequence at one
place, wherever the bound lies, and both sides of a cut make up the sequence; an index within the
sequence names the item between two cuts.
-/
namespace PromptWeave.Script

open PromptWeave.Script.Action

/-- The place at which an integer cuts a sequence: counted from the end if it is negative, and moved to
the nearer end if it lies outside. -/
def cutAt (size : Nat) (k : Int) : Nat :=
  let resolved : Int := if k < 0 then size + k else k
  (max 0 (min resolved size)).toNat

/-- Whether a value holds items and is of the kind of another: a list if that is a list, and a text if
that is a text. -/
def IsPart (whole part : Value) (items : List Value) : Prop :=
  part.kind = whole.kind ∧ itemsOf? part = some items

/-- The bounds that a slice takes. -/
inductive IsBound : Option Value → Prop where
  | missing : IsBound none
  | absent : IsBound (some .absent)
  | int (n : Int64) : IsBound (some (.int n))

variable {size a b p : Nat} {x i : Value} {start stop : Option Value} {xs : List Value}

/-! ### Cuts -/

theorem cutPoint_int (size : Nat) (n : Int64) (fallback : Nat) :
    cutPoint size (some (.int n)) fallback = .ok (cutAt size n.toInt) := by
  have hcut (resolved : Int) : min resolved.toNat size = (max 0 (min resolved size)).toNat := by omega
  rw [cutPoint, cutAt, hcut]

theorem IsBound.exists_cutPoint {bound : Option Value} (h : IsBound bound) (size fallback : Nat) :
    ∃ cut, cutPoint size bound fallback = .ok cut := by
  cases h with
  | missing => exact ⟨fallback, rfl⟩
  | absent => exact ⟨fallback, rfl⟩
  | int n => exact ⟨_, cutPoint_int size n fallback⟩

theorem between_eq {α : Type} {items : List α} (ha : cutPoint items.length start 0 = .ok a)
    (hb : cutPoint items.length stop items.length = .ok b) :
    between items start stop = .ok ((items.drop a).take (b - a)) := by
  rw [between, ha]
  change (cutPoint items.length stop items.length >>= fun b => _) = _
  rw [hb]
  rfl

/-- A slice holds the items from one cut up to another. -/
theorem slice_eq_ok (hx : itemsOf? x = some xs) (ha : cutPoint xs.length start 0 = .ok a)
    (hb : cutPoint xs.length stop xs.length = .ok b) :
    ∃ part, slice x start stop = .ok part ∧ IsPart x part ((xs.drop a).take (b - a)) := by
  cases x with
  | list items =>
      cases hx
      refine ⟨.list ((xs.drop a).take (b - a)), ?_, rfl, rfl⟩
      rw [slice, between_eq ha hb]
      rfl
  | str s =>
      cases hx
      rw [List.length_map] at ha hb
      refine ⟨.str (String.ofList ((s.toList.drop a).take (b - a))), ?_, rfl, ?_⟩
      · rw [slice, between_eq ha hb]
        rfl
      · rw [itemsOf?, String.toList_ofList, List.map_take, List.map_drop]
  | _ => cases hx

/-! ### Items -/

theorem itemAt_eq (hx : itemsOf? x = some xs) (h : position xs.length i = .ok p) :
    itemAt x i = .ok (xs.getD p .absent) := by
  cases x with
  | list items =>
      cases hx
      exact itemAt_list h
  | str s =>
      cases hx
      have hp : p < s.toList.length := by simpa using position_lt h
      rw [List.length_map] at h
      have hchar : itemAt (.str s) i = .ok (.str (s.toList.getD p ' ').toString) := by
        rw [itemAt, h]
        rfl
      rw [hchar]
      simp [List.getD_eq_getElem?_getD, hp]
  | _ => cases hx

theorem position_int {n : Int64} {k : Int} (hk : k = if n.toInt < 0 then size + n.toInt else n.toInt)
    (hlow : 0 ≤ k) (hhigh : k < size) : position size (.int n) = .ok k.toNat := by
  rw [position, ← hk]
  exact if_neg (by omega)

theorem position_outside {n : Int64} (h : ¬(-(size : Int) ≤ n.toInt ∧ n.toInt < size)) :
    position size (.int n) = .error (.indexOutOfRange n.toInt) := by
  unfold position
  dsimp only
  split <;> exact if_pos (by omega)

theorem itemAt_outside (hx : itemsOf? x = some xs) {n : Int64}
    (h : ¬(-(xs.length : Int) ≤ n.toInt ∧ n.toInt < xs.length)) :
    itemAt x (.int n) = .error (.indexOutOfRange n.toInt) := by
  cases x with
  | list items =>
      cases hx
      rw [itemAt, position_outside h]
      rfl
  | str s =>
      cases hx
      rw [List.length_map] at h
      rw [itemAt, position_outside h]
      rfl
  | _ => cases hx

/-! ### The laws of slices and indexes -/

theorem slice_int_int (hx : itemsOf? x = some xs) (i j : Int64) :
    ∃ part, slice x (some (.int i)) (some (.int j)) = .ok part ∧ IsPart x part
      ((xs.drop (cutAt xs.length i.toInt)).take
        (cutAt xs.length j.toInt - cutAt xs.length i.toInt)) :=
  slice_eq_ok hx (cutPoint_int ..) (cutPoint_int ..)

theorem slice_to_int (hx : itemsOf? x = some xs) (i : Int64) :
    ∃ part, slice x none (some (.int i)) = .ok part ∧
      IsPart x part (xs.take (cutAt xs.length i.toInt)) :=
  slice_eq_ok (a := 0) hx rfl (cutPoint_int ..)

theorem slice_from_int (hx : itemsOf? x = some xs) (i : Int64) :
    ∃ part, slice x (some (.int i)) none = .ok part ∧
      IsPart x part (xs.drop (cutAt xs.length i.toInt)) := by
  have hend : cutPoint xs.length none xs.length = .ok xs.length := rfl
  obtain ⟨part, hpart, hitems⟩ := slice_eq_ok hx (cutPoint_int xs.length i 0) hend
  rw [List.take_of_length_le (Nat.le_of_eq List.length_drop)] at hitems
  exact ⟨part, hpart, hitems⟩

/-- Integers within a sequence cut it where they stand. -/
theorem cutAt_within {k : Nat} (h : k ≤ size) : cutAt size k = k := by
  rw [cutAt, if_neg (by omega)]
  omega

theorem take_succ_drop {k : Nat} (hk : k < xs.length) : (xs.drop k).take (k + 1 - k) = [xs[k]] := by
  rw [Nat.add_sub_cancel_left, List.drop_eq_getElem_cons hk, List.take_succ_cons, List.take_zero]

/-- An integer that comes to a place of a sequence, counted from either end, names the item there. -/
theorem itemAt_within (hx : itemsOf? x = some xs) {n : Int64} {k : Nat} (hk : k < xs.length)
    (hn : n.toInt = k ∨ n.toInt = k - xs.length) : itemAt x (.int n) = .ok xs[k] := by
  have hplace : position xs.length (.int n) = .ok k :=
    position_int (k := k) (by split <;> omega) (by omega) (by omega)
  rw [itemAt_eq hx hplace, List.getD_eq_getElem?_getD, List.getElem?_eq_getElem hk, Option.getD_some]

/-- Slices and indexes of a list or a text agree. Two slices that meet at a bound make up the sequence; a
slice between two integers is the run of items between their cuts; an index within the sequence names
the single item of the slice from it to its successor, counted from either end; an index outside is
refused by its number; and integers and absent bounds always give a slice. -/
theorem slices_and_indexes_part_a_sequence {x : Value} {xs : List Value} (hx : itemsOf? x = some xs) :
    (∀ limits m target start stop a b m', SliceOperands limits m target start stop x a b m' →
      HasOutcome limits m (.slice target start stop) (slice x a b) m') ∧
    (∀ limits m target index i m', Operands limits m [target, index] [x, i] m' →
      HasOutcome limits m (.index target index) (itemAt x i) m') ∧
    (∀ i : Int64, ∃ front back items others, slice x none (some (.int i)) = .ok front ∧
      slice x (some (.int i)) none = .ok back ∧ IsPart x front items ∧ IsPart x back others ∧
      items ++ others = xs) ∧
    (∀ i j : Int64, ∃ part items, slice x (some (.int i)) (some (.int j)) = .ok part ∧
      IsPart x part items ∧
      items = (xs.drop (cutAt xs.length i.toInt)).take
        (cutAt xs.length j.toInt - cutAt xs.length i.toInt) ∧
      (cutAt xs.length j.toInt ≤ cutAt xs.length i.toInt → items = [])) ∧
    (∀ k (hk : k < xs.length) (i : Int64), i.toInt = k →
      itemAt x (.int i) = .ok xs[k] ∧
      (∀ next : Int64, next.toInt = k + 1 →
        ∃ part, slice x (some (.int i)) (some (.int next)) = .ok part ∧ IsPart x part [xs[k]]) ∧
      ∀ back : Int64, back.toInt = k - xs.length → itemAt x (.int back) = itemAt x (.int i)) ∧
    (∀ i : Int64, ¬(-(xs.length : Int) ≤ i.toInt ∧ i.toInt < xs.length) →
      ∃ cause, itemAt x (.int i) = .error cause ∧
        cause.message = "index " ++ toString i.toInt ++ " out of range") ∧
    ∀ start stop, IsBound start → IsBound stop →
      ∃ part items, slice x start stop = .ok part ∧ IsPart x part items := by
  refine ⟨fun _ _ _ _ _ _ _ _ h => hasOutcome_slice h, fun _ _ _ _ _ _ h => hasOutcome_index h,
    fun i => ?_, fun i j => ?_, fun k hk i hi => ⟨?_, fun next hnext => ?_, fun back hback => ?_⟩,
    fun i hi => ?_, fun start stop hstart hstop => ?_⟩
  · obtain ⟨front, hfront, hitems⟩ := slice_to_int hx i
    obtain ⟨back, hback, hothers⟩ := slice_from_int hx i
    exact ⟨front, back, _, _, hfront, hback, hitems, hothers, List.take_append_drop ..⟩
  · obtain ⟨part, hpart, hitems⟩ := slice_int_int hx i j
    refine ⟨part, _, hpart, hitems, rfl, fun hempty => ?_⟩
    rw [Nat.sub_eq_zero_of_le hempty, List.take_zero]
  · exact itemAt_within hx hk (.inl hi)
  · obtain ⟨part, hpart, hitems⟩ := slice_int_int hx i next
    rw [hi, hnext, cutAt_within (Nat.le_of_lt hk), show (k : Int) + 1 = (k + 1 : Nat) from rfl,
      cutAt_within hk, take_succ_drop hk] at hitems
    exact ⟨part, hpart, hitems⟩
  · rw [itemAt_within hx hk (.inl hi), itemAt_within hx hk (.inr hback)]
  · exact ⟨_, itemAt_outside hx hi, rfl⟩
  · obtain ⟨a, ha⟩ := hstart.exists_cutPoint xs.length 0
    obtain ⟨b, hb⟩ := hstop.exists_cutPoint xs.length xs.length
    obtain ⟨part, hpart, hitems⟩ := slice_eq_ok hx ha hb
    exact ⟨part, _, hpart, hitems⟩

/-- The characters of a text of four are cut by a bound far before it and by one within it, and indexed
from its end. -/
theorem slices_and_indexes_part_a_sequence_text :
    let items : List Value := [.str "a", .str "ñ", .str "≠", .str "b"]
    itemsOf? (.str "añ≠b") = some items ∧
      (∃ part, slice (.str "añ≠b") (some (.int Int64.minValue)) (some (.int (-2))) = .ok part ∧
        IsPart (.str "añ≠b") part [.str "a", .str "ñ"]) ∧
      itemAt (.str "añ≠b") (.int (-2)) = .ok (.str "≠") ∧
      ∃ cause, itemAt (.str "añ≠b") (.int 4) = .error cause ∧
        cause.message = "index 4 out of range" := by
  intro items
  have hitems : itemsOf? (.str "añ≠b") = some items := by cbv
  obtain ⟨-, -, -, hslice, hindex, hrefused, -⟩ := slices_and_indexes_part_a_sequence hitems
  obtain ⟨part, _, hpart, hheld, rfl, -⟩ := hslice Int64.minValue (-2)
  obtain ⟨hitem, -, hback⟩ := hindex 2 (by decide) 2 (by decide)
  refine ⟨hitems, ⟨part, hpart, ?_⟩, (hback (-2) (by decide)).trans hitem, ?_⟩
  · exact hheld
  · exact hrefused 4 (by decide)

end PromptWeave.Script
