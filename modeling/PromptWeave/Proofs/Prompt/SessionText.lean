import PromptWeave.Prompt.Session
import PromptWeave.Proofs.Json.ReadingBack

/-!
# The text of a session

A session that is written is read as the session that it is. Main statement: `decodeDocument?_render`.
-/
namespace PromptWeave

namespace Json

open PromptWeave.Decimal (digitsValue_toDigits)

/-! ### Numbers and dictionaries in trees -/

variable {α : Type} {levels : Nat}

theorem decodeWord_toTree {n : Nat} (h : n < words64) :
    decodeWord levels (Value.integer n).toTree = some n := by
  have hnumeral : integerNumeral n = ⟨false, Nat.toDigits 10 n, [], none⟩ := by
    simp [integerNumeral]
  have hmax : n ≤ maxWord := Nat.le_sub_one_of_lt h
  rw [Value.toTree, hnumeral]
  simp [decodeWord, Numeral.toWord?, Numeral.isWhole, digitsValue_toDigits, hmax]

theorem mapM_decodeField? {decode : Decoder α} {toJson : α → Value} {bindings : List (String × α)}
    (h : ∀ b ∈ bindings, decode levels (toJson b.2).toTree = some b.2) :
    (bindings.map fun b => (some b.1, (toJson b.2).toTree)).mapM
      (decodeDictionary.decodeField? decode levels) = some bindings := by
  induction bindings with
  | nil => rfl
  | cons b rest ih =>
      have hb : decodeDictionary.decodeField? decode levels (some b.1, (toJson b.2).toTree) =
          some b := by
        simp [decodeDictionary.decodeField?, h b List.mem_cons_self]
      rw [List.map_cons, List.mapM_cons, hb, ih fun b' hb' => h b' (List.mem_cons_of_mem b hb')]
      rfl

/-- A dictionary is read from the tree of its values if each of them is. -/
theorem decodeDictionary_toTree {decode : Decoder α} {toJson : α → Value} {d : Dictionary α}
    (h : ∀ b ∈ d.toList, decode levels (toJson b.2).toTree = some b.2) :
    decodeDictionary decode (levels + 1)
      (Value.ofDictionary (d.filterMap fun _ a => some (toJson a))).toTree = some d := by
  have htree : (Value.ofDictionary (d.filterMap fun _ a => some (toJson a))).toTree =
      .object (d.toList.map fun b => (some b.1, (toJson b.2).toTree)) := by
    simp [Value.ofDictionary, Value.toTree, fieldTreesOf_eq_map, Dictionary.filterMap,
      Function.comp_def]
  rw [htree]
  simp [decodeDictionary, mapM_decodeField? h, Dictionary.ofList_toList]

/-- The fields of an object with the two fields of a record. -/
theorem recordFields?_two {first second : String} (hne : first ≠ second) (t u : Tree) :
    ∃ found, recordFields? [first, second] (.object [(some first, t), (some second, u)]) =
      some found ∧ found.get? first = some t ∧ found.get? second = some u := by
  refine ⟨(Dictionary.empty.insert first t).insert second u, ?_, ?_, ?_⟩
  · simp [recordFields?, knownFields?, addField?, Dictionary.contains, Dictionary.get?_insert, hne]
  · simp [Dictionary.get?_insert, Ne.symm hne]
  · simp [Dictionary.get?_insert]

end Json

namespace Prompt

open Json

/-- Whether the numbers of a progress are words of 64 bits. -/
def Progress.InWords (p : Progress) : Prop := p.current < words64 ∧ p.total < words64

/-- Whether the numbers of a session are words of 64 bits. Counters are by their type. -/
def Session.InWords (s : Session) : Prop := ∀ b ∈ s.progress.toList, b.2.InWords

theorem Progress.decode_toTree {levels : Nat} {p : Progress} (h : p.InWords) :
    Progress.decode (levels + 1) p.toJson.toTree = some p := by
  have htree : p.toJson.toTree = .object [("current", (Value.integer p.current).toTree),
    ("total", (Value.integer p.total).toTree)] := rfl
  obtain ⟨found, hfields, hcurrent, htotal⟩ := recordFields?_two (by decide : "current" ≠ "total")
    (Value.integer p.current).toTree (Value.integer p.total).toTree
  rw [htree]
  simp [Progress.decode, record, hfields, Fields.required, hcurrent, htotal, decodeWord_toTree h.1,
    decodeWord_toTree h.2]

theorem Session.decode_toTree {levels : Nat} {s : Session} (h : s.InWords) :
    Session.decode (levels + 3) s.toJson.toTree = some s := by
  have hcounters : decodeDictionary decodeCounter (levels + 2) (countersToJson s.counters).toTree =
      some s.counters := by
    apply decodeDictionary_toTree
    intro b hb
    simp [decodeCounter, decodeWord_toTree b.2.toNat_lt]
  have hprogress : decodeDictionary Progress.decode (levels + 2) (progressToJson s.progress).toTree =
      some s.progress :=
    decodeDictionary_toTree fun b hb => Progress.decode_toTree (h b hb)
  have htree : s.toJson.toTree = .object [(countersKey, (countersToJson s.counters).toTree),
    (progressKey, (progressToJson s.progress).toTree)] := rfl
  obtain ⟨found, hfields, hfirst, hsecond⟩ := recordFields?_two (by decide : countersKey ≠ progressKey)
    (countersToJson s.counters).toTree (progressToJson s.progress).toTree
  rw [htree]
  simp [Session.decode, record, hfields, Fields.withDefault, hfirst, hsecond, hcounters, hprogress]

theorem plain_ofDictionary {α : Type} {toJson : α → Value} (h : ∀ a, Plain (toJson a))
    (d : Dictionary α) : Plain (Value.ofDictionary (d.filterMap fun _ a => some (toJson a))) := by
  refine .object fun f hf => ?_
  obtain ⟨b, -, hb⟩ := List.mem_filterMap.1 hf
  obtain rfl : (b.1, toJson b.2) = f := by simpa using hb
  exact h b.2

theorem plain_object_two {first second : String} {v w : Value} (hv : Plain v) (hw : Plain w) :
    Plain (.object [(first, v), (second, w)]) := by
  refine .object fun f hf => ?_
  simp only [List.mem_cons, List.not_mem_nil, or_false] at hf
  rcases hf with rfl | rfl
  · exact hv
  · exact hw

theorem Progress.plain_toJson (p : Progress) : Plain p.toJson :=
  plain_object_two (.integer p.current) (.integer p.total)

theorem Session.plain_toJson (s : Session) : Plain s.toJson := by
  have hcounter (n : UInt64) : Plain (.integer n.toNat) := .integer n.toNat
  exact plain_object_two (plain_ofDictionary hcounter s.counters)
    (plain_ofDictionary Progress.plain_toJson s.progress)

/-- The text of a session whose numbers are words is read as the session. -/
theorem Session.decodeDocument?_render {s : Session} (h : s.InWords) (style : Style) :
    decodeDocument? Session.decode (s.toJson.render style) = some s := by
  rw [decodeDocument?, read?_render s.plain_toJson style]
  exact Session.decode_toTree h

end Prompt
end PromptWeave
