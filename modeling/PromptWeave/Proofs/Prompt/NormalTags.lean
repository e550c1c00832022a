import Mathlib.Data.List.DropRight
import PromptWeave.Prompt.Tags

/-!
# Tags in normal form

The tags that a text lists are not empty, hold no comma, and have no blanks at their ends. A tag of this
form is the only one that it lists itself, and tags are listed again when they are joined if all of them
are of this form, and not otherwise. Main statements: `isTag_of_mem_splitTags`, `IsTag.splitTags_eq`,
`splitTags_joinTags`, `splitting_undoes_joining`.
-/
namespace PromptWeave.Prompt

open PromptWeave.Text

/-- Whether a text is a tag in the form in which prompts list them. -/
structure IsTag (tag : String) : Prop where
  nonempty : tag ≠ ""
  trimmed : trim tag = tag
  noComma : ',' ∉ tag.toList

/-! ### Blanks at the ends -/

/-- Whether a text neither begins nor ends with a blank. -/
structure NoBlankEnds (text : String) : Prop where
  front : ∀ c ∈ text.toList.head?, isBlank c = false
  back : ∀ c ∈ text.toList.getLast?, isBlank c = false

theorem noBlankEnds_iff {text : String} :
    NoBlankEnds text ↔
      (∀ c ∈ text.toList.head?, isBlank c = false) ∧ ∀ c ∈ text.toList.getLast?, isBlank c = false :=
  ⟨fun h => ⟨h.front, h.back⟩, fun h => ⟨h.1, h.2⟩⟩

-- Only the ends are looked at: as there are finitely many characters, an instance for what holds of
-- every character would try them all.
instance (text : String) : Decidable (NoBlankEnds text) :=
  decidable_of_iff (text.toList.head?.all (!isBlank ·) ∧ text.toList.getLast?.all (!isBlank ·))
    (by simp [noBlankEnds_iff, Option.all_eq_true])

theorem dropWhile_eq_self_iff_head? {inClass : Char → Bool} {cs : List Char} :
    cs.dropWhile inClass = cs ↔ ∀ c ∈ cs.head?, inClass c = false := by
  rw [List.dropWhile_eq_self_iff]
  cases cs <;> simp

/-- Dropping a class from the ends leaves what neither begins nor ends with it. -/
theorem stripChars_eq_self_iff {inClass : Char → Bool} {cs : List Char} :
    stripChars inClass cs = cs ↔
      (∀ c ∈ cs.head?, inClass c = false) ∧ ∀ c ∈ cs.getLast?, inClass c = false := by
  rw [← List.head?_reverse, ← dropWhile_eq_self_iff_head?, ← dropWhile_eq_self_iff_head?]
  constructor
  · intro h
    have hkept : (stripChars inClass cs).Sublist (cs.dropWhile inClass) :=
      (List.rdropWhile_prefix inClass _).sublist
    rw [h] at hkept
    have hfront : cs.dropWhile inClass = cs := (List.dropWhile_sublist inClass).antisymm hkept
    rw [stripChars, hfront, List.reverse_eq_iff] at h
    exact ⟨hfront, h⟩
  · rintro ⟨hfront, hback⟩
    rw [stripChars, hfront, hback, List.reverse_reverse]

theorem trim_eq_self_iff {text : String} : trim text = text ↔ NoBlankEnds text := by
  rw [← String.toList_inj, toList_trim, stripChars_eq_self_iff, noBlankEnds_iff]

theorem isTag_iff {tag : String} : IsTag tag ↔ tag ≠ "" ∧ ',' ∉ tag.toList ∧ NoBlankEnds tag := by
  rw [← trim_eq_self_iff]
  exact ⟨fun h => ⟨h.nonempty, h.noComma, h.trimmed⟩, fun h => ⟨h.1, h.2.2, h.2.1⟩⟩

instance (tag : String) : Decidable (IsTag tag) := decidable_of_iff _ isTag_iff.symm

/-- What a list without a character of the class in front begins with has none in front either. -/
theorem dropWhile_of_prefix {inClass : Char → Bool} {front cs : List Char} (hfront : front <+: cs)
    (hcs : cs.dropWhile inClass = cs) : front.dropWhile inClass = front := by
  rw [List.dropWhile_eq_self_iff] at hcs ⊢
  intro hlength
  rw [hfront.getElem hlength]
  exact hcs (Nat.lt_of_lt_of_le hlength hfront.length_le)

/-- Once the ends are free of a class they stay as they are. -/
theorem stripChars_stripChars (inClass : Char → Bool) (cs : List Char) :
    stripChars inClass (stripChars inClass cs) = stripChars inClass cs := by
  let kept := (cs.dropWhile inClass).rdropWhile inClass
  have hback : kept.rdropWhile inClass = kept := List.rdropWhile_idempotent inClass _
  have hfront : kept.dropWhile inClass = kept :=
    dropWhile_of_prefix (List.rdropWhile_prefix inClass _) (List.dropWhile_idempotent inClass cs)
  change (kept.dropWhile inClass).rdropWhile inClass = kept
  rw [hfront, hback]

/-- What is added of a class at the ends is dropped again. -/
theorem stripChars_surrounded {inClass : Char → Bool} {before behind : List Char}
    (hbefore : before.all inClass) (hbehind : behind.all inClass) (cs : List Char) :
    stripChars inClass (before ++ cs ++ behind) = stripChars inClass cs := by
  rw [List.all_eq_true] at hbefore hbehind
  have hturned : ∀ c ∈ behind.reverse, inClass c = true := by simpa using hbehind
  rw [stripChars, stripChars, List.append_assoc, List.dropWhile_append_of_pos hbefore,
    List.dropWhile_append]
  split
  · rename_i hempty
    rw [List.isEmpty_iff.1 hempty, List.dropWhile_eq_nil_iff.2 hbehind]
  · rw [List.reverse_append, List.dropWhile_append_of_pos hturned]

/-! ### The tags of a text -/

/-- Every tag that a text lists is in normal form. -/
theorem isTag_of_mem_splitTags {text tag : String} (h : tag ∈ splitTags text) : IsTag tag := by
  obtain ⟨hmem, hkept⟩ := List.mem_filter.1 h
  obtain ⟨piece, hpiece, rfl⟩ := List.mem_map.1 hmem
  refine ⟨?_, ?_, ?_⟩
  · intro hempty
    rw [hempty] at hkept
    exact absurd hkept (by decide)
  · rw [trim, strip, String.toList_ofList, stripChars_stripChars]
  · intro hcomma
    rw [String.toList_ofList] at hcomma
    have hin : ',' ∈ piece := (stripChars_sublist isBlank piece).subset hcomma
    exact absurd (not_inClass_of_mem_piecesAt hpiece hin) (by decide)

/-- There is a piece of every text. -/
theorem piecesAt_ne_nil (inClass : Char → Bool) (cs : List Char) : piecesAt inClass cs ≠ [] := by
  rw [piecesAt_eq_splitOnP]
  exact List.splitOnP_ne_nil inClass cs

/-- At a character of the class the pieces fall into those before and those behind it. -/
theorem piecesAt_append {inClass : Char → Bool} {c : Char} (h : inClass c = true) (cs rest : List Char) :
    piecesAt inClass (cs ++ c :: rest) = piecesAt inClass cs ++ piecesAt inClass rest := by
  simp only [piecesAt_eq_splitOnP]
  exact List.splitOnP_append_cons cs rest h

/-- The tags of two texts with a comma between them are those of the one and then those of the other. -/
theorem splitTags_append_comma (front rest : String) :
    splitTags (front ++ "," ++ rest) = splitTags front ++ splitTags rest := by
  have hcomma : isComma ',' = true := rfl
  have hchars : (front ++ "," ++ rest).toList = front.toList ++ ',' :: rest.toList := by simp
  rw [splitTags, hchars, piecesAt_append hcomma, List.map_append, List.filter_append]
  rfl

/-- Without a comma a text lists one tag at most: the text without the blanks at its ends. -/
theorem splitTags_of_noComma {text : String} (h : ',' ∉ text.toList) :
    splitTags text = if trim text = "" then [] else [trim text] := by
  have hcomma : ∀ c ∈ text.toList, isComma c = false := by
    intro c hc
    rw [isComma, beq_eq_false_iff_ne]
    rintro rfl
    exact h hc
  have hpieces : piecesAt isComma text.toList = [text.toList] := by
    rw [piecesAt_eq_splitOnP, List.splitOnP_eq_singleton hcomma]
  have htrim : String.ofList (stripChars isBlank text.toList) = trim text := rfl
  rw [splitTags, hpieces, List.map_singleton, htrim]
  by_cases hempty : trim text = "" <;> simp [hempty]

/-- A text holds no comma, or it is a text without comma, a comma and a shorter text. -/
@[elab_as_elim]
theorem comma_induction {motive : String → Prop} (plain : ∀ text, ',' ∉ text.toList → motive text)
    (comma : ∀ front rest, ',' ∉ front.toList → motive rest → motive (front ++ "," ++ rest))
    (text : String) : motive text := by
  by_cases hcomma : ',' ∈ text.toList
  · obtain ⟨front, rest, hchars, hfront⟩ := List.eq_append_cons_of_mem hcomma
    have htext : text = String.ofList front ++ "," ++ String.ofList rest := by
      rw [← String.toList_inj, hchars]
      simp
    have hshorter : rest.length < text.length := by
      rw [← String.length_toList, hchars, List.length_append, List.length_cons]
      omega
    rw [htext]
    exact comma _ _ (by simpa using hfront) (comma_induction plain comma (String.ofList rest))
  · exact plain text hcomma
termination_by text.length

theorem comma_not_mem_of_isBlank {blanks : String} (h : blanks.toList.all isBlank) :
    ',' ∉ blanks.toList := fun hcomma => absurd (List.all_eq_true.1 h ',' hcomma) (by decide)

theorem splitTags_surrounded_of_noComma {before behind text : String}
    (hbefore : before.toList.all isBlank) (hbehind : behind.toList.all isBlank)
    (h : ',' ∉ text.toList) : splitTags (before ++ text ++ behind) = splitTags text := by
  have hnone : ',' ∉ (before ++ text ++ behind).toList := by
    simp [comma_not_mem_of_isBlank hbefore, comma_not_mem_of_isBlank hbehind, h]
  have htrim : trim (before ++ text ++ behind) = trim text := by
    rw [← String.toList_inj, toList_trim, toList_trim, String.toList_append, String.toList_append,
      stripChars_surrounded hbefore hbehind]
  rw [splitTags_of_noComma hnone, splitTags_of_noComma h, htrim]

/-- Blanks around a text make no difference to its tags. -/
theorem splitTags_surrounded {before behind : String} (hbefore : before.toList.all isBlank)
    (hbehind : behind.toList.all isBlank) (text : String) :
    splitTags (before ++ text ++ behind) = splitTags text := by
  have hnothing : "".toList.all isBlank := rfl
  -- The blanks in front go with the text up to the first comma, those behind with the rest.
  induction text using comma_induction generalizing before with
  | plain text htext => exact splitTags_surrounded_of_noComma hbefore hbehind htext
  | comma front rest hfront ih =>
      have hmoved : before ++ (front ++ "," ++ rest) ++ behind =
          (before ++ front ++ "") ++ "," ++ ("" ++ rest ++ behind) := by
        simp [String.append_assoc]
      rw [hmoved, splitTags_append_comma, splitTags_append_comma,
        splitTags_surrounded_of_noComma hbefore hnothing hfront, ih hnothing]

/-- A tag in normal form is the only one that it lists. -/
theorem IsTag.splitTags_eq {tag : String} (h : IsTag tag) : splitTags tag = [tag] := by
  rw [splitTags_of_noComma h.noComma, h.trimmed, if_neg h.nonempty]

/-- Tags in normal form are those that they list, one after the other. -/
theorem flatMap_splitTags {tags : List String} (h : ∀ tag ∈ tags, IsTag tag) :
    tags.flatMap splitTags = tags := by
  induction tags with
  | nil => rfl
  | cons tag rest ih =>
      rw [List.flatMap_cons, (h tag List.mem_cons_self).splitTags_eq,
        ih fun other hother => h other (List.mem_cons_of_mem tag hother)]
      rfl

/-! ### Joining -/

/-- Texts that are joined list what each of them lists. -/
theorem splitTags_joinTags_eq_flatMap (texts : List String) :
    splitTags (joinTags texts) = texts.flatMap splitTags := by
  induction texts with
  | nil => rfl
  | cons text rest ih =>
      cases rest with
      | nil => rw [joinTags, String.intercalate_singleton, List.flatMap_singleton]
      | cons second rest =>
          have hjoined : joinTags (text :: second :: rest) =
              text ++ "," ++ (" " ++ joinTags (second :: rest) ++ "") := by
            have hmark : ", " = "," ++ " " := rfl
            simp only [joinTags, String.intercalate_cons_cons, hmark, String.append_assoc,
              String.append_empty]
          rw [hjoined, splitTags_append_comma, splitTags_surrounded (by decide) (by decide), ih]
          rfl

/-- Tags in normal form that are joined are listed again. -/
theorem splitTags_joinTags {tags : List String} (h : ∀ tag ∈ tags, IsTag tag) :
    splitTags (joinTags tags) = tags := by
  rw [splitTags_joinTags_eq_flatMap, flatMap_splitTags h]

/-- Joined texts are listed again exactly if none is empty, holds a comma, or has a blank at one of its
ends. The tags that a text lists are such texts, so listing and joining them once more changes nothing.
At a comma the tags of a text fall into those before and those behind it. -/
theorem splitting_undoes_joining :
    (∀ tags, splitTags (joinTags tags) = tags ↔
      ∀ tag ∈ tags, tag ≠ "" ∧ ',' ∉ tag.toList ∧ NoBlankEnds tag) ∧
    (∀ text, (∀ tag ∈ splitTags text, tag ≠ "" ∧ ',' ∉ tag.toList ∧ NoBlankEnds tag) ∧
      splitTags (joinTags (splitTags text)) = splitTags text) ∧
    ∀ front rest, splitTags (front ++ "," ++ rest) = splitTags front ++ splitTags rest := by
  simp only [← isTag_iff]
  have hlisted (text : String) : ∀ tag ∈ splitTags text, IsTag tag := fun _ => isTag_of_mem_splitTags
  refine ⟨fun tags => ⟨fun h => ?_, splitTags_joinTags⟩,
    fun text => ⟨hlisted text, splitTags_joinTags (hlisted text)⟩, splitTags_append_comma⟩
  rw [← h]
  exact hlisted (joinTags tags)

/-- Line breaks within a tag do no harm, but a wide space in front of it is lost. -/
theorem splitting_undoes_joining_spaces :
    (∀ tag ∈ ["#night", "rain\n\nfog"], tag ≠ "" ∧ ',' ∉ tag.toList ∧ NoBlankEnds tag) ∧
    splitTags (joinTags ["#night", "rain\n\nfog"]) = ["#night", "rain\n\nfog"] ∧
    splitTags (joinTags ["#night", "\u3000fog"]) ≠ ["#night", "\u3000fog"] := by
  have htags : ∀ tag ∈ ["#night", "rain\n\nfog"], tag ≠ "" ∧ ',' ∉ tag.toList ∧ NoBlankEnds tag := by
    decide +kernel
  have hblank : ¬ NoBlankEnds "\u3000fog" := by decide +kernel
  refine ⟨htags, (splitting_undoes_joining.1 _).2 htags, fun h => hblank ?_⟩
  exact ((splitting_undoes_joining.1 _).1 h "\u3000fog" (by simp)).2.2

end PromptWeave.Prompt
