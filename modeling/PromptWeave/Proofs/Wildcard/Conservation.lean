import Mathlib.Algebra.Order.Group.Multiset
import PromptWeave.Proofs.Prompt.NormalTags
import PromptWeave.Proofs.Wildcard.Extension

/-!
# No tag is lost on the way

A reference keeps some tags of the line that it finds and sets the others aside. Where references lead
from one to the next, every one of them sorts what the one behind it has kept. In the end each tag of
the last line has been kept or set aside once. On the way it may have lost a star at every reference,
and it is gone only if there was nothing but stars to it.
-/
namespace PromptWeave.Wildcard

open PromptWeave.Prompt (Context IsTag flatMap_splitTags isTag_of_mem_splitTags splitTags
  stripChars_stripChars)

variable {σ : Type}

/-! ### Stars -/

/-- Whether a tag has a star in front. -/
def IsStarred (tag : String) : Prop := tag.toList.head? = some '*'

instance (tag : String) : Decidable (IsStarred tag) := inferInstanceAs (Decidable (_ = _))

/-- What comes after the first character of a tag, without the blanks around it. -/
def withoutStar (tag : String) : String := Text.trim (String.ofList tag.toList.tail)

theorem after?_star (tag : String) :
    (Text.after? "*" tag).map Text.trim = if IsStarred tag then some (withoutStar tag) else none := by
  by_cases hstar : IsStarred tag
  · obtain ⟨rest, hrest⟩ := List.head?_eq_some_iff.1 hstar
    have hdrop : ('*' :: rest).drop "*".length = rest := rfl
    simp [Text.after?, Text.beginsWith, IsStarred, withoutStar, hrest, List.isPrefixOf, hdrop]
  · have hnone : Text.after? "*" tag = none := by
      rw [← Option.not_isSome_iff_eq_none, isSome_after?_star]
      simpa [IsStarred] using hstar
    rw [hnone, if_neg hstar]
    rfl

theorem filterMap_after?_star (tags : List String) :
    (tags.filterMap fun tag => (Text.after? "*" tag).map Text.trim) =
      (tags.filter IsStarred).map withoutStar := by
  induction tags with
  | nil => rfl
  | cons tag rest ih =>
      rw [List.filterMap_cons, List.filter_cons, after?_star, ih]
      by_cases hstar : IsStarred tag <;> simp [hstar]

/-- If there are stars, the tags with a star are kept and the others are set aside, and otherwise the
first tag is kept. -/
theorem sortOut_eq (tags : List String) : sortOut tags =
    if ∃ tag ∈ tags, IsStarred tag then
      (((tags.filter IsStarred).map withoutStar).filter (· ≠ ""), tags.filter (¬ IsStarred ·))
    else (tags.take 1, tags.drop 1) := by
  have hstarred : (tags.any fun tag => ((Text.after? "*" tag).map Text.trim).isSome) =
      decide (∃ tag ∈ tags, IsStarred tag) := by
    rw [Bool.eq_iff_iff]
    simp [after?_star]
  have haside : (tags.filter fun tag => ((Text.after? "*" tag).map Text.trim).isNone) =
      tags.filter (¬ IsStarred ·) := by
    refine List.filter_congr fun tag _ => ?_
    rw [after?_star]
    by_cases hstar : IsStarred tag <;> simp [hstar]
  have hnonempty (tag : String) : (!tag.isEmpty) = decide (tag ≠ "") := by
    rw [Bool.eq_iff_iff]
    simp
  simp only [sortOut, hstarred, filterMap_after?_star, haside, hnonempty, decide_eq_true_eq]

/-- Taking stars off a tag, at most so many, with the blanks around what is left. -/
inductive Sheds : (stars : Nat) → String → String → Prop where
  | none {stars tag} : Sheds stars tag tag
  | star {stars tag rest} : IsStarred tag → Sheds stars (withoutStar tag) rest →
      Sheds (stars + 1) tag rest

/-- Whether a tag consists of stars and blanks. -/
def IsMarkers (tag : String) : Prop := ∀ c ∈ tag.toList, c = '*' ∨ Text.isBlank c = true

theorem Sheds.mono {stars more : Nat} {tag rest : String} (h : Sheds stars tag rest)
    (hle : stars ≤ more) : Sheds more tag rest := by
  induction h generalizing more with
  | none => exact .none
  | star hstar _ ih =>
      obtain ⟨more, rfl⟩ : ∃ k, more = k + 1 := ⟨more - 1, by omega⟩
      exact .star hstar (ih (by omega))

theorem Sheds.trans {stars more : Nat} {tag mid rest : String} (h : Sheds stars tag mid)
    (h' : Sheds more mid rest) : Sheds (stars + more) tag rest := by
  induction h with
  | none => exact h'.mono (Nat.le_add_left _ _)
  | @star stars tag mid hstar _ ih =>
      rw [Nat.add_right_comm]
      exact .star hstar (ih h')

/-- What is dropped from the ends is in the class. -/
theorem mem_stripChars_or {inClass : Char → Bool} {c : Char} {cs : List Char} (h : c ∈ cs) :
    c ∈ Text.stripChars inClass cs ∨ inClass c = true := by
  have hdrop {ds : List Char} (hd : c ∈ ds) : c ∈ ds.dropWhile inClass ∨ inClass c = true := by
    rw [← List.takeWhile_append_dropWhile (p := inClass) (l := ds), List.mem_append] at hd
    exact hd.symm.imp_right List.mem_takeWhile_imp
  rcases hdrop h with hfront | hblank
  · rcases hdrop (List.mem_reverse.2 hfront) with hback | hblank
    · exact Or.inl (List.mem_reverse.2 hback)
    · exact Or.inr hblank
  · exact Or.inr hblank

/-- A tag of which only stars and blanks are left had nothing else in it before. -/
theorem Sheds.isMarkers {stars : Nat} {tag rest : String} (h : Sheds stars tag rest)
    (hrest : IsMarkers rest) : IsMarkers tag := by
  induction h with
  | none => exact hrest
  | @star stars tag rest hstar _ ih =>
      obtain ⟨behind, hbehind⟩ := List.head?_eq_some_iff.1 hstar
      intro c hc
      rw [hbehind] at hc
      rcases List.mem_cons.1 hc with rfl | hc
      · exact Or.inl rfl
      · rcases mem_stripChars_or hc with hkept | hblank
        · refine ih hrest c ?_
          rw [withoutStar, Text.toList_trim, String.toList_ofList, hbehind]
          exact hkept
        · exact Or.inr hblank

/-- Whether tags are those from before, each of them once and with at most so many stars off, except that
some are gone that consist of stars and blanks. -/
def CarriesOver (stars : Nat) (before after : Multiset String) : Prop :=
  ∃ kept dropped, before = kept + dropped ∧ Multiset.Rel (Sheds stars) kept after ∧
    ∀ tag ∈ dropped, IsMarkers tag

namespace CarriesOver

variable {stars more : Nat} {before mid after : Multiset String}

theorem refl (stars : Nat) (tags : Multiset String) : CarriesOver stars tags tags :=
  ⟨tags, 0, (add_zero _).symm, Multiset.rel_refl_of_refl_on fun _ _ => .none,
    fun _ h => absurd h (Multiset.notMem_zero _)⟩

theorem add {before' after' : Multiset String} (h : CarriesOver stars before after)
    (h' : CarriesOver stars before' after') : CarriesOver stars (before + before') (after + after') := by
  obtain ⟨kept, dropped, rfl, hkept, hdropped⟩ := h
  obtain ⟨kept', dropped', rfl, hkept', hdropped'⟩ := h'
  refine ⟨kept + kept', dropped + dropped', add_add_add_comm _ _ _ _, hkept.add hkept', ?_⟩
  intro tag htag
  exact (Multiset.mem_add.1 htag).elim (hdropped tag) (hdropped' tag)

theorem trans (h : CarriesOver stars before mid) (h' : CarriesOver more mid after) :
    CarriesOver (stars + more) before after := by
  obtain ⟨kept, dropped, rfl, hkept, hdropped⟩ := h
  obtain ⟨kept', dropped', rfl, hkept', hdropped'⟩ := h'
  obtain ⟨first, second, hfirst, hsecond, rfl⟩ := Multiset.rel_add_right.1 hkept
  refine ⟨first, second + dropped, add_assoc _ _ _, ?_, ?_⟩
  · clear hkept
    induction hfirst generalizing after with
    | zero =>
        rw [Multiset.rel_zero_left] at hkept' ⊢
        exact hkept'
    | cons hhead _ ih =>
        obtain ⟨rest, others, hrest, hothers, rfl⟩ := Multiset.rel_cons_left.1 hkept'
        exact .cons (hhead.trans hrest) (ih hothers)
  · intro tag htag
    rcases Multiset.mem_add.1 htag with hlost | hlost
    · obtain ⟨rest, hrest, hsheds⟩ := Multiset.exists_mem_of_rel_of_mem hsecond hlost
      exact hsheds.isMarkers (hdropped' rest hrest)
    · exact hdropped tag hlost

theorem cons_drop {tag : String} (htag : IsMarkers tag) (h : CarriesOver stars before after) :
    CarriesOver stars (tag ::ₘ before) after := by
  obtain ⟨kept, dropped, rfl, hkept, hdropped⟩ := h
  refine ⟨kept, tag ::ₘ dropped, (Multiset.add_cons tag kept dropped).symm, hkept, ?_⟩
  exact Multiset.forall_mem_cons.2 ⟨htag, hdropped⟩

theorem cons {tag rest : String} (htag : Sheds stars tag rest) (h : CarriesOver stars before after) :
    CarriesOver stars (tag ::ₘ before) (rest ::ₘ after) := by
  obtain ⟨kept, dropped, rfl, hkept, hdropped⟩ := h
  exact ⟨tag ::ₘ kept, dropped, (Multiset.cons_add tag kept dropped).symm, hkept.cons htag, hdropped⟩

/-- Sorting out the tags of a line loses none, and takes one star off each at most. -/
theorem sortOut (tags : List String) :
    CarriesOver 1 ↑tags (↑(sortOut tags).1 + ↑(sortOut tags).2) := by
  rw [sortOut_eq]
  split
  · clear * -
    induction tags with
    | nil => exact .refl 1 _
    | cons tag rest ih =>
        by_cases hstar : IsStarred tag
        · have hsheds : Sheds 1 tag (withoutStar tag) := .star hstar .none
          by_cases hempty : withoutStar tag = ""
          · have hmarkers : IsMarkers tag := by
              refine hsheds.isMarkers ?_
              rw [hempty]
              exact fun c hc => absurd hc List.not_mem_nil
            simpa [hstar, hempty] using ih.cons_drop hmarkers
          · simpa [hstar, hempty] using ih.cons hsheds
        · have hsame : Sheds 1 tag tag := .none
          have hcons := ih.cons hsame
          rw [← Multiset.add_cons] at hcons
          simpa [hstar] using hcons
  · rw [Multiset.coe_add, List.take_append_drop]
    exact .refl 1 _

end CarriesOver

/-! ### References -/

namespace Expander

/-- Whether a tag is a reference that finds a line. -/
def Finds (e : Expander σ) (tag : String) (x : Expansion σ) (line : String) (y : Expansion σ) : Prop :=
  ∃ r, Request.ofTag tag = .reference r ∧ e.look r x = (some line, y)

/-- References that lead to a line: each but the last finds a line that is a reference itself. There are
`count` of them, and at the line `left` levels are left. -/
inductive LeadsTo (e : Expander σ) :
    (levels : Nat) → String → Expansion σ → (count left : Nat) → String → Expansion σ → Prop where
  | found {levels tag x line y} : e.Finds tag x line y → LeadsTo e (levels + 1) tag x 1 levels line y
  | onward {levels tag x line y count left last z} : e.Finds tag x line y →
      LeadsTo e levels line y count left last z → LeadsTo e (levels + 1) tag x (count + 1) left last z

end Expander

/-! ### What references set aside -/

variable {e : Expander σ}

theorem deferred_draw (name : String) (x : Expansion σ) :
    (e.draw name x).2.context.deferred = x.context.deferred := by
  unfold Expander.draw
  cases e.table.get? name <;> rfl

theorem deferred_advance (name : String) (x : Expansion σ) :
    (e.advance name x).2.context.deferred = x.context.deferred := by
  unfold Expander.advance
  cases e.table.get? name <;> rfl

theorem deferred_observe (watched name : String) (x : Expansion σ) :
    (e.observe watched name x).2.context.deferred = x.context.deferred := by
  unfold Expander.observe
  cases e.table.get? name <;> rfl

theorem deferred_look (r : Reference) (x : Expansion σ) :
    (e.look r x).2.context.deferred = x.context.deferred := by
  cases r with
  | chance name => exact deferred_draw name x
  | sequential name => exact deferred_advance name x
  | observer watched name => exact deferred_observe watched name x
  | malformed => rfl

/-- Whatever is set aside is set aside behind what has been. -/
theorem stepwise_deferred (e : Expander σ) :
    Stepwise e fun x y => x.context.deferred <+: y.context.deferred where
  refl _ := List.prefix_refl _
  trans := List.IsPrefix.trans
  choose _ _ _ _ := List.prefix_refl _
  draw name x := (deferred_draw _ _).symm ▸ List.prefix_refl _
  advance name x := (deferred_advance _ _).symm ▸ List.prefix_refl _
  observe watched name x := (deferred_observe _ _ _).symm ▸ List.prefix_refl _
  cap _ _ := List.prefix_refl _
  defer _ _ := List.prefix_append _ _
  takeBack := by
    rintro x y ⟨added, hadded⟩
    have hkept : y.context.deferred.take x.context.deferred.length = x.context.deferred := by
      rw [← hadded, List.take_left]
    exact ⟨[], (List.append_nil _).trans hkept.symm⟩

/-- A block sets nothing aside. -/
theorem deferred_resolveBlock (levels : Nat) (name : String) (x : Expansion σ) :
    (e.resolveBlock (e.resolve levels) name x).2.context.deferred = x.context.deferred := by
  have hdraw := deferred_draw (e := e) (Text.trim name) x
  unfold Expander.resolveBlock
  rcases hrun : e.draw (Text.trim name) x with ⟨_ | line, y⟩
  all_goals rw [hrun] at hdraw
  · exact hdraw
  · obtain ⟨added, hadded⟩ := (stepwise_deferred e).resolve levels line y
    change List.take _ (e.resolve levels line y).2.context.deferred = _
    rw [← hadded, List.take_left]
    exact hdraw

theorem deferred_resolvePieces (levels : Nat) (written : String) (pieces : List Piece)
    (x : Expansion σ) :
    (e.resolvePieces (e.resolve levels) written pieces x).2.context.deferred = x.context.deferred := by
  induction pieces generalizing written x with
  | nil => rfl
  | cons piece rest ih =>
      cases piece with
      | text s => exact ih _ _
      | block name => exact (ih _ _).trans (deferred_resolveBlock levels name x)

/-- A reference that finds a line gives and sets aside the tags of what the line is resolved to. -/
theorem resolve_of_finds {tag line : String} {x y : Expansion σ} (h : e.Finds tag x line y)
    (levels : Nat) :
    let inner := e.resolve levels line y
    let sorted := sortOut (inner.1.flatMap splitTags)
    e.resolve (levels + 1) tag x = (sorted.1, inner.2.defer sorted.2) := by
  obtain ⟨r, hr, hlook⟩ := h
  simp only [Expander.resolve, hr, Expander.resolveReference, hlook]

theorem Expander.Finds.deferred_eq {tag line : String} {x y : Expansion σ} (h : e.Finds tag x line y) :
    y.context.deferred = x.context.deferred := by
  obtain ⟨r, -, hlook⟩ := h
  have hsame := deferred_look (e := e) r x
  rwa [hlook] at hsame

theorem isTag_withoutStar {tag : String} (h : IsTag tag) (hne : withoutStar tag ≠ "") :
    IsTag (withoutStar tag) where
  nonempty := hne
  trimmed := by
    rw [withoutStar, Text.trim, Text.strip, Text.toList_trim, stripChars_stripChars]
    rfl
  noComma hcomma := by
    rw [withoutStar, Text.toList_trim, String.toList_ofList] at hcomma
    exact h.noComma (List.mem_of_mem_tail ((Text.stripChars_sublist _ _).subset hcomma))

/-- The tags that are kept are in normal form like all tags of the line. -/
theorem isTag_of_mem_sortOut {tags : List String} (h : ∀ tag ∈ tags, IsTag tag) :
    ∀ tag ∈ (sortOut tags).1, IsTag tag := by
  rw [sortOut_eq]
  split
  · intro tag htag
    obtain ⟨hmem, hne⟩ := List.mem_filter.1 htag
    obtain ⟨starred, hstarred, rfl⟩ := List.mem_map.1 hmem
    exact isTag_withoutStar (h starred (List.mem_of_mem_filter hstarred)) (of_decide_eq_true hne)
  · exact fun tag htag => h tag (List.mem_of_mem_take htag)

theorem isTag_of_mem_flatMap_splitTags {resolved : List String} :
    ∀ tag ∈ resolved.flatMap splitTags, IsTag tag := by
  intro tag htag
  obtain ⟨text, -, hmem⟩ := List.mem_flatMap.1 htag
  exact isTag_of_mem_splitTags hmem

/-- However many references lead to a line, they keep and set aside its tags, each of them once. The
references further out set their tags aside behind those of the references further in. -/
theorem Expander.LeadsTo.carriesOver {levels count left : Nat} {tag last : String}
    {x z : Expansion σ} (h : e.LeadsTo levels tag x count left last z) :
    let outer := e.resolve levels tag x
    let final := e.resolve left last z
    z.context.deferred = x.context.deferred ∧ (∀ t ∈ outer.1, IsTag t) ∧
      ∃ added, outer.2.context.deferred = final.2.context.deferred ++ added ∧
        CarriesOver count ↑(final.1.flatMap splitTags) (↑outer.1 + ↑added) := by
  induction h with
  | @found levels tag x line y hfinds =>
      rw [resolve_of_finds hfinds]
      exact ⟨hfinds.deferred_eq, isTag_of_mem_sortOut isTag_of_mem_flatMap_splitTags, _, rfl, .sortOut _⟩
  | @onward levels tag x line y count left last z hfinds _ ih =>
      obtain ⟨hdeferred, htags, added, hadded, hcarries⟩ := ih
      rw [resolve_of_finds hfinds]
      simp only [flatMap_splitTags htags]
      let inner := (e.resolve levels line y).1
      refine ⟨hdeferred.trans hfinds.deferred_eq, isTag_of_mem_sortOut htags,
        added ++ (sortOut inner).2, ?_, ?_⟩
      · rw [← List.append_assoc, ← hadded]
        rfl
      · -- The tags of the references further in stand in front, but their order does not count.
        have hmoved : (↑(added ++ (sortOut inner).2) : Multiset String) =
            ↑(sortOut inner).2 + ↑added := by
          rw [← Multiset.coe_add, add_comm]
        rw [hmoved, ← add_assoc]
        exact hcarries.trans ((CarriesOver.sortOut inner).add (.refl 1 _))

/-- Whether a line is left as it is when so many levels are left. -/
def Expander.LeavesAsIs (e : Expander σ) (left : Nat) (line : String) (x : Expansion σ) : Prop :=
  left = 0 ∨ Request.ofTag line = .plain ∨
    ∃ r, Request.ofTag line = .reference r ∧ (e.look r x).1 = none

theorem resolve_of_leavesAsIs {left : Nat} {line : String} {x : Expansion σ}
    (h : e.LeavesAsIs left line x) :
    (e.resolve left line x).1 = [line] ∧
      (e.resolve left line x).2.context.deferred = x.context.deferred := by
  cases left with
  | zero => exact ⟨rfl, rfl⟩
  | succ left =>
      obtain h | h | ⟨r, hr, hlook⟩ := h
      · cases h
      · simp [Expander.resolve, h]
      · have hdeferred := deferred_look (e := e) r x
        rcases hrun : e.look r x with ⟨_ | found, y⟩
        · rw [hrun] at hdeferred
          simpa [Expander.resolve, hr, Expander.resolveReference, hrun] using hdeferred
        · rw [hrun] at hlook
          cases hlook

theorem deferred_of_blocks {left : Nat} {line : String} {x : Expansion σ} {pieces : List Piece}
    (h : Request.ofTag line = .blocks pieces) :
    (e.resolve left line x).2.context.deferred = x.context.deferred := by
  cases left with
  | zero => rfl
  | succ left =>
      have hpieces := deferred_resolvePieces (e := e) left "" pieces x
      simpa [Expander.resolve, h] using hpieces

/-- A reference keeps the tags with a star, or the first tag if there is none, and sets the others aside,
behind all that has been set aside for its line. So whatever line it leads to, by itself or through
others: the tags of that line are the ones that are kept and set aside, each of them once and with at
most one star off for every reference, and only tags of stars and blanks are gone. -/
theorem references_lose_no_tag (e : Expander σ) {token line : String} {x y : Expansion σ}
    (hfinds : e.Finds token x line y) (levels : Nat) :
    let inner := e.resolve levels line y
    let tags := inner.1.flatMap splitTags
    let outer := e.resolve (levels + 1) token x
    (∃ nested aside, inner.2.context.deferred = x.context.deferred ++ nested ∧
      outer.2.context.deferred = x.context.deferred ++ nested ++ aside ∧
      if ∃ tag ∈ tags, IsStarred tag then
        outer.1 = ((tags.filter IsStarred).map withoutStar).filter (· ≠ "") ∧
          aside = tags.filter (¬ IsStarred ·)
      else outer.1 = tags.take 1 ∧ aside = tags.drop 1) ∧
    ∀ count left last z, e.LeadsTo (levels + 1) token x count left last z →
      let final := e.resolve left last z
      ∃ nested added, final.2.context.deferred = x.context.deferred ++ nested ∧
        outer.2.context.deferred = x.context.deferred ++ nested ++ added ∧
        CarriesOver count ↑(final.1.flatMap splitTags) (↑outer.1 + ↑added) ∧
        (e.LeavesAsIs left last z → final.1 = [last] ∧ nested = []) ∧
        ∀ pieces, Request.ofTag last = .blocks pieces → nested = [] := by
  intro inner tags outer
  have houter : outer = ((sortOut tags).1, inner.2.defer (sortOut tags).2) :=
    resolve_of_finds hfinds levels
  constructor
  · obtain ⟨nested, hnested⟩ := (stepwise_deferred e).resolve levels line y
    rw [hfinds.deferred_eq] at hnested
    refine ⟨nested, (sortOut tags).2, hnested.symm, ?_, ?_⟩
    · rw [houter, hnested]
      rfl
    · rw [houter, sortOut_eq]
      split
      · exact ⟨rfl, rfl⟩
      · exact ⟨rfl, rfl⟩
  · intro count left last z hleads final
    obtain ⟨hdeferred, -, added, hadded, hcarries⟩ := hleads.carriesOver
    obtain ⟨nested, hnested⟩ := (stepwise_deferred e).resolve left last z
    rw [hdeferred] at hnested
    have hnone (h : final.2.context.deferred = z.context.deferred) : nested = [] := by
      rw [← hnested, hdeferred] at h
      simpa using h
    refine ⟨nested, added, hnested.symm, ?_, hcarries, fun hleaves => ?_, fun pieces hpieces => ?_⟩
    · rw [hnested]
      simp only [outer, hadded]
    · obtain ⟨hlast, hsame⟩ := resolve_of_leavesAsIs hleaves
      exact ⟨hlast, hnone hsame⟩
    · exact hnone (deferred_of_blocks hpieces)

/-- A reference to a reference: of four tags two are set aside, at one reference each, one loses two
stars, and a bare star is gone. -/
theorem references_lose_no_tag_chain :
    let chooser : Chooser Unit := ⟨fun count chance => (count - 1, chance)⟩
    let e : Expander Unit :=
      ⟨.ofList [("n", ["<m>"]), ("m", ["a, *b, **c, *"])], chooser, 10⟩
    let x : Expansion Unit := ⟨{ Context.initial with deferred := ["z"] }, (), []⟩
    let outer := e.resolve 5 "<n>" x
    (∃ y, e.Finds "<n>" x "<m>" y) ∧ outer.1 = ["c"] ∧
      outer.2.context.deferred = ["z", "a", "b"] ∧
      CarriesOver 2 ↑["a", "*b", "**c", "*"] (↑["c"] + ↑["a", "b"]) := by
  intro chooser e x outer
  have hfirst : e.Finds "<n>" x "<m>" (e.look (.chance "n") x).2 :=
    ⟨.chance "n", by decide +kernel, Prod.ext (by decide +kernel) rfl⟩
  have hsecond : e.Finds "<m>" (e.look (.chance "n") x).2 "a, *b, **c, *" _ :=
    ⟨.chance "m", by decide +kernel, Prod.ext (by decide +kernel) rfl⟩
  have hkept : outer.1 = ["c"] := by decide +kernel
  have haside : outer.2.context.deferred = ["z", "a", "b"] := by decide +kernel
  obtain ⟨nested, added, -, hadded, hcarries, hleaves, -⟩ :=
    (references_lose_no_tag e hfirst 4).2 _ _ _ _ (.onward hfirst (.found hsecond))
  obtain ⟨hlast, rfl⟩ := hleaves (Or.inr (Or.inl (by decide +kernel)))
  have hadded : ["z"] ++ ["a", "b"] = ["z"] ++ added := haside.symm.trans hadded
  obtain rfl : ["a", "b"] = added := List.append_cancel_left hadded
  have htags : ["a, *b, **c, *"].flatMap splitTags = ["a", "*b", "**c", "*"] := by decide +kernel
  rw [hlast, htags] at hcarries
  change CarriesOver 2 _ (↑outer.1 + _) at hcarries
  rw [hkept] at hcarries
  exact ⟨⟨_, hfirst⟩, hkept, haside, hcarries⟩

end PromptWeave.Wildcard
