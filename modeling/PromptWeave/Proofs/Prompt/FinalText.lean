import Mathlib.Data.List.Basic
import PromptWeave.Prompt.Formatting
import PromptWeave.Proofs.StableOrder

/-!
# What a finished prompt shows

Finishing a prompt puts the tags that count people in front and rewrites the others. The text then
shows every tag once, and tags with a paragraph break as often as they occur. Main statements:
`finished_prompt_keeps_every_tag` and `finalize_finalize`.
-/
namespace PromptWeave.Prompt

/-! ### Tags that count people -/

namespace People

/-- The tags of a list that count people of one kind. -/
def among (p : People) (tags : List String) : List String := tags.filter (· ∈ p.tags)

theorem among_cons_of_mem {p : People} {tag : String} (h : tag ∈ p.tags) (rest : List String) :
    p.among (tag :: rest) = tag :: p.among rest := List.filter_cons_of_pos (by simpa using h)

theorem among_cons_of_not_mem {p : People} {tag : String} (h : tag ∉ p.tags) (rest : List String) :
    p.among (tag :: rest) = p.among rest := List.filter_cons_of_neg (by simpa using h)

/-- The tags that count people of any kind. -/
def allTags : List String := boys.tags ++ girls.tags ++ others.tags

theorem ofTag?_of_mem_tags {p : People} : ∀ tag ∈ p.tags, ofTag? tag = some p := by
  cases p <;> decide +kernel

/-- A tag counts people of one kind at most. -/
theorem ofTag?_eq_some_iff {tag : String} {p : People} : ofTag? tag = some p ↔ tag ∈ p.tags := by
  constructor
  · intro h
    simpa using List.find?_some h
  · exact ofTag?_of_mem_tags tag

theorem isSome_ofTag?_iff {tag : String} : (ofTag? tag).isSome ↔ tag ∈ allTags := by
  simp only [Option.isSome_iff_exists, ofTag?_eq_some_iff, allTags, List.mem_append]
  constructor
  · rintro ⟨p, hp⟩
    cases p <;> simp [hp]
  · rintro ((h | h) | h)
    exacts [⟨_, h⟩, ⟨_, h⟩, ⟨_, h⟩]

/-- The place of a tag among those that count people; other tags come last. -/
def place (tag : String) : Nat := ((ofTag? tag).map rank).getD 3

theorem place_eq_rank_iff {tag : String} {p : People} : place tag = p.rank ↔ tag ∈ p.tags := by
  rw [← ofTag?_eq_some_iff, place]
  cases hq : ofTag? tag with
  | none => cases p <;> simp [rank]
  | some q => cases p <;> cases q <;> simp [rank]

/-- Between tags that count people the order is that of their places. -/
theorem peopleInOrder_eq {a b : String} (ha : a ∈ allTags) (hb : b ∈ allTags) :
    peopleInOrder a b = decide (place a ≤ place b) := by
  obtain ⟨p, hp⟩ := Option.isSome_iff_exists.1 (isSome_ofTag?_iff.2 ha)
  obtain ⟨q, hq⟩ := Option.isSome_iff_exists.1 (isSome_ofTag?_iff.2 hb)
  simp [peopleInOrder, place, hp, hq]

theorem among_eq_filter_place (p : People) (tags : List String) :
    p.among tags = tags.filter fun tag => place tag = p.rank := by
  simp only [among, place_eq_rank_iff]

/-- Sorting leaves the tags of one kind in the order in which they stood. -/
theorem among_mergeSort (p : People) (tags : List String) :
    p.among (tags.mergeSort fun a b => place a ≤ place b) = p.among tags := by
  rw [among_eq_filter_place, among_eq_filter_place]
  exact (ordered_mergeSort place tags).stable p.rank

theorem among_eq_nil_of_lt {p : People} {bound : Nat} (hbound : p.rank < bound) {tags : List String}
    (h : ∀ tag ∈ tags, bound ≤ place tag) : p.among tags = [] := by
  rw [among, List.filter_eq_nil_iff]
  intro tag htag hp
  have hplace : place tag = p.rank := place_eq_rank_iff.2 (of_decide_eq_true hp)
  have := h tag htag
  omega

/-- A list of tags in the order of their places names one kind of people after the other. -/
theorem eq_append_among {tags : List String} (hpeople : ∀ tag ∈ tags, tag ∈ allTags)
    (hsorted : tags.Pairwise fun a b => place a ≤ place b) :
    tags = boys.among tags ++ girls.among tags ++ others.among tags := by
  induction tags with
  | nil => rfl
  | cons tag rest ih =>
      obtain ⟨hfirst, hsorted⟩ := List.pairwise_cons.1 hsorted
      have hrest := ih (fun other hother => hpeople other (List.mem_cons_of_mem _ hother)) hsorted
      obtain ⟨p, hp⟩ := Option.isSome_iff_exists.1
        (isSome_ofTag?_iff.2 (hpeople tag List.mem_cons_self))
      have hmem : tag ∈ p.tags := ofTag?_eq_some_iff.1 hp
      have hapart (q : People) (hq : p ≠ q) : tag ∉ q.tags := fun h =>
        hq (Option.some.inj (hp.symm.trans (ofTag?_eq_some_iff.2 h)))
      rw [place_eq_rank_iff.2 hmem] at hfirst
      -- Behind the first tag comes none of the people that stand in front of its own.
      have hearlier (q : People) (hq : q.rank < p.rank) : q.among rest = [] :=
        among_eq_nil_of_lt hq hfirst
      cases p with
      | boys =>
          rw [among_cons_of_mem hmem, among_cons_of_not_mem (hapart girls (by decide)),
            among_cons_of_not_mem (hapart others (by decide)), List.cons_append, List.cons_append,
            ← hrest]
      | girls =>
          rw [hearlier boys (by decide), List.nil_append] at hrest
          rw [among_cons_of_not_mem (hapart boys (by decide)), hearlier boys (by decide),
            among_cons_of_mem hmem, among_cons_of_not_mem (hapart others (by decide)),
            List.nil_append, List.cons_append, ← hrest]
      | others =>
          rw [hearlier boys (by decide), hearlier girls (by decide), List.nil_append,
            List.nil_append] at hrest
          rw [among_cons_of_not_mem (hapart boys (by decide)), hearlier boys (by decide),
            among_cons_of_not_mem (hapart girls (by decide)), hearlier girls (by decide),
            among_cons_of_mem hmem, List.nil_append, List.nil_append, ← hrest]

/-- Sorted, the tags that count people are the boys, then the girls, then the others. -/
theorem mergeSort_peopleInOrder {tags : List String} (hpeople : ∀ tag ∈ tags, tag ∈ allTags) :
    tags.mergeSort peopleInOrder = boys.among tags ++ girls.among tags ++ others.among tags := by
  have hplaces : tags.mergeSort peopleInOrder = tags.mergeSort fun a b => place a ≤ place b := by
    have hmap := List.map_mergeSort (r := peopleInOrder) (s := fun a b => place a ≤ place b)
      (f := id) (l := tags) fun a ha b hb => peopleInOrder_eq (hpeople a ha) (hpeople b hb)
    simpa using hmap
  have hsorted := (ordered_mergeSort place tags).ascending
  have hall : ∀ tag ∈ tags.mergeSort fun a b => place a ≤ place b, tag ∈ allTags :=
    fun tag htag => hpeople tag (List.mem_mergeSort.1 htag)
  calc tags.mergeSort peopleInOrder
    _ = tags.mergeSort fun a b => place a ≤ place b := hplaces
    _ = _ := eq_append_among hall hsorted
    _ = boys.among tags ++ girls.among tags ++ others.among tags := by
      simp only [among_mergeSort]

end People

/-! ### Tags that are shown -/

/-- A tag with an empty line in it. -/
def Breaks (tag : String) : Prop := paragraphBreak.toList <:+: tag.toList

theorem hasBreak_iff {tag : String} : hasBreak tag ↔ Breaks tag := Text.occursIn_iff

instance (tag : String) : Decidable (Breaks tag) := decidable_of_iff _ hasBreak_iff

/-- The tags that a prompt shows when it has shown some tags before. -/
def shownBehind (before tags : List String) : List String :=
  (tags.zipIdx.filter fun (tag, i) => Breaks tag ∨ tag ∉ before ++ tags.take i).map Prod.fst

/-- The tags of a list that a prompt shows: those with a paragraph break, and each of the others where
it stands first. -/
def shown (tags : List String) : List String :=
  (tags.zipIdx.filter fun (tag, i) => Breaks tag ∨ tag ∉ tags.take i).map Prod.fst

theorem shownBehind_nil_eq_shown (tags : List String) : shownBehind [] tags = shown tags := rfl

@[simp] theorem shownBehind_nil (before : List String) : shownBehind before [] = [] := rfl

theorem shownBehind_cons (before : List String) (tag : String) (rest : List String) :
    shownBehind before (tag :: rest) =
      if Breaks tag ∨ tag ∉ before then tag :: shownBehind (before ++ [tag]) rest
      else shownBehind (before ++ [tag]) rest := by
  have hrest : ((rest.zipIdx.map (Prod.map id (· + 1))).filter fun (other, i) =>
      decide (Breaks other ∨ other ∉ before ++ (tag :: rest).take i)).map Prod.fst =
        shownBehind (before ++ [tag]) rest := by
    rw [List.filter_map, List.map_map, shownBehind]
    simp [Function.comp_def]
  rw [shownBehind, List.zipIdx_cons', List.filter_cons]
  by_cases hkept : Breaks tag ∨ tag ∉ before
  · simp only [List.take_zero, List.append_nil, hkept, decide_true, if_true, List.map_cons, hrest]
  · simp only [List.take_zero, List.append_nil, hkept, decide_false, Bool.false_eq_true, if_false,
      hrest]

/-- Dropping repeated tags keeps what is shown behind the tags that were passed. The set of tags that
were seen needs to hold no tag with a break: of these it is never asked. -/
theorem dropRepeated_eq {seen : Std.HashSet String} {before : List String}
    (hseen : ∀ tag, ¬Breaks tag → (tag ∈ seen ↔ tag ∈ before)) (kept tags : List String) :
    dropRepeated seen kept tags = kept.reverse ++ shownBehind before tags := by
  induction tags generalizing seen before kept with
  | nil => simp [dropRepeated]
  | cons tag rest ih =>
      rw [dropRepeated, shownBehind_cons]
      by_cases hbreak : Breaks tag
      · have hstill : ∀ other, ¬Breaks other → (other ∈ seen ↔ other ∈ before ++ [tag]) := by
          intro other hother
          have hne : other ≠ tag := fun h => hother (h ▸ hbreak)
          simp [hseen other hother, hne]
        rw [if_pos (hasBreak_iff.2 hbreak), if_pos (Or.inl hbreak), ih hstill]
        simp
      · have hcontains : seen.contains tag ↔ tag ∈ before :=
          Std.HashSet.mem_iff_contains.symm.trans (hseen tag hbreak)
        rw [if_neg (mt hasBreak_iff.1 hbreak)]
        by_cases hbefore : tag ∈ before
        · have hstill : ∀ other, ¬Breaks other → (other ∈ seen ↔ other ∈ before ++ [tag]) := by
            intro other hother
            simp only [hseen other hother, List.mem_append, List.mem_singleton]
            exact ⟨Or.inl, fun h => h.elim id fun h => h ▸ hbefore⟩
          rw [if_pos (hcontains.2 hbefore), if_neg (by simp [hbreak, hbefore]), ih hstill]
        · have hmore : ∀ other, ¬Breaks other →
              (other ∈ seen.insert tag ↔ other ∈ before ++ [tag]) := by
            intro other hother
            rw [Std.HashSet.mem_insert, beq_iff_eq, hseen other hother, List.mem_append,
              List.mem_singleton, or_comm, eq_comm]
          rw [if_neg (mt hcontains.1 hbefore), if_pos (Or.inr hbefore), ih hmore]
          simp

theorem dedupTags_eq_shown (tags : List String) : dedupTags tags = shown tags := by
  have hnone : ∀ tag, ¬Breaks tag → (tag ∈ (∅ : Std.HashSet String) ↔ tag ∈ ([] : List String)) := by
    simp
  rw [dedupTags, dropRepeated_eq hnone, shownBehind_nil_eq_shown, List.reverse_nil, List.nil_append]

theorem shown_sublist (tags : List String) : (shown tags).Sublist tags := by
  have hsub : ((tags.zipIdx.filter fun (tag, i) => decide (Breaks tag ∨ tag ∉ tags.take i)).map
      Prod.fst).Sublist (tags.zipIdx.map Prod.fst) := List.filter_sublist.map Prod.fst
  rwa [List.zipIdx_map_fst] at hsub

/-- How often a tag is shown behind other tags. -/
theorem count_shownBehind (tag : String) (before tags : List String) :
    (shownBehind before tags).count tag =
      if Breaks tag then tags.count tag
      else if tag ∈ before then 0 else min 1 (tags.count tag) := by
  induction tags generalizing before with
  | nil => simp
  | cons head rest ih =>
      rw [shownBehind_cons]
      by_cases hhead : head = tag
      · subst hhead
        by_cases hbreak : Breaks head <;> by_cases hbefore : head ∈ before <;>
          simp [hbreak, hbefore, ih]
      · have hother : tag ∈ before ++ [head] ↔ tag ∈ before := by simp [Ne.symm hhead]
        split <;> simp [hhead, ih, hother]

theorem count_shown (tag : String) (tags : List String) :
    (shown tags).count tag = if Breaks tag then tags.count tag else min 1 (tags.count tag) := by
  rw [← shownBehind_nil_eq_shown, count_shownBehind]
  simp

example : shown ["v", "a\n\nb", "v", "a\n\nb"] = ["v", "a\n\nb", "a\n\nb"] := by decide +kernel

theorem mem_shown_iff {tag : String} {tags : List String} : tag ∈ shown tags ↔ tag ∈ tags := by
  rw [← List.count_pos_iff, ← List.count_pos_iff, count_shown]
  split <;> omega

/-! ### The text -/

theorem infix_intercalate {piece : List Char} {pieces : List (List Char)} (h : piece ∈ pieces)
    (between : List Char) : piece <:+: between.intercalate pieces := by
  induction pieces with
  | nil => exact absurd h List.not_mem_nil
  | cons head rest ih =>
      cases rest with
      | nil => simp_all
      | cons next rest =>
          rw [List.intercalate_cons_cons]
          rcases List.mem_cons.1 h with rfl | hrest
          · rw [List.append_assoc]
            exact (List.prefix_append _ _).isInfix
          · exact (ih hrest).trans (List.suffix_append _ _).isInfix

/-- Each of the tags stands in the text of a prompt. -/
theorem infix_renderTags {tag : String} {tags : List String} (h : tag ∈ tags) :
    tag.toList <:+: (renderTags tags).toList := by
  have htag : tag.toList <:+: (renderTag tag).toList := by
    rw [renderTag]
    split
    · simp only [String.toList_append]
      exact List.infix_append _ _ _
    · exact List.infix_rfl
  have hpiece : (renderTag tag).toList ∈ (tags.map renderTag).map String.toList :=
    List.mem_map_of_mem (List.mem_map_of_mem h)
  rw [renderTags, joinTags, String.toList_intercalate]
  exact htag.trans (infix_intercalate hpiece _)

/-! ### Finishing -/

/-- The parts of a context that finishing a prompt leaves. -/
theorem finalize_eq (c : Context) :
    let all := c.main ++ c.deferred
    let leading := People.boys.among all ++ People.girls.among all ++ People.others.among all ++
      c.leading
    let main := (all.filter (· ∉ People.allTags)).map rewriteTag
    c.finalize = { c with
      leading, main
      deferred := []
      prompt := some (renderTags (shown (leading ++ main ++ c.trailing))) } := by
  intro all leading main
  let people := all.filter fun tag => (People.ofTag? tag).isSome
  have hamong (p : People) : p.among people = p.among all := by
    rw [People.among, List.filter_filter]
    apply List.filter_congr
    intro tag _
    by_cases hp : tag ∈ p.tags
    · simp [hp, People.ofTag?_eq_some_iff.2 hp]
    · simp [hp]
  have hleading : people.mergeSort peopleInOrder ++ c.leading = leading := by
    have hpeople : ∀ tag ∈ people, tag ∈ People.allTags := fun tag htag =>
      People.isSome_ofTag?_iff.1 (List.mem_filter.1 htag).2
    rw [People.mergeSort_peopleInOrder hpeople, hamong, hamong, hamong]
  have hmain : (all.filter (not ∘ fun tag => (People.ofTag? tag).isSome)).map rewriteTag = main := by
    congr 2
    funext tag
    by_cases htag : tag ∈ People.allTags
    · simp [htag, People.isSome_ofTag?_iff.2 htag]
    · simp [htag, mt People.isSome_ofTag?_iff.1 htag]
  simp only [Context.finalize, List.partition_eq_filter_filter, dedupTags_eq_shown]
  rw [hleading, hmain]

/-- A tag stays as it is or becomes what the table says. -/
theorem rewriteTag_eq_or_mem (tag : String) :
    rewriteTag tag = tag ∨ rewriteTag tag ∈ rewrites.map Prod.snd := by
  rw [rewriteTag]
  cases hlookup : rewrites.lookup tag with
  | none => exact Or.inl rfl
  | some other =>
      obtain ⟨front, rest, hmem, -⟩ := List.lookup_eq_some_iff.1 hlookup
      exact Or.inr (by simp [hmem])

/-- What tags become is not rewritten in turn. -/
theorem rewriteTag_rewriteTag (tag : String) : rewriteTag (rewriteTag tag) = rewriteTag tag := by
  have htable : ∀ other ∈ rewrites.map Prod.snd, rewriteTag other = other := by decide +kernel
  rcases rewriteTag_eq_or_mem tag with h | h
  · rw [h, h]
  · exact htable _ h

/-- No tag comes to count people. -/
theorem rewriteTag_not_mem_allTags {tag : String} (h : tag ∉ People.allTags) :
    rewriteTag tag ∉ People.allTags := by
  have htable : ∀ other ∈ rewrites.map Prod.snd, other ∉ People.allTags := by decide +kernel
  rcases rewriteTag_eq_or_mem tag with hsame | hother
  · rwa [hsame]
  · exact htable _ hother

/-- Finishing a prompt moves and rewrites tags and shows them, and does nothing else. Of the main tags
with those that were set aside, the ones that count people go in front of the leading tags, boys
before girls before others and otherwise in their order; the others stay in their order and each is
rewritten once. The text shows the tags from first to last, those with a paragraph break as often as
they occur and the others once, so that every tag can be read in it. -/
theorem finished_prompt_keeps_every_tag (c : Context) :
    let all := c.main ++ c.deferred
    let leading := People.boys.among all ++ People.girls.among all ++ People.others.among all ++
      c.leading
    let main := (all.filter (· ∉ People.allTags)).map rewriteTag
    let order := leading ++ main ++ c.trailing
    c.finalize = { c with
      leading, main
      deferred := []
      prompt := some (renderTags (shown order)) } ∧
    (shown order).Sublist order ∧
    (∀ tag ∈ order, tag ∈ shown order ∧ tag.toList <:+: (renderTags (shown order)).toList) ∧
    ∀ tag, (shown order).count tag =
      if Breaks tag then order.count tag else min 1 (order.count tag) := by
  intro all leading main order
  refine ⟨finalize_eq c, shown_sublist order, ?_, fun tag => count_shown tag order⟩
  intro tag htag
  have hshown : tag ∈ shown order := mem_shown_iff.2 htag
  exact ⟨hshown, infix_renderTags hshown⟩

/-- Finishing a prompt moves and rewrites nothing when nothing is set aside, the main tags count no
people and each of them stays what it is. -/
theorem finalize_of_settled {c : Context} (hdeferred : c.deferred = [])
    (hnone : ∀ tag ∈ c.main, tag ∉ People.allTags) (hsame : ∀ tag ∈ c.main, rewriteTag tag = tag) :
    c.finalize = { c with
      prompt := some (renderTags (shown (c.leading ++ c.main ++ c.trailing))) } := by
  have hamong (p : People) : p.among c.main = [] := by
    rw [People.among, List.filter_eq_nil_iff]
    intro tag htag hp
    have hcounts : (People.ofTag? tag).isSome := by
      rw [People.ofTag?_eq_some_iff.2 (of_decide_eq_true hp)]
      rfl
    exact hnone tag htag (People.isSome_ofTag?_iff.1 hcounts)
  have hmain : (c.main.filter (· ∉ People.allTags)).map rewriteTag = c.main := by
    rw [List.filter_eq_self.2 (by simpa using hnone), List.map_congr_left hsame, List.map_id']
  rw [finalize_eq]
  simp only [hdeferred, List.append_nil, hamong, List.nil_append, hmain]

/-- A finished prompt stays as it is when it is finished again. -/
theorem finalize_finalize (c : Context) : c.finalize.finalize = c.finalize := by
  have hmain : c.finalize.main =
      ((c.main ++ c.deferred).filter (· ∉ People.allTags)).map rewriteTag := by
    rw [finalize_eq]
  have hnone : ∀ tag ∈ c.finalize.main, tag ∉ People.allTags := by
    rw [hmain]
    intro tag htag
    obtain ⟨other, hother, rfl⟩ := List.mem_map.1 htag
    exact rewriteTag_not_mem_allTags (by simpa using (List.mem_filter.1 hother).2)
  have hsame : ∀ tag ∈ c.finalize.main, rewriteTag tag = tag := by
    rw [hmain]
    intro tag htag
    obtain ⟨other, -, rfl⟩ := List.mem_map.1 htag
    exact rewriteTag_rewriteTag other
  have hdeferred : c.finalize.deferred = [] := by
    rw [finalize_eq]
  rw [finalize_of_settled hdeferred hnone hsame, finalize_eq]

end PromptWeave.Prompt
