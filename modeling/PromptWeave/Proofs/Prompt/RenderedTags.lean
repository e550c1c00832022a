import PromptWeave.Proofs.Prompt.FinalText
import PromptWeave.Proofs.Prompt.NormalTags

/-!
# Reading a finished prompt

The text of a prompt lists its tags again. The lines that a tag with a number sign stands on are blanks
around it, and a bare paragraph break is all blank, so that only the breaks are lost. Main statements:
`splitTags_renderTags`, `rendered_prompts_read_back`.
-/
namespace PromptWeave.Prompt

/-! ### The text lists what the tags list -/

/-- On lines of its own a tag lists what it listed before. -/
theorem splitTags_renderTag (tag : String) : splitTags (renderTag tag) = splitTags tag := by
  rw [renderTag]
  split
  · exact splitTags_surrounded (by decide) (by decide) tag
  · rfl

/-- Whatever the tags of a prompt are, its text lists what each of them lists. -/
theorem splitTags_renderTags (tags : List String) :
    splitTags (renderTags tags) = tags.flatMap splitTags := by
  rw [renderTags, splitTags_joinTags_eq_flatMap, List.flatMap_map]
  simp only [splitTags_renderTag]

/-! ### Paragraph breaks and tags in normal form -/

/-- Whether a tag is a bare paragraph break or in normal form. -/
def IsBreakOrTag (tag : String) : Prop := tag = paragraphBreak ∨ IsTag tag

instance (tag : String) : Decidable (IsBreakOrTag tag) := inferInstanceAs (Decidable (_ ∨ _))

theorem splitTags_paragraphBreak : splitTags paragraphBreak = [] := by decide +kernel

theorem IsTag.ne_paragraphBreak {tag : String} (h : IsTag tag) : tag ≠ paragraphBreak := by
  rintro rfl
  exact absurd h (by decide +kernel)

theorem flatMap_splitTags_of_isBreakOrTag {tags : List String} (h : ∀ tag ∈ tags, IsBreakOrTag tag) :
    tags.flatMap splitTags = tags.filter (· ≠ paragraphBreak) := by
  induction tags with
  | nil => rfl
  | cons tag rest ih =>
      obtain ⟨hfirst, hrest⟩ := List.forall_mem_cons.1 h
      rw [List.flatMap_cons, ih hrest]
      rcases hfirst with rfl | htag
      · rw [splitTags_paragraphBreak, List.filter_cons_of_neg (by simp), List.nil_append]
      · rw [htag.splitTags_eq, List.filter_cons_of_pos (by simpa using htag.ne_paragraphBreak),
          List.singleton_append]

theorem isBreakOrTag_rewriteTag {tag : String} (h : IsBreakOrTag tag) :
    IsBreakOrTag (rewriteTag tag) := by
  have htable : ∀ other ∈ rewrites.map Prod.snd, IsTag other := by decide +kernel
  rcases rewriteTag_eq_or_mem tag with hsame | hother
  · rwa [hsame]
  · exact Or.inr (htable _ hother)

/-! ### Finished prompts -/

namespace Context

/-- The tags of a prompt from first to last as they stand once it is finished, repeated ones included:
those that count people, the leading tags, the other main tags as they are rewritten, and the trailing
tags. -/
def finishedTags (c : Context) : List String :=
  let all := c.main ++ c.deferred
  People.boys.among all ++ People.girls.among all ++ People.others.among all ++ c.leading ++
    (all.filter (· ∉ People.allTags)).map rewriteTag ++ c.trailing

theorem prompt_finalize (c : Context) :
    c.finalize.prompt = some (renderTags (shown c.finishedTags)) := by
  rw [finalize_eq]
  rfl

/-- Finishing a prompt brings in no tags but paragraph breaks and tags in normal form. -/
theorem isBreakOrTag_of_mem_finishedTags {c : Context}
    (h : ∀ tag ∈ c.leading ++ c.main ++ c.trailing ++ c.deferred, IsBreakOrTag tag) :
    ∀ tag ∈ c.finishedTags, IsBreakOrTag tag := by
  simp only [List.forall_mem_append] at h
  obtain ⟨⟨⟨hleading, hmain⟩, htrailing⟩, hdeferred⟩ := h
  have hall : ∀ tag ∈ c.main ++ c.deferred, IsBreakOrTag tag :=
    List.forall_mem_append.2 ⟨hmain, hdeferred⟩
  have hamong (p : People) : ∀ tag ∈ p.among (c.main ++ c.deferred), IsBreakOrTag tag :=
    fun tag htag => hall tag (List.mem_of_mem_filter htag)
  have hrewritten : ∀ tag ∈ ((c.main ++ c.deferred).filter (· ∉ People.allTags)).map rewriteTag,
      IsBreakOrTag tag := by
    intro tag htag
    obtain ⟨other, hother, rfl⟩ := List.mem_map.1 htag
    exact isBreakOrTag_rewriteTag (hall other (List.mem_of_mem_filter hother))
  simp only [finishedTags, List.forall_mem_append]
  exact ⟨⟨⟨⟨⟨hamong _, hamong _⟩, hamong _⟩, hleading⟩, hrewritten⟩, htrailing⟩

end Context

/-- A prompt whose tags are paragraph breaks and tags in normal form reads back as its tags without the
breaks, whichever of them begin with a number sign or hold line breaks. So a finished prompt whose tags
were of this form, those that were set aside among them, reads back as the tags that it shows: each of
them once, where it stands first, and the ones with a paragraph break in them as often as they occur. -/
theorem rendered_prompts_read_back :
    (∀ tags, (∀ tag ∈ tags, IsBreakOrTag tag) →
      splitTags (renderTags tags) = tags.filter (· ≠ paragraphBreak)) ∧
    ∀ c : Context, (∀ tag ∈ c.leading ++ c.main ++ c.trailing ++ c.deferred, IsBreakOrTag tag) →
      ∃ text, c.finalize.prompt = some text ∧
        splitTags text = (shown c.finishedTags).filter (· ≠ paragraphBreak) := by
  have hrendered (tags : List String) (h : ∀ tag ∈ tags, IsBreakOrTag tag) :
      splitTags (renderTags tags) = tags.filter (· ≠ paragraphBreak) := by
    rw [splitTags_renderTags, flatMap_splitTags_of_isBreakOrTag h]
  refine ⟨hrendered, fun c h => ⟨_, c.prompt_finalize, hrendered _ fun tag htag => ?_⟩⟩
  exact Context.isBreakOrTag_of_mem_finishedTags h tag (mem_shown_iff.1 htag)

/-- A prompt with two paragraphs, a section, people and a tag that is rewritten and then repeated. -/
theorem rendered_prompts_read_back_sections :
    let tags := ["2boys", "#dusk", "peace sign", "\n\n", "rain\n\nfog", "\n\n", "rain\n\nfog", "lamp"]
    let c := { Context.initial with
      leading := ["#dusk"], main := ["v", "\n\n", "2boys", "rain\n\nfog", "\n\n"]
      trailing := ["rain\n\nfog", "lamp"], deferred := ["peace sign"] }
    (∀ tag ∈ tags, IsBreakOrTag tag) ∧
    splitTags (renderTags tags) =
      ["2boys", "#dusk", "peace sign", "rain\n\nfog", "rain\n\nfog", "lamp"] ∧
    (∀ tag ∈ c.leading ++ c.main ++ c.trailing ++ c.deferred, IsBreakOrTag tag) ∧
    ∃ text, c.finalize.prompt = some text ∧
      splitTags text = ["2boys", "#dusk", "peace sign", "rain\n\nfog", "rain\n\nfog", "lamp"] := by
  intro tags c
  have htags : ∀ tag ∈ tags, IsBreakOrTag tag := by decide +kernel
  have hcontext : ∀ tag ∈ c.leading ++ c.main ++ c.trailing ++ c.deferred, IsBreakOrTag tag := by
    decide +kernel
  have hshown : shown c.finishedTags = tags := by decide +kernel
  have hlisted : tags.filter (· ≠ paragraphBreak) =
      ["2boys", "#dusk", "peace sign", "rain\n\nfog", "rain\n\nfog", "lamp"] := by
    decide +kernel
  obtain ⟨text, htext, hread⟩ := rendered_prompts_read_back.2 c hcontext
  refine ⟨htags, (rendered_prompts_read_back.1 tags htags).trans hlisted, hcontext, text, htext, ?_⟩
  rw [hread, hshown, hlisted]

end PromptWeave.Prompt
