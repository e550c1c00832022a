import PromptWeave.Proofs.Script.ParserSoundness
import PromptWeave.Proofs.Script.StatementCompleteness
import PromptWeave.Proofs.Script.Tokens

/-!
# The parser accepts the grammar

The tokens of a text end with the end of the script and have it nowhere else. Of such tokens the parser
makes what the grammar does, except that it may refuse a script that is nested too deeply.
-/
namespace PromptWeave.Script

open Reader Level

/-- Reads a whole script with the readers of `n` levels. -/
def readWithin (n : Nat) : Reader (List Stmt) := do
  skipNewlines
  (within n).script ((← left) + 1)

theorem parseTokens_cons (first : Token) (later : List Token) :
    parseTokens (first :: later) = (readWithin maxNesting ⟨first, later⟩).map (·.1) := rfl

/-- What is read is in the grammar. -/
theorem isScript_of_read {n : Nat} {c d : Cursor} {program : List Stmt} (hc : c.Ended)
    (hok : readWithin n c = .ok (program, d)) : IsScript c.tokens program := by
  obtain ⟨_, m, hskip, hread⟩ := Reader.bind_eq_ok.1 hok
  obtain ⟨gap, hgap, hpass⟩ := skipNewlines_eq_ok hskip
  obtain ⟨_, _, hleft, hscript⟩ := Reader.bind_eq_ok.1 hread
  cases hleft
  obtain ⟨ts, line, hts, hbody⟩ :=
    (sound_within n).script (hc.of_passes hpass) (Nat.le_refl m.tokens.length) hscript
  rw [hpass, hts]
  exact .mk hgap hbody

/-- What is in the grammar is read, or there are fewer levels than tokens. -/
theorem read_of_isScript {c : Cursor} {program : List Stmt} (h : IsScript c.tokens program) (n : Nat) :
    ∃ d, Attains (n < c.tokens.length) (readWithin n c) (.ok (program, d)) := by
  generalize htokens : c.tokens = tokens at h
  cases h with
  | @mk gap ts line _ hgap hbody =>
      let d : Cursor := ⟨⟨line, .eof⟩, []⟩
      have hall : c.Passes (gap ++ ts) d := by
        rw [Cursor.Passes, htokens, List.append_assoc]
        rfl
      obtain ⟨m, hskip, hts⟩ := Cursor.passes_append_iff.1 hall
      have hstops : d.Stops := .inr rfl
      have hroom := hts.reaches.length_le
      rw [length_kinds] at hroom
      have hlength : (gap ++ (ts ++ [⟨line, .eof⟩]) : List Token).length =
        gap.length + ts.length + 1 := by simp; omega
      have hscript : Attains (n < ts.length) ((within n).script (m.later.length + 1) m)
          (.ok (program, d)) :=
        hbody.leads n _ _ m d d (loops_script _) (fun _ => rfl) hts hstops (by omega)
      refine ⟨d, .step (skipNewlines_apply hgap hskip (hbody.start hts hstops).1) ?_⟩
      exact .step (left_apply m) (hscript.mono (by omega))

theorem read_eq_of_isScript {c : Cursor} {program : List Stmt} (h : IsScript c.tokens program)
    {n : Nat} (hn : c.tokens.length ≤ n) : ∃ d, readWithin n c = .ok (program, d) := by
  obtain ⟨d, hd | ⟨hfew, -⟩⟩ := read_of_isScript h n
  · exact ⟨d, hd⟩
  · exact absurd hfew (Nat.not_lt.2 hn)

/-- Tokens stand for one script at most: with enough levels both are what is read. -/
theorem isScript_unique {c : Cursor} {program other : List Stmt} (h : IsScript c.tokens program)
    (h' : IsScript c.tokens other) : program = other := by
  obtain ⟨d, hd⟩ := read_eq_of_isScript h (Nat.le_refl _)
  obtain ⟨e, he⟩ := read_eq_of_isScript h' (Nat.le_refl _)
  rw [hd] at he
  exact (Prod.mk.inj (Except.ok.inj he)).1

/-- What the parser starts from. -/
theorem cursor_of_tokenize {source : String} {tokens : List Token} (h : tokenize source = .ok tokens) :
    ∃ c : Cursor, c.tokens = tokens ∧ c.Ended ∧
      parse source = (readWithin maxNesting c).map (·.1) := by
  obtain ⟨ts, line, rfl, hts⟩ := tokenize_ends h
  have hparse : parse source = parseTokens (ts ++ [⟨line, .eof⟩]) := by rw [parse, h]; rfl
  cases htokens : ts ++ [⟨line, .eof⟩] with
  | nil => simp at htokens
  | cons first later =>
      refine ⟨⟨first, later⟩, rfl, fun us t vs hsplit => ?_, ?_⟩
      · change first :: later = us ++ t :: vs at hsplit
        rw [← htokens] at hsplit
        rcases List.eq_nil_or_concat vs with rfl | ⟨vs, last, rfl⟩
        · obtain ⟨-, hlast⟩ := List.append_inj' hsplit rfl
          obtain ⟨rfl, -⟩ := List.cons.inj hlast
          simp
        · have hassoc : ts ++ [⟨line, .eof⟩] = (us ++ t :: vs) ++ [last] := by simpa using hsplit
          obtain ⟨rfl, -⟩ := List.append_inj' hassoc rfl
          have ht := hts t (by simp)
          simpa using ht
      · rw [hparse, htokens]
        exact parseTokens_cons first later

/-- What is made of a text is read of its tokens. -/
theorem readWithin_of_parse {source : String} {program : List Stmt} (h : parse source = .ok program) :
    ∃ c d : Cursor, tokenize source = .ok c.tokens ∧ c.Ended ∧
      readWithin maxNesting c = .ok (program, d) := by
  obtain ⟨tokens, htokens, -⟩ := PromptWeave.bind_eq_ok.1 h
  obtain ⟨c, rfl, hended, hparse⟩ := cursor_of_tokenize htokens
  rw [hparse] at h
  cases hread : readWithin maxNesting c with
  | error e =>
      rw [hread] at h
      cases h
  | ok x =>
      rw [hread] at h
      cases h
      exact ⟨c, x.2, htokens, hended, hread⟩

/-- What is read of a text is in the grammar. -/
theorem isScript_of_parse {source : String} {program : List Stmt} (h : parse source = .ok program) :
    ∃ tokens, tokenize source = .ok tokens ∧ IsScript tokens program := by
  obtain ⟨c, d, htokens, hended, hread⟩ := readWithin_of_parse h
  exact ⟨c.tokens, htokens, isScript_of_read hended hread⟩

/-- The parser makes of the tokens of a text what the grammar does, or it refuses a script that is
nested too deeply. Tokens stand for one script at most, and no script is refused that has no more
tokens than there are levels. -/
theorem parse_accepts_exactly_the_grammar {source : String} {tokens : List Token}
    (h : tokenize source = .ok tokens) :
    (∀ program, parse source = .ok program ↔
      IsScript tokens program ∧ ∀ line, parse source ≠ .error ⟨line, .nestedTooDeeply⟩) ∧
    (∀ program other, IsScript tokens program → IsScript tokens other → program = other) ∧
    (∀ program, IsScript tokens program → tokens.length ≤ maxNesting →
      parse source = .ok program) := by
  obtain ⟨c, rfl, hc, hparse⟩ := cursor_of_tokenize h
  refine ⟨fun program => ⟨fun hok => ⟨?_, fun line herror => ?_⟩, fun ⟨hscript, hdeep⟩ => ?_⟩,
    fun program other => isScript_unique, fun program hscript hshort => ?_⟩
  · cases hread : readWithin maxNesting c with
    | error cause =>
        rw [hparse, hread] at hok
        cases hok
    | ok result =>
        rw [hparse, hread] at hok
        cases hok
        exact isScript_of_read hc hread
  · rw [hok] at herror
    cases herror
  · obtain ⟨d, hd | ⟨-, line, hline⟩⟩ := read_of_isScript hscript maxNesting
    · rw [hparse, hd]
      rfl
    · refine absurd ?_ (hdeep line)
      rw [hparse, hline]
      rfl
  · obtain ⟨d, hd⟩ := read_eq_of_isScript hscript hshort
    rw [hparse, hd]
    rfl

theorem parse_accepts_exactly_the_grammar_loop :
    let source :=
      "while x not in [b for b in c if -b] \x7b\n x[0] += d[:2]\n if f(1,) \x7b break \x7d\n\x7d"
    ∃ tokens program, tokenize source = .ok tokens ∧ parse source = .ok program ∧
      IsScript tokens program := by
  intro source
  have hread : (tokenize source).toBool = true ∧ (parse source).toBool = true := by decide +kernel
  cases htokens : tokenize source with
  | error cause =>
      rw [htokens] at hread
      cases hread.1
  | ok tokens =>
      cases hprogram : parse source with
      | error cause =>
          rw [hprogram] at hread
          cases hread.2
      | ok program =>
          have hscript := ((parse_accepts_exactly_the_grammar htokens).1 program).1 hprogram
          exact ⟨tokens, program, rfl, rfl, hscript.1⟩

end PromptWeave.Script
