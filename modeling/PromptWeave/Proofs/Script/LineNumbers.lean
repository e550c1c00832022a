import Mathlib
import PromptWeave.Proofs.Script.Layout

/-!
# The lines of tokens

While a text is read, what has been read is cut into tokens and one that is at hand. The line is counted
up at every end of a line but for those inside strings, so the lines of tokens are right as long as no
string goes on behind the end of a line. Main statement: `lines_right_unless_strings_span_lines`.
-/
namespace PromptWeave.Script

open PromptWeave.Text

/-! ### Between tokens -/

/-- What has been read where no token is at hand: the text is cut into tokens, and the line is counted as
the lines of the tokens are. -/
structure Between (text : List Char) (lexemes : List Lexeme) (s : LexState) : Prop where
  laid : Laid text lexemes
  tokens : s.tokens.reverse = lexemes.map (·.token)
  nesting : s.nesting = openAfter lexemes
  line : s.line + hiddenIn lexemes = 1 + breaks text
  counted : LinesCounted lexemes

namespace Between

open LexState

variable {text : List Char} {lexemes : List Lexeme} {s : LexState}

theorem start : Between [] [] .start where
  laid := .nil
  tokens := rfl
  nesting := rfl
  line := rfl
  counted _ _ _ hsplit := by simp at hsplit

theorem atHand (h : Between text lexemes s) (mode : LexMode) : Between text lexemes { s with mode } :=
  ⟨h.laid, h.tokens, h.nesting, h.line, h.counted⟩

/-- A token is finished. -/
theorem put (h : Between text lexemes s) {written : List Char} {kind : TokenKind}
    (hkind : IsToken written kind) (hline : written ≠ ['\n']) :
    Between (text ++ written) (lexemes ++ [⟨⟨s.line, kind⟩, text, written⟩]) (s.put kind) where
  laid := h.laid.token hkind fun hw => absurd hw hline
  tokens := by simp [LexState.put, push, h.tokens]
  nesting := by simp [LexState.put, h.nesting]
  line := by
    have hbreaks : breaks written = Lexeme.hidden ⟨⟨s.line, kind⟩, text, written⟩ :=
      IsToken.breaks_eq hkind hline
    have hcount := h.line
    simp only [hiddenIn_append, hiddenIn_singleton, breaks_append, LexState.put, push]
    omega
  counted := h.counted.concat h.line

/-- A token that is no bracket is finished. -/
theorem push (h : Between text lexemes s) {written : List Char} {kind : TokenKind}
    (hkind : IsToken written kind) (hline : written ≠ ['\n'])
    (hplain : kind.openBehind s.nesting = s.nesting) :
    Between (text ++ written) (lexemes ++ [⟨⟨s.line, kind⟩, text, written⟩]) (s.push kind) := by
  have hput := h.put hkind hline
  rwa [LexState.put, hplain] at hput

theorem pass (h : Between text lexemes s) {cs : List Char} (hcs : PassedOver s.nesting cs)
    (hline : '\n' ∉ cs) : Between (text ++ cs) lexemes s where
  laid := h.laid.pass (h.nesting ▸ hcs)
  tokens := h.tokens
  nesting := h.nesting
  line := by simpa [breaks_eq_zero hline] using h.line
  counted := h.counted

/-- An end of a line is passed over inside brackets, and elsewhere it is a token; the next line begins
behind it. -/
theorem lineBreak (h : Between text lexemes s) :
    let s' := if s.nesting == 0 then s.push .newline else s
    ∃ lexemes', Between (text ++ ['\n']) lexemes' { s' with line := s'.line + 1 } := by
  intro s'
  have hcount := h.line
  by_cases hopen : s.nesting = 0
  · have hs' : s' = s.push .newline := by simp [s', hopen]
    refine ⟨lexemes ++ [⟨⟨s.line, .newline⟩, text, ['\n']⟩], ?_, ?_, ?_, ?_, h.counted.concat h.line⟩
    · exact h.laid.token .lineBreak fun _ => h.nesting ▸ hopen
    · simp [hs', LexState.push, h.tokens]
    · simpa [hs', LexState.push, TokenKind.openBehind] using h.nesting
    · simp [hs', LexState.push, Lexeme.hidden, TokenKind.isStr, breaks] at hcount ⊢
      omega
  · have hs' : s' = s := by simp [s', hopen]
    refine ⟨lexemes, h.laid.pass (.lineBreak ?_), ?_, ?_, ?_, h.counted⟩
    · have hsome := h.nesting
      omega
    · simpa [hs'] using h.tokens
    · simpa [hs'] using h.nesting
    · simp [hs', breaks] at hcount ⊢
      omega

end Between

/-! ### The token at hand -/

/-- The characters of the token at hand, or of the comment. -/
def AtHand : LexMode → List Char → Prop
  | .plain, cs => cs = []
  | .comment, cs => ∃ rest, cs = '#' :: rest ∧ '\n' ∉ rest
  | .str quote read, cs => (quote = '"' ∨ quote = '\'') ∧
      ∃ written, cs = quote :: written ∧ Quoted quote written read.reverse
  | .escape quote read, cs => (quote = '"' ∨ quote = '\'') ∧
      ∃ written, cs = quote :: written ++ ['\\'] ∧ Quoted quote written read.reverse
  | .digits read, cs => cs = read.reverse ∧ Numeral read.reverse
  | .point read, cs => cs = read.reverse ++ ['.'] ∧ Numeral read.reverse
  | .places read, cs => cs = read.reverse ∧
      ∃ whole places, read.reverse = whole ++ '.' :: places ∧ Numeral whole ∧ Numeral places
  | .word read, cs => cs = read.reverse ∧
      ∃ c rest, read.reverse = c :: rest ∧ Opens c ∧ ∀ d ∈ rest, Continues d
  | .extensible first, cs => cs = [first] ∧ (LexState.doubleMark? first).isSome = true

/-- What has been read: tokens, and behind them what is at hand. -/
def Holds (text : List Char) (s : LexState) : Prop :=
  ∃ before cs lexemes, text = before ++ cs ∧ Between before lexemes s ∧ AtHand s.mode cs

/-- What has been read where no token is at hand. -/
def Rests (text : List Char) (s : LexState) : Prop := s.mode = .plain ∧ ∃ lexemes, Between text lexemes s

theorem Rests.holds {text : List Char} {s : LexState} (h : Rests text s) : Holds text s := by
  obtain ⟨hmode, lexemes, hbetween⟩ := h
  refine ⟨text, [], lexemes, by simp, hbetween, ?_⟩
  rw [hmode]
  rfl

namespace LexState

variable {text : List Char} {s : LexState}

/-- A token that is no bracket is finished behind what has been read. -/
theorem rests_push {lexemes : List Lexeme} (h : Between text lexemes s) {written : List Char}
    {kind : TokenKind} (hkind : IsToken written kind) (hline : written ≠ ['\n'])
    (hplain : ∀ n, kind.openBehind n = n) : Rests (text ++ written) (s.push kind) :=
  ⟨rfl, _, h.push hkind hline (hplain _)⟩

theorem rests_put {lexemes : List Lexeme} (h : Between text lexemes s) {written : List Char}
    {kind : TokenKind} (hkind : IsToken written kind) (hline : written ≠ ['\n']) :
    Rests (text ++ written) (s.put kind) :=
  ⟨rfl, _, h.put hkind hline⟩

theorem reached_pushInt {lexemes : List Lexeme} (h : Between text lexemes s) {read : List Char}
    (hread : Numeral read.reverse) : Reached (Rests (text ++ read.reverse)) (s.pushInt read) := by
  refine reached_of_ite (fun hrange => reached_ok ?_) fun _ => reached_fail
  refine rests_push h (.int hread hrange) ?_ fun _ => rfl
  intro hline
  exact not_mem_of_numeral hread (by simp [hline])

theorem rests_mark {lexemes : List Lexeme} (h : Between text lexemes s) {c : Char} {m : Mark}
    (hm : loneMark? c = some m ∨ singleMark? c = some m ∨ doubleMark? c = some m) :
    Rests (text ++ m.written) (s.push (.mark m)) :=
  rests_push h (.mark m) (by cases m <;> decide) (openBehind_mark hm)

/-- What was read as a word is a word or a keyword, and neither is a bracket. -/
theorem openBehind_ofWord (word : String) (n : Nat) : (TokenKind.ofWord word).openBehind n = n := by
  obtain ⟨k, hk⟩ | hk := TokenKind.ofWord_eq word
  · rw [hk]
    rfl
  · rw [hk]
    rfl

theorem rests_pushFloat {lexemes : List Lexeme} (h : Between text lexemes s) {read : List Char}
    (hread : AtHand (.places read) read.reverse) : Rests (text ++ read.reverse) (s.pushFloat read) := by
  obtain ⟨-, whole, places, hread, hwhole, hplaces⟩ := hread
  have hnone : '\n' ∉ whole ++ '.' :: places := by
    simp [not_mem_of_numeral hwhole, not_mem_of_numeral hplaces]
  rw [pushFloat, hread]
  refine rests_push h (.float hwhole hplaces) (fun hline => ?_) fun _ => rfl
  simp [hline] at hnone

theorem rests_pushWord {lexemes : List Lexeme} (h : Between text lexemes s) {read : List Char}
    (hread : AtHand (.word read) read.reverse) :
    Rests (text ++ read.reverse) (s.push (.ofWord (String.ofList read.reverse))) := by
  obtain ⟨-, c, rest, hread, hc, hrest⟩ := hread
  rw [hread]
  refine rests_push h (.word hc hrest) (fun hline => ?_) (openBehind_ofWord _)
  exact ne_newline_of_opens hc (List.cons.inj hline).1

/-- At the end of a token it is one of those that can stand in a script. -/
theorem reached_close (h : Holds text s) : Reached (Rests text) s.close := by
  obtain ⟨before, cs, lexemes, rfl, hbetween, hcs⟩ := h
  unfold LexState.close
  cases hmode : s.mode with
  | plain =>
      rw [hmode] at hcs
      obtain rfl : cs = [] := hcs
      exact reached_ok ⟨hmode, lexemes, by simpa using hbetween⟩
  | comment =>
      rw [hmode] at hcs
      obtain ⟨rest, rfl, hrest⟩ := hcs
      have hpass := hbetween.pass (.comment hrest) (by simp [hrest])
      exact reached_ok ⟨rfl, lexemes, hpass.atHand .plain⟩
  | str | escape => exact reached_fail
  | digits read =>
      rw [hmode] at hcs
      obtain ⟨rfl, hread⟩ := hcs
      exact reached_pushInt hbetween hread
  | point read =>
      rw [hmode] at hcs
      obtain ⟨rfl, hread⟩ := hcs
      refine (reached_pushInt hbetween hread).bind fun s' hs' => reached_ok ?_
      obtain ⟨-, lexemes', hbetween'⟩ := hs'
      have hdot := rests_mark hbetween' (c := '.') (m := .dot) (.inl rfl)
      rwa [List.append_assoc] at hdot
  | places read =>
      rw [hmode] at hcs
      obtain rfl := hcs.1
      exact reached_ok (rests_pushFloat hbetween hcs)
  | word read =>
      rw [hmode] at hcs
      obtain rfl := hcs.1
      exact reached_ok (rests_pushWord hbetween hcs)
  | extensible first =>
      rw [hmode] at hcs
      obtain ⟨rfl, -⟩ := hcs
      dsimp only
      cases hm : singleMark? first with
      | some m =>
          have hmark := rests_mark hbetween (.inr (.inl hm))
          rw [written_of_mark.1 (.inr hm)] at hmark
          exact reached_ok hmark
      | none => exact reached_fail

/-- Between tokens a character is passed over or begins a token. -/
theorem reached_enter (h : Rests text s) (c : Char) : Reached (Holds (text ++ [c])) (s.enter c) := by
  obtain ⟨hmode, lexemes, hbetween⟩ := h
  have hhand {mode : LexMode} (hm : AtHand mode [c]) : Holds (text ++ [c]) { s with mode } :=
    ⟨text, [c], lexemes, rfl, hbetween.atHand mode, hm⟩
  -- Brackets change the nesting, so they are put and not only pushed.
  have hbracket {m : Mark} (hm : m.written = [c]) : Holds (text ++ [c]) (s.put (.mark m)) := by
    have hput := rests_put hbetween (.mark m) (by cases m <;> decide)
    rw [hm] at hput
    exact hput.holds
  unfold enter
  refine reached_of_ite (fun hc => reached_ok ?_) fun hline => ?_
  · obtain rfl : c = '\n' := by simpa using hc
    obtain ⟨lexemes', hbreak⟩ := hbetween.lineBreak
    refine Rests.holds ⟨?_, lexemes', hbreak⟩
    by_cases hopen : s.nesting = 0
    · simp [hopen, push]
    · simp [hopen, hmode]
  have hne : c ≠ '\n' := by simpa using hline
  refine reached_of_ite (fun hc => reached_ok ?_) fun _ => ?_
  · obtain rfl : c = ';' := by simpa using hc
    exact (rests_push hbetween .semicolon (by decide) fun _ => rfl).holds
  refine reached_of_ite (fun hc => reached_ok ?_) fun _ => ?_
  · exact Rests.holds ⟨hmode, lexemes, hbetween.pass (.blank hc hne) (by simpa using hne.symm)⟩
  refine reached_of_ite (fun hc => reached_ok (hhand ?_)) fun _ => ?_
  · obtain rfl : c = '#' := by simpa using hc
    exact ⟨[], rfl, by simp⟩
  refine reached_of_ite (fun hc => reached_ok (hhand ?_)) fun _ => ?_
  · exact ⟨by simpa using hc, [], rfl, .nil⟩
  refine reached_of_ite (fun hc => reached_ok (hhand ⟨rfl, numeral_singleton hc⟩)) fun _ => ?_
  refine reached_of_ite (fun hc => reached_ok (hhand ?_)) fun _ => ?_
  · exact ⟨rfl, c, [], rfl, by simpa [Opens] using hc, by simp⟩
  iterate 4
    refine reached_of_ite (fun hc => reached_ok ?_) fun _ => ?_
    · exact hbracket (by rw [beq_iff_eq] at hc; rw [hc]; rfl)
  refine reached_of_ite (fun hc => reached_ok (hhand ⟨rfl, hc⟩)) fun _ => ?_
  split
  case h_1 m hm =>
    have hmark := rests_mark hbetween (.inl hm)
    rw [written_of_mark.1 (.inl hm)] at hmark
    exact reached_ok hmark.holds
  case h_2 => exact reached_fail

theorem reached_closeThenEnter (h : Holds text s) (c : Char) :
    Reached (Holds (text ++ [c])) (s.closeThenEnter c) :=
  (reached_close h).bind fun _ hs => reached_enter hs c

section Step

/-! One character more, for each kind of token at hand. Where the character does not belong to the token,
the token ends before it: that is `hnext`. -/

variable {before cs : List Char} {lexemes : List Lexeme} {c : Char}

/-- One more character of what is at hand. -/
theorem holds_more (h : Between before lexemes s) {mode : LexMode} (hmode : AtHand mode (cs ++ [c])) :
    Holds (before ++ cs ++ [c]) { s with mode } :=
  ⟨before, cs ++ [c], lexemes, by simp, h.atHand mode, hmode⟩

theorem reached_step_comment (h : Between before lexemes s) (hmode : s.mode = .comment)
    (hcs : AtHand .comment cs) (hnext : Reached (Holds (before ++ cs ++ [c])) (s.closeThenEnter c)) :
    Reached (Holds (before ++ cs ++ [c])) (s.step c) := by
  obtain ⟨rest, rfl, hrest⟩ := hcs
  simp only [step, hmode]
  refine reached_of_ite (fun _ => hnext) fun hline => reached_ok ?_
  have hne : c ≠ '\n' := by simpa using hline
  have hkept : AtHand .comment ('#' :: rest ++ [c]) := ⟨rest ++ [c], rfl, by simp [hrest, hne.symm]⟩
  have hmore := holds_more h hkept
  rwa [← hmode] at hmore

theorem reached_step_str (h : Between before lexemes s) {quote : Char} {read : List Char}
    (hmode : s.mode = .str quote read) (hcs : AtHand (.str quote read) cs) :
    Reached (Holds (before ++ cs ++ [c])) (s.step c) := by
  obtain ⟨hquote, written, rfl, hwritten⟩ := hcs
  simp only [step, hmode]
  refine reached_of_ite (fun _ => reached_fail) fun hline => ?_
  refine reached_of_ite (fun hend => reached_ok ?_) fun hend => ?_
  · obtain rfl : c = quote := by simpa using hend
    have hstr := rests_push h (.str hquote hwritten) (by simp) fun _ => rfl
    simpa using hstr.holds
  refine reached_of_ite (fun hbackslash => reached_ok (holds_more h ?_)) fun hbackslash =>
    reached_ok (holds_more h ?_)
  · obtain rfl : c = '\\' := by simpa using hbackslash
    exact ⟨hquote, written, rfl, hwritten⟩
  · refine ⟨hquote, written ++ [c], rfl, ?_⟩
    rw [List.reverse_cons]
    exact hwritten.plain (by simpa using hline) (by simpa using hend) (by simpa using hbackslash)

theorem reached_step_escape (h : Between before lexemes s) {quote : Char} {read : List Char}
    (hmode : s.mode = .escape quote read) (hcs : AtHand (.escape quote read) cs) :
    Reached (Holds (before ++ cs ++ [c])) (s.step c) := by
  obtain ⟨hquote, written, rfl, hwritten⟩ := hcs
  simp only [step, hmode]
  split
  case h_1 e he =>
    refine reached_ok (holds_more h ⟨hquote, written ++ ['\\', c], by simp, ?_⟩)
    rw [List.reverse_cons]
    exact hwritten.known he
  case h_2 he =>
    refine reached_ok (holds_more h ⟨hquote, written ++ ['\\', c], by simp, ?_⟩)
    simpa using hwritten.unknown he

theorem reached_step_digits (h : Between before lexemes s) {read : List Char}
    (hmode : s.mode = .digits read) (hcs : AtHand (.digits read) cs)
    (hnext : Reached (Holds (before ++ cs ++ [c])) (s.closeThenEnter c)) :
    Reached (Holds (before ++ cs ++ [c])) (s.step c) := by
  obtain ⟨rfl, hread⟩ := hcs
  simp only [step, hmode]
  refine reached_of_ite (fun hc => reached_ok (holds_more h ⟨?_, ?_⟩)) fun _ => ?_
  · simp
  · simpa using hread.concat hc
  refine reached_of_ite (fun hc => reached_ok (holds_more h ⟨?_, hread⟩)) fun _ => hnext
  rw [beq_iff_eq.1 hc]

theorem reached_step_point (h : Between before lexemes s) {read : List Char}
    (hmode : s.mode = .point read) (hcs : AtHand (.point read) cs)
    (hnext : Reached (Holds (before ++ cs ++ [c])) (s.closeThenEnter c)) :
    Reached (Holds (before ++ cs ++ [c])) (s.step c) := by
  obtain ⟨rfl, hread⟩ := hcs
  simp only [step, hmode]
  refine reached_of_ite (fun hc => reached_ok (holds_more h ⟨?_, read.reverse, [c], ?_⟩)) fun _ => hnext
  · simp
  · exact ⟨by simp, hread, numeral_singleton hc⟩

theorem reached_step_places (h : Between before lexemes s) {read : List Char}
    (hmode : s.mode = .places read) (hcs : AtHand (.places read) cs)
    (hnext : Reached (Holds (before ++ cs ++ [c])) (s.closeThenEnter c)) :
    Reached (Holds (before ++ cs ++ [c])) (s.step c) := by
  obtain ⟨rfl, whole, places, hread, hwhole, hplaces⟩ := hcs
  simp only [step, hmode]
  refine reached_of_ite (fun hc => reached_ok (holds_more h ⟨?_, whole, places ++ [c], ?_⟩)) fun _ =>
    hnext
  · simp
  · exact ⟨by simp [hread], hwhole, hplaces.concat hc⟩

theorem reached_step_word (h : Between before lexemes s) {read : List Char}
    (hmode : s.mode = .word read) (hcs : AtHand (.word read) cs)
    (hnext : Reached (Holds (before ++ cs ++ [c])) (s.closeThenEnter c)) :
    Reached (Holds (before ++ cs ++ [c])) (s.step c) := by
  obtain ⟨rfl, first, rest, hread, hfirst, hrest⟩ := hcs
  simp only [step, hmode]
  refine reached_of_ite (fun hc => reached_ok (holds_more h ⟨?_, first, rest ++ [c], ?_⟩)) fun _ => hnext
  · simp
  · refine ⟨by simp [hread], hfirst, fun d hd => ?_⟩
    rcases List.mem_append.1 hd with hd | hd
    · exact hrest d hd
    · rw [List.mem_singleton.1 hd]
      simpa [Continues] using hc

theorem reached_step_extensible (h : Between before lexemes s) {first : Char}
    (hmode : s.mode = .extensible first) (hcs : AtHand (.extensible first) cs)
    (hnext : Reached (Holds (before ++ cs ++ [c])) (s.closeThenEnter c)) :
    Reached (Holds (before ++ cs ++ [c])) (s.step c) := by
  obtain ⟨rfl, -⟩ := hcs
  simp only [step, hmode]
  refine reached_of_ite (fun hc => ?_) fun _ => hnext
  obtain rfl : c = '=' := by simpa using hc
  split
  case h_1 m hm =>
    have hmark := rests_mark h (.inr (.inr hm))
    rw [written_of_mark.2 hm] at hmark
    refine reached_ok ?_
    simpa using hmark.holds
  case h_2 => exact hnext

theorem reached_step (h : Holds text s) (c : Char) : Reached (Holds (text ++ [c])) (s.step c) := by
  have hnext := reached_closeThenEnter h c
  obtain ⟨before, cs, lexemes, rfl, hbetween, hcs⟩ := h
  cases hmode : s.mode with
  | plain =>
      rw [hmode] at hcs
      obtain rfl : cs = [] := hcs
      simp only [step, hmode]
      exact reached_enter ⟨hmode, lexemes, by simpa using hbetween⟩ c
  | comment => exact reached_step_comment hbetween hmode (hmode ▸ hcs) hnext
  | str => exact reached_step_str hbetween hmode (hmode ▸ hcs)
  | escape => exact reached_step_escape hbetween hmode (hmode ▸ hcs)
  | digits => exact reached_step_digits hbetween hmode (hmode ▸ hcs) hnext
  | point => exact reached_step_point hbetween hmode (hmode ▸ hcs) hnext
  | places => exact reached_step_places hbetween hmode (hmode ▸ hcs) hnext
  | word => exact reached_step_word hbetween hmode (hmode ▸ hcs) hnext
  | extensible => exact reached_step_extensible hbetween hmode (hmode ▸ hcs) hnext

end Step

theorem reached_steps (h : Holds text s) (cs : List Char) :
    Reached (Holds (text ++ cs)) (s.steps cs) := by
  induction cs generalizing text s with
  | nil => exact reached_ok (by simpa using h)
  | cons c cs ih =>
      refine (reached_step h c).bind fun s' hs' => ?_
      have hrest := ih hs'
      rwa [List.append_assoc] at hrest

end LexState

/-! ### Whole scripts -/

/-- A text that is read as tokens is cut into their characters and what is passed over between them. The
line of each token is one more than the ends of lines in front of its first character, but for those inside
the strings in front of it. So all tokens are on their lines exactly if no string goes on behind the end of
a line, as one with a backslash before it does. -/
theorem lines_right_unless_strings_span_lines {source : String} {tokens : List Token}
    (h : tokenize source = .ok tokens) :
    ∃ lexemes, LaidOut source.toList lexemes ∧ lexemes.map (·.token) = tokens ∧
      (∀ l ∈ lexemes, l.before ++ l.written <+: source.toList) ∧
      (∀ earlier l later, lexemes = earlier ++ l :: later →
        l.token.line + hiddenIn earlier = 1 + l.before.count '\n') ∧
      (OnTheirLines source.toList tokens ↔ ∀ l ∈ lexemes, ¬l.SpansLines) := by
  obtain ⟨s, s', hs, hclose, rfl⟩ := tokenize_eq_ok h
  have hstart : Holds [] .start := Rests.holds ⟨rfl, [], .start⟩
  have hread := LexState.reached_steps hstart source.toList s hs
  obtain ⟨-, lexemes, hbetween⟩ := LexState.reached_close hread s' hclose
  rw [List.nil_append] at hbetween
  -- The last two tokens are written with no characters at all.
  let newline : Lexeme := ⟨⟨s'.line, .newline⟩, source.toList, []⟩
  let eof : Lexeme := ⟨⟨s'.line, .eof⟩, source.toList, []⟩
  have hall : LaidOut source.toList (lexemes ++ [newline, eof]) := .ended hbetween.laid
  have htokens : (lexemes ++ [newline, eof]).map (·.token) =
      s'.tokens.reverse ++ [⟨s'.line, .newline⟩, ⟨s'.line, .eof⟩] := by
    rw [List.map_append, ← hbetween.tokens]
    rfl
  have hcounted : LinesCounted (lexemes ++ [newline, eof]) := by
    have hnewline := hbetween.counted.concat (l := newline) hbetween.line
    have heof := hnewline.concat (l := eof)
      (by simpa [newline, eof, Lexeme.hidden, TokenKind.isStr] using hbetween.line)
    simpa using heof
  refine ⟨lexemes ++ [newline, eof], hall, htokens, ?_, hcounted, ?_, fun hnone => ?_⟩
  · intro l hl
    rcases List.mem_append.1 hl with hl | hl
    · exact hbetween.laid.isPrefix l hl
    · have hend : l = newline ∨ l = eof := by simpa using hl
      rcases hend with rfl | rfl <;> simp [newline, eof]
  · intro hlines
    have hline : s'.line = 1 + breaks source.toList := hlines.line_eof
    have hcount := hbetween.line
    have hzero : hiddenIn (lexemes ++ [newline, eof]) = 0 := by
      simp [hiddenIn, newline, eof, Lexeme.hidden, TokenKind.isStr] at hcount ⊢
      omega
    exact hiddenIn_eq_zero_iff.1 hzero
  · refine ⟨lexemes ++ [newline, eof], hall, htokens, fun l hl => ?_⟩
    obtain ⟨earlier, later, hsplit⟩ := List.append_of_mem hl
    have hzero : hiddenIn earlier = 0 :=
      hiddenIn_eq_zero_iff.2 fun other hother => hnone other (by simp [hsplit, hother])
    have hcount := hcounted earlier l later hsplit
    omega

/-- A comment, brackets over two lines, and a string over two lines. -/
theorem lines_right_unless_strings_span_lines_of_both :
    let source := "xs = ['a # b', # c\n 15]\nys = \"c\\\nd\"; z"
    let tokens : List Token := [⟨1, .name "xs"⟩, ⟨1, .mark .assign⟩, ⟨1, .mark .leftBracket⟩,
      ⟨1, .str "a # b"⟩, ⟨1, .mark .comma⟩, ⟨2, .int 15⟩, ⟨2, .mark .rightBracket⟩, ⟨2, .newline⟩,
      ⟨3, .name "ys"⟩, ⟨3, .mark .assign⟩, ⟨3, .str "c\\\nd"⟩, ⟨3, .newline⟩, ⟨3, .name "z"⟩,
      ⟨3, .newline⟩, ⟨3, .eof⟩]
    tokenize source = .ok tokens ∧
      ∃ lexemes, LaidOut source.toList lexemes ∧ lexemes.map (·.token) = tokens ∧
        (∀ l ∈ lexemes, l.before ++ l.written <+: source.toList) ∧
        (∀ earlier l later, lexemes = earlier ++ l :: later →
          l.token.line + hiddenIn earlier = 1 + l.before.count '\n') ∧
        (OnTheirLines source.toList tokens ↔ ∀ l ∈ lexemes, ¬l.SpansLines) := by
  intro source tokens
  have htokens : tokenize source = .ok tokens := by cbv
  exact ⟨htokens, lines_right_unless_strings_span_lines htokens⟩

/-- A name on the third line of a script that is said to be on the second, as the first line ends inside a
string. -/
theorem line_lost_behind_string :
    let source := "x = 'a\\\nb'\ny"
    let tokens : List Token := [⟨1, .name "x"⟩, ⟨1, .mark .assign⟩, ⟨1, .str "a\\\nb"⟩, ⟨1, .newline⟩,
      ⟨2, .name "y"⟩, ⟨2, .newline⟩, ⟨2, .eof⟩]
    tokenize source = .ok tokens ∧ ¬OnTheirLines source.toList tokens := by
  intro source tokens
  refine ⟨by cbv, fun hlines => ?_⟩
  have hsplit : tokens = tokens.dropLast.dropLast ++ [⟨2, .newline⟩, ⟨2, .eof⟩] := rfl
  rw [hsplit] at hlines
  have hline : 2 = 1 + breaks source.toList := hlines.line_eof
  revert hline
  decide +kernel

end PromptWeave.Script
