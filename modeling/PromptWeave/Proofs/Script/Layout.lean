import PromptWeave.Proofs.Script.Tokens

/-!
# How a script is laid out

A script is cut into the characters of its tokens and what is passed over between them: blanks, comments,
and ends of lines inside brackets. What stands before a token tells on which line it begins.
-/
namespace PromptWeave.Script

open PromptWeave.Text

/-! ### How tokens are written -/

/-- The characters of a mark. -/
def Mark.written : Mark → List Char
  | leftParen => ['(']
  | rightParen => [')']
  | leftBracket => ['[']
  | rightBracket => [']']
  | leftBrace => ['{']
  | rightBrace => ['}']
  | comma => [',']
  | dot => ['.']
  | colon => [':']
  | assign => ['=']
  | plusAssign => ['+', '=']
  | minusAssign => ['-', '=']
  | plus => ['+']
  | minus => ['-']
  | star => ['*']
  | slash => ['/']
  | percent => ['%']
  | equal => ['=', '=']
  | notEqual => ['!', '=']
  | less => ['<']
  | lessEqual => ['<', '=']
  | greater => ['>']
  | greaterEqual => ['>', '=']

/-- Whether characters between two quotes stand for others. -/
inductive Quoted (quote : Char) : List Char → List Char → Prop where
  | nil : Quoted quote [] []
  | plain {written meant : List Char} {c : Char} : Quoted quote written meant → c ≠ '\n' → c ≠ quote →
      c ≠ '\\' → Quoted quote (written ++ [c]) (meant ++ [c])
  | known {written meant : List Char} {c e : Char} : Quoted quote written meant →
      LexState.escaped? c = some e → Quoted quote (written ++ ['\\', c]) (meant ++ [e])
  /-- A backslash that means nothing stays, whatever comes behind it. -/
  | unknown {written meant : List Char} {c : Char} : Quoted quote written meant →
      LexState.escaped? c = none → Quoted quote (written ++ ['\\', c]) (meant ++ ['\\', c])

/-- Whether a character is in the front of a name. -/
def Opens (c : Char) : Prop := isLetter c = true ∨ c = '_'

/-- Whether a character is in a name, but for its front. -/
def Continues (c : Char) : Prop := isLetterOrNumber c = true ∨ c = '_'

/-- Whether characters are digits, and at least one. -/
structure Numeral (cs : List Char) : Prop where
  ne_nil : cs ≠ []
  isDigit : ∀ c ∈ cs, c.isDigit = true

/-- Whether characters are a token of a kind. -/
inductive IsToken : List Char → TokenKind → Prop where
  | lineBreak : IsToken ['\n'] .newline
  | semicolon : IsToken [';'] .newline
  | mark (m : Mark) : IsToken m.written (.mark m)
  | word {c : Char} {cs : List Char} : Opens c → (∀ d ∈ cs, Continues d) →
      IsToken (c :: cs) (.ofWord (String.ofList (c :: cs)))
  | int {cs : List Char} : Numeral cs → (Decimal.digitsValue cs : Int) ≤ greatestInt64 →
      IsToken cs (.int (Int64.ofNat (Decimal.digitsValue cs)))
  | float {cs ds : List Char} : Numeral cs → Numeral ds →
      IsToken (cs ++ '.' :: ds) (.float ((Decimal.readFloat? (cs ++ '.' :: ds)).getD 0.0))
  | str {quote : Char} {written meant : List Char} : quote = '"' ∨ quote = '\'' →
      Quoted quote written meant → IsToken (quote :: written ++ [quote]) (.str (String.ofList meant))

/-- Whether characters between tokens are passed over where some brackets are open. -/
inductive PassedOver (nesting : Nat) : List Char → Prop where
  | blank {c : Char} : isBlank c = true → c ≠ '\n' → PassedOver nesting [c]
  | lineBreak : 0 < nesting → PassedOver nesting ['\n']
  | comment {cs : List Char} : '\n' ∉ cs → PassedOver nesting ('#' :: cs)

/-! ### Lexemes -/

/-- A token with its characters, and all that stands before them in the text. -/
structure Lexeme where
  token : Token
  before : List Char
  written : List Char

/-- The number of brackets that are open behind tokens. -/
def openAfter (lexemes : List Lexeme) : Nat := openBehind (lexemes.map (·.token))

/-- Whether a text is cut into the characters of tokens and what is passed over. -/
inductive Laid : List Char → List Lexeme → Prop where
  | nil : Laid [] []
  | pass {text cs : List Char} {lexemes : List Lexeme} : Laid text lexemes →
      PassedOver (openAfter lexemes) cs → Laid (text ++ cs) lexemes
  | token {text written : List Char} {lexemes : List Lexeme} {t : Token} : Laid text lexemes →
      IsToken written t.kind → (written = ['\n'] → openAfter lexemes = 0) →
      Laid (text ++ written) (lexemes ++ [⟨t, text, written⟩])

/-- Whether the tokens of a whole text stand so. Behind all its characters come the end of the last
statement and of the script. -/
inductive LaidOut : List Char → List Lexeme → Prop where
  | ended {text : List Char} {lexemes : List Lexeme} {line : Nat} : Laid text lexemes →
      LaidOut text (lexemes ++ [⟨⟨line, .newline⟩, text, []⟩, ⟨⟨line, .eof⟩, text, []⟩])

/-- The ends of lines among characters. -/
def breaks (cs : List Char) : Nat := cs.count '\n'

/-- Whether a token is a string. -/
def TokenKind.isStr : TokenKind → Bool
  | .str _ => true
  | _ => false

/-- The ends of lines inside a token, if it is a string. -/
def Lexeme.hidden (l : Lexeme) : Nat := if l.token.kind.isStr then breaks l.written else 0

/-- The ends of lines inside strings. -/
def hiddenIn : List Lexeme → Nat
  | [] => 0
  | l :: rest => l.hidden + hiddenIn rest

@[simp] theorem openAfter_concat (lexemes : List Lexeme) (l : Lexeme) :
    openAfter (lexemes ++ [l]) = l.token.kind.openBehind (openAfter lexemes) := by
  simp [openAfter]

@[simp] theorem hiddenIn_append (lexemes more : List Lexeme) :
    hiddenIn (lexemes ++ more) = hiddenIn lexemes + hiddenIn more := by
  induction lexemes with
  | nil => simp [hiddenIn]
  | cons l rest ih =>
      rw [List.cons_append, hiddenIn, hiddenIn, ih]
      omega

@[simp] theorem hiddenIn_singleton (l : Lexeme) : hiddenIn [l] = l.hidden := rfl

@[simp] theorem breaks_append (cs ds : List Char) : breaks (cs ++ ds) = breaks cs + breaks ds :=
  List.count_append

theorem breaks_eq_zero {cs : List Char} (h : '\n' ∉ cs) : breaks cs = 0 := List.count_eq_zero.2 h

/-- What stands before a token, and the token, are in front of the text. -/
theorem Laid.isPrefix {text : List Char} {lexemes : List Lexeme} (h : Laid text lexemes) :
    ∀ l ∈ lexemes, l.before ++ l.written <+: text := by
  induction h with
  | nil => simp
  | pass _ _ ih => exact fun l hl => (ih l hl).trans (List.prefix_append _ _)
  | token _ _ _ ih =>
      intro l hl
      rcases List.mem_append.1 hl with hl | hl
      · exact (ih l hl).trans (List.prefix_append _ _)
      · obtain rfl := List.mem_singleton.1 hl
        exact List.prefix_rfl

/-! ### The characters of tokens -/

/-- The characters of a mark that is read. -/
theorem written_of_mark {c : Char} {m : Mark} :
    (LexState.loneMark? c = some m ∨ LexState.singleMark? c = some m → m.written = [c]) ∧
      (LexState.doubleMark? c = some m → m.written = [c, '=']) := by
  unfold LexState.loneMark? LexState.singleMark? LexState.doubleMark?
  refine ⟨?_, fun h => ?_⟩
  · rintro (h | h)
    all_goals
      split at h <;> cases h
      all_goals rfl
  · split at h <;> cases h
    all_goals rfl

theorem Numeral.concat {cs : List Char} (h : Numeral cs) {c : Char} (hc : c.isDigit = true) :
    Numeral (cs ++ [c]) where
  ne_nil := by simp
  isDigit d hd := by
    rcases List.mem_append.1 hd with hd | hd
    · exact h.isDigit d hd
    · rwa [List.mem_singleton.1 hd]

theorem numeral_singleton {c : Char} (hc : c.isDigit = true) : Numeral [c] :=
  ⟨by simp, by simpa using hc⟩

theorem not_mem_of_numeral {cs : List Char} (h : Numeral cs) : '\n' ∉ cs := fun hmem => by
  have hdigit := h.isDigit _ hmem
  simp at hdigit

theorem ne_newline_of_continues {c : Char} (h : Continues c) : c ≠ '\n' := by
  rintro rfl
  rcases h with h | h
  · revert h
    decide
  · revert h
    decide

theorem ne_newline_of_opens {c : Char} (h : Opens c) : c ≠ '\n' := by
  rintro rfl
  rcases h with h | h
  · revert h
    decide
  · revert h
    decide

/-- Only strings have ends of lines in them, and ends of lines themselves. -/
theorem IsToken.newline_not_mem {written : List Char} {kind : TokenKind} (h : IsToken written kind)
    (hline : written ≠ ['\n']) (hstr : kind.isStr = false) : '\n' ∉ written := by
  cases h with
  | lineBreak => exact absurd rfl hline
  | semicolon => decide
  | mark m => cases m <;> decide
  | word hc hcs =>
      intro hmem
      rcases List.mem_cons.1 hmem with hmem | hmem
      · exact ne_newline_of_opens hc hmem.symm
      · exact ne_newline_of_continues (hcs _ hmem) rfl
  | int hcs _ => exact not_mem_of_numeral hcs
  | float hcs hds => simp [not_mem_of_numeral hcs, not_mem_of_numeral hds]
  | str _ _ => cases hstr

/-- The ends of lines in a token that is not one itself are those that a string hides. -/
theorem IsToken.breaks_eq {t : Token} {text written : List Char} (h : IsToken written t.kind)
    (hline : written ≠ ['\n']) : breaks written = Lexeme.hidden ⟨t, text, written⟩ := by
  cases hstr : t.kind.isStr with
  | true => simp [Lexeme.hidden, hstr]
  | false => simpa [Lexeme.hidden, hstr] using breaks_eq_zero (h.newline_not_mem hline hstr)

/-! ### Lines -/

/-- Whether tokens are on the lines on which they begin, but for the ends of lines inside the strings
before them. -/
def LinesCounted (lexemes : List Lexeme) : Prop :=
  ∀ earlier l later, lexemes = earlier ++ l :: later →
    l.token.line + hiddenIn earlier = 1 + breaks l.before

theorem LinesCounted.concat {lexemes : List Lexeme} (h : LinesCounted lexemes) {l : Lexeme}
    (hl : l.token.line + hiddenIn lexemes = 1 + breaks l.before) : LinesCounted (lexemes ++ [l]) := by
  intro earlier other later hsplit
  rcases List.eq_nil_or_concat later with rfl | ⟨rest, last, rfl⟩
  · obtain ⟨rfl, hlast⟩ := List.append_inj' hsplit rfl
    obtain rfl := List.singleton_inj.1 hlast
    exact hl
  · have hcut : lexemes ++ [l] = (earlier ++ other :: rest) ++ [last] := by simpa using hsplit
    exact h earlier other rest (List.append_inj' hcut rfl).1

/-- Whether the tokens of a text are on the lines on which their characters begin. -/
def OnTheirLines (text : List Char) (tokens : List Token) : Prop :=
  ∃ lexemes, LaidOut text lexemes ∧ lexemes.map (·.token) = tokens ∧
    ∀ l ∈ lexemes, l.token.line = 1 + breaks l.before

/-- Whether a string goes on behind the end of a line. -/
def Lexeme.SpansLines (l : Lexeme) : Prop := l.token.kind.isStr = true ∧ '\n' ∈ l.written

theorem Lexeme.hidden_eq_zero_iff {l : Lexeme} : l.hidden = 0 ↔ ¬l.SpansLines := by
  rw [hidden, SpansLines]
  cases l.token.kind.isStr <;> simp [breaks, List.count_eq_zero]

theorem hiddenIn_eq_zero_iff {lexemes : List Lexeme} :
    hiddenIn lexemes = 0 ↔ ∀ l ∈ lexemes, ¬l.SpansLines := by
  induction lexemes with
  | nil => simp [hiddenIn]
  | cons l rest ih =>
      rw [hiddenIn, Nat.add_eq_zero_iff, Lexeme.hidden_eq_zero_iff, ih, List.forall_mem_cons]

/-- The script ends on the line of its last character, if its tokens are on their lines. -/
theorem OnTheirLines.line_eof {text : List Char} {ts : List Token} {line : Nat}
    (h : OnTheirLines text (ts ++ [⟨line, .newline⟩, ⟨line, .eof⟩])) : line = 1 + breaks text := by
  obtain ⟨all, hall, htokens, hlines⟩ := h
  cases hall with
  | @ended lexemes line' _ =>
      rw [List.map_append] at htokens
      obtain ⟨-, hends⟩ := List.append_inj' htokens rfl
      have hline : line' = line := by simpa using hends
      have hcount := hlines ⟨⟨line', .eof⟩, text, []⟩ (by simp)
      rw [← hline]
      exact hcount

end PromptWeave.Script
