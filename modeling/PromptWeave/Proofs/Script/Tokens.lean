import PromptWeave.Proofs.Outcome
import PromptWeave.Script.Lexer

/-!
# The tokens of a text

Each step of reading changes only what is at hand or finishes tokens, and a bracket among them changes
the number of open brackets. A property that is kept by both is kept by reading. So the end of the
script is never read, as its token is added behind the others when the text has ended, and the number
of open brackets is that of the brackets among the tokens.
-/
namespace PromptWeave.Script

/-- The number of open brackets behind a token if there are `n` before it. A bracket that closes
nothing is left as it is. -/
def TokenKind.openBehind (n : Nat) : TokenKind → Nat
  | mark .leftParen => n + 1
  | mark .leftBracket => n + 1
  | mark .rightParen => n - 1
  | mark .rightBracket => n - 1
  | _ => n

/-- The number of open brackets behind tokens from the start of a text on. -/
def openBehind (ts : List Token) : Nat := ts.foldl (fun n t => t.kind.openBehind n) 0

@[simp] theorem openBehind_nil : openBehind [] = 0 := rfl

@[simp] theorem openBehind_concat (ts : List Token) (t : Token) :
    openBehind (ts ++ [t]) = t.kind.openBehind (openBehind ts) := by
  simp [openBehind]

/-- A word is neither the end of the script nor a bracket. -/
theorem TokenKind.ofWord_eq (word : String) :
    (∃ k, TokenKind.ofWord word = .keyword k) ∨ TokenKind.ofWord word = .name word := by
  unfold TokenKind.ofWord
  split
  · exact .inl ⟨_, rfl⟩
  · exact .inr rfl

namespace LexState

/-- Finishes a token and opens or closes the bracket that it is. -/
def put (s : LexState) (k : TokenKind) : LexState :=
  { s.push k with nesting := k.openBehind s.nesting }

/-- Whether a property of what has been read does not depend on what is at hand, and every token but
the end of the script keeps it. -/
structure Lasts (I : LexState → Prop) : Prop where
  atHand {s : LexState} (line : Nat) (mode : LexMode) : I s → I ⟨line, s.nesting, s.tokens, mode⟩
  put {s : LexState} {k : TokenKind} : k ≠ .eof → I s → I (s.put k)

/-- Whether a state that is reached has a property. -/
def Reached (I : LexState → Prop) (x : Except SyntaxError LexState) : Prop := ∀ s, x = .ok s → I s

/-- Marks that are read by themselves are no brackets. -/
theorem openBehind_mark {c : Char} {m : Mark}
    (hm : loneMark? c = some m ∨ singleMark? c = some m ∨ doubleMark? c = some m) (n : Nat) :
    (TokenKind.mark m).openBehind n = n := by
  unfold singleMark? doubleMark? loneMark? at hm
  rcases hm with hm | hm | hm
  all_goals
    split at hm <;> cases hm
    all_goals rfl

section Reached

variable {I : LexState → Prop} {s : LexState}

theorem reached_ok (h : I s) : Reached I (.ok s) := by
  rintro _ ⟨⟩
  exact h

theorem reached_fail {fault : SyntaxFault} : Reached I (s.fail fault) := nofun

theorem reached_of_ite {p : Prop} [Decidable p] {x y : Except SyntaxError LexState}
    (hx : p → Reached I x) (hy : ¬p → Reached I y) : Reached I (if p then x else y) := by
  split
  case isTrue hp => exact hx hp
  case isFalse hp => exact hy hp

theorem reached_ite {p : Prop} [Decidable p] {x y : Except SyntaxError LexState} (hx : Reached I x)
    (hy : Reached I y) : Reached I (if p then x else y) :=
  reached_of_ite (fun _ => hx) fun _ => hy

theorem Reached.bind {J : LexState → Prop} {x : Except SyntaxError LexState}
    {f : LexState → Except SyntaxError LexState} (hx : Reached I x)
    (hf : ∀ s : LexState, I s → Reached J (f s)) : Reached J (x.bind f) := by
  intro s hok
  obtain ⟨s₁, hs₁, hs⟩ := PromptWeave.bind_eq_ok.1 hok
  exact hf s₁ (hx s₁ hs₁) s hs

end Reached

namespace Lasts

variable {I : LexState → Prop} (hI : Lasts I) {s : LexState}

include hI

/-- A token that is no bracket leaves the number of open brackets as it is. -/
theorem push {k : TokenKind} (hk : k ≠ .eof) (hplain : ∀ n, k.openBehind n = n) (h : I s) :
    I (s.push k) := by
  have hput := hI.put hk h
  rwa [LexState.put, hplain] at hput

theorem pushInt (h : I s) (read : List Char) : Reached I (s.pushInt read) :=
  reached_ite (reached_ok (hI.push nofun (fun _ => rfl) h)) reached_fail

theorem pushMark {c : Char} {m : Mark}
    (hm : loneMark? c = some m ∨ singleMark? c = some m ∨ doubleMark? c = some m) (h : I s) :
    I (s.push (.mark m)) :=
  hI.push nofun (openBehind_mark hm) h

theorem enter (h : I s) (c : Char) : Reached I (s.enter c) := by
  have hline : I (if s.nesting == 0 then s.push .newline else s) := by
    split
    · exact hI.push nofun (fun _ => rfl) h
    · exact h
  refine reached_ite (reached_ok (hI.atHand _ _ hline)) ?_
  refine reached_ite (reached_ok (hI.push nofun (fun _ => rfl) h)) ?_
  refine reached_ite (reached_ok h) ?_
  -- Characters that only change what is at hand.
  iterate 4 refine reached_ite (reached_ok (hI.atHand _ _ h)) ?_
  iterate 4 refine reached_ite (reached_ok (hI.put (k := .mark _) nofun h)) ?_
  refine reached_ite (reached_ok (hI.atHand _ _ h)) ?_
  split
  case h_1 m hm => exact reached_ok (hI.pushMark (.inl hm) h)
  case h_2 => exact reached_fail

theorem close (h : I s) : Reached I s.close := by
  unfold LexState.close
  split
  · exact reached_ok h
  · exact reached_ok (hI.atHand _ _ h)
  · exact reached_fail
  · exact reached_fail
  · exact hI.pushInt h _
  · exact (hI.pushInt h _).bind fun s hs => reached_ok (hI.push nofun (fun _ => rfl) hs)
  · exact reached_ok (hI.push nofun (fun _ => rfl) h)
  case h_8 read _ =>
    obtain ⟨k, hk⟩ | hk := TokenKind.ofWord_eq (String.ofList read.reverse)
    · rw [hk]
      exact reached_ok (hI.push nofun (fun _ => rfl) h)
    · rw [hk]
      exact reached_ok (hI.push nofun (fun _ => rfl) h)
  · split
    case h_1 m hm => exact reached_ok (hI.pushMark (.inr (.inl hm)) h)
    case h_2 => exact reached_fail

theorem closeThenEnter (h : I s) (c : Char) : Reached I (s.closeThenEnter c) :=
  (hI.close h).bind fun _ hs => hI.enter hs c

theorem step (h : I s) (c : Char) : Reached I (s.step c) := by
  have hnext := hI.closeThenEnter h c
  have hand (mode : LexMode) : Reached I (.ok { s with mode }) := reached_ok (hI.atHand _ mode h)
  unfold LexState.step
  split
  · exact hI.enter h c
  · exact reached_ite hnext (reached_ok h)
  · refine reached_ite reached_fail (reached_ite ?_ (reached_ite (hand _) (hand _)))
    exact reached_ok (hI.push nofun (fun _ => rfl) h)
  · split <;> exact hand _
  · exact reached_ite (hand _) (reached_ite (hand _) hnext)
  · exact reached_ite (hand _) hnext
  · exact reached_ite (hand _) hnext
  · exact reached_ite (hand _) hnext
  · refine reached_ite ?_ hnext
    split
    case h_1 m hm => exact reached_ok (hI.pushMark (.inr (.inr hm)) h)
    case h_2 => exact hnext

theorem steps (h : I s) (cs : List Char) : Reached I (s.steps cs) := by
  induction cs generalizing s with
  | nil => exact reached_ok h
  | cons c cs ih => exact (hI.step h c).bind fun s hs => ih hs

end Lasts

/-- No token that is read is the end of the script. -/
theorem lasts_open : Lasts fun s => ∀ t ∈ s.tokens, t.kind ≠ .eof where
  atHand _ _ h := h
  put hk h := List.forall_mem_cons.2 ⟨hk, h⟩

/-- The number of open brackets is that of the brackets among the tokens. -/
theorem lasts_nesting : Lasts fun s => s.nesting = openBehind s.tokens.reverse where
  atHand _ _ h := h
  put _ h := by simp [put, push, h]

/-- Tokens that have been read stay. -/
theorem lasts_tokens (ts : List Token) : Lasts fun s => ts <:+ s.tokens where
  atHand _ _ h := h
  put _ h := h.trans (List.suffix_cons _ _)

end LexState

/-- What is read of a text: the tokens, and behind them the end of the last statement and of the
script. -/
theorem tokenize_eq_ok {source : String} {tokens : List Token} (h : tokenize source = .ok tokens) :
    ∃ s s', LexState.start.steps source.toList = .ok s ∧ s.close = .ok s' ∧
      tokens = s'.tokens.reverse ++ [⟨s'.line, .newline⟩, ⟨s'.line, .eof⟩] := by
  obtain ⟨s, hs, hfinish⟩ := PromptWeave.bind_eq_ok.1 h
  cases hclose : s.close with
  | error e =>
      rw [LexState.finish, hclose] at hfinish
      cases hfinish
  | ok s' =>
      rw [LexState.finish, hclose] at hfinish
      cases hfinish
      exact ⟨s, s', hs, hclose, by simp⟩

/-- The last token of a text is the end of the script, and no other is. -/
theorem tokenize_ends {source : String} {tokens : List Token} (h : tokenize source = .ok tokens) :
    ∃ ts line, tokens = ts ++ [⟨line, .eof⟩] ∧ ∀ t ∈ ts, t.kind ≠ .eof := by
  obtain ⟨s, s', hs, hclose, rfl⟩ := tokenize_eq_ok h
  have hlasts := LexState.lasts_open
  have hopen := hlasts.close (hlasts.steps (s := .start) nofun source.toList s hs) s' hclose
  refine ⟨s'.tokens.reverse ++ [⟨s'.line, .newline⟩], s'.line, by simp, fun t ht => ?_⟩
  rcases List.mem_append.1 ht with ht | ht
  · exact hopen t (List.mem_reverse.1 ht)
  · obtain rfl := List.mem_singleton.1 ht
    nofun

end PromptWeave.Script
