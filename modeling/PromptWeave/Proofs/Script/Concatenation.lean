import PromptWeave.Proofs.Script.Alignment
import PromptWeave.Proofs.Script.Brackets
import PromptWeave.Proofs.Script.Counters
import PromptWeave.Proofs.Script.Flow
import PromptWeave.Proofs.Script.Recognition

/-!
# Scripts one behind the other

A script that another follows on the next line is read as if it were alone, and so is the other. Two
alignments show it: of the first script alone and with the other behind it, and of the other script
alone and further down. Running the whole is running the first and then the other.
-/
namespace PromptWeave.Script

open Reader Level

/-! ### A script further down -/

/-- The tokens that have not been read, some lines further down. -/
def Cursor.down (lines : Nat) (c : Cursor) : Cursor :=
  ⟨c.current.down lines, c.later.map (Token.down lines)⟩

theorem Cursor.tokens_down (lines : Nat) (c : Cursor) :
    (c.down lines).tokens = c.tokens.map (Token.down lines) := rfl

theorem Cursor.behind_down (lines : Nat) (c : Cursor) :
    (c.down lines).behind = c.behind.down lines := by
  cases c with
  | mk current later => cases later <;> rfl

theorem Cursor.beforeIn_down (lines : Nat) (c : Cursor) : (c.down lines).beforeIn = c.beforeIn := by
  cases c with
  | mk current later => cases later <;> rfl

theorem Reader.skipNewlines_down (lines : Nat) (c : Cursor) :
    ∃ d, skipNewlines c = .ok ((), d) ∧ skipNewlines (c.down lines) = .ok ((), d.down lines) := by
  suffices ∀ later current, ∃ d, skipNewlines.go later current = .ok ((), d) ∧
      skipNewlines.go (later.map (Token.down lines)) (current.down lines) = .ok ((), d.down lines) from
    this c.later c.current
  intro later
  induction later with
  | nil => exact fun current => ⟨⟨current, []⟩, rfl, rfl⟩
  | cons next later ih =>
      intro current
      rw [List.map_cons, skipNewlines.go, skipNewlines.go, Token.down_kind]
      split
      · exact ih next
      · exact ⟨⟨current, next :: later⟩, rfl, rfl⟩

/-- A script and the same script some lines further down. -/
def Alignment.further (lines : Nat) : Alignment where
  lines := lines
  total := True
  Beside c c' := c' = c.down lines
  Parted _ _ := False
  current_eq := by
    rintro c _ rfl
    rfl
  behind := by
    rintro c _ rfl -
    exact c.behind_down lines
  beforeIn_eq := by
    rintro c _ rfl -
    exact c.beforeIn_down lines
  length_le := by
    rintro c _ rfl
    simp [Cursor.down]
  length_eq := by
    rintro c _ rfl -
    simp [Cursor.down]
  skip := by
    rintro c _ rfl
    obtain ⟨d, hd, hd'⟩ := skipNewlines_down lines c
    exact ⟨d, d.down lines, hd, hd', .inl rfl⟩
  parted := False.elim

/-! ### A script that another follows -/

section Followed

variable {c c' d last rest onward : Cursor} {t : Token} {ts : List Token}

theorem Cursor.Passes.behind (h : c.Passes (t :: ts) d) : c.behind.Passes ts d := by
  obtain ⟨m, hm, hd⟩ := passes_cons_iff.1 h
  obtain rfl := passes_singleton_iff.1 hm
  exact hd

theorem Cursor.Passes.beforeIn_eq (h : c.Passes [t] d) :
    c.beforeIn = (d.current.kind == .keyword .inWord) := by
  obtain rfl := passes_singleton_iff.1 h
  rfl

/-- Whether the same tokens stand before `last` and before `rest`, with an end of a line as the last of
them. -/
def Cursor.Share (last rest c c' : Cursor) : Prop :=
  ∃ ts line, c.Passes (ts ++ [⟨line, .newline⟩]) last ∧ c'.Passes (ts ++ [⟨line, .newline⟩]) rest

namespace Cursor.Share

theorem current_eq (h : Share last rest c c') : c'.current = c.current := by
  obtain ⟨ts, line, hc, hc'⟩ := h
  cases ts with
  | nil => rw [hc.current_eq, hc'.current_eq]
  | cons t ts => rw [Passes.current_eq hc, Passes.current_eq hc']

/-- Before another token than an end of a line, the shared tokens go on behind it. -/
theorem cases (h : Share last rest c c') (hk : c.current.kind ≠ .newline) :
    ∃ t, c.Passes [t] c.behind ∧ c'.Passes [t] c'.behind ∧ Share last rest c.behind c'.behind := by
  obtain ⟨ts, line, hc, hc'⟩ := h
  cases ts with
  | nil => exact absurd (by rw [hc.current_eq]) hk
  | cons t ts =>
      have hone {c d : Cursor} {us : List Token} (h : c.Passes (t :: us) d) : c.Passes [t] c.behind := by
        rw [Passes, h, List.cons_append, ← h.behind]
        rfl
      exact ⟨t, hone hc, hone hc', ts, line, Passes.behind hc, Passes.behind hc'⟩

theorem beforeIn_eq (h : Share last rest c c') (hk : c.current.kind ≠ .newline) :
    c'.beforeIn = c.beforeIn := by
  obtain ⟨t, hc, hc', hbehind⟩ := h.cases hk
  rw [hc.beforeIn_eq, hc'.beforeIn_eq, hbehind.current_eq]

theorem length_le (h : Share last rest c c') (hlast : last.later = []) :
    c.later.length ≤ c'.later.length := by
  obtain ⟨ts, line, hc, hc'⟩ := h
  have hlength := hc.length_eq
  have hlength' := hc'.length_eq
  simp only [tokens, List.length_cons, hlast, List.length_nil] at hlength hlength'
  omega

theorem later_ne (h : Share last rest c c') : c.later ≠ [] := by
  obtain ⟨ts, line, hc, -⟩ := h
  intro hnil
  have hlength := hc.length_eq
  simp only [tokens, List.length_cons, List.length_append, hnil, List.length_nil] at hlength
  omega

/-- Ends of lines are skipped up to another shared token or up to what is not shared. -/
theorem skip (h : Share last rest c c') (hlast : last.current.kind ≠ .newline)
    (hskip : skipNewlines rest = .ok ((), onward)) : ∃ d d', skipNewlines c = .ok ((), d) ∧
      skipNewlines c' = .ok ((), d') ∧ (Share last rest d d' ∨ d = last ∧ d' = onward) := by
  have hstay {c : Cursor} (hk : c.current.kind ≠ .newline) : skipNewlines c = .ok ((), c) :=
    skipNewlines_apply newlines_nil (passes_nil.2 rfl) hk
  obtain ⟨ts, line, hc, hc'⟩ := h
  induction ts generalizing c c' with
  | nil =>
      have hline : c.current.kind = .newline := by rw [hc.current_eq]
      have hline' : c'.current.kind = .newline := by rw [hc'.current_eq]
      rw [← skipNewlines_behind hline, ← skipNewlines_behind hline', passes_nil.1 hc.behind,
        passes_nil.1 hc'.behind, hstay hlast]
      exact ⟨last, onward, rfl, hskip, .inr ⟨rfl, rfl⟩⟩
  | cons t ts ih =>
      by_cases hk : c.current.kind = .newline
      · have hk' : c'.current.kind = .newline := by
          rw [Passes.current_eq hc']
          rw [Passes.current_eq hc] at hk
          exact hk
        rw [← skipNewlines_behind hk, ← skipNewlines_behind hk']
        exact ih (Passes.behind hc) (Passes.behind hc')
      · have hshare : Share last rest c c' := ⟨t :: ts, line, hc, hc'⟩
        have hk' : c'.current.kind ≠ .newline := by rwa [hshare.current_eq]
        exact ⟨c, c', hstay hk, hstay hk', .inl hshare⟩

end Cursor.Share

/-- A script that ends with the cursor `last`, and the same script with more behind its last end of a
line. There `rest` is found, and `onward` behind the ends of lines that it begins with. -/
def Alignment.followed (hkind : last.current.kind = .eof) (hlater : last.later = [])
    (hskip : skipNewlines rest = .ok ((), onward))
    (helif : onward.current.kind ≠ .keyword .elifWord)
    (helse : onward.current.kind ≠ .keyword .elseWord) : Alignment where
  lines := 0
  total := False
  Beside := Cursor.Share last rest
  Parted c c' := c = last ∧ c' = onward
  current_eq h := h.current_eq
  behind := by
    rintro c c' h (⟨⟨⟩⟩ | hk)
    obtain ⟨t, -, -, hbehind⟩ := h.cases hk
    exact hbehind
  beforeIn_eq := by
    rintro c c' h (⟨⟨⟩⟩ | hk)
    exact h.beforeIn_eq hk
  length_le h := h.length_le hlater
  length_eq := nofun
  skip h := h.skip (by rw [hkind]; nofun) hskip
  parted := by
    rintro _ _ ⟨rfl, rfl⟩
    exact ⟨nofun, hkind, helif, helse⟩

end Followed

/-! ### Reading up to the end of a script -/

theorem Reader.bind_congr {α β : Type} {r : Reader α} {f g : α → Reader β} {c : Cursor}
    (h : ∀ a d, r c = .ok (a, d) → f a d = g a d) : (r >>= f) c = (r >>= g) c := by
  rw [Reader.bind_apply, Reader.bind_apply]
  cases hr : r c with
  | error e => rfl
  | ok x => exact h x.1 x.2 hr

namespace Level

variable {n room room' : Nat} {inLoop : Bool} {c d : Cursor} {s : Stmt}

/-- A statement takes at least one token. -/
theorem length_lt_of_endedStatement (hc : c.Ended)
    (hok : (within n).endedStatement inLoop c = .ok (s, d)) :
    d.Ended ∧ d.later.length < c.later.length := by
  obtain ⟨t, ts, hpass, -⟩ := (sound_within n).endedStatement hc hok
  refine ⟨hc.of_passes hpass, ?_⟩
  have hlength := hpass.length_eq
  simp only [Cursor.tokens, List.length_cons] at hlength
  omega

/-- Statements up to the end of a script, with room for all of them. -/
def toEnd (inner : Level) : Reader (List Stmt) := do inner.script ((← left) + 1)

/-- A script is read up to its end behind the ends of lines that it begins with. -/
theorem readWithin_apply (n : Nat) (h : skipNewlines c = .ok ((), d)) :
    readWithin n c = (within n).toEnd d := bind_of_ok h

theorem toEnd_eq (inner : Level) (c : Cursor) :
    inner.toEnd c = inner.script (c.later.length + 1) c := rfl

theorem script_succ (inner : Level) (room : Nat) (hc : c.current.kind ≠ .eof) :
    inner.script (room + 1) c =
      (do let first ← inner.endedStatement false; return first :: (← inner.script room)) c := by
  rw [script, peek_bind]
  generalize c.current.kind = k at hc ⊢
  split
  · exact absurd rfl hc
  · rfl

/-- More room than there are tokens makes no difference. -/
theorem script_eq_of_lt (hc : c.Ended) (hroom : c.later.length < room)
    (hroom' : c.later.length < room') : (within n).script room c = (within n).script room' c := by
  induction room generalizing c room' with
  | zero => exact absurd hroom (Nat.not_lt_zero _)
  | succ room ih =>
      obtain _ | room' := room'
      · exact absurd hroom' (Nat.not_lt_zero _)
      by_cases heof : c.current.kind = .eof
      · rw [script_eof _ _ heof, script_eof _ _ heof]
      · rw [script_succ _ _ heof, script_succ _ _ heof]
        refine Reader.bind_congr fun s d hok => ?_
        obtain ⟨hd, hless⟩ := length_lt_of_endedStatement hc hok
        rw [Reader.bind_apply, Reader.bind_apply, @ih room' d hd (by omega) (by omega)]

/-- One statement is read after the other. -/
theorem toEnd_apply (hc : c.Ended) (heof : c.current.kind ≠ .eof) : (within n).toEnd c =
    (do let first ← (within n).endedStatement false; return first :: (← (within n).toEnd)) c := by
  rw [toEnd_eq, script_succ _ _ heof]
  refine Reader.bind_congr fun s d hok => ?_
  obtain ⟨hd, hless⟩ := length_lt_of_endedStatement hc hok
  rw [Reader.bind_apply, Reader.bind_apply, toEnd_eq,
    script_eq_of_lt hd hless (Nat.lt_succ_self _)]

theorem endedStatement_down (n lines : Nat) (inLoop : Bool) (c : Cursor) :
    (within n).endedStatement inLoop (c.down lines) =
      lowered lines (fun x => (x.1.down lines, x.2.down lines))
        ((within n).endedStatement inLoop c) := by
  have htally := (agrees_within (.further lines) n).endedStatement inLoop (c := c) rfl
  cases hread : (within n).endedStatement inLoop c with
  | error e =>
      rw [hread] at htally
      exact htally trivial
  | ok x =>
      rw [hread] at htally
      obtain ⟨_, hd, rfl | ⟨⟨⟩⟩⟩ := htally
      exact hd

/-- The statements of a script further down are those of the script, further down. -/
theorem toEnd_down (n lines : Nat) (c : Cursor) : (within n).toEnd (c.down lines) =
    lowered lines (fun x => (downAll lines x.1, x.2.down lines)) ((within n).toEnd c) := by
  have hscript (room : Nat) (c : Cursor) : (within n).script room (c.down lines) =
      lowered lines (fun x => (downAll lines x.1, x.2.down lines)) ((within n).script room c) := by
    induction room generalizing c with
    | zero => simp [script]
    | succ room ih =>
        by_cases heof : c.current.kind = .eof
        · have heof' : (c.down lines).current.kind = .eof := heof
          rw [script_eof _ _ heof, script_eof _ _ heof']
          simp
        · have heof' : (c.down lines).current.kind ≠ .eof := heof
          rw [script_succ _ _ heof, script_succ _ _ heof', Reader.bind_apply, Reader.bind_apply,
            endedStatement_down]
          refine lowered_bind fun x => ?_
          rw [Reader.bind_apply, Reader.bind_apply, ih]
          exact lowered_bind fun y => by simp
  rw [toEnd_eq, toEnd_eq, ← hscript]
  simp [Cursor.down]

section Followed

variable {last rest onward c' : Cursor} {body : List Stmt} (hkind : last.current.kind = .eof)
  (hlater : last.later = []) (hskip : skipNewlines rest = .ok ((), onward))
  (helif : onward.current.kind ≠ .keyword .elifWord)
  (helse : onward.current.kind ≠ .keyword .elseWord)

/-- Where a script is followed by more, its statements are read, and then what follows. -/
theorem toEnd_followed (hc : c.Ended) (hc' : c'.Ended) (hroom : c.later.length < room)
    (h : (Alignment.followed hkind hlater hskip helif helse).Onward c c')
    (hok : (within n).script room c = .ok (body, d)) :
    (within n).toEnd c' = ((within n).toEnd onward).map fun x => (body ++ x.1, x.2) := by
  induction room generalizing c c' body with
  | zero => exact absurd hroom (Nat.not_lt_zero _)
  | succ room ih =>
      rcases h with hbeside | ⟨rfl, rfl⟩
      · have heof : c.current.kind ≠ .eof := by
          rw [Ne, hc.eof_iff]
          exact hbeside.later_ne
        have heof' : c'.current.kind ≠ .eof := by rwa [hbeside.current_eq]
        rw [script_succ _ _ heof] at hok
        obtain ⟨s, m, hs, hmore⟩ := Reader.bind_eq_ok.1 hok
        obtain ⟨others, _, hothers, hpure⟩ := Reader.bind_eq_ok.1 hmore
        cases hpure
        obtain ⟨hm, hless⟩ := length_lt_of_endedStatement hc hs
        have htally := (agrees_within (.followed hkind hlater hskip helif helse) n).endedStatement
          false hbeside
        rw [hs] at htally
        obtain ⟨m', hs', honward⟩ := htally
        have hs' : (within n).endedStatement false c' = .ok (s, m') := by
          rw [hs']
          exact congrArg (fun s => Except.ok (s, m')) s.down_zero
        obtain ⟨hm', -⟩ := length_lt_of_endedStatement hc' hs'
        rw [toEnd_apply hc' heof', bind_of_ok hs', Reader.bind_apply,
          ih hm hm' (by omega) honward hothers]
        cases (within n).toEnd onward <;> rfl
      · rw [script_eof _ _ hkind] at hok
        cases hok
        cases (within n).toEnd c' <;> rfl

end Followed

end Level

theorem readWithin_down (n lines : Nat) (c : Cursor) : readWithin n (c.down lines) =
    lowered lines (fun x => (downAll lines x.1, x.2.down lines)) (readWithin n c) := by
  obtain ⟨d, hd, hd'⟩ := skipNewlines_down lines c
  rw [readWithin_apply n hd, readWithin_apply n hd', toEnd_down]

/-- A script that more follows is read, and then what follows. -/
theorem readWithin_followed {n line : Nat} {c c' rest : Cursor} {ts : List Token} {program : List Stmt}
    {d : Cursor} (hc : c.Ended) (hc' : c'.Ended)
    (hpass : c.Passes (ts ++ [⟨line, .newline⟩]) ⟨⟨line, .eof⟩, []⟩)
    (hpass' : c'.Passes (ts ++ [⟨line, .newline⟩]) rest)
    (hstart : ∀ (gap : List Token) (t : Token) us, rest.tokens = gap ++ t :: us → Newlines gap →
      t.kind ≠ .keyword .elifWord ∧ t.kind ≠ .keyword .elseWord)
    (hok : readWithin n c = .ok (program, d)) :
    readWithin n c' = (readWithin n rest).map fun x => (program ++ x.1, x.2) := by
  obtain ⟨onward, hskip, -⟩ := skipNewlines_down 0 rest
  obtain ⟨gap, hgap, honward⟩ := skipNewlines_eq_ok hskip
  obtain ⟨helif, helse⟩ := hstart gap onward.current onward.later honward hgap
  have hlast : (⟨⟨line, .eof⟩, []⟩ : Cursor).current.kind = .eof := rfl
  let A := Alignment.followed hlast rfl hskip helif helse
  obtain ⟨m, m', hm, hm', hbehind⟩ := A.skip ⟨ts, line, hpass, hpass'⟩
  obtain ⟨_, -, hbefore⟩ := skipNewlines_eq_ok hm
  obtain ⟨_, -, hbefore'⟩ := skipNewlines_eq_ok hm'
  rw [readWithin_apply n hm, toEnd_eq] at hok
  rw [readWithin_apply n hm', readWithin_apply n hskip]
  exact toEnd_followed rfl rfl hskip helif helse (hc.of_passes hbefore) (hc'.of_passes hbefore')
    (Nat.lt_succ_self _) hbehind hok

/-! ### Composing scripts -/

/-- Whether a text begins with an arm of a choice, which would go on with a choice before it. -/
def BeginsArm (source : String) : Prop :=
  ∃ gap t ts, tokenize source = .ok (gap ++ t :: ts) ∧ Newlines gap ∧
    (t.kind = .keyword .elifWord ∨ t.kind = .keyword .elseWord)

/-- No script begins with an arm. -/
theorem not_beginsArm {source : String} {program : List Stmt} (h : parse source = .ok program) :
    ¬ BeginsArm source := by
  rintro ⟨gap, t, ts, htokens, hgap, ht⟩
  obtain ⟨tokens, htokens', hscript⟩ := isScript_of_parse h
  cases htokens.symm.trans htokens'
  have hline : t.kind ≠ .newline := by rcases ht with ht | ht <;> rw [ht] <;> nofun
  generalize hall : gap ++ t :: ts = tokens at hscript
  cases hscript with
  | @mk gap' us line _ hgap' hbody =>
      -- Behind the ends of lines stands `t`, and there the body begins.
      obtain ⟨c, hc⟩ : ∃ c : Cursor, c.tokens = gap ++ t :: ts := by
        cases gap with
        | nil => exact ⟨⟨t, ts⟩, rfl⟩
        | cons first gap => exact ⟨⟨first, gap ++ t :: ts⟩, rfl⟩
      have hpass : c.Passes gap ⟨t, ts⟩ := hc
      have hpass' : c.Passes (gap' ++ us) ⟨⟨line, .eof⟩, []⟩ := by
        rw [Cursor.Passes, hc, hall, List.append_assoc]
        rfl
      obtain ⟨m, hm, hus⟩ := Cursor.passes_append_iff.1 hpass'
      obtain ⟨hstart, helif, helse⟩ := hbody.start hus (.inr rfl)
      have hskip := skipNewlines_apply hgap hpass hline
      rw [skipNewlines_apply hgap' hm hstart] at hskip
      cases hskip
      rcases ht with ht | ht
      · exact helif ht
      · exact helse ht

/-- What is read behind a script on the next line is what is read alone, further down. -/
theorem parse_append {a b : String} {program : List Stmt} {s s' : LexState}
    (hs : LexState.start.steps a.toList = .ok s) (hclose : s.close = .ok s') (h : s'.nesting = 0)
    (ha : parse a = .ok program) (hb : ¬ BeginsArm b) : parse (a ++ "\n" ++ b) =
      lowered s'.line (fun others => program ++ downAll s'.line others) (parse b) := by
  have htokens : tokenize a =
      .ok (s'.tokens.reverse ++ [⟨s'.line, .newline⟩] ++ [⟨s'.line, .eof⟩]) := by
    rw [tokenize, hs]
    change s.finish = _
    rw [LexState.finish, hclose]
    simp [Except.map]
  have hboth := tokenize_append hs hclose h b
  obtain ⟨c, hc, hended, hparse⟩ := cursor_of_tokenize htokens
  cases hother : tokenize b with
  | error e =>
      rw [parse, hboth, parse, hother]
      rfl
  | ok ts =>
      rw [hother, lowered_ok] at hboth
      obtain ⟨e, rfl, hended', hparse'⟩ := cursor_of_tokenize hother
      obtain ⟨c', hc', hended'', hparse''⟩ := cursor_of_tokenize hboth
      have hpass : c.Passes (s'.tokens.reverse ++ [⟨s'.line, .newline⟩]) ⟨⟨s'.line, .eof⟩, []⟩ := hc
      have hpass' : c'.Passes (s'.tokens.reverse ++ [⟨s'.line, .newline⟩]) (e.down s'.line) := by
        rw [Cursor.Passes, hc', List.append_assoc]
        rfl
      -- An arm at the front of the second script would go to a choice at the end of the first.
      have hstart (gap : List Token) (t : Token) (us : List Token)
          (hsplit : (e.down s'.line).tokens = gap ++ t :: us) (hgap : Newlines gap) :
          t.kind ≠ .keyword .elifWord ∧ t.kind ≠ .keyword .elseWord := by
        rw [Cursor.tokens_down] at hsplit
        obtain ⟨gap, after, htokens, rfl, hafter⟩ := List.map_eq_append_iff.1 hsplit
        obtain ⟨t, us, rfl, rfl, rfl⟩ := List.map_eq_cons_iff.1 hafter
        have hlines : Newlines gap := fun t ht =>
          hgap (t.down s'.line) (List.mem_map_of_mem ht)
        rw [htokens] at hother
        exact ⟨fun ht => hb ⟨gap, t, us, hother, hlines, .inl ht⟩,
          fun ht => hb ⟨gap, t, us, hother, hlines, .inr ht⟩⟩
      cases hread : readWithin maxNesting c with
      | error cause =>
          rw [hparse, hread] at ha
          cases ha
      | ok x =>
          rw [hparse, hread] at ha
          cases ha
          rw [hparse'', readWithin_followed hended hended'' hpass hpass' hstart hread, readWithin_down,
            hparse']
          cases readWithin maxNesting e <;> rfl

/-! ### Brackets where statements end -/

/-- What the number of open brackets is while a text with some tokens is read, and where it is zero. -/
structure BracketsKept (source : String) (tokens : List Token) : Prop where
  /-- The number that is kept is that of the brackets that are open behind the tokens read so far. -/
  counted (before after : List Char) : source.toList = before ++ after → ∃ s later,
    LexState.start.steps before = .ok s ∧ s.nesting = openBehind s.tokens.reverse ∧
      tokens = s.tokens.reverse ++ later
  /-- A bracket is closed only where one is open, so nothing is ever taken off zero. -/
  opened {before later : List Token} {t : Token} : tokens = before ++ t :: later →
    t.kind = .mark .rightParen ∨ t.kind = .mark .rightBracket → 0 < openBehind before
  /-- Behind every statement that is read, no bracket is open. -/
  closed {before : List Token} {n : Nat} {inLoop : Bool} {c d : Cursor} {s : Stmt} :
    tokens = before ++ c.tokens → (within n).endedStatement inLoop c = .ok (s, d) →
      ∃ ts, c.Passes ts d ∧ openBehind (before ++ ts) = 0

theorem endedStatement_eq_ok {n : Nat} {inLoop : Bool} {c d : Cursor} {s : Stmt} (hc : c.Ended)
    (hok : (within n).endedStatement inLoop c = .ok (s, d)) : ∃ ts gap m, c.Passes ts m ∧ m.Ends ∧
      m.Passes gap d ∧ Newlines gap := by
  obtain ⟨s, m, hs, hend⟩ := Reader.bind_eq_ok.1 hok
  obtain ⟨ts, hts, -⟩ := (sound_within n).statement inLoop c s m hc hs
  by_cases hends : m.Ends
  · rw [hends.ending_apply] at hend
    obtain ⟨_, d, hskip, hpure⟩ := Reader.bind_eq_ok.1 hend
    cases hpure
    obtain ⟨gap, hgap, hpass⟩ := skipNewlines_eq_ok hskip
    exact ⟨ts, gap, m, hts, hends, hpass, hgap⟩
  · rw [Reader.bind_apply, endOfStatement_fails hends] at hend
    cases hend

theorem bracketsKept {source : String} {tokens : List Token} {program : List Stmt}
    (htokens : tokenize source = .ok tokens) (hscript : IsScript tokens program) :
    BracketsKept source tokens where
  counted before after hsource := by
    obtain ⟨s', s'', hsteps, hclose, rfl⟩ := tokenize_eq_ok htokens
    rw [hsource, LexState.steps_append] at hsteps
    obtain ⟨s, hs, hrest⟩ := PromptWeave.bind_eq_ok.1 hsteps
    have hlasts := LexState.lasts_tokens s.tokens
    obtain ⟨later, hlater⟩ :=
      hlasts.close (hlasts.steps (List.suffix_refl _) after s' hrest) s'' hclose
    refine ⟨s, later.reverse ++ [⟨s''.line, .newline⟩, ⟨s''.line, .eof⟩], hs, ?_, ?_⟩
    · exact LexState.lasts_nesting.steps (s := .start) rfl before s hs
    · simp [← hlater]
  opened hsplit ht := by
    subst hsplit
    exact hscript.openBehind_pos ht
  closed {before n inLoop c d s} hsplit hok := by
    subst hsplit
    obtain ⟨c₀, hc₀, hended, -⟩ := cursor_of_tokenize htokens
    have hpass : c₀.Passes before c := hc₀
    obtain ⟨ts, gap, m, hts, hends, hgap, hlines⟩ := endedStatement_eq_ok (hended.of_passes hpass) hok
    refine ⟨ts ++ gap, hts.append hgap, ?_⟩
    rw [← List.append_assoc, openBehind_append_newlines hlines]
    have hsplit : before ++ c.tokens = (before ++ ts) ++ m.current :: m.later := by
      rw [hts, List.append_assoc]
      rfl
    rw [hsplit] at hscript
    refine hscript.openBehind_eq_zero ?_
    rcases hends with hk | hk | hk
    · exact .inl hk
    · exact .inr (.inr (.inl hk))
    · exact .inr (.inr (.inr hk))

/-! ### The whole -/

/-- Scripts compose by concatenation. With another script on the next line, a script is read as its own
statements and behind them those of the other, as many lines further down as the first text has, and
running all of them is running the script and, if it succeeds, what follows. The rest of a text that is
no script fails further down as it does alone, unless it begins with an arm of a choice. Behind each
statement all brackets are closed, and the counters of the parser are back where they were before it;
nothing is ever taken off a counter that it does not hold. -/
theorem scripts_compose_by_concatenation {a : String} {program : List Stmt}
    (ha : parse a = .ok program) : ∃ ts last, tokenize a = .ok (ts ++ [⟨last, .eof⟩]) ∧
      (∀ b others, parse b = .ok others →
        parse (a ++ "\n" ++ b) = .ok (program ++ downAll last others) ∧
        runProgram (program ++ downAll last others) =
          (do runProgram program; runProgram (downAll last others))) ∧
      (∀ b, ¬ BeginsArm b → parse (a ++ "\n" ++ b) =
        lowered last (fun others => program ++ downAll last others) (parse b)) ∧
      BracketsKept a (ts ++ [⟨last, .eof⟩]) ∧
      (∀ c k l n, k + n = maxNesting →
        Counting.Meets k l ((within n).endedStatement (decide (0 < l)) c)
          ((Nest.ofDepth maxNesting).endedStatement ⟨c, k, l⟩)) ∧
      ∀ c, Counting.Meets 0 0 (parseTokens.readScript c) (Nest.program ⟨c, 0, 0⟩) := by
  obtain ⟨tokens, htokens, hscript⟩ := isScript_of_parse ha
  have hbrackets := bracketsKept htokens hscript
  obtain ⟨s, s', hs, hclose, rfl⟩ := tokenize_eq_ok htokens
  have hlasts := LexState.lasts_nesting
  have hnesting := hlasts.close (hlasts.steps (s := .start) rfl a.toList s hs) s' hclose
  have hzero : s'.nesting = 0 := by
    rw [hnesting]
    exact hscript.openBehind_eq_zero (.inl rfl)
  have hparse (b : String) (hb : ¬ BeginsArm b) := parse_append hs hclose hzero ha hb
  have hsplit : s'.tokens.reverse ++ [⟨s'.line, .newline⟩, ⟨s'.line, .eof⟩] =
      s'.tokens.reverse ++ [⟨s'.line, .newline⟩] ++ [⟨s'.line, .eof⟩] := by simp
  rw [hsplit] at htokens hbrackets
  refine ⟨_, s'.line, htokens, fun b others hb => ⟨?_, ?_⟩, hparse, hbrackets, ?_, ?_⟩
  · rw [hparse b (not_beginsArm hb), hb]
    rfl
  · exact hscript.runProgram_append _
  · exact fun c k l n hk => Nest.counters_of_endedStatement hk c
  · exact Nest.counters_of_program

theorem scripts_compose_by_concatenation_lines :
    let a := "if x[0] \x7b\n y = [1,\n  -2] \x7d\nelse \x7b z() \x7d; w = 1"
    let b := "\nwhile y \x7b\n break \x7d"
    ∃ program others last, parse a = .ok program ∧ parse b = .ok others ∧
      parse (a ++ "\n" ++ b) = .ok (program ++ downAll last others) := by
  intro a b
  have hread : (parse a).toBool = true ∧ (parse b).toBool = true := by decide +kernel
  cases ha : parse a with
  | error e =>
      rw [ha] at hread
      cases hread.1
  | ok program =>
      cases hb : parse b with
      | error e =>
          rw [hb] at hread
          cases hread.2
      | ok others =>
          obtain ⟨_, last, -, hcompose, -⟩ := scripts_compose_by_concatenation ha
          exact ⟨program, others, last, rfl, rfl, (hcompose b others hb).1⟩

end PromptWeave.Script
