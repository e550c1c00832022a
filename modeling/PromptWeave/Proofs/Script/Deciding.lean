import PromptWeave.Proofs.Script.Recognition

/-!
# The token that decides

A reader decides what it does by the tokens that it passes over and by the one behind them. So where it
fails with a message that names a token, the tokens up to that one make it fail, whatever comes behind.
If the script ended before that token instead, the message would be another. Two exceptions go
beyond the current token: the word `not` is looked at together with the token behind it, and the arms of a
choice are looked for behind ends of lines.
-/
namespace PromptWeave.Script

open Reader

theorem Reader.bind_of_error {α β : Type} {c : Cursor} {r : Reader α} {s : α → Reader β} {e : SyntaxError}
    (h : r c = .error e) : (r >>= s) c = .error e := by
  rw [Reader.bind_apply, h]
  rfl

/-! ### Faults that name a token -/

/-- The token that a message names, if it names one. -/
def SyntaxFault.found? : SyntaxFault → Option TokenKind
  | .expected _ found => some found
  | .outsideLoop found => some found
  | .unexpected found => some found
  | _ => none

/-- Whether a fault is raised only when the token that it names has been passed over. -/
def SyntaxFault.isLate : SyntaxFault → Bool
  | .expected what _ => what == "a name"
  | .unexpected _ => true
  | _ => false

/-- The line on which a fault is reported that names the current token. -/
def SyntaxFault.lineAt (fault : SyntaxFault) (c : Cursor) : Nat :=
  if fault.isLate then c.behind.current.line else c.current.line

/-! ### Cursors that look the same -/

namespace Cursor

/-- Whether only the end of the script is left. -/
def AtEnd (c : Cursor) : Prop := c.current.kind = .eof ∧ c.later = []

/-- Whether the current tokens of two cursors are the same to a reader. The word `not` is, unless the word
`in` comes behind it only in the second. -/
def Alike (c c' : Cursor) : Prop :=
  c'.current.kind = c.current.kind ∧
    (c.current.kind = .keyword .notWord → c'.beforeIn = true → c.beforeIn = true)

/-- Whether a reader that has stopped before `c` would as well have stopped before `c'`. -/
def Follows (c c' : Cursor) : Prop := c.Alike c' ∨ c'.current.kind = .eof

/-- Whether another arm of a choice comes behind ends of lines. -/
def BeforeArm (c : Cursor) : Prop :=
  ∃ gap d, Newlines gap ∧ c.Passes gap d ∧
    (d.current.kind = .keyword .elifWord ∨ d.current.kind = .keyword .elseWord)

variable {c c' d d' e : Cursor} {ts us : List Token} {t : Token}

theorem AtEnd.follows (h : c'.AtEnd) : c.Follows c' := .inr h.1

theorem Follows.kind (h : c.Follows c') : c'.current.kind = c.current.kind ∨ c'.current.kind = .eof :=
  h.imp_left And.left

theorem AtEnd.ended (h : c.AtEnd) : c.Ended := by
  intro ts t us hsplit
  rw [tokens, h.2] at hsplit
  cases ts with
  | nil =>
      obtain ⟨rfl, rfl⟩ := List.cons.inj hsplit
      exact iff_of_true h.1 rfl
  | cons first ts => simp at hsplit

/-- From the end of the script nothing can be passed over. -/
theorem AtEnd.eq_of_passes (h : c.AtEnd) (hpass : c.Passes ts d) : ts = [] ∧ d = c := by
  have hlength := hpass.length_eq
  simp only [tokens, h.2, List.length_cons, List.length_nil] at hlength
  obtain rfl : ts = [] := List.length_eq_zero_iff.1 (by omega)
  exact ⟨rfl, (passes_nil.1 hpass).symm⟩

/-- Where two cursors stand before the same tokens, they have the same current token. -/
theorem current_eq_of_passes (hts : ts ≠ []) (h : c.Passes ts d) (h' : c'.Passes ts d') :
    c'.current = c.current := by
  cases ts with
  | nil => exact absurd rfl hts
  | cons t ts => exact h'.current_eq.trans h.current_eq.symm

theorem beforeIn_iff_of_passes (h : c.Passes [t] d) :
    c.beforeIn = true ↔ d.current.kind = .keyword .inWord := by
  obtain rfl := passes_singleton_iff.1 h
  exact (TokenKind.Fixed.keyword .inWord).beq_iff_eq

/-- What looks the same behind the same tokens looks the same before them. -/
theorem Follows.of_passes (h : c.Passes ts d) (h' : c'.Passes ts d') (hd : d.Follows d') :
    c.Follows c' := by
  match ts with
  | [] =>
      rwa [passes_nil.1 h, passes_nil.1 h']
  | [t] =>
      have hcurrent := current_eq_of_passes (by simp) h h'
      refine .inl ⟨congrArg Token.kind hcurrent, fun _ hin => (beforeIn_iff_of_passes h).2 ?_⟩
      have hword := (beforeIn_iff_of_passes h').1 hin
      rcases hd.kind with hkind | hkind
      · exact hkind.symm.trans hword
      · cases hkind.symm.trans hword
  | t :: u :: ts =>
      have hcurrent := current_eq_of_passes (by simp) h h'
      refine .inl ⟨congrArg Token.kind hcurrent, fun _ hin => ?_⟩
      obtain ⟨m, hm, hrest⟩ := passes_cons_iff.1 h
      obtain ⟨m', hm', hrest'⟩ := passes_cons_iff.1 h'
      rw [beforeIn_iff_of_passes hm, hrest.current_eq]
      rwa [beforeIn_iff_of_passes hm', hrest'.current_eq] at hin

/-- Before a script that has not ended, the current token is passed over. -/
theorem Ended.passes_behind (hc : c.Ended) (hk : c.current.kind ≠ .eof) : c.Passes [c.current] c.behind := by
  obtain ⟨-, ⟨heof, -⟩ | hpass⟩ := advance_eq_ok hc (advance_eq c)
  · exact absurd heof hk
  · exact hpass

theorem Ended.length_behind (hc : c.Ended) (hk : c.current.kind ≠ .eof) :
    c.behind.later.length + 1 = c.later.length := by
  have hlength := (hc.passes_behind hk).length_eq
  simp only [tokens, List.length_cons, List.length_nil] at hlength
  omega

theorem behind_eq_of_passes (h : c.Passes [t] d) : c.behind = d := by
  obtain rfl := passes_singleton_iff.1 h
  rfl

end Cursor

/-! ### Decided outcomes -/

variable {α β : Type}

/-- Whether an outcome at the end of a script is no failure with a fault that stands there already. -/
def Escapes (fault : SyntaxFault) (c : Cursor) : Except SyntaxError (α × Cursor) → Prop
  | .ok (_, d) => d = c
  | .error e => e.fault ≠ fault

/-- Whether what a reader comes to from the cursor `c` is decided by the tokens that it has passed over
and the one behind them. Where it succeeds, `r'` does the same on the same tokens with another behind them
that looks the same and stands to it as `Z` says. Where it fails with a message that names a token, `r'`
fails in the same way up to that token, and does not if the script ends there. The readers `r'` are those
that have room for some number of rounds. -/
def Decided (Z : Cursor → Cursor → Prop) (c : Cursor) (r' : Nat → Reader α) :
    Except SyntaxError (α × Cursor) → Prop
  | .ok (a, d) => ∃ ts, c.Passes ts d ∧ ∀ n c' d', ts.length < n → c'.Passes ts d' → d.Follows d' →
      Z d d' → r' n c' = .ok (a, d')
  | .error e => ∀ k, e.fault.found? = some k → ∃ ts d, c.Passes ts d ∧ d.current.kind = k ∧
      e.line = e.fault.lineAt d ∧ ∀ n c' d', ts.length < n → c'.Passes ts d' →
        (d.Alike d' → ∃ line, r' n c' = .error ⟨line, e.fault⟩) ∧
        (k ≠ .eof → d'.AtEnd → Escapes e.fault d' (r' n c'))

/-- Whether nothing is asked of the tokens further behind. -/
def Anywhere : Cursor → Cursor → Prop := fun _ _ => True

/-- Whether no arm of a choice comes behind the second cursor only. -/
def NoNewArm : Cursor → Cursor → Prop := fun c c' => c'.BeforeArm → c.BeforeArm

/-- Whether what a reader does is decided by the tokens that it passes over and the one behind them. -/
def Decides (Z : Cursor → Cursor → Prop) (r : Reader α) : Prop :=
  ∀ c, c.Ended → Decided Z c (fun _ => r) (r c)

/-- Whether a reader names no token at the end of a script but the end itself. -/
def NamesEnd (r : Reader α) : Prop := ∀ c, c.AtEnd →
  match r c with
  | .ok (_, d) => d = c
  | .error e => ∀ k, e.fault.found? = some k → k = .eof

section Rules

variable {Z : Cursor → Cursor → Prop} {c : Cursor} {r : Reader α} {k : TokenKind}

theorem Decided.namesEnd {r' : Nat → Reader α} (h : ∀ c, c.AtEnd → Decided Z c r' (r c)) : NamesEnd r := by
  intro c hc
  have hdecided := h c hc
  cases hr : r c with
  | ok x =>
      rw [hr] at hdecided
      obtain ⟨ts, hpass, -⟩ := hdecided
      exact (hc.eq_of_passes hpass).2
  | error e =>
      rw [hr] at hdecided
      intro k hk
      obtain ⟨ts, d, hpass, hkind, -⟩ := hdecided k hk
      obtain ⟨-, rfl⟩ := hc.eq_of_passes hpass
      exact hkind.symm.trans hc.1

theorem Decides.namesEnd (h : Decides Z r) : NamesEnd r := Decided.namesEnd fun c hc => h c hc.ended

/-- At the end of a script no reader fails with a fault that names another token. -/
theorem NamesEnd.escapes (h : NamesEnd r) (hc : c.AtEnd) {fault : SyntaxFault}
    (hfault : fault.found? = some k) (hk : k ≠ .eof) : Escapes fault c (r c) := by
  have hend := h c hc
  cases hr : r c with
  | ok x =>
      rw [hr] at hend
      exact hend
  | error e =>
      rw [hr] at hend
      rintro rfl
      exact hk (hend k hfault)

theorem namesEnd_pure {a : α} : NamesEnd (pure a) := fun _ _ => rfl

theorem NamesEnd.bind {s : α → Reader β} (h : NamesEnd r) (hs : ∀ a, NamesEnd (s a)) :
    NamesEnd (r >>= s) := by
  intro c hc
  have hfirst := h c hc
  rw [bind_apply]
  cases hr : r c with
  | ok x =>
      rw [hr] at hfirst
      obtain rfl : x.2 = c := hfirst
      exact hs x.1 x.2 hc
  | error e =>
      rw [hr] at hfirst
      exact hfirst

theorem namesEnd_ite {p : Prop} [Decidable p] {s : Reader α} (hr : NamesEnd r) (hs : NamesEnd s) :
    NamesEnd (if p then r else s) := by
  split
  · exact hr
  · exact hs

/-- A failure that names the current token names the end there. -/
theorem namesEnd_unexpected : NamesEnd (do fail (.unexpected (← peek)) : Reader α) := by
  intro c hc
  rintro k ⟨⟩
  exact hc.1

theorem decides_pure {a : α} : Decides Z (pure a) := by
  intro c _
  refine ⟨[], Cursor.passes_nil.2 rfl, fun n c' d' _ hpass _ _ => ?_⟩
  rw [Cursor.passes_nil.1 hpass]
  rfl

/-- A fault that names no token is none that is asked for. -/
theorem decides_fail {fault : SyntaxFault} (hfault : fault.found? = none) :
    Decides Z (fail fault : Reader α) := by
  intro c _ k hk
  cases hfault.symm.trans hk

theorem decides_fail_bind {fault : SyntaxFault} (hfault : fault.found? = none) {s : β → Reader α} :
    Decides Z (fail fault >>= s) := decides_fail (α := α) hfault

theorem Escapes.bind {s : α → Reader β} {fault : SyntaxFault} {d : Cursor} (h : Escapes fault d (r c))
    (hs : ∀ a, NamesEnd (s a)) (hd : d.AtEnd) (hfault : fault.found? = some k) (hk : k ≠ .eof) :
    Escapes fault d ((r >>= s) c) := by
  rw [bind_apply]
  cases hr : r c with
  | error e =>
      rw [hr] at h
      exact h
  | ok x =>
      rw [hr] at h
      obtain rfl : x.2 = d := h
      exact (hs x.1).escapes hd hfault hk

/-- Tokens are passed over, and what decides the rest decides all. -/
theorem Decided.past {x : Except SyntaxError (α × Cursor)} {q q' : Nat → Reader α} {ts : List Token}
    {d : Cursor} (hts : c.Passes ts d) (h : Decided Z d q x)
    (hsame : ∀ n c' d', ts.length < n → c'.Passes ts d' → d.Follows d' →
      ∃ m, n ≤ m + ts.length ∧ q' n c' = q m d') :
    Decided Z c q' x := by
  cases x with
  | ok x =>
      obtain ⟨us, hus, hrest⟩ := h
      refine ⟨ts ++ us, hts.append hus, fun n c' e' hn hpass hfollows hZ => ?_⟩
      obtain ⟨d', hd', he'⟩ := Cursor.passes_append_iff.1 hpass
      rw [List.length_append] at hn
      obtain ⟨m, hm, hsame⟩ := hsame n c' d' (by omega) hd' (hfollows.of_passes hus he')
      rw [hsame]
      exact hrest m d' e' (by omega) he' hfollows hZ
  | error e =>
      intro k hk
      obtain ⟨us, e', hus, hkind, hline, hrest⟩ := h k hk
      refine ⟨ts ++ us, e', hts.append hus, hkind, hline, fun n c' g' hn hpass => ?_⟩
      obtain ⟨d', hd', hg'⟩ := Cursor.passes_append_iff.1 hpass
      rw [List.length_append] at hn
      -- A token that looks the same and the end both follow, so the rest begins where it did.
      have hmiddle (hfollows : e'.Follows g') :=
        hsame n c' d' (by omega) hd' (hfollows.of_passes hus hg')
      refine ⟨fun halike => ?_, fun hne hat => ?_⟩
      · obtain ⟨m, hm, hsame⟩ := hmiddle (.inl halike)
        rw [hsame]
        exact (hrest m d' g' (by omega) hg').1 halike
      · obtain ⟨m, hm, hsame⟩ := hmiddle hat.follows
        rw [hsame]
        exact (hrest m d' g' (by omega) hg').2 hne hat

/-- Readers that do the same on cursors that look the same are decided by the same tokens. -/
theorem Decided.congr {x : Except SyntaxError (α × Cursor)} {r' r'' : Nat → Reader α}
    (h : Decided Z c r' x) (hsame : ∀ n c', 0 < n → c.Follows c' → r'' n c' = r' n c') :
    Decided Z c r'' x := by
  refine h.past (Cursor.passes_nil.2 rfl) fun n c' d' hn hpass hfollows => ?_
  obtain rfl := Cursor.passes_nil.1 hpass
  exact ⟨n, Nat.le_add_right _ _, hsame n c' hn hfollows⟩

/-- Where a reader fails, so do readers that begin with it. -/
theorem Decided.of_error {Z' : Cursor → Cursor → Prop} {q : Nat → Reader α} {q' : Nat → Reader β}
    {e : SyntaxError} (h : Decided Z' c q (.error e))
    (hsame : ∀ n c', ∃ s : α → Reader β, (∀ a, NamesEnd (s a)) ∧ q' n c' = (q n >>= s) c') :
    Decided Z c q' (.error e) := by
  intro k hk
  obtain ⟨ts, d, hts, hkind, hline, hrest⟩ := h k hk
  refine ⟨ts, d, hts, hkind, hline, fun n c' d' hn hpass => ?_⟩
  obtain ⟨hfails, hescapes⟩ := hrest n c' d' hn hpass
  obtain ⟨s, hs, hsame⟩ := hsame n c'
  rw [hsame]
  refine ⟨fun halike => ?_, fun hk' hat => (hescapes hk' hat).bind hs hat hk hk'⟩
  obtain ⟨line, hline⟩ := hfails halike
  exact ⟨line, bind_of_error hline⟩

/-- One reader after another. The readers that come second have room for as many rounds less as tokens
have been passed over before. -/
theorem Decided.bind {s : α → Reader β} {q : Nat → Reader α} {t : α → Nat → Reader β} {m : Nat}
    (h : Decided Anywhere c q (r c))
    (hs : ∀ a d, r c = .ok (a, d) → Decided Z d (t a) (s a d))
    (hmoves : ∀ a d, r c = .ok (a, d) → d.later.length + m ≤ c.later.length)
    (hend : ∀ a n, NamesEnd (t a n)) :
    Decided Z c (fun n => q n >>= fun a => t a (n - m)) ((r >>= s) c) := by
  rw [bind_apply]
  cases hr : r c with
  | ok x =>
      obtain ⟨a, d⟩ := x
      rw [hr] at h
      obtain ⟨ts, hts, hsame⟩ := h
      have hlength := hts.length_eq
      simp only [Cursor.tokens, List.length_cons] at hlength
      have hm := hmoves a d hr
      refine (hs a d hr).past hts fun n c' d' hn hpass hfollows => ⟨n - m, by omega, ?_⟩
      exact bind_of_ok (hsame n c' d' hn hpass hfollows trivial)
  | error e =>
      rw [hr] at h
      exact h.of_error fun n _ => ⟨fun a => t a (n - m), fun a => hend a _, rfl⟩

theorem Decided.passes {q : Nat → Reader α} {a : α} {d : Cursor} (h : Decided Z c q (r c))
    (hr : r c = .ok (a, d)) : ∃ ts, c.Passes ts d := by
  rw [hr] at h
  obtain ⟨ts, hts, -⟩ := h
  exact ⟨ts, hts⟩

theorem Decided.length_le {q : Nat → Reader α} {a : α} {d : Cursor} (h : Decided Z c q (r c))
    (hr : r c = .ok (a, d)) : d.later.length ≤ c.later.length := by
  obtain ⟨ts, hts⟩ := h.passes hr
  have hlength := hts.length_eq
  simp only [Cursor.tokens, List.length_cons] at hlength
  omega

/-- A reader with room for a number of rounds, and another behind it. -/
theorem Decided.andThen {q : Nat → Reader α} {s : α → Reader β} (h : Decided Anywhere c q (r c))
    (hc : c.Ended) (hs : ∀ a, Decides Z (s a)) : Decided Z c (fun n => q n >>= s) ((r >>= s) c) := by
  refine h.bind (m := 0) (t := fun a _ => s a) (fun a d hr => ?_) (fun a d hr => h.length_le hr)
    fun a _ => (hs a).namesEnd
  obtain ⟨ts, hts⟩ := h.passes hr
  exact hs a d (hc.of_passes hts)

theorem Decides.bind {s : α → Reader β} (h : Decides Anywhere r) (hs : ∀ a, Decides Z (s a)) :
    Decides Z (r >>= s) := fun c hc => (h c hc).andThen hc hs

/-- A reader with another behind it that has room for a number of rounds. -/
theorem Decides.bindRoom {t : α → Nat → Reader β} {m : Nat} (h : Decides Anywhere r) (hc : c.Ended)
    (room : Nat) (hmoves : ∀ a d, r c = .ok (a, d) → d.later.length + m ≤ c.later.length)
    (hend : ∀ a n, NamesEnd (t a n))
    (ht : ∀ a d, d.Ended → d.later.length + m ≤ c.later.length → Decided Z d (t a) (t a room d)) :
    Decided Z c (fun n => r >>= fun a => t a (n - m)) ((r >>= fun a => t a room) c) := by
  refine (h c hc).bind (fun a d hr => ?_) hmoves hend
  obtain ⟨ts, hts⟩ := (h c hc).passes hr
  exact ht a d (hc.of_passes hts) (hmoves a d hr)

theorem decides_ite {p : Prop} [Decidable p] {s : Reader α} (hr : Decides Z r) (hs : Decides Z s) :
    Decides Z (if p then r else s) := by
  split
  · exact hr
  · exact hs

/-- A reader that does something else at the end of the script is decided by the same tokens, if it passes
over the current token wherever it succeeds. -/
theorem Decided.ofKind {x : Except SyntaxError (α × Cursor)} {q q' : Nat → Reader α} (h : Decided Z c q x)
    (hmoves : ∀ a d, x = .ok (a, d) → d.later.length < c.later.length)
    (hsame : ∀ n c', 0 < n → c'.current.kind = c.current.kind → q' n c' = q n c')
    (hend : ∀ n, NamesEnd (q' n)) : Decided Z c q' x := by
  have hbehind {c' d d' : Cursor} {ts : List Token} {n : Nat} (hn : ts.length < n) (hne : ts ≠ [])
      (hts : c.Passes ts d) (hpass : c'.Passes ts d') : q' n c' = q n c' :=
    hsame n c' (by omega) (congrArg Token.kind (Cursor.current_eq_of_passes hne hts hpass))
  cases x with
  | ok x =>
      obtain ⟨ts, hts, hrest⟩ := h
      have hne : ts ≠ [] := by
        rintro rfl
        have hlength := hmoves x.1 x.2 rfl
        rw [Cursor.passes_nil.1 hts] at hlength
        exact absurd hlength (Nat.lt_irrefl _)
      refine ⟨ts, hts, fun n c' d' hn hpass hfollows hZ => ?_⟩
      rw [hbehind hn hne hts hpass]
      exact hrest n c' d' hn hpass hfollows hZ
  | error e =>
      intro k hk
      obtain ⟨ts, d, hts, hkind, hline, hrest⟩ := h k hk
      refine ⟨ts, d, hts, hkind, hline, fun n c' d' hn hpass => ?_⟩
      by_cases hne : ts = []
      · subst hne
        obtain rfl := Cursor.passes_nil.1 hpass
        obtain rfl := Cursor.passes_nil.1 hts
        refine ⟨fun halike => ?_, fun hk' hat => (hend n).escapes hat hk hk'⟩
        rw [hsame n c' hn halike.1]
        exact (hrest n c' c' hn hpass).1 halike
      · rw [hbehind hn hne hts hpass]
        exact hrest n c' d' hn hpass

/-- What is made of a value does not matter. -/
theorem Decided.map {q : Nat → Reader α} {f : α → β} (h : Decided Z c q (r c)) :
    Decided Z c (fun n => q n >>= fun a => pure (f a)) ((r >>= fun a => pure (f a)) c) := by
  rw [bind_apply]
  cases hr : r c with
  | ok x =>
      rw [hr] at h
      obtain ⟨ts, hts, hrest⟩ := h
      refine ⟨ts, hts, fun n c' d' hn hpass hfollows hZ => ?_⟩
      exact bind_of_ok (hrest n c' d' hn hpass hfollows hZ)
  | error e =>
      rw [hr] at h
      exact h.of_error fun n _ => ⟨_, fun _ => namesEnd_pure, rfl⟩

end Rules

/-! ### Rules for the elementary readers -/

section Elementary

variable {Z : Cursor → Cursor → Prop} {c : Cursor} {k : TokenKind}

/-- Whether a reader that is used only at tokens of the kind `k` is decided and, where it succeeds, passes
over a token. -/
structure Takes (k : TokenKind) (Z : Cursor → Cursor → Prop) (r : Reader α) : Prop where
  decided {c : Cursor} : c.Ended → c.current.kind = k → Decided Z c (fun _ => r) (r c)
  moves {c d : Cursor} {a : α} : c.Ended → c.current.kind = k → r c = .ok (a, d) →
    d.later.length < c.later.length

theorem takes_advance {s : TokenKind → Reader α} (hk : k ≠ .eof) (h : Decides Z (s k)) :
    Takes k Z (advance >>= s) where
  decided {c} hc hcurrent := by
    have hne : c.current.kind ≠ .eof := by rwa [hcurrent]
    have hfirst := hc.passes_behind hne
    rw [bind_of_ok (advance_eq c), hcurrent]
    refine (h c.behind (hc.of_passes hfirst)).past hfirst fun n c' d' _ hpass _ =>
      ⟨n, Nat.le_add_right _ _, ?_⟩
    rw [bind_of_ok (advance_eq c'), hpass.current_eq, hcurrent, Cursor.behind_eq_of_passes hpass]
  moves {c d a} hc hcurrent hok := by
    have hne : c.current.kind ≠ .eof := by rwa [hcurrent]
    rw [bind_of_ok (advance_eq c), hcurrent] at hok
    have hrest := (h c.behind (hc.of_passes (hc.passes_behind hne))).length_le hok
    have hfirst := hc.length_behind hne
    omega

theorem Takes.bind {r : Reader α} {s : α → Reader β} (h : Takes k Anywhere r) (hs : ∀ a, Decides Z (s a)) :
    Takes k Z (r >>= s) where
  decided hc hcurrent := (h.decided hc hcurrent).andThen hc hs
  moves {c d b} hc hcurrent hok := by
    obtain ⟨a, m, hr, hsok⟩ := Reader.bind_eq_ok.1 hok
    obtain ⟨ts, hts⟩ := (h.decided hc hcurrent).passes hr
    have hfirst := h.moves hc hcurrent hr
    have hrest := (hs a m (hc.of_passes hts)).length_le hsok
    omega

/-- What is read behind a token that has been looked at. -/
theorem Decided.peek {s : TokenKind → Reader α} {r : Reader α} (hc : c.Ended) (hr : Decides Z r)
    (hend : s .eof = r) (hs : s c.current.kind = r ∨ Takes c.current.kind Z (s c.current.kind)) :
    Decided Z c (fun _ => Reader.peek >>= s) ((Reader.peek >>= s) c) := by
  rw [peek_bind]
  rcases hs with hk | htakes
  · rw [hk]
    refine (hr c hc).congr fun _ c' _ hfollows => ?_
    rw [peek_bind]
    rcases hfollows.kind with hkind | hkind
    · rw [hkind, hk]
    · rw [hkind, hend]
  · refine (htakes.decided hc rfl).ofKind (fun a d => htakes.moves hc rfl) (fun _ c' _ hkind => ?_) ?_
    · rw [peek_bind, hkind]
    · intro _ d hd
      rw [peek_bind, hd.1, hend]
      exact hr.namesEnd d hd

theorem Decides.peek {s : TokenKind → Reader α} {r : Reader α} (hr : Decides Z r) (hend : s .eof = r)
    (hs : ∀ k, s k = r ∨ Takes k Z (s k)) : Decides Z (Reader.peek >>= s) :=
  fun _ hc => .peek hc hr hend (hs _)

/-- A failure at the current token, which its message names. -/
theorem Decided.naming {fault : SyntaxFault} {line : Nat} {r' : Nat → Reader α}
    (hfound : fault.found? = some c.current.kind) (hline : line = fault.lineAt c)
    (hfails : ∀ n c', c'.current.kind = c.current.kind → ∃ line, r' n c' = .error ⟨line, fault⟩)
    (hend : ∀ n, NamesEnd (r' n)) : Decided Z c r' (.error ⟨line, fault⟩) := by
  intro k hk
  obtain rfl := Option.some.inj (hfound.symm.trans hk)
  refine ⟨[], c, Cursor.passes_nil.2 rfl, rfl, hline, fun n c' d' _ hpass => ?_⟩
  rw [Cursor.passes_nil.1 hpass]
  exact ⟨fun halike => hfails n d' halike.1, fun hne hat => (hend n).escapes hat hfound hne⟩

theorem Reader.accept_of_eq (hk : k.Fixed) (h : c.current.kind = k) : accept k c = .ok (true, c.behind) := by
  rw [accept, peek_bind, if_pos (hk.beq_iff_eq.2 h), bind_of_ok (advance_eq c)]
  rfl

theorem decides_accept (hk : k.Fixed) : Decides Z (accept k) := by
  intro c hc
  by_cases hcurrent : c.current.kind = k
  · have hfirst := hc.passes_behind (hcurrent ▸ hk.ne_eof)
    have htrue : Decides Z (pure true : Reader Bool) := decides_pure
    rw [accept_of_eq hk hcurrent]
    refine (htrue c.behind (hc.of_passes hfirst)).past hfirst fun n c' d' _ hpass _ =>
      ⟨n, Nat.le_add_right _ _, ?_⟩
    rw [accept_of_eq hk (hpass.current_eq ▸ hcurrent), Cursor.behind_eq_of_passes hpass]
    rfl
  · rw [accept_apply_of_ne hk hcurrent]
    have hfalse : Decided Z c (fun _ => pure false) ((pure false : Reader Bool) c) := decides_pure c hc
    refine hfalse.congr fun n c' _ hfollows => ?_
    rw [accept_apply_of_ne hk]
    · rfl
    · rcases hfollows.kind with hkind | hkind
      · rwa [hkind]
      · rw [hkind]
        exact hk.ne_eof.symm

theorem Reader.expect_of_eq (hk : k.Fixed) {what : String} (h : c.current.kind = k) :
    expect k what c = .ok ((), c.behind) := by
  rw [expect, bind_of_ok (accept_of_eq hk h)]
  rfl

theorem Reader.expect_of_ne (hk : k.Fixed) {what : String} (h : c.current.kind ≠ k) :
    expect k what c = .error ⟨c.current.line, .expected what c.current.kind⟩ := by
  rw [expect, bind_of_ok (accept_apply_of_ne hk h)]
  rfl

theorem decides_expect (hk : k.Fixed) {what : String} (hwhat : (what == "a name") = false) :
    Decides Z (expect k what) := by
  have hend : NamesEnd (expect k what) := by
    intro c hc
    rw [expect_of_ne hk (hc.1 ▸ hk.ne_eof.symm), hc.1]
    rintro found ⟨⟩
    rfl
  intro c hc
  by_cases hcurrent : c.current.kind = k
  · have hfirst := hc.passes_behind (hcurrent ▸ hk.ne_eof)
    have hunit : Decides Z (pure () : Reader Unit) := decides_pure
    rw [expect_of_eq hk hcurrent]
    refine (hunit c.behind (hc.of_passes hfirst)).past hfirst fun n c' d' _ hpass _ =>
      ⟨n, Nat.le_add_right _ _, ?_⟩
    rw [expect_of_eq hk (hpass.current_eq ▸ hcurrent), Cursor.behind_eq_of_passes hpass]
    rfl
  · rw [expect_of_ne hk hcurrent]
    refine .naming rfl ?_ (fun _ c' hkind => ⟨c'.current.line, ?_⟩) fun _ => hend
    · rw [SyntaxFault.lineAt, SyntaxFault.isLate, hwhat]
      rfl
    · rw [expect_of_ne hk (hkind ▸ hcurrent), hkind]

/-- What is expected is passed over. -/
theorem length_of_expect (hk : k.Fixed) {what : String} {d : Cursor} (hc : c.Ended)
    (h : expect k what c = .ok ((), d)) : d.later.length + 1 ≤ c.later.length := by
  by_cases hcurrent : c.current.kind = k
  · rw [expect_of_eq hk hcurrent] at h
    cases h
    exact Nat.le_of_eq (hc.length_behind (hcurrent ▸ hk.ne_eof))
  · rw [expect_of_ne hk hcurrent] at h
    cases h

/-- A reader that takes any token, and complains about those that it does not go on with. -/
theorem decides_advance {s : TokenKind → Reader α} {f : TokenKind → SyntaxFault}
    (hfound : ∀ k, (f k).found? = some k) (hlate : ∀ k, (f k).isLate = true)
    (hend : s .eof = fail (f .eof)) (hs : ∀ k, Decides Z (s k) ∨ s k = fail (f k)) :
    Decides Z (advance >>= s) := by
  have hnames : NamesEnd (advance >>= s) := by
    intro c hc
    rw [bind_of_ok (advance_eq c), hc.1, hend]
    intro k hk
    exact (Option.some.inj ((hfound .eof).symm.trans hk)).symm
  intro c hc
  rcases hs c.current.kind with hk | hk
  · by_cases heof : c.current.kind = .eof
    · rw [bind_of_ok (advance_eq c), heof, hend]
      refine .naming (heof ▸ hfound _) ?_ (fun _ c' hkind => ⟨c'.behind.current.line, ?_⟩) fun _ => hnames
      · rw [SyntaxFault.lineAt, hlate]
        rfl
      · rw [bind_of_ok (advance_eq c'), hkind, heof, hend]
        rfl
    · exact (takes_advance heof hk).decided hc rfl
  · rw [bind_of_ok (advance_eq c), hk]
    refine .naming (hfound _) ?_ (fun _ c' hkind => ⟨c'.behind.current.line, ?_⟩) fun _ => hnames
    · rw [SyntaxFault.lineAt, hlate]
      rfl
    · rw [bind_of_ok (advance_eq c'), hkind, hk]
      rfl

theorem decides_identifier : Decides Z identifier := by
  refine decides_advance (f := .expected "a name") (fun _ => rfl) (fun _ => rfl) rfl fun k => ?_
  cases k with
  | name letters => exact .inl decides_pure
  | _ => exact .inr rfl

/-- Readers that have room for one round more than there are tokens left. -/
theorem Decided.left {s : Nat → Reader α} (h : Decided Z c s (s (c.later.length + 1) c)) :
    Decided Z c (fun _ => Reader.left >>= fun n => s (n + 1)) ((Reader.left >>= fun n => s (n + 1)) c) := by
  rw [bind_of_ok (left_apply c)]
  have hroom {c' d' : Cursor} {ts : List Token} (hpass : c'.Passes ts d') :
      ts.length < c'.later.length + 1 := by
    have hlength := hpass.length_eq
    simp only [Cursor.tokens, List.length_cons] at hlength
    omega
  cases hok : s (c.later.length + 1) c with
  | ok x =>
      rw [hok] at h
      obtain ⟨ts, hts, hrest⟩ := h
      exact ⟨ts, hts, fun _ c' d' _ hpass => hrest _ c' d' (hroom hpass) hpass⟩
  | error e =>
      rw [hok] at h
      intro k hk
      obtain ⟨ts, d, hts, hkind, hline, hrest⟩ := h k hk
      exact ⟨ts, d, hts, hkind, hline, fun _ c' d' _ hpass => hrest _ c' d' (hroom hpass) hpass⟩

end Elementary
end PromptWeave.Script
