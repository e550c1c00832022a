import PromptWeave.Proofs.Outcome
import PromptWeave.Proofs.Script.Precedence

/-!
# Passing over tokens

How the cursor moves: from where to where a reader passes over which tokens, and what the elementary
readers do there.
-/
namespace PromptWeave.Script

/-! ### Kinds of tokens -/

/-- The test for equality is sure of fixed tokens. It is not of numbers with a point. -/
theorem TokenKind.Fixed.beq_iff_eq {found k : TokenKind} (hk : k.Fixed) :
    (found == k) = true ↔ found = k := by
  cases hk <;> cases found <;> simp [BEq.beq, instBEqTokenKind.beq]

theorem TokenKind.Fixed.ne_eof {k : TokenKind} (hk : k.Fixed) : k ≠ .eof := by
  cases hk <;> nofun

/-! ### Cursors -/

namespace Cursor

/-- The tokens from the current one on. -/
def tokens (c : Cursor) : List Token := c.current :: c.later

theorem tokens_injective {c d : Cursor} (h : c.tokens = d.tokens) : c = d := by
  cases c
  cases d
  simpa [tokens] using h

/-- Whether the word `in` comes after the current token. -/
def beforeIn (c : Cursor) : Bool := (c.later.head?.map (·.kind == .keyword .inWord)).getD false

/-- The cursor behind the current token; the last token stays current. -/
def behind (c : Cursor) : Cursor :=
  match c.later with
  | [] => c
  | next :: later => ⟨next, later⟩

/-- Whether the tokens `ts` stand before `d` and after nothing else from `c` on. -/
def Passes (c : Cursor) (ts : List Token) (d : Cursor) : Prop := c.tokens = ts ++ d.tokens

/-- Whether the last token is the end of the script, and no other is. -/
def Ended (c : Cursor) : Prop :=
  ∀ ts t us, c.tokens = ts ++ t :: us → (t.kind = .eof ↔ us = [])

variable {c d e : Cursor} {t : Token} {ts us : List Token}

@[simp] theorem passes_nil : c.Passes [] d ↔ c = d := by
  constructor
  · exact tokens_injective
  · rintro rfl
    rfl

theorem Passes.append (h : c.Passes ts d) (h' : d.Passes us e) : c.Passes (ts ++ us) e := by
  rw [Passes, h, h', List.append_assoc]

theorem Passes.cons (h : c.Passes [t] d) (h' : d.Passes ts e) : c.Passes (t :: ts) e :=
  h.append h'

theorem Passes.current_eq (h : c.Passes (t :: ts) d) : c.current = t := by
  rw [Passes, tokens, List.cons_append] at h
  exact (List.cons.inj h).1

theorem Passes.length_eq (h : c.Passes ts d) : c.tokens.length = ts.length + d.tokens.length := by
  rw [h, List.length_append]

/-- A cursor stands between any two tokens. -/
theorem passes_append_iff : c.Passes (ts ++ us) e ↔ ∃ d, c.Passes ts d ∧ d.Passes us e := by
  constructor
  · intro h
    rw [Passes, List.append_assoc] at h
    cases hrest : us ++ e.tokens with
    | nil => simp [tokens] at hrest
    | cons t later =>
        refine ⟨⟨t, later⟩, ?_, hrest.symm⟩
        rw [Passes, h, hrest, tokens]
  · rintro ⟨d, h, h'⟩
    exact h.append h'

theorem passes_cons_iff : c.Passes (t :: ts) e ↔ ∃ d, c.Passes [t] d ∧ d.Passes ts e :=
  @passes_append_iff c e [t] ts

theorem passes_singleton_iff : c.Passes [t] d ↔ c = ⟨t, d.tokens⟩ := by
  cases c
  simp [Passes, tokens]

theorem Ended.of_passes (hc : c.Ended) (h : c.Passes ts d) : d.Ended := by
  intro us t vs hd
  exact hc (ts ++ us) t vs (by rw [h, hd, List.append_assoc])

/-- The current token is the end of the script exactly if no token comes after it. -/
theorem Ended.eof_iff (hc : c.Ended) : c.current.kind = .eof ↔ c.later = [] :=
  hc [] c.current c.later rfl

/-- Whether the current token has the kind `k` and `d` stands behind it. -/
def Next (c : Cursor) (k : TokenKind) (d : Cursor) : Prop := ∃ line, c.Passes [⟨line, k⟩] d

/-- Whether tokens of the kinds `ks` stand before `d` and after nothing else from `c` on. -/
def Reaches (c : Cursor) (ks : List TokenKind) (d : Cursor) : Prop :=
  ∃ ts, kinds ts = ks ∧ c.Passes ts d

variable {k : TokenKind} {ks ls : List TokenKind}

theorem Next.current_eq (h : c.Next k d) : c.current.kind = k := by
  obtain ⟨line, hpass⟩ := h
  rw [hpass.current_eq]

theorem Next.tightness_eq (h : c.Next k d) : c.current.kind.tightness = k.tightness := by
  rw [h.current_eq]

theorem Next.current_ne (h : c.Next k d) {other : TokenKind} (hk : k ≠ other) :
    c.current.kind ≠ other := by
  rwa [h.current_eq]

theorem Passes.next (h : c.Passes [t] d) : c.Next t.kind d := ⟨t.line, h⟩

theorem Passes.reaches (h : c.Passes ts d) : c.Reaches (kinds ts) d := ⟨ts, rfl, h⟩

theorem Reaches.length_le (h : c.Reaches ks d) : ks.length ≤ c.later.length := by
  obtain ⟨ts, rfl, hpass⟩ := h
  have hlength := hpass.length_eq
  simp only [tokens, List.length_cons] at hlength
  rw [length_kinds]
  omega

@[simp] theorem reaches_nil : c.Reaches [] d ↔ c = d := by
  simp [Reaches, kinds]

@[simp] theorem reaches_cons_iff : c.Reaches (k :: ks) e ↔ ∃ d, c.Next k d ∧ d.Reaches ks e := by
  constructor
  · rintro ⟨ts, hts, h⟩
    obtain ⟨t, us, rfl, rfl, rfl⟩ := List.map_eq_cons_iff.1 hts
    obtain ⟨d, hd, he⟩ := passes_cons_iff.1 h
    exact ⟨d, hd.next, he.reaches⟩
  · rintro ⟨d, ⟨line, hd⟩, ts, rfl, he⟩
    exact ⟨⟨line, k⟩ :: ts, rfl, hd.cons he⟩

@[simp] theorem reaches_append_iff :
    c.Reaches (ks ++ ls) e ↔ ∃ d, c.Reaches ks d ∧ d.Reaches ls e := by
  constructor
  · rintro ⟨ts, hts, h⟩
    obtain ⟨us, vs, rfl, rfl, rfl⟩ := List.map_eq_append_iff.1 hts
    obtain ⟨d, hd, he⟩ := passes_append_iff.1 h
    exact ⟨d, hd.reaches, he.reaches⟩
  · rintro ⟨d, ⟨ts, rfl, hd⟩, us, rfl, he⟩
    exact ⟨ts ++ us, kinds_append ts us, hd.append he⟩

end Cursor

/-! ### Readers -/

namespace Reader

variable {α β : Type} {c d e : Cursor}

theorem bind_apply (r : Reader α) (f : α → Reader β) (c : Cursor) :
    (r >>= f) c = r c >>= fun x => f x.1 x.2 := rfl

theorem peek_apply (c : Cursor) : peek c = .ok (c.current.kind, c) := rfl

theorem peek_bind (f : TokenKind → Reader α) (c : Cursor) : (peek >>= f) c = f c.current.kind c := rfl

theorem left_apply (c : Cursor) : left c = .ok (c.later.length, c) := rfl

@[simp] theorem pure_apply (a : α) (c : Cursor) : (pure a : Reader α) c = .ok (a, c) := rfl

theorem bind_of_ok {r : Reader α} {f : α → Reader β} {a : α} (h : r c = .ok (a, d)) :
    (r >>= f) c = f a d := by
  rw [bind_apply, h]
  rfl

theorem bind_eq_ok {r : Reader α} {f : α → Reader β} {b : β} :
    (r >>= f) c = .ok (b, e) ↔ ∃ a d, r c = .ok (a, d) ∧ f a d = .ok (b, e) := by
  rw [bind_apply, PromptWeave.bind_eq_ok, Prod.exists]

theorem advance_eq (c : Cursor) : advance c = .ok (c.current.kind, c.behind) := by
  cases c with
  | mk current later => cases later <;> rfl

/-- Passing over a token that another follows. -/
theorem advance_apply {k : TokenKind} (h : c.Next k d) : advance c = .ok (k, d) := by
  obtain ⟨line, hpass⟩ := h
  obtain rfl := Cursor.passes_singleton_iff.1 hpass
  rfl

theorem accept_apply {k : TokenKind} (hk : k.Fixed) (h : c.Next k d) : accept k c = .ok (true, d) := by
  have hcurrent : (c.current.kind == k) = true := hk.beq_iff_eq.2 h.current_eq
  rw [accept, peek_bind, if_pos hcurrent, bind_of_ok (advance_apply h)]
  rfl

theorem accept_apply_of_ne {k : TokenKind} (hk : k.Fixed) (h : c.current.kind ≠ k) :
    accept k c = .ok (false, c) := by
  have hcurrent : ¬ (c.current.kind == k) = true := by rwa [hk.beq_iff_eq]
  rw [accept, peek_bind, if_neg hcurrent]
  rfl

theorem expect_apply {k : TokenKind} (hk : k.Fixed) (what : String) (h : c.Next k d) :
    expect k what c = .ok ((), d) := by
  rw [expect, bind_of_ok (accept_apply hk h)]
  rfl

theorem identifier_apply {letters : String} (h : c.Next (.name letters) d) :
    identifier c = .ok (letters, d) := by
  rw [identifier, bind_of_ok (advance_apply h)]
  rfl

/-- At the end of the script there is nothing to pass over; any other token is passed. -/
theorem advance_eq_ok (hc : c.Ended) {k : TokenKind} (h : advance c = .ok (k, d)) :
    k = c.current.kind ∧ (c.current.kind = .eof ∧ d = c ∨ c.Passes [c.current] d) := by
  cases c with
  | mk current later =>
      cases later with
      | nil =>
          cases h
          exact ⟨rfl, .inl ⟨hc.eof_iff.2 rfl, rfl⟩⟩
      | cons next later =>
          cases h
          exact ⟨rfl, .inr rfl⟩

/-- Accepting a fixed token either passes over it or leaves the cursor where it is. -/
theorem accept_eq_ok (hc : c.Ended) {k : TokenKind} (hk : k.Fixed) {b : Bool}
    (h : accept k c = .ok (b, d)) :
    b = true ∧ (∃ line, c.Passes [⟨line, k⟩] d) ∨ b = false ∧ d = c := by
  obtain ⟨_, _, hpeek, h⟩ := bind_eq_ok.1 h
  cases hpeek
  by_cases hcurrent : (c.current.kind == k) = true
  · rw [if_pos hcurrent] at h
    obtain ⟨_, _, hadvance, h⟩ := bind_eq_ok.1 h
    cases h
    obtain rfl := hk.beq_iff_eq.1 hcurrent
    obtain ⟨-, ⟨heof, -⟩ | hpass⟩ := advance_eq_ok hc hadvance
    · exact absurd heof hk.ne_eof
    · exact .inl ⟨rfl, c.current.line, hpass⟩
  · rw [if_neg hcurrent] at h
    cases h
    exact .inr ⟨rfl, rfl⟩

/-- Skipping passes over ends of lines and over no other token. -/
theorem skipNewlines_eq_ok (h : skipNewlines c = .ok ((), d)) :
    ∃ gap, Newlines gap ∧ c.Passes gap d := by
  suffices ∀ later current, skipNewlines.go later current = .ok ((), d) →
      ∃ gap, Newlines gap ∧ Cursor.Passes ⟨current, later⟩ gap d from this c.later c.current h
  intro later
  induction later with
  | nil =>
      intro current h
      cases h
      exact ⟨[], newlines_nil, rfl⟩
  | cons next later ih =>
      intro current h
      rw [skipNewlines.go] at h
      split at h
      case isTrue hcurrent =>
        obtain ⟨gap, hgap, hpass⟩ := ih next h
        have hnewline : current.kind = .newline := TokenKind.Fixed.newline.beq_iff_eq.1 hcurrent
        have hnext : Cursor.Passes ⟨current, next :: later⟩ [current] ⟨next, later⟩ := rfl
        exact ⟨current :: gap, newlines_cons.2 ⟨hnewline, hgap⟩, hnext.cons hpass⟩
      case isFalse =>
        cases h
        exact ⟨[], newlines_nil, rfl⟩

/-- Skipping passes over all ends of lines. -/
theorem skipNewlines_apply {gap : List Token} (hgap : Newlines gap) (h : c.Passes gap d)
    (hd : d.current.kind ≠ .newline) : skipNewlines c = .ok ((), d) := by
  induction gap generalizing c with
  | nil =>
      obtain rfl := Cursor.passes_nil.1 h
      have hcurrent : ¬ (c.current.kind == .newline) = true := by
        rwa [TokenKind.Fixed.newline.beq_iff_eq]
      cases c with
      | mk current later =>
          cases later with
          | nil => rfl
          | cons next later => exact if_neg hcurrent
  | cons t gap ih =>
      obtain ⟨hnewline, hgap⟩ := newlines_cons.1 hgap
      obtain ⟨m, hm, hrest⟩ := Cursor.passes_cons_iff.1 h
      obtain rfl := Cursor.passes_singleton_iff.1 hm
      rw [← ih hgap hrest]
      exact if_pos (TokenKind.Fixed.newline.beq_iff_eq.2 hnewline)

/-- A statement ends at an end of a line, which is passed, or before a brace or the end of the
script. -/
theorem endOfStatement_eq_ok (hc : c.Ended) (h : endOfStatement c = .ok ((), d)) :
    (∃ line, c.Passes [⟨line, .newline⟩] d) ∨
      d = c ∧ (c.current.kind = .mark .rightBrace ∨ c.current.kind = .eof) := by
  obtain ⟨k, m, hpeek, hmatch⟩ := bind_eq_ok.1 h
  obtain ⟨hk, hm⟩ := Prod.mk.inj (Except.ok.inj hpeek)
  subst m
  rw [hk]
  split at hmatch
  case h_1 =>
    obtain ⟨_, _, hadvance, hpure⟩ := bind_eq_ok.1 hmatch
    cases hpure
    obtain ⟨-, ⟨heof, -⟩ | hpass⟩ := advance_eq_ok hc hadvance
    · rw [hk] at heof
      cases heof
    · refine .inl ⟨c.current.line, ?_⟩
      rwa [← hk]
  case h_2 =>
    cases hmatch
    exact .inr ⟨rfl, .inl rfl⟩
  case h_3 =>
    cases hmatch
    exact .inr ⟨rfl, .inr rfl⟩
  case h_4 => cases hmatch

/-- Looking ahead for the word `in` moves nothing. -/
theorem inFollows_apply (c : Cursor) : inFollows c = .ok (c.beforeIn, c) := rfl

end Reader

/-- The word `in` is found where it is the next token. -/
theorem Cursor.next_of_beforeIn {c : Cursor} (h : c.beforeIn = true) :
    ∃ d, c.Next c.current.kind d ∧ d.current.kind = .keyword .inWord := by
  cases c with
  | mk current later =>
      cases later with
      | nil => cases h
      | cons next later =>
          exact ⟨⟨next, later⟩, ⟨current.line, rfl⟩, (TokenKind.Fixed.keyword .inWord).beq_iff_eq.1 h⟩

theorem Cursor.beforeIn_of_next {c d e : Cursor} {k : TokenKind} (h : c.Next k d)
    (hin : d.Next (.keyword .inWord) e) : c.beforeIn = true := by
  obtain ⟨line, hpass⟩ := h
  obtain rfl := Cursor.passes_singleton_iff.1 hpass
  exact (TokenKind.Fixed.keyword .inWord).beq_iff_eq.2 hin.current_eq

end PromptWeave.Script
