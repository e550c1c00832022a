import Mathlib
import PromptWeave.Proofs.Script.DecidedParses

/-!
# The tokens at which scripts are refused

A script that is refused with a message that names a token is refused at one token of that kind: all
scripts are that begin in the same way up to it, and the script that ends in front of it is not. The
line that is reported is that of the token if the parser has looked at it only. Where the parser has passed
over it already, the line is that of the token behind it. Main statement:
`refused_on_line_of_token_or_next`.
-/
namespace PromptWeave.Script

/-- Whether the first of some tokens is the word `in`. -/
def BeginsWithIn (ts : List Token) : Prop := ∃ line rest, ts = ⟨line, .keyword .inWord⟩ :: rest

/-- Whether scripts are refused with a fault that names it at the token `t`, behind the tokens `before` and
in front of the tokens `after`. -/
structure RefusedAt (before : List Token) (t : Token) (after : List Token) (fault : SyntaxFault) : Prop
    where
  named : fault.found? = some t.kind
  /-- What comes behind the token does not matter, but for the word `in` behind the word `not`. -/
  decided (rest : List Token) :
    (t.kind = .keyword .notWord → BeginsWithIn rest → BeginsWithIn after) →
      ∃ line, parseTokens (before ++ t :: rest) = .error ⟨line, fault⟩
  /-- What comes in front of the token is not enough. -/
  undecided (hend : t.kind ≠ .eof) (endLine line : Nat) :
    parseTokens (before ++ [⟨endLine, .eof⟩]) ≠ .error ⟨line, fault⟩

theorem beforeIn_iff (t : Token) (rest : List Token) :
    Cursor.beforeIn ⟨t, rest⟩ = true ↔ BeginsWithIn rest := by
  cases rest with
  | nil => simp [Cursor.beforeIn, BeginsWithIn]
  | cons next rest =>
      have hword : (next.kind == .keyword .inWord) = true ↔ next.kind = .keyword .inWord :=
        (TokenKind.Fixed.keyword .inWord).beq_iff_eq
      refine Iff.trans hword ⟨fun h => ⟨next.line, rest, by rw [← h]⟩, ?_⟩
      rintro ⟨line, others, heq⟩
      rw [(List.cons.inj heq).1]

/-- Tokens are read from the first of them on. -/
theorem parseTokens_tokens (c : Cursor) :
    parseTokens c.tokens = (readWithin maxNesting c).map (·.1) := parseTokens_cons c.current c.later

theorem exists_cursor (before : List Token) (t : Token) (after : List Token) :
    ∃ c : Cursor, c.tokens = before ++ t :: after ∧ c.Passes before ⟨t, after⟩ := by
  cases before with
  | nil => exact ⟨⟨t, after⟩, rfl, rfl⟩
  | cons first before => exact ⟨⟨first, before ++ t :: after⟩, rfl, rfl⟩

theorem lineAt_eq (fault : SyntaxFault) (t : Token) (after : List Token) :
    fault.lineAt ⟨t, after⟩ = if fault.isLate then (after.headD t).line else t.line := by
  cases after <;> rfl

theorem ended_of_tokenize {source : String} {tokens : List Token} (h : tokenize source = .ok tokens)
    (before : List Token) (t : Token) (after : List Token) (hsplit : tokens = before ++ t :: after) :
    t.kind = .eof → after = [] := by
  obtain ⟨c, rfl, hc, -⟩ := cursor_of_tokenize h
  exact (hc before t after hsplit).1

/-- Where a message names a token, the script is refused at one of that kind. -/
theorem exists_refusedAt {source : String} {tokens : List Token} {e : SyntaxError} {k : TokenKind}
    (htokens : tokenize source = .ok tokens) (h : parse source = .error e) (hk : e.fault.found? = some k) :
    ∃ before t after, tokens = before ++ t :: after ∧ RefusedAt before t after e.fault ∧ t.kind = k ∧
      e.line = if e.fault.isLate then (after.headD t).line else t.line := by
  obtain ⟨c, rfl, hc, hparse⟩ := cursor_of_tokenize htokens
  have hdecided := decides_readWithin maxNesting c hc
  have hread : readWithin maxNesting c = .error e := by
    rw [hparse] at h
    cases hread : readWithin maxNesting c with
    | ok x =>
        rw [hread] at h
        cases h
    | error e' =>
        rw [hread] at h
        cases h
        rfl
  rw [hread] at hdecided
  obtain ⟨before, ⟨t, after⟩, hpass, rfl, hline, hrest⟩ := hdecided k hk
  refine ⟨before, t, after, hpass, ⟨hk, fun rest hin => ?_, fun hend endLine line herror => ?_⟩, rfl,
    hline.trans (lineAt_eq ..)⟩
  · obtain ⟨c', htokens, hpass'⟩ := exists_cursor before t rest
    -- Behind the word `not` the token further on is looked at too.
    have halike : Cursor.Alike ⟨t, after⟩ ⟨t, rest⟩ :=
      ⟨rfl, fun hnot h => (beforeIn_iff t after).2 (hin hnot ((beforeIn_iff t rest).1 h))⟩
    obtain ⟨line, hfails⟩ := (hrest (before.length + 1) c' _ (Nat.lt_succ_self _) hpass').1 halike
    beta_reduce at hfails
    refine ⟨line, ?_⟩
    rw [← htokens, parseTokens_tokens, hfails]
    rfl
  · obtain ⟨c', htokens, hpass'⟩ := exists_cursor before ⟨endLine, .eof⟩ []
    have hescapes := (hrest (before.length + 1) c' _ (Nat.lt_succ_self _) hpass').2 hend ⟨rfl, rfl⟩
    rw [← htokens, parseTokens_tokens] at herror
    beta_reduce at hescapes
    cases hread : readWithin maxNesting c' with
    | ok x =>
        rw [hread] at herror
        cases herror
    | error e' =>
        rw [hread] at herror hescapes
        cases herror
        exact hescapes rfl

/-- A script is not refused at two tokens. -/
theorem RefusedAt.not_behind {before between after : List Token} {t u : Token} {fault : SyntaxFault}
    (ht : RefusedAt before t (between ++ u :: after) fault)
    (hu : RefusedAt (before ++ t :: between) u after fault) (hend : u.kind ≠ .eof) : False := by
  obtain ⟨line, hline⟩ := ht.decided (between ++ [⟨0, .eof⟩]) fun _ => by
    cases between with
    | nil => rintro ⟨line, rest, ⟨⟩⟩
    | cons next between =>
        rintro ⟨line, rest, heq⟩
        exact ⟨line, between ++ u :: after, by rw [List.cons_append, (List.cons.inj heq).1]⟩
  refine hu.undecided hend 0 line ?_
  rw [List.append_assoc]
  exact hline

/-- A script is not refused at a token and at a later one. -/
theorem RefusedAt.between_eq_nil {before between after after' : List Token} {t t' : Token}
    {fault : SyntaxFault} (hended : t.kind = .eof → after = [])
    (h : RefusedAt before t after fault) (h' : RefusedAt (before ++ between) t' after' fault)
    (hsplit : t :: after = between ++ t' :: after') : between = [] := by
  cases between with
  | nil => rfl
  | cons first between =>
      obtain ⟨rfl, rfl⟩ := List.cons.inj hsplit
      have hkind : t'.kind = t.kind := Option.some.inj (h'.named.symm.trans h.named)
      refine (h.not_behind h' fun heof => ?_).elim
      simpa using hended (hkind.symm.trans heof)

theorem RefusedAt.unique {before after before' after' : List Token} {t t' : Token} {fault : SyntaxFault}
    (hended : t.kind = .eof → after = []) (hended' : t'.kind = .eof → after' = [])
    (h : RefusedAt before t after fault) (h' : RefusedAt before' t' after' fault)
    (hsplit : before ++ t :: after = before' ++ t' :: after') :
    before' = before ∧ t' = t ∧ after' = after := by
  rcases List.append_eq_append_iff.1 hsplit with ⟨between, rfl, hrest⟩ | ⟨between, rfl, hrest⟩
  · obtain rfl := h.between_eq_nil hended h' hrest
    obtain ⟨rfl, rfl⟩ := List.cons.inj hrest
    exact ⟨List.append_nil _, rfl, rfl⟩
  · obtain rfl := h'.between_eq_nil hended' h hrest
    obtain ⟨rfl, rfl⟩ := List.cons.inj hrest
    exact ⟨(List.append_nil _).symm, rfl, rfl⟩

/-- A refusal that names a token is reported on the line of the token at which the script is refused, or, where
the parser has passed over it, on that of the token behind it. There is one such token. -/
theorem refused_on_line_of_token_or_next {source : String} {tokens : List Token} {e : SyntaxError}
    {k : TokenKind} (htokens : tokenize source = .ok tokens) (h : parse source = .error e)
    (hk : e.fault.found? = some k) :
    ∃ before t after,
      (∀ ts u us, tokens = ts ++ u :: us ∧ RefusedAt ts u us e.fault ↔
        ts = before ∧ u = t ∧ us = after) ∧
      t.kind = k ∧
      e.line = if e.fault.isLate then (after.headD t).line else t.line := by
  obtain ⟨before, t, after, hsplit, hrefused, hkind, hline⟩ := exists_refusedAt htokens h hk
  have hended := ended_of_tokenize htokens
  refine ⟨before, t, after, fun ts u us => ⟨fun ⟨hsplit', hrefused'⟩ => ?_, ?_⟩, hkind, hline⟩
  · exact hrefused.unique (hended _ _ _ hsplit) (hended _ _ _ hsplit') hrefused' (hsplit.symm.trans hsplit')
  · rintro ⟨rfl, rfl, rfl⟩
    exact ⟨hsplit, hrefused⟩

/-- A list without a comma is refused at the name on its second line. -/
theorem refused_on_line_of_token_or_next_second :
    let tokens : List Token := [⟨1, .mark .leftBracket⟩, ⟨1, .name "x"⟩, ⟨2, .name "y"⟩,
      ⟨2, .mark .rightBracket⟩, ⟨2, .newline⟩, ⟨2, .eof⟩]
    let e : SyntaxError := ⟨2, .expected "',' or ']'" (.name "y")⟩
    tokenize "[x\ny]" = .ok tokens ∧ parse "[x\ny]" = .error e ∧ e.fault.found? = some (.name "y") ∧
      ∃ before t after,
        (∀ ts u us, tokens = ts ++ u :: us ∧ RefusedAt ts u us e.fault ↔
          ts = before ∧ u = t ∧ us = after) ∧
        t.kind = .name "y" ∧
        e.line = if e.fault.isLate then (after.headD t).line else t.line := by
  intro tokens e
  have htokens : tokenize "[x\ny]" = .ok tokens := by cbv
  have h : parse "[x\ny]" = .error e := by cbv
  exact ⟨htokens, h, rfl, refused_on_line_of_token_or_next htokens h rfl⟩

/-- The end of the first line is refused where a value is missing, and the second line is reported. -/
theorem missing_value_reported_on_next_line :
    parse "x =\ny" = .error ⟨2, .unexpected .newline⟩ ∧
      tokenize "x =\ny" = .ok ([⟨1, .name "x"⟩, ⟨1, .mark .assign⟩] ++ ⟨1, .newline⟩ ::
        [⟨2, .name "y"⟩, ⟨2, .newline⟩, ⟨2, .eof⟩]) ∧
      RefusedAt [⟨1, .name "x"⟩, ⟨1, .mark .assign⟩] ⟨1, .newline⟩
        [⟨2, .name "y"⟩, ⟨2, .newline⟩, ⟨2, .eof⟩] (.unexpected .newline) := by
  have h : parse "x =\ny" = .error ⟨2, .unexpected .newline⟩ := by cbv
  have htokens : tokenize "x =\ny" = .ok [⟨1, .name "x"⟩, ⟨1, .mark .assign⟩, ⟨1, .newline⟩,
      ⟨2, .name "y"⟩, ⟨2, .newline⟩, ⟨2, .eof⟩] := by cbv
  refine ⟨h, htokens, ?_⟩
  obtain ⟨before, t, after, hsplit, hrefused, hkind, -⟩ := exists_refusedAt htokens h rfl
  rcases before with _ | ⟨_, _ | ⟨_, _ | ⟨_, _ | ⟨_, _ | ⟨_, _ | ⟨_, before⟩⟩⟩⟩⟩⟩
  · cases hsplit
    cases hkind
  · cases hsplit
    cases hkind
  · cases hsplit
    exact hrefused
  · cases hsplit
    cases hkind
  · cases hsplit
    exact (hrefused.undecided (by simp) 2 2 (by cbv)).elim
  · cases hsplit
    cases hkind
  · simp at hsplit

end PromptWeave.Script
