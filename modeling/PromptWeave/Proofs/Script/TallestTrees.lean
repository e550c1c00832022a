import PromptWeave.Proofs.Script.ReadingBack
import PromptWeave.Proofs.Script.TreeHeight

/-!
# The highest trees of accepted scripts

The bound on the height of trees is reached. A tower has on each floor as many links in each of its five
chains as levels are left there, and the next floor in brackets as the first operand:

    [[a<a].a*a+a<a and a or a].a.a*a*a+a+a<a and a and a or a or a

The text is read as the tower, so no script is accepted with higher trees than the tower of all levels.
-/
namespace PromptWeave.Script

open Reader Level

/-! ### Towers -/

/-- Puts an expression into a form over and over. -/
def grown (f : Expr → Expr) : (count : Nat) → Expr → Expr
  | 0, e => e
  | count + 1, e => grown f count (f e)

/-- Something that stands a number of times. -/
def repeated {α : Type} (count : Nat) (part : List α) : List α := (List.replicate count part).flatten

/-- Joins an expression with a name behind it. -/
def linked (join : Expr → Expr → Expr) (e : Expr) : Expr := join e (.var "a")

/-- An expression at the bottom of chains with a number of links in each. -/
def raised (count : Nat) (e : Expr) : Expr :=
  let sum := grown (linked (.binary .add)) count
    (grown (linked (.binary .mul)) count (grown (.attribute · "a") count e))
  grown (linked .or) count (grown (linked .and) count (linked (.binary .less) sum))

/-- The tower for one more level than the number. -/
def tower : Nat → Expr
  | 0 => raised 0 (.var "a")
  | n + 1 => raised (n + 1) (.list [tower n])

theorem Expr.height_pos (e : Expr) : 0 < e.height := by
  cases e <;> rw [Expr.height] <;> exact Nat.succ_pos _

theorem height_grown {f : Expr → Expr} (h : ∀ e, (f e).height = e.height + 1) (count : Nat) (e : Expr) :
    (grown f count e).height = e.height + count := by
  induction count generalizing e with
  | zero => rfl
  | succ count ih =>
      rw [grown, ih, h]
      omega

theorem height_linked {rank : Rank} {k : TokenKind} {join : Expr → Expr → Expr}
    (h : Joins rank k join) (e : Expr) : (linked join e).height = e.height + 1 := by
  have hpos := e.height_pos
  rw [linked, h.height_eq, Expr.height]
  omega

theorem height_raised (count : Nat) (e : Expr) : (raised count e).height = e.height + 5 * count + 1 := by
  have hless (sum : Expr) : (linked (.binary .less) sum).height = sum.height + 1 := by
    have hpos := sum.height_pos
    simp only [linked, Expr.height]
    omega
  simp only [raised, height_grown (height_linked .or), height_grown (height_linked .and), hless,
    height_grown (height_linked .add), height_grown (height_linked .mul),
    height_grown (f := (.attribute · "a")) fun _ => rfl]
  omega

theorem height_tower (n : Nat) : (tower n).height = tallest (n + 1) := by
  induction n with
  | zero => rfl
  | succ n ih =>
      have hlist : (Expr.list [tower n]).height = tallest (n + 1) + 1 := by
        simp [Expr.height, heightOfAll, ih]
      have hfloor : tallest (n + 2) = tallest (n + 1) + 5 * (n + 1) + 2 := rfl
      rw [tower, height_raised, hlist, hfloor]
      omega

/-! ### Reading towers -/

/-- The tokens of the chains on an expression. -/
def raisedKinds (count : Nat) : List TokenKind :=
  repeated count [TokenKind.mark .dot, .name "a"] ++ (repeated count [TokenKind.mark .star, .name "a"] ++
    (repeated count [TokenKind.mark .plus, .name "a"] ++ (TokenKind.mark .less :: .name "a" ::
      (repeated count [TokenKind.keyword .andWord, .name "a"] ++
        repeated count [TokenKind.keyword .orWord, .name "a"]))))

/-- The tokens of a tower. -/
def towerKinds : Nat → List TokenKind
  | 0 => .name "a" :: raisedKinds 0
  | n + 1 => .mark .leftBracket :: (towerKinds n ++ .mark .rightBracket :: raisedKinds (n + 1))

section Reading

variable {c d m : Cursor} {e : Expr} {count n : Nat}

/-- Before parts that stand a number of times, perhaps none, stands their first token or what is behind
them. -/
theorem tightness_le_of_repeated {k : TokenKind} {ks : List TokenKind} {bound : Nat}
    (hpass : c.Reaches (repeated count (k :: ks)) d) (hk : k.tightness ≤ bound)
    (hd : d.current.kind.tightness ≤ bound) : c.current.kind.tightness ≤ bound := by
  cases count with
  | zero => rwa [Cursor.reaches_nil.1 hpass]
  | succ count =>
      obtain ⟨_, hnext, -⟩ := Cursor.reaches_cons_iff.1 hpass
      rwa [hnext.tightness_eq]

theorem Attains.eq_of_not {few : Prop} {α : Type} {x y : Except SyntaxError α} (h : Attains few x y)
    (hfew : ¬ few) : x = y := h.resolve_right fun hfail => hfew hfail.1

/-- A name is a phrase of any form. -/
theorem phrase_name (form : Form) : Phrase form [.name "a"] (.var "a") := by
  have hprimary : Phrase .primary [.name "a"] (.var "a") := .token (.name "a")
  have hsign := Phrase.unsigned (.bare hprimary)
  have hproduct := @Phrase.operand .product _ _ hsign
  have hsum := @Phrase.operand .sum _ _ hproduct
  have hnegation := Phrase.uncompared hsum
  have hconjunction := @Phrase.operand .conjunction _ _ hnegation
  cases form with
  | chain rank =>
      cases rank with
      | disjunction => exact .operand hconjunction
      | conjunction => exact hconjunction
      | sum => exact hsum
      | product => exact hproduct
  | negation => exact hnegation
  | sign => exact hsign
  | postfixed => exact .bare hprimary
  | primary => exact hprimary

/-- With as many levels as links, a chain is read to its end. -/
theorem readLinks_repeated {rank : Rank} {op : TokenKind} {join : Expr → Expr → Expr}
    (hop : Joins rank op join) (hcount : count ≤ n)
    (hpass : c.Reaches (repeated count [op, .name "a"]) d)
    (hd : d.current.kind.tightness ≤ (Form.chain rank).tightness) :
    (within n).readLinks rank e c = .ok (grown (linked join) count e, d) := by
  induction count generalizing n c e with
  | zero =>
      obtain rfl := Cursor.reaches_nil.1 hpass
      exact @Level.rest_apply (within n) (.chain rank) e c hd
  | succ count ih =>
      obtain _ | n := n
      · cases hcount
      obtain ⟨m, hm, hrest⟩ := Cursor.reaches_cons_iff.1 hpass
      obtain ⟨m', hname, hmore⟩ := Cursor.reaches_cons_iff.1 hrest
      have htight : m'.current.kind.tightness ≤ rank.operand.tightness :=
        tightness_le_of_repeated hmore (Nat.le_of_eq hop.tightness_eq)
          (Nat.le_trans hd (Nat.le_of_lt rank.tightness_lt_operand))
      have hoperand : (within (n + 1)).operand rank m = .ok (.var "a", m') :=
        ((phrase_name rank.operand).leads.operand_within rank (by simpa using hname) htight).eq_of_not
          (by simp)
      rw [Leads.readLinks_apply _ _ hop hm]
      exact (bind_of_ok hoperand).trans (ih (Nat.le_of_succ_le_succ hcount) hmore)

/-- With as many levels as attributes, all of them are read. -/
theorem readPostfixes_repeated (hcount : count ≤ n)
    (hpass : c.Reaches (repeated count [.mark .dot, .name "a"]) d)
    (hd : d.current.kind.tightness ≤ Form.postfixed.tightness) :
    (within n).readPostfixes e c = .ok (grown (.attribute · "a") count e, d) := by
  induction count generalizing n c e with
  | zero =>
      obtain rfl := Cursor.reaches_nil.1 hpass
      exact @Level.rest_apply (within n) .postfixed e c hd
  | succ count ih =>
      obtain _ | n := n
      · cases hcount
      obtain ⟨m, hdot, hrest⟩ := Cursor.reaches_cons_iff.1 hpass
      obtain ⟨m', hname, hmore⟩ := Cursor.reaches_cons_iff.1 hrest
      have hpostfixed : (within (n + 1)).postfixed e c = .ok (.attribute e "a", m') :=
        (bind_of_ok (advance_apply hdot)).trans (bind_of_ok (identifier_apply hname))
      rw [readPostfixes, peek_bind, hdot.current_eq]
      exact (bind_of_ok hpostfixed).trans (ih (Nat.le_of_succ_le_succ hcount) hmore)

/-- The chains on a primary expression are read on one level, each with as many links as are left. -/
theorem expression_raised (hprimary : (within n).primary c = .ok (e, m)) (hc : 8 ≤ c.current.kind.reach)
    (hcount : count ≤ n) (hpass : m.Reaches (raisedKinds count) d)
    (hd : d.current.kind.tightness = 0) :
    (within (n + 1)).expression c = .ok (raised count e, d) := by
  -- The cursors `m₁` to `m₆` stand between the chains, from the tightest to the loosest.
  simp only [raisedKinds, Cursor.reaches_append_iff, Cursor.reaches_cons_iff] at hpass
  obtain ⟨m₁, hattributes, m₂, hproduct, m₃, hsum, m₄, hless, m₅, hname, m₆, hand, hor⟩ := hpass
  have hm₆ : m₆.current.kind.tightness ≤ 1 := tightness_le_of_repeated hor (by decide) (by omega)
  have hm₅ : m₅.current.kind.tightness ≤ 2 := tightness_le_of_repeated hand (by decide) (by omega)
  have hm₃ : m₃.current.kind.tightness = 3 := hless.tightness_eq
  have hm₂ : m₂.current.kind.tightness ≤ 4 := tightness_le_of_repeated hsum (by decide) (by omega)
  have hm₁ : m₁.current.kind.tightness ≤ 5 := tightness_le_of_repeated hproduct (by decide) (by omega)
  have hne {k : TokenKind} (hk : k.reach < 8) : c.current.kind ≠ k := fun h => by
    rw [h] at hc
    omega
  let attributed := grown (.attribute · "a") count e
  let multiplied := grown (linked (.binary .mul)) count attributed
  let added := grown (linked (.binary .add)) count multiplied
  have hsign : (within n).sign c = .ok (attributed, m₁) := by
    rw [sign, bind_of_ok (accept_apply_of_ne (.mark .minus) (hne (by decide)))]
    refine (bind_of_ok hprimary).trans (readPostfixes_repeated hcount hattributes ?_)
    exact Nat.le_trans hm₁ (by decide)
  have hmultiplied : (within n).product c = .ok (multiplied, m₂) :=
    (bind_of_ok hsign).trans (readLinks_repeated .mul hcount hproduct hm₂)
  have hadded : (within n).sum c = .ok (added, m₃) :=
    (bind_of_ok hmultiplied).trans (readLinks_repeated .add hcount hsum (Nat.le_of_eq hm₃))
  have hright : (within n).sum m₄ = .ok (.var "a", m₅) :=
    ((phrase_name (.chain .sum)).leads.reader (by simpa using hname)
      (Nat.le_trans hm₅ (by decide))).eq_of_not (by simp)
  have hmark : m₃.Reaches [.mark .less] m₄ := by simpa using hless
  have hcomparison : (within n).comparison c = .ok (linked (.binary .less) added, m₅) :=
    (bind_of_ok hadded).trans ((Leads.comparison_apply (within n) .less hmark).trans (bind_of_ok hright))
  have hnegation : (within n).negation c = .ok (linked (.binary .less) added, m₅) :=
    (bind_of_ok (accept_apply_of_ne (.keyword .notWord) (hne (by decide)))).trans hcomparison
  have hconjunction : (within n).conjunction c =
      .ok (grown (linked .and) count (linked (.binary .less) added), m₆) :=
    (bind_of_ok hnegation).trans (readLinks_repeated .and hcount hand hm₆)
  exact (bind_of_ok hconjunction).trans (readLinks_repeated .or hcount hor (Nat.le_of_eq hd))

/-- A tower is read with one level for each floor. -/
theorem expression_tower (hpass : c.Reaches (towerKinds n) d) (hd : d.current.kind.tightness = 0) :
    (within (n + 1)).expression c = .ok (tower n, d) := by
  induction n generalizing c d with
  | zero =>
      obtain ⟨m, hname, hrest⟩ := Cursor.reaches_cons_iff.1 hpass
      have hprimary : (within 0).primary c = .ok (.var "a", m) := bind_of_ok (advance_apply hname)
      exact expression_raised hprimary (by rw [hname.current_eq]; decide) (Nat.zero_le 0) hrest hd
  | succ n ih =>
      simp only [towerKinds, Cursor.reaches_append_iff, Cursor.reaches_cons_iff] at hpass
      obtain ⟨m₁, hopen, m₂, hfloor, m, hclose, hrest⟩ := hpass
      have hinner := ih hfloor hclose.tightness_eq
      have hlist : (within (n + 1)).listDisplay m₁ = .ok (.list [tower n], m) := by
        have hfirst : m₁.current.kind ≠ .mark .rightBracket := by
          cases n with
          | zero => exact (Cursor.reaches_cons_iff.1 hfloor).elim fun _ h => h.1.current_ne (by simp)
          | succ n => exact (Cursor.reaches_cons_iff.1 hfloor).elim fun _ h => h.1.current_ne (by simp)
        have hfor : m₂.current.kind ≠ .keyword .forWord := hclose.current_ne (by simp)
        rw [listDisplay, bind_of_ok (accept_apply_of_ne (.mark .rightBracket) hfirst)]
        refine (bind_of_ok hinner).trans ?_
        refine (bind_of_ok (accept_apply_of_ne (.keyword .forWord) hfor)).trans ?_
        exact bind_of_ok (accept_apply (.mark .rightBracket) hclose)
      have hprimary : (within (n + 1)).primary c = .ok (.list [tower n], m) :=
        (bind_of_ok (advance_apply hopen)).trans hlist
      exact expression_raised hprimary (by rw [hopen.current_eq]; decide) (Nat.le_refl _) hrest hd

end Reading

/-! ### The text of a tower -/

/-- The text of the chains on an expression. -/
def raisedChars (count : Nat) : List Char :=
  repeated count ['.', 'a', ' '] ++ (repeated count ['*', 'a', ' '] ++
    (repeated count ['+', 'a', ' '] ++ (['<', 'a', ' '] ++
      (repeated count ['a', 'n', 'd', ' ', 'a', ' '] ++ repeated count ['o', 'r', ' ', 'a', ' ']))))

/-- The text of a tower. -/
def towerChars : Nat → List Char
  | 0 => ['a', ' '] ++ raisedChars 0
  | n + 1 => ['['] ++ (towerChars n ++ ([']'] ++ raisedChars (n + 1)))

theorem Reads.repeated {cs : List Char} {ks : List TokenKind} (h : Reads cs ks) (count : Nat) :
    Reads (repeated count cs) (repeated count ks) := by
  induction count with
  | zero => exact fun _ _ => rfl
  | succ count ih => exact h.append ih

theorem reads_raised (count : Nat) : Reads (raisedChars count) (raisedKinds count) := by
  have hattribute : Reads ['.', 'a', ' '] [.mark .dot, .name "a"] := by
    rintro ⟨line, nesting, tokens, _⟩ rfl
    rfl
  have hmul : Reads ['*', 'a', ' '] [.mark .star, .name "a"] := by
    rintro ⟨line, nesting, tokens, _⟩ rfl
    rfl
  have hadd : Reads ['+', 'a', ' '] [.mark .plus, .name "a"] := by
    rintro ⟨line, nesting, tokens, _⟩ rfl
    rfl
  have hless : Reads ['<', 'a', ' '] [.mark .less, .name "a"] := by
    rintro ⟨line, nesting, tokens, _⟩ rfl
    rfl
  have hand : Reads ['a', 'n', 'd', ' ', 'a', ' '] [.keyword .andWord, .name "a"] := by
    rintro ⟨line, nesting, tokens, _⟩ rfl
    rfl
  have hor : Reads ['o', 'r', ' ', 'a', ' '] [.keyword .orWord, .name "a"] := by
    rintro ⟨line, nesting, tokens, _⟩ rfl
    rfl
  exact (hattribute.repeated count).append <| (hmul.repeated count).append <|
    (hadd.repeated count).append <| hless.append <| (hand.repeated count).append (hor.repeated count)

theorem reads_name : Reads ['a', ' '] [.name "a"] := by
  rintro ⟨line, nesting, tokens, _⟩ rfl
  rfl

theorem reads_tower (n : Nat) : Reads (towerChars n) (towerKinds n) := by
  induction n with
  | zero => exact reads_name.append (reads_raised 0)
  | succ n ih =>
      have hclose : Reads [']'] [.mark .rightBracket] := by
        rintro ⟨line, nesting, tokens, _⟩ rfl
        rfl
      exact reads_bracket.append (ih.append (hclose.append (reads_raised (n + 1))))

/-- The assignment of the tower of all levels is a script. -/
theorem parse_tower : parse ("v = " ++ String.ofList (towerChars 63)) =
    .ok [.mk 1 (.assign (.var "v") (tower 63))] :=
  parse_assignment (reads_tower 63).spells fun _ _ => expression_tower

/-! ### The bound -/

/-- Whether a program is what is read of the tokens of a text with a number of levels. -/
def ReadWithLevels (levels : Nat) (source : String) (program : List Stmt) : Prop :=
  ∃ c d : Cursor, tokenize source = .ok c.tokens ∧ readWithin levels c = .ok (program, d)

theorem height_le_of_readWithLevels {levels : Nat} {source : String} {program : List Stmt}
    (h : ReadWithLevels levels source program) {e : Expr} (he : e ∈ expressionsOfAll program) :
    e.height ≤ tallest levels := by
  obtain ⟨c, d, -, hread⟩ := h
  exact height_le_of_readWithin hread he

/-- Among the programs that are read with a number of levels is one with the highest tree that is left
room for. -/
theorem exists_height_eq_tallest (n : Nat) : ∃ source program, ReadWithLevels (n + 1) source program ∧
    ∃ e ∈ expressionsOfAll program, e.height = tallest (n + 1) := by
  have htokens := tokenize_assignment (reads_tower n).spells
  obtain ⟨c, hc, -, -⟩ := cursor_of_tokenize htokens
  obtain ⟨d, hread⟩ := readWithin_of_tokens (fun _ _ => expression_tower) hc
  rw [← hc] at htokens
  exact ⟨_, _, ⟨c, d, htokens, hread⟩, tower n, mem_expressionsOfAll_assign .., height_tower n⟩

/-- The nesting limit bounds the trees of accepted scripts by 10208 expressions on a way from the root
to a leaf, and there are scripts with so many. All scripts that are read with a number of levels keep to
four expressions for each level of the limit exactly if there are no more than ten levels. -/
theorem nesting_limit_bounds_trees (levels : Nat) :
    (∀ source program, parse source = .ok program →
      ∀ e ∈ expressionsOfAll program, e.height ≤ 10208) ∧
    (∃ source program, parse source = .ok program ∧
      ∃ e ∈ expressionsOfAll program, e.height = 10208) ∧
    ((∀ source program, ReadWithLevels levels source program →
      ∀ e ∈ expressionsOfAll program, e.height ≤ 4 * maxNesting) ↔ levels ≤ 10) := by
  have hall : tallest maxNesting = 10208 := by decide
  refine ⟨fun source program hparse e he => ?_, ?_, fun hlow => ?_, fun hlevels => ?_⟩
  · obtain ⟨c, d, htokens, -, hread⟩ := readWithin_of_parse hparse
    exact hall ▸ height_le_of_readWithLevels ⟨c, d, htokens, hread⟩ he
  · exact ⟨_, _, parse_tower, tower 63, mem_expressionsOfAll_assign .., (height_tower 63).trans hall⟩
  · by_contra hlevels
    obtain ⟨n, rfl⟩ : ∃ n, levels = n + 1 := ⟨levels - 1, by omega⟩
    obtain ⟨source, program, hread, e, he, hheight⟩ := exists_height_eq_tallest n
    have hbound := hlow source program hread e he
    have heleven : tallest 11 ≤ tallest (n + 1) := tallest_mono (by omega)
    have habove : 4 * maxNesting < tallest 11 := by decide
    omega
  · intro source program hread e he
    have hten : tallest levels ≤ tallest 10 := tallest_mono hlevels
    exact Nat.le_trans (height_le_of_readWithLevels hread he) (Nat.le_trans hten (by decide))

/-- The chains on a name are read with one more level than they have links. -/
theorem parse_raised {count : Nat} (hcount : count ≤ 63) :
    parse ("v = " ++ String.ofList (['a', ' '] ++ raisedChars count)) =
      .ok [.mk 1 (.assign (.var "v") (raised count (.var "a")))] := by
  refine parse_assignment (reads_name.append (reads_raised count)).spells fun c d hpass hd => ?_
  obtain ⟨m, hname, hrest⟩ := Cursor.reaches_cons_iff.1 hpass
  have hprimary : (within 63).primary c = .ok (.var "a", m) := bind_of_ok (advance_apply hname)
  exact expression_raised hprimary (by rw [hname.current_eq]; decide) hcount hrest hd

theorem toList_join_replicate (count : Nat) (part : String) :
    (String.join (List.replicate count part)).toList = repeated count part.toList := by
  rw [String.toList_join, List.flatMap_def, List.map_replicate, repeated]

/-- The chains of one level stack up, each with a link for almost every level. -/
theorem stacked_chains_exceed_four_for_each_level :
    let source := "v = a " ++ String.join (List.replicate 51 ".a ") ++
      String.join (List.replicate 51 "*a ") ++ String.join (List.replicate 51 "+a ") ++ "<a " ++
      String.join (List.replicate 51 "and a ") ++ String.join (List.replicate 51 "or a ")
    ∃ program, parse source = .ok program ∧
      ∃ e ∈ expressionsOfAll program, 4 * maxNesting < e.height := by
  intro source
  have hsource : source = "v = " ++ String.ofList (['a', ' '] ++ raisedChars 51) := by
    apply String.toList_inj.1
    simp only [source, String.toList_append, toList_join_replicate, String.toList_ofList, raisedChars,
      List.append_assoc]
    rfl
  have hparse := parse_raised (show 51 ≤ 63 by decide)
  rw [← hsource] at hparse
  refine ⟨_, hparse, raised 51 (.var "a"), mem_expressionsOfAll_assign .., ?_⟩
  rw [height_raised, Expr.height]
  decide

end PromptWeave.Script
