import PromptWeave.Json.Value
import PromptWeave.Proofs.Decimal.Digits

/-!
# The tokens of what is written

Punctuation, spaces and texts are read as tokens whatever comes after them, and numbers before
anything that does not go on with a number. Main statements: `spells_integer`, `reads_quote`.
-/
namespace PromptWeave.Json

open PromptWeave.Decimal (exists_digits toDigits_ne_zero_cons)

/-- Whether characters are read as tokens wherever they stand, before others of which `follow` holds.
What room is left always has space for the others. -/
def ReadsBefore (follow : List Char → Prop) (cs : List Char) (ts : List Token) : Prop :=
  ∀ read room rest, follow rest → (cs ++ rest).length ≤ room → ∃ left, rest.length ≤ left ∧
    scanTokens read room (cs ++ rest) = scanTokens (ts.reverse ++ read) left rest

/-- Whether characters are read as tokens before any others. -/
abbrev Reads (cs : List Char) (ts : List Token) : Prop := ReadsBefore (fun _ => True) cs ts

/-- Whether a number ends before characters. -/
def Ends (cs : List Char) : Prop :=
  ∀ c ∈ cs.head?, c.isDigit = false ∧ c ≠ '.' ∧ c ≠ 'e' ∧ c ≠ 'E'

/-- Whether characters are read as tokens before others that do not go on with a number. -/
abbrev Spells (cs : List Char) (ts : List Token) : Prop := ReadsBefore Ends cs ts

section

variable {follow follow' : List Char → Prop} {cs ds : List Char} {ts us : List Token}

theorem ReadsBefore.append (h : ReadsBefore follow cs ts) (h' : ReadsBefore follow' ds us)
    (hds : ∀ rest, follow' rest → follow (ds ++ rest)) :
    ReadsBefore follow' (cs ++ ds) (ts ++ us) := by
  intro read room rest hrest hroom
  rw [List.append_assoc] at hroom ⊢
  obtain ⟨middle, hmiddle, hcs⟩ := h read room (ds ++ rest) (hds rest hrest) hroom
  obtain ⟨left, hleft, hscan⟩ := h' (ts.reverse ++ read) middle rest hrest hmiddle
  refine ⟨left, hleft, ?_⟩
  rw [hcs, hscan, List.reverse_append, List.append_assoc]

theorem Reads.append (h : Reads cs ts) (h' : ReadsBefore follow ds us) :
    ReadsBefore follow (cs ++ ds) (ts ++ us) :=
  ReadsBefore.append h h' fun _ _ => trivial

theorem Reads.spells (h : Reads cs ts) : Spells cs ts := fun read room rest _ =>
  h read room rest trivial

/-- A character that is no space begins a token. -/
theorem readsBefore_of_scanToken {c : Char} {t : Token} (hc : isSpace c = false)
    (h : ∀ rest, follow rest → scanToken c (cs ++ rest) = some (t, rest)) :
    ReadsBefore follow (c :: cs) [t] := by
  intro read room rest hrest hroom
  cases room with
  | zero => simp at hroom
  | succ room =>
      refine ⟨room, ?_, ?_⟩
      · simp only [List.cons_append, List.length_cons, List.length_append] at hroom
        omega
      · simp [scanTokens, hc, h rest hrest]

theorem reads_nil : Reads [] [] := fun _ room _ _ hroom => ⟨room, hroom, rfl⟩

theorem reads_spaces (h : ∀ c ∈ cs, isSpace c = true) : Reads cs [] := by
  induction cs with
  | nil => exact reads_nil
  | cons c cs ih =>
      intro read room rest hrest hroom
      cases room with
      | zero => simp at hroom
      | succ room =>
          have hcs := ih fun d hd => h d (List.mem_cons_of_mem c hd)
          obtain ⟨left, hleft, hscan⟩ := hcs read room rest hrest (by simpa using hroom)
          refine ⟨left, hleft, ?_⟩
          rw [← hscan]
          simp [scanTokens, h c List.mem_cons_self]

/-! ### Integers -/

theorem takeWhile_isDigit_append (hcs : ∀ c ∈ cs, c.isDigit = true) (hds : Ends ds) :
    (cs ++ ds).takeWhile Char.isDigit = cs := by
  rw [List.takeWhile_append_of_pos hcs]
  cases ds with
  | nil => simp
  | cons d ds => simp [(hds d rfl).1]

theorem dropWhile_isDigit_append (hcs : ∀ c ∈ cs, c.isDigit = true) (hds : Ends ds) :
    (cs ++ ds).dropWhile Char.isDigit = ds := by
  rw [List.dropWhile_append_of_pos hcs]
  cases ds with
  | nil => simp
  | cons d ds => simp [(hds d rfl).1]

theorem scanWhole_toDigits (n : Nat) (hrest : Ends ds) :
    scanWhole (Nat.toDigits 10 n ++ ds) = some (Nat.toDigits 10 n, ds) := by
  obtain ⟨d, more, hdigits, hd, hmore⟩ := exists_digits n
  have hall : ∀ c ∈ d :: more, c.isDigit = true := List.forall_mem_cons.2 ⟨hd, hmore⟩
  have hscan : scanDigits (d :: more ++ ds) = some (d :: more, ds) := by
    rw [scanDigits, takeWhile_isDigit_append hall hrest, dropWhile_isDigit_append hall hrest]
  have hzero : ∀ e es, d :: more ≠ '0' :: e :: es := fun e es h =>
    toDigits_ne_zero_cons n e es (hdigits.trans h)
  rw [hdigits, scanWhole, hscan]
  split
  · rename_i e es after heq
    simp only [Option.some.injEq, Prod.mk.injEq] at heq
    exact absurd heq.1 (hzero _ _)
  · rfl

/-- The numeral of an integer. -/
def integerNumeral (n : Int) : Numeral := ⟨decide (n < 0), Nat.toDigits 10 n.natAbs, [], none⟩

theorem scanNumber_toDigits (negative : Bool) (n : Nat) (hrest : Ends ds) :
    scanNumber negative (Nat.toDigits 10 n ++ ds) =
      some (⟨negative, Nat.toDigits 10 n, [], none⟩, ds) := by
  have hfraction : scanFraction ds = some ([], ds) := by
    cases ds with
    | nil => rfl
    | cons d ds =>
        rw [scanFraction]
        intro rest heq
        exact (hrest d rfl).2.1 (List.cons.inj heq).1
  have hexponent : scanExponent ds = some (none, ds) := by
    cases ds with
    | nil => rfl
    | cons d ds => simp [scanExponent, (hrest d rfl).2.2.1, (hrest d rfl).2.2.2]
  simp [scanNumber, scanWhole_toDigits n hrest, hfraction, hexponent]

/-- A digit begins a number. -/
theorem scanToken_digit {d : Char} (hd : d.isDigit = true) (rest : List Char) :
    scanToken d rest = (scanNumber false (d :: rest)).map fun (n, after) => (.number n, after) := by
  have hne (c : Char) (hc : c.isDigit = false) : d ≠ c := by
    rintro rfl
    simp [hd] at hc
  rw [scanToken.eq_def]
  split
  case h_12 => rfl
  all_goals exact absurd rfl (hne _ (by decide))

theorem isSpace_of_isDigit {d : Char} (hd : d.isDigit = true) : isSpace d = false := by
  have hne (c : Char) (hc : c.isDigit = false) : (d == c) = false := by
    rw [beq_eq_false_iff_ne]
    rintro rfl
    simp [hd] at hc
  simp [isSpace, hne]

/-- An integer is written with a sign if it is negative, and with its digits. -/
theorem toList_toString_int (n : Int) : (toString n).toList =
    if n < 0 then '-' :: Nat.toDigits 10 n.natAbs else Nat.toDigits 10 n.natAbs := by
  have hrepr : toString n = n.repr := rfl
  rw [hrepr, Int.repr_eq_if]
  by_cases hn : n < 0
  · have habs : (-n).toNat = n.natAbs := by omega
    simp [hn, habs, Nat.repr_eq_ofList_toDigits, Int.not_le.2 hn]
  · have habs : n.toNat = n.natAbs := by omega
    simp [hn, habs, Nat.repr_eq_ofList_toDigits, Int.not_lt.1 hn]

theorem spells_integer (n : Int) : Spells (toString n).toList [.number (integerNumeral n)] := by
  rw [toList_toString_int]
  by_cases hn : n < 0
  · rw [if_pos hn]
    refine readsBefore_of_scanToken (by decide) fun rest hrest => ?_
    have hscan : scanToken '-' (Nat.toDigits 10 n.natAbs ++ rest) =
      (scanNumber true (Nat.toDigits 10 n.natAbs ++ rest)).map
        fun (n, after) => (.number n, after) := rfl
    rw [hscan, scanNumber_toDigits true n.natAbs hrest, integerNumeral, decide_eq_true hn]
    rfl
  · rw [if_neg hn]
    obtain ⟨d, ds, hdigits, hd, -⟩ := exists_digits n.natAbs
    rw [hdigits]
    refine readsBefore_of_scanToken (isSpace_of_isDigit hd) fun rest hrest => ?_
    rw [scanToken_digit hd, ← List.cons_append, ← hdigits, scanNumber_toDigits false n.natAbs hrest,
      integerNumeral, decide_eq_false hn]
    rfl

/-! ### Texts -/

/-- A code unit that is no half of a surrogate pair is a character by itself. -/
theorem joinPieces_unit {n : Nat} (h : n < 0xD800) (pieces : List Piece) :
    joinPieces (.unit n :: pieces) = (joinPieces pieces).map (Char.ofNat n :: ·) := by
  have hhigh : ¬(0xD800 ≤ n ∧ n < 0xDC00) := by omega
  have hlow : ¬(0xDC00 ≤ n ∧ n < 0xE000) := by omega
  have hhalf : ¬(0xD800 ≤ n ∧ n < 0xE000) := by omega
  cases pieces with
  | nil => simp [joinPieces, hhalf]
  | cons p pieces =>
      cases p with
      | char c => simp [joinPieces, hhalf]
      | unit low => simp [joinPieces, hhigh, hlow]

theorem hexUnit?_hexChar : ∀ n < 32,
    hexUnit? '0' '0' (hexChar (n / 16)) (hexChar (n % 16)) = some n := by
  decide

/-- A character is read from its written form as a piece that stands for it. -/
theorem exists_scanText_escape (c : Char) : ∃ p, (∀ read rest,
    scanText read (escape c ++ rest) = scanText (p :: read) rest) ∧
      ∀ pieces, joinPieces (p :: pieces) = (joinPieces pieces).map (c :: ·) := by
  unfold escape
  split
  case h_8 hquote hbackslash _ _ _ _ _ =>
    by_cases hc : c.toNat < 0x20
    · refine ⟨.unit c.toNat, fun read rest => ?_, fun pieces => ?_⟩
      · simp [hc, scanText, hexUnit?_hexChar c.toNat hc]
      · rw [joinPieces_unit (by omega), Char.ofNat_toNat]
    · refine ⟨.char c, fun read rest => ?_, fun pieces => rfl⟩
      rw [if_neg hc, List.singleton_append, scanText]
      · rw [if_neg hc]
      · exact hquote
      · exact fun _ _ _ _ _ h _ => hbackslash h
      · exact fun _ _ h _ => hbackslash h
  all_goals exact ⟨.char _, fun _ _ => rfl, fun _ => rfl⟩

/-- The written form of a text is read as pieces that make the text. -/
theorem exists_scanText_flatMap_escape (cs : List Char) : ∃ pieces, joinPieces pieces = some cs ∧
    ∀ read rest, scanText read (cs.flatMap escape ++ rest) = scanText (pieces.reverse ++ read) rest := by
  induction cs with
  | nil => exact ⟨[], rfl, fun _ _ => rfl⟩
  | cons c cs ih =>
      obtain ⟨pieces, hjoin, hscan⟩ := ih
      obtain ⟨p, hc, hp⟩ := exists_scanText_escape c
      refine ⟨p :: pieces, ?_, fun read rest => ?_⟩
      · rw [hp, hjoin]
        rfl
      · rw [List.flatMap_cons, List.append_assoc, hc, hscan, List.reverse_cons, List.append_assoc]
        rfl

theorem reads_quote (s : String) : Reads (quote s).toList [.text (some s)] := by
  have hchars : (quote s).toList = '"' :: (s.toList.flatMap escape ++ ['"']) := by
    simp [quote]
  obtain ⟨pieces, hjoin, hscan⟩ := exists_scanText_flatMap_escape s.toList
  rw [hchars]
  refine readsBefore_of_scanToken (by decide) fun rest _ => ?_
  have htext : scanText [] (s.toList.flatMap escape ++ ['"'] ++ rest) = some (pieces, rest) := by
    rw [List.append_assoc, hscan, List.append_nil]
    simp [scanText]
  rw [scanToken, htext]
  simp only [Option.map_some, hjoin, String.ofList_toList]

end

end PromptWeave.Json
