import Mathlib.Data.List.Infix
import PromptWeave.Wildcard.Reference

/-!
# Where a tag is cut

A block is a name between double underscores. A tag is cut at the block that begins first, which ends as
soon as it can, and behind it the same way again. A tag in angle brackets is not cut. Main statements:
`cuts_iff`, `Cuts.join_written`, `inner?_eq_some_iff`.
-/
namespace PromptWeave.Wildcard

/-- Whether a text begins with a name between double underscores. A name has a character and does not
run over the end of a line. -/
structure BeginsWithBlock (cs name behind : List Char) : Prop where
  reads : cs = '_' :: '_' :: (name ++ '_' :: '_' :: behind)
  nonempty : name ≠ []
  oneLine : '\n' ∉ name

/-- Whether a text begins with a block, and with no shorter one. -/
structure BeginsWithShortest (cs name behind : List Char) : Prop
    extends BeginsWithBlock cs name behind where
  shortest : ∀ other rest, BeginsWithBlock cs other rest → name.length ≤ other.length

/-- Whether no block begins in a text in front of another. -/
def NoBlockIn (front rest : List Char) : Prop :=
  ∀ back, back <:+ front → back ≠ [] → ∀ name behind, ¬ BeginsWithBlock (back ++ rest) name behind

/-- The piece for the text between two blocks; there is none if the blocks touch. -/
def textPieces (cs : List Char) : List Piece := if cs = [] then [] else [.text (String.ofList cs)]

/-- Cutting a text at its blocks, from left to right. -/
inductive Cuts : List Char → List Piece → Prop where
  | rest {cs} : NoBlockIn cs [] → Cuts cs (textPieces cs)
  | block {front cs name behind parts} :
      NoBlockIn front cs → BeginsWithShortest cs name behind → Cuts behind parts →
      Cuts (front ++ cs) (textPieces front ++ .block (String.ofList name) :: parts)

/-! ### The block at the front -/

/-- A name that is found reaches up to the first double underscore. -/
theorem nameUpTo_eq_some {read cs name behind : List Char}
    (h : nameUpTo read cs = some (name, behind)) :
    ∃ more, name = read.reverse ++ more ∧ cs = more ++ '_' :: '_' :: behind ∧ '\n' ∉ more ∧
      ∀ other rest, cs = other ++ '_' :: '_' :: rest → more.length ≤ other.length := by
  fun_induction nameUpTo read cs with
  | case1 => cases h
  | case2 read rest =>
      obtain ⟨rfl, rfl⟩ := Prod.mk.inj (Option.some.inj h)
      exact ⟨[], (List.append_nil _).symm, rfl, List.not_mem_nil, fun _ _ _ => Nat.zero_le _⟩
  | case3 => cases h
  | case4 read c rest hopen hline ih =>
      obtain ⟨more, rfl, rfl, honeLine, hshortest⟩ := ih h
      have hc : '\n' ≠ c := fun he => hline (beq_iff_eq.2 he.symm)
      refine ⟨c :: more, by simp, rfl, by simp [hc, honeLine], fun other tail hother => ?_⟩
      cases other with
      | nil => exact absurd hother (by simpa using hopen tail)
      | cons d other =>
          obtain ⟨-, hrest⟩ := List.cons.inj hother
          exact Nat.succ_le_succ (hshortest other tail hrest)

/-- If no name is found, no double underscore stands in the line. -/
theorem nameUpTo_eq_none {read cs : List Char} (h : nameUpTo read cs = none) :
    ∀ other rest, '\n' ∉ other → cs ≠ other ++ '_' :: '_' :: rest := by
  fun_induction nameUpTo read cs with
  | case1 => simp
  | case2 => cases h
  | case3 read c rest hopen hline =>
      rintro other tail honeLine hother
      cases other with
      | nil => exact absurd hother (by simpa using hopen tail)
      | cons d other =>
          obtain ⟨rfl, -⟩ := List.cons.inj hother
          exact honeLine (beq_iff_eq.1 hline ▸ List.mem_cons_self)
  | case4 read c rest hopen hline ih =>
      rintro other tail honeLine hother
      cases other with
      | nil => exact absurd hother (by simpa using hopen tail)
      | cons d other =>
          obtain ⟨-, hrest⟩ := List.cons.inj hother
          exact ih h other tail (fun hmem => honeLine (List.mem_cons_of_mem d hmem)) hrest

theorem BeginsWithBlock.eq_of_length {cs name behind other rest : List Char}
    (h : BeginsWithBlock cs name behind) (h' : BeginsWithBlock cs other rest)
    (hlength : name.length = other.length) : name = other ∧ behind = rest := by
  have hsame := h.reads.symm.trans h'.reads
  simp only [List.cons.injEq, true_and] at hsame
  obtain ⟨hname, hbehind⟩ := List.append_inj hsame hlength
  exact ⟨hname, by simpa using hbehind⟩

/-- The block that is read is the shortest one at the front. -/
theorem beginsWithShortest_of_readBlock {cs name behind : List Char}
    (h : readBlock cs = some (name, behind)) : BeginsWithShortest cs name behind := by
  unfold readBlock at h
  split at h
  · rename_i c rest
    split at h
    · cases h
    · rename_i hline
      obtain ⟨more, rfl, rfl, honeLine, hshortest⟩ := nameUpTo_eq_some h
      have hc : '\n' ≠ c := fun he => hline (beq_iff_eq.2 he.symm)
      refine ⟨⟨rfl, by simp, by simp [hc, honeLine]⟩, fun other tail hother => ?_⟩
      obtain ⟨hreads, hnonempty, -⟩ := hother
      obtain ⟨d, other, rfl⟩ := List.exists_cons_of_ne_nil hnonempty
      simp only [List.cons_append, List.cons.injEq, true_and] at hreads
      simpa using hshortest other tail hreads.2
  · cases h

/-- If no block is read, none stands at the front. -/
theorem not_beginsWithBlock_of_readBlock {cs : List Char} (h : readBlock cs = none)
    (name behind : List Char) : ¬ BeginsWithBlock cs name behind := by
  rintro ⟨rfl, hnonempty, honeLine⟩
  obtain ⟨c, more, rfl⟩ := List.exists_cons_of_ne_nil hnonempty
  obtain ⟨hc, hmore⟩ := not_or.1 (mt List.mem_cons.2 honeLine)
  have hline : (c == '\n') = false := beq_eq_false_iff_ne.2 (Ne.symm hc)
  simp only [List.cons_append, readBlock, hline, Bool.false_eq_true, if_false] at h
  exact nameUpTo_eq_none h more behind hmore rfl

theorem readBlock_eq_some_iff {cs name behind : List Char} :
    readBlock cs = some (name, behind) ↔ BeginsWithShortest cs name behind := by
  refine ⟨beginsWithShortest_of_readBlock, fun h => ?_⟩
  cases hread : readBlock cs with
  | none => exact absurd h.toBeginsWithBlock (not_beginsWithBlock_of_readBlock hread name behind)
  | some found =>
      obtain ⟨other, rest⟩ := found
      have hother := beginsWithShortest_of_readBlock hread
      have hlength := Nat.le_antisymm (h.shortest _ _ hother.toBeginsWithBlock)
        (hother.shortest _ _ h.toBeginsWithBlock)
      obtain ⟨rfl, rfl⟩ := h.eq_of_length hother.toBeginsWithBlock hlength
      rfl

/-! ### From left to right -/

theorem noBlockIn_nil (rest : List Char) : NoBlockIn [] rest :=
  fun _ hback hne => absurd (List.suffix_nil.1 hback) hne

theorem noBlockIn_cons {c : Char} {front rest : List Char} :
    NoBlockIn (c :: front) rest ↔
      readBlock (c :: (front ++ rest)) = none ∧ NoBlockIn front rest := by
  constructor
  · intro h
    refine ⟨?_, fun back hback => h back (hback.trans (List.suffix_cons c front))⟩
    cases hread : readBlock (c :: (front ++ rest)) with
    | none => rfl
    | some found =>
        exact absurd (readBlock_eq_some_iff.1 hread).toBeginsWithBlock
          (h (c :: front) (List.suffix_refl _) (List.cons_ne_nil _ _) _ _)
  · rintro ⟨hread, hfront⟩ back hback hne
    rcases List.suffix_cons_iff.1 hback with rfl | hback
    · exact not_beginsWithBlock_of_readBlock hread
    · exact hfront back hback hne

theorem withText_eq (read : List Char) (parts : List Piece) :
    withText read parts = textPieces read.reverse ++ parts := by
  cases read <;> simp [withText, textPieces]

/-- Where no block begins the text is passed over. -/
theorem piecesFrom_of_noBlockIn {front rest : List Char} (h : NoBlockIn front rest)
    (read : List Char) (room : Nat) :
    piecesFrom read (front.length + room) (front ++ rest) =
      piecesFrom (front.reverse ++ read) room rest := by
  induction front generalizing read with
  | nil => simp
  | cons c front ih =>
      obtain ⟨hread, hfront⟩ := noBlockIn_cons.1 h
      rw [List.length_cons, Nat.add_right_comm, List.cons_append, piecesFrom, hread]
      simp [ih hfront]

theorem piecesFrom_nil (read : List Char) (room : Nat) :
    piecesFrom read room [] = textPieces read.reverse := by
  cases room <;> simp [piecesFrom, withText_eq]

/-- With enough room the pieces are the ones that a cut from left to right gives. -/
theorem Cuts.piecesFrom_eq {cs : List Char} {parts : List Piece} (h : Cuts cs parts) {room : Nat}
    (hroom : cs.length ≤ room) : piecesFrom [] room cs = parts := by
  induction h generalizing room with
  | @rest cs hnone =>
      obtain ⟨more, rfl⟩ := Nat.exists_eq_add_of_le hroom
      have hpast := piecesFrom_of_noBlockIn hnone [] more
      rw [List.append_nil] at hpast
      rw [hpast, piecesFrom_nil]
      simp
  | @block front cs name behind parts hnone hblock _ ih =>
      obtain ⟨more, rfl⟩ := Nat.exists_eq_add_of_le hroom
      -- The block takes room for itself, so what stands behind it has enough.
      have hlength : cs.length = behind.length + (name.length + 3) + 1 := by
        rw [hblock.reads]
        simp only [List.length_cons, List.length_append]
        omega
      have hread := readBlock_eq_some_iff.2 hblock
      obtain ⟨c, tail, hcs⟩ := List.exists_cons_of_length_eq_add_one hlength
      have hsum : (front ++ cs).length + more =
          front.length + (behind.length + (name.length + 3) + more + 1) := by
        rw [List.length_append, hlength]
        omega
      rw [hsum, piecesFrom_of_noBlockIn hnone, hcs, piecesFrom, ← hcs, hread]
      simp only [withText_eq, List.append_nil, List.reverse_reverse]
      rw [ih (by omega)]

/-- Either no block begins in a text, or there is a first one. -/
theorem exists_first_block (cs : List Char) : NoBlockIn cs [] ∨
    ∃ front here name behind, cs = front ++ here ∧ NoBlockIn front here ∧
      BeginsWithShortest here name behind := by
  induction cs with
  | nil => exact Or.inl (noBlockIn_nil [])
  | cons c rest ih =>
      cases hread : readBlock (c :: rest) with
      | some found =>
          exact Or.inr ⟨[], c :: rest, found.1, found.2, rfl, noBlockIn_nil _,
            readBlock_eq_some_iff.1 hread⟩
      | none =>
          rcases ih with hnone | ⟨front, here, name, behind, rfl, hfront, hblock⟩
          · exact Or.inl (noBlockIn_cons.2 ⟨by rwa [List.append_nil], hnone⟩)
          · exact Or.inr ⟨c :: front, here, name, behind, rfl, noBlockIn_cons.2 ⟨hread, hfront⟩, hblock⟩

theorem exists_cuts (cs : List Char) : ∃ parts, Cuts cs parts := by
  rcases exists_first_block cs with hnone | ⟨front, here, name, behind, rfl, hfront, hblock⟩
  · exact ⟨_, .rest hnone⟩
  · have hshorter : behind.length < (front ++ here).length := by
      rw [hblock.reads]
      simp only [List.length_append, List.length_cons]
      omega
    obtain ⟨parts, hparts⟩ := exists_cuts behind
    exact ⟨_, .block hfront hblock hparts⟩
termination_by cs.length

/-- There is one way to cut a tag at its blocks from left to right, and it gives the pieces. -/
theorem cuts_iff {tag : String} {parts : List Piece} :
    Cuts tag.toList parts ↔ parts = pieces tag := by
  have hroom : tag.toList.length ≤ tag.length := Nat.le_of_eq String.length_toList
  constructor
  · exact fun h => (h.piecesFrom_eq hroom).symm
  · rintro rfl
    obtain ⟨parts, hparts⟩ := exists_cuts tag.toList
    rw [pieces, hparts.piecesFrom_eq hroom]
    exact hparts

/-! ### What was cut -/

/-- A piece as it stands in its tag. -/
def Piece.written : Piece → String
  | text s => s
  | block name => "__" ++ name ++ "__"

theorem join_written_textPieces (cs : List Char) :
    String.join ((textPieces cs).map Piece.written) = String.ofList cs := by
  unfold textPieces
  split
  · rename_i hempty
    rw [hempty]
    rfl
  · simp [Piece.written]

/-- The pieces of a text, one after the other, are the text. -/
theorem Cuts.join_written {cs : List Char} {parts : List Piece} (h : Cuts cs parts) :
    String.join (parts.map Piece.written) = String.ofList cs := by
  induction h with
  | rest _ => exact join_written_textPieces _
  | @block front cs name behind parts _ hblock _ ih =>
      have hwritten : "__" ++ String.ofList name ++ "__" ++ String.ofList behind = String.ofList cs := by
        rw [← String.toList_inj, hblock.reads]
        simp
      rw [List.map_append, String.join_append, join_written_textPieces, List.map_cons, String.join_cons,
        ih, String.ofList_append, ← hwritten]
      rfl

/-! ### Angle brackets -/

/-- Whether a tag stands in angle brackets, apart from blanks around it. -/
def InBrackets (tag inner : String) : Prop := Text.trim tag = "<" ++ inner ++ ">"

theorem inner?_eq_some_iff {tag inner : String} : inner? tag = some inner ↔ InBrackets tag inner := by
  have hreads : InBrackets tag inner ↔ (Text.trim tag).toList = '<' :: (inner.toList ++ ['>']) := by
    rw [InBrackets, ← String.toList_inj]
    simp
  rw [hreads, inner?]
  split
  · rename_i rest htag
    rw [htag, List.cons.injEq, eq_self, true_and]
    constructor
    · intro h
      split at h
      · rename_i hlast
        obtain ⟨front, rfl⟩ := List.getLast?_eq_some_iff.1 (beq_iff_eq.1 hlast)
        rw [← Option.some.inj h]
        simp
      · cases h
    · rintro rfl
      simp
  · rename_i hother
    constructor
    · intro h
      cases h
    · exact fun h => absurd h (hother _)

theorem inner?_eq_none_iff {tag : String} :
    inner? tag = none ↔ ∀ inner, ¬ InBrackets tag inner := by
  simp only [Option.eq_none_iff_forall_ne_some, ne_eq, inner?_eq_some_iff]

/-! ### What a tag asks for -/

theorem any_isBar_iff {cs : List Char} : cs.any isBar = true ↔ '|' ∈ cs := by simp [isBar]

theorem Request.ofTag_choice {tag inner : String} (h : InBrackets tag inner)
    (hbar : '|' ∈ inner.toList) : Request.ofTag tag =
      .choice ((Text.piecesAt isBar inner.toList).map fun cs => Text.trim (String.ofList cs)) := by
  simp only [Request.ofTag, inner?_eq_some_iff.2 h, any_isBar_iff.2 hbar, if_true]

theorem Request.ofTag_reference {tag inner : String} (h : InBrackets tag inner)
    (hbar : '|' ∉ inner.toList) : Request.ofTag tag = .reference (.ofText (Text.trim inner)) := by
  simp only [Request.ofTag, inner?_eq_some_iff.2 h, any_isBar_iff, hbar, if_false]

theorem Request.ofTag_blocks {tag : String} (h : ∀ inner, ¬ InBrackets tag inner)
    (hblocks : (pieces tag).any Piece.isBlock = true) : Request.ofTag tag = .blocks (pieces tag) := by
  simp only [Request.ofTag, inner?_eq_none_iff.2 h, hblocks, if_true]

theorem Request.ofTag_plain {tag : String} (h : ∀ inner, ¬ InBrackets tag inner)
    (hblocks : (pieces tag).any Piece.isBlock = false) : Request.ofTag tag = .plain := by
  simp only [Request.ofTag, inner?_eq_none_iff.2 h, hblocks, Bool.false_eq_true, if_false]

end PromptWeave.Wildcard
