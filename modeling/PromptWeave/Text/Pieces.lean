/-!
# Finding, cutting and replacing

Occurrences of one text in another are found from left to right and never overlap. Positions
count characters.
-/
namespace PromptWeave.Text

/-- The pieces of a text between the characters of a class; two neighbouring characters of the
class have an empty piece between them. -/
def piecesAt (inClass : Char → Bool) (cs : List Char) : List (List Char) :=
  cs.foldr
    (fun c pieces =>
      if inClass c then [] :: pieces
      else
        match pieces with
        | [] => [[c]]
        | piece :: rest => (c :: piece) :: rest)
    [[]]

@[simp] theorem piecesAt_nil (inClass : Char → Bool) : piecesAt inClass [] = [[]] := rfl

theorem piecesAt_cons (inClass : Char → Bool) (c : Char) (cs : List Char) :
    piecesAt inClass (c :: cs) =
      if inClass c then [] :: piecesAt inClass cs
      else
        match piecesAt inClass cs with
        | [] => [[c]]
        | piece :: rest => (c :: piece) :: rest := rfl

theorem piecesAt_eq_splitOnP (inClass : Char → Bool) (cs : List Char) :
    piecesAt inClass cs = cs.splitOnP inClass := by
  induction cs with
  | nil => rfl
  | cons c cs ih =>
      rw [piecesAt_cons, List.splitOnP_cons_eq_if_modifyHead, ih]
      cases hsplit : cs.splitOnP inClass with
      | nil => exact absurd hsplit (List.splitOnP_ne_nil _ _)
      | cons piece rest => rfl

/-- No piece holds a character of the class. -/
theorem not_inClass_of_mem_piecesAt {inClass : Char → Bool} {cs piece : List Char}
    (hpiece : piece ∈ piecesAt inClass cs) {c : Char} (hc : c ∈ piece) : inClass c = false := by
  induction cs generalizing piece with
  | nil =>
      obtain rfl : piece = [] := by simpa using hpiece
      exact absurd hc List.not_mem_nil
  | cons head rest ih =>
      rw [piecesAt_cons] at hpiece
      split at hpiece
      · rcases List.mem_cons.1 hpiece with rfl | hrest
        · exact absurd hc List.not_mem_nil
        · exact ih hrest hc
      · rename_i hhead
        have hhead : inClass head = false := Bool.eq_false_iff.2 hhead
        split at hpiece
        · obtain rfl : piece = [head] := by simpa using hpiece
          obtain rfl : c = head := by simpa using hc
          exact hhead
        · rename_i first others hpieces
          rw [hpieces] at ih
          rcases List.mem_cons.1 hpiece with rfl | hother
          · rcases List.mem_cons.1 hc with rfl | hfirst
            · exact hhead
            · exact ih List.mem_cons_self hfirst
          · exact ih (List.mem_cons_of_mem _ hother) hc

/-- The non-empty runs of characters outside a class. -/
def runsOutside (inClass : Char → Bool) (cs : List Char) : List (List Char) :=
  (piecesAt inClass cs).filter fun piece => !piece.isEmpty

/-- The position of the first occurrence of `needle`, counted from `start`. -/
def positionFrom? (needle : List Char) : List Char → Nat → Option Nat
  | [], start => if needle.isEmpty then some start else none
  | c :: cs, start =>
      if needle.isPrefixOf (c :: cs) then some start else positionFrom? needle cs (start + 1)

/-- How many characters precede the first occurrence of a text. -/
def position? (needle text : String) : Option Nat :=
  positionFrom? needle.toList text.toList 0

/-- Whether a text occurs in another. -/
def occursIn (needle text : String) : Bool := (position? needle text).isSome

theorem isSome_positionFrom?_iff {needle cs : List Char} {start : Nat} :
    (positionFrom? needle cs start).isSome ↔ needle <:+: cs := by
  induction cs generalizing start with
  | nil => cases needle <;> simp [positionFrom?]
  | cons c cs ih =>
      rw [positionFrom?, List.infix_cons_iff, ← List.isPrefixOf_iff_prefix]
      by_cases hfront : needle.isPrefixOf (c :: cs)
      · simp [hfront]
      · simp [hfront, ih]

theorem occursIn_iff {needle text : String} :
    occursIn needle text = true ↔ needle.toList <:+: text.toList := isSome_positionFrom?_iff

/-- Cuts a text at each occurrence of a separator that is not empty. `skip` counts the characters
of the occurrence at hand that are still to be passed over, `piece` holds the piece at hand and
`done` the finished pieces, both back to front. -/
def cutFrom (separator : List Char) :
    (skip : Nat) → (piece : List Char) → (done : List (List Char)) → List Char → List (List Char)
  | _, piece, done, [] => (piece.reverse :: done).reverse
  | skip + 1, piece, done, _ :: cs => cutFrom separator skip piece done cs
  | 0, piece, done, c :: cs =>
      if separator.isPrefixOf (c :: cs) then
        cutFrom separator (separator.length - 1) [] (piece.reverse :: done) cs
      else cutFrom separator 0 (c :: piece) done cs

/-- The pieces of a text between the occurrences of a separator that is not empty. -/
def cut (separator text : String) : List String :=
  (cutFrom separator.toList 0 [] [] text.toList).map String.ofList

/-- Writes `replacement` in place of each occurrence of a text that is not empty. -/
def replace (needle replacement text : String) : String :=
  replacement.intercalate (cut needle text)

/-- Whether a text begins with another. -/
def beginsWith (front text : String) : Bool := front.toList.isPrefixOf text.toList

/-- Whether a text ends with another. -/
def endsWith (tail text : String) : Bool := tail.toList.reverse.isPrefixOf text.toList.reverse

/-- The text after `front`, if the text begins with it. -/
def after? (front text : String) : Option String :=
  if beginsWith front text then some (String.ofList (text.toList.drop front.length)) else none

/-- The parts before and after the first character `mark`. -/
def splitOnce? (mark : Char) (text : String) : Option (String × String) :=
  let cs := text.toList
  match cs.dropWhile (· != mark) with
  | [] => none
  | _ :: rest => some (String.ofList (cs.takeWhile (· != mark)), String.ofList rest)

end PromptWeave.Text
