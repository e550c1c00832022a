import PromptWeave.Script.Functions
import PromptWeave.Script.Libraries
import PromptWeave.Script.Methods
import PromptWeave.Proofs.Outcome

/-!
# Faults of operations on values

Operators, built-in functions, methods and the functions of the libraries work on values. Whatever is
wrong with these, none of them fails for want of a place to write to: that fault is left to the
interpreter.
-/
namespace PromptWeave.Script

/-- Whether an operation on values does not fail for want of a place. -/
def Spares {α : Type} (x : Outcome α) : Prop := x ≠ .error .badTarget

section
variable {α β : Type}

@[simp] theorem spares_ok (a : α) : Spares (.ok a : Outcome α) ↔ True := by simp [Spares]

@[simp] theorem spares_pure (a : α) : Spares (pure a : Outcome α) ↔ True := by
  simp [Spares, pure, Except.pure]

@[simp] theorem spares_error {cause : Fault} :
    Spares (.error cause : Outcome α) ↔ cause ≠ .badTarget := by simp [Spares]

@[simp] theorem spares_bind {x : Outcome α} {f : α → Outcome β} :
    Spares (x >>= f) ↔ Spares x ∧ ∀ a, x = .ok a → Spares (f a) := by
  cases x <;> simp [bind, Except.bind, Spares]

@[simp] theorem spares_map {x : Outcome α} {f : α → β} : Spares (f <$> x) ↔ Spares x := by
  cases x <;> simp [Functor.map, Except.map, Spares]

@[simp] theorem spares_ite {p : Prop} [Decidable p] {x y : Outcome α} :
    Spares (if p then x else y) ↔ (p → Spares x) ∧ (¬ p → Spares y) := by
  split <;> simp [*]

end

/-! ### Sizes and positions -/

@[simp] theorem spares_checkItems (count : Nat) : Spares (checkItems count) := by simp [checkItems]

@[simp] theorem spares_checkBytes (bytes : Nat) : Spares (checkBytes bytes) := by simp [checkBytes]

@[simp] theorem spares_boundedText (s : String) : Spares (boundedText s) := by simp [boundedText]

@[simp] theorem spares_exactInt (n : Int) : Spares (exactInt n) := by simp [exactInt]

@[simp] theorem spares_position (size : Nat) (index : Value) : Spares (position size index) := by
  cases index <;> simp [position]

@[simp] theorem spares_itemAt (target index : Value) : Spares (itemAt target index) := by
  cases target <;> simp [itemAt]

@[simp] theorem spares_withItem (target index item : Value) : Spares (withItem target index item) := by
  cases target <;> simp [withItem]

@[simp] theorem spares_cutPoint (size : Nat) (bound : Option Value) (fallback : Nat) :
    Spares (cutPoint size bound fallback) := by
  unfold cutPoint
  split <;> simp

@[simp] theorem spares_between {α : Type} (items : List α) (start stop : Option Value) :
    Spares (between items start stop) := by
  simp [between]

@[simp] theorem spares_slice (target : Value) (start stop : Option Value) :
    Spares (slice target start stop) := by
  cases target <;> simp [slice]

@[simp] theorem spares_iterate (v : Value) : Spares (iterate v) := by
  unfold iterate
  split <;> simp

/-! ### Operators -/

@[simp] theorem spares_numbers (symbol : String) (left right : Value) :
    Spares (numbers symbol left right) := by
  unfold numbers
  split <;> simp

@[simp] theorem spares_negate (v : Value) : Spares (negate v) := by cases v <;> simp [negate]

@[simp] theorem spares_add (left right : Value) : Spares (add left right) := by
  unfold add
  split <;> simp

@[simp] theorem spares_subtract (left right : Value) : Spares (subtract left right) := by
  unfold subtract
  split <;> simp

@[simp] theorem spares_repeatText (s : String) (count : Nat) : Spares (repeatText s count) := by
  simp [repeatText]

@[simp] theorem spares_repeatList (items : List Value) (count : Nat) :
    Spares (repeatList items count) := by
  simp [repeatList]

@[simp] theorem spares_multiply (left right : Value) : Spares (multiply left right) := by
  unfold multiply
  split <;> simp

@[simp] theorem spares_divide (left right : Value) : Spares (divide left right) := by simp [divide]

@[simp] theorem spares_modulo (left right : Value) : Spares (modulo left right) := by
  unfold modulo
  split <;> simp

@[simp] theorem spares_holds (container item : Value) : Spares (holds container item) := by
  unfold holds
  split <;> simp

@[simp] theorem spares_ordering (left right : Value) : Spares (ordering left right) := by
  unfold ordering
  split <;> simp

theorem spares_operator (op : BinaryOp) (left right : Value) : Spares (op.apply left right) := by
  cases op <;> simp [BinaryOp.apply]

/-! ### Arguments -/

@[simp] theorem spares_noArguments (name : String) (args : List Value) :
    Spares (noArguments name args) := by
  unfold noArguments
  split <;> simp

@[simp] theorem spares_oneArgument (name : String) (args : List Value) :
    Spares (oneArgument name args) := by
  unfold oneArgument
  split <;> simp

@[simp] theorem spares_optionalArgument (name : String) (args : List Value) :
    Spares (optionalArgument name args) := by
  unfold optionalArgument
  split <;> simp

@[simp] theorem spares_twoArguments (name : String) (args : List Value) :
    Spares (twoArguments name args) := by
  unfold twoArguments
  split <;> simp

@[simp] theorem spares_threeArguments (name : String) (args : List Value) :
    Spares (threeArguments name args) := by
  unfold threeArguments
  split <;> simp

@[simp] theorem spares_expectText (name : String) (v : Value) : Spares (expectText name v) := by
  cases v <;> simp [expectText]

@[simp] theorem spares_expectInt (name : String) (v : Value) : Spares (expectInt name v) := by
  cases v <;> simp [expectInt]

@[simp] theorem spares_expectNumber (name : String) (v : Value) : Spares (expectNumber name v) := by
  unfold expectNumber
  split <;> simp

@[simp] theorem spares_expectItems (name : String) (v : Value) : Spares (expectItems name v) := by
  unfold expectItems
  split <;> simp

theorem spares_mapM_expectInt (name : String) (args : List Value) :
    Spares (args.mapM (expectInt name)) := by
  intro h
  obtain ⟨_, item, _, _, _, hitem⟩ := mapM_eq_error.1 h
  exact spares_expectInt name item hitem

/-! ### Built-in functions -/

@[simp] theorem spares_integerOf (mode : Decimal.Rounding) (x : Float) :
    Spares (integerOf mode x) := by
  unfold integerOf
  split <;> simp

@[simp] theorem spares_sortValues (items : List Value) : Spares (sortValues items) := by
  simp [sortValues]

theorem spares_lengthOf (v : Value) : Spares (lengthOf v) := by cases v <;> simp [lengthOf]

theorem spares_toInteger (v : Value) : Spares (toInteger v) := by
  cases v with
  | str s =>
      simp only [toInteger]
      split <;> simp
  | _ => simp [toInteger]

theorem spares_toDouble (v : Value) : Spares (toDouble v) := by
  cases v with
  | str s =>
      simp only [toDouble]
      split <;> simp
  | _ => simp [toDouble]

theorem spares_progression (start stop step : Int) : Spares (progression start stop step) := by
  simp [progression]

theorem spares_rangeOf (args : List Value) : Spares (rangeOf args) := by
  simp [rangeOf, spares_mapM_expectInt]
  intro _ ints _
  split <;> simp [spares_progression]

theorem spares_extreme (name : String) (pick : List Value → Option Value) (args : List Value) :
    Spares (extreme name pick args) := by
  unfold extreme
  split <;> simp

theorem spares_sumInts (total : Int64) (items : List Value) : Spares (sumInts total items) := by
  fun_induction sumInts total items <;> simp [*]

theorem spares_sumFloats (total : Decimal.Double) (items : List Value) :
    Spares (sumFloats total items) := by
  induction items generalizing total <;> simp [sumFloats, *]

theorem spares_sumOf (items : List Value) : Spares (sumOf items) := by
  simp [sumOf, spares_sumInts, spares_sumFloats]

theorem spares_absolute (v : Value) : Spares (absolute v) := by cases v <;> simp [absolute]

theorem spares_function (f : Function) (args : List Value) : Spares (f.apply args) := by
  cases f with
  | list =>
      simp only [Function.apply, spares_bind, spares_optionalArgument, true_and]
      intro v _
      cases v <;> simp
  | _ =>
      simp [Function.apply, spares_lengthOf, spares_toInteger, spares_toDouble, spares_rangeOf,
        spares_extreme, spares_sumOf, spares_absolute]

/-! ### Methods -/

theorem spares_mutator (m : Mutator) (items args : List Value) : Spares (m.apply items args) := by
  cases m with
  | pop =>
      simp only [Mutator.apply, spares_bind, spares_optionalArgument, true_and]
      intro index _
      cases index <;> simp
  | _ => simp [Mutator.apply]

theorem spares_askList (items : List Value) (name : String) (args : List Value) :
    Spares (askList items name args) := by
  unfold askList
  split <;> simp
  intro item _
  split <;> simp

theorem spares_splitText (s : String) (separator : Option Value) :
    Spares (splitText s separator) := by
  unfold splitText
  split <;> simp

theorem spares_askText (s : String) (name : String) (args : List Value) :
    Spares (askText s name args) := by
  unfold askText
  split <;> simp [spares_splitText]
  · intro separator _
    split <;> simp
  · intro needle _ a _
    split <;> simp
  · intro v _
    split <;> simp

theorem spares_ask (receiver : Value) (name : String) (args : List Value) :
    Spares (ask receiver name args) := by
  cases receiver <;> simp [ask, spares_askText, spares_askList]

/-! ### Libraries -/

@[simp] theorem spares_patternOf (v : Value) : Spares (patternOf v) := by
  simp only [patternOf, spares_bind, spares_expectText, true_and]
  intro text _
  split <;> simp

@[simp] theorem spares_boundedTexts (texts : List String) : Spares (boundedTexts texts) := by
  simp [boundedTexts]

theorem spares_searchPattern (name : String) (atStart : Bool) (args : List Value) :
    Spares (searchPattern name atStart args) := by
  simp [searchPattern]

theorem spares_callPattern (name : String) (args : List Value) : Spares (callPattern name args) := by
  unfold callPattern
  split <;> simp [spares_searchPattern]

@[simp] theorem spares_oneNumber (name : String) (args : List Value) :
    Spares (oneNumber name args) := by
  simp [oneNumber]

theorem spares_callMath (name : String) (args : List Value) : Spares (callMath name args) := by
  unfold callMath
  split <;> simp

theorem spares_callRandom (name : String) (args : List Value) (g : Random.Generator) :
    Spares (callRandom name args g) := by
  unfold callRandom
  split <;> simp

theorem spares_constantOf (l : Library) (name : String) : Spares (constantOf l name) := by
  unfold constantOf
  split <;> simp

theorem spares_callLibrary (l : Library) (name : String) (args : List Value)
    (g : Random.Generator) : Spares (callLibrary l name args g) := by
  cases l <;> simp [callLibrary, spares_callPattern, spares_callMath, spares_callRandom]

end PromptWeave.Script
