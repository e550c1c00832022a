import PromptWeave.Proofs.Script.Checked

/-!
# Calls that stay within the limits

The calls are told apart by the name that is called. What the named exceptions make is counted at
most item by item, and never measured as a whole.
-/
namespace PromptWeave.Script

open PromptWeave.Script.Value

/-- The functions whose results nothing measures. -/
def Function.isUnchecked : Function → Bool
  | str => true
  | list => true
  | sorted => true
  | reversed => true
  | unique => true
  | enumerate => true
  | _ => false

/-- The names of built-in functions whose results nothing measures. -/
def isUncheckedBuiltin (name : String) : Bool :=
  match Builtin.ofName? name with
  | some (.function f) => f.isUnchecked
  | _ => false

/-- The methods and the functions of libraries whose results nothing measures. -/
def isUncheckedMember (name : String) : Bool :=
  ["lower", "upper", "split", "join", "findall", "shuffle", "sample"].contains name

/-! ### Arguments -/

section Arguments

variable {args : List Value} (h : ∀ a ∈ args, a.Within)
include h

theorem gives_oneArgument (name : String) : Gives Within (oneArgument name args) := by
  unfold oneArgument
  split
  · exact gives_ok (h _ List.mem_cons_self)
  · exact gives_error _

theorem gives_twoArguments (name : String) :
    Gives (fun a => a.1.Within ∧ a.2.Within) (twoArguments name args) := by
  unfold twoArguments
  split
  · exact gives_ok ⟨h _ List.mem_cons_self, h _ (List.mem_cons_of_mem _ List.mem_cons_self)⟩
  · exact gives_error _

end Arguments

theorem gives_expectItems (name : String) {v : Value} (h : v.Within) :
    Gives (fun items => ∀ item ∈ items, item.Within) (expectItems name v) := by
  unfold expectItems
  split
  · rename_i items hitems
    exact gives_ok (h.of_itemsOf hitems)
  · exact gives_error _

theorem gives_expectText (name : String) {v : Value} (h : v.Within) :
    Gives (fun s => (Value.str s).Within) (expectText name v) := by
  unfold expectText
  split
  · exact gives_ok h
  · exact gives_error _

theorem gives_sortValues (items : List Value) : Gives (·.Perm items) (sortValues items) := by
  unfold sortValues
  split
  · exact gives_ok (List.mergeSort_perm _ _)
  · split
    · exact gives_ok (List.mergeSort_perm _ _)
    · split
      · exact gives_ok (List.mergeSort_perm _ _)
      · exact gives_error _

/-! ### Functions -/

theorem gives_lengthOf (v : Value) : Gives Within (lengthOf v) := by
  unfold lengthOf
  split
  · exact gives_ok (.int _)
  · exact gives_ok (.int _)
  · exact gives_error _

theorem gives_toInteger (v : Value) : Gives Within (toInteger v) := by
  unfold toInteger
  split
  · exact gives_ok (.int _)
  · exact gives_integerOf _ _
  · exact gives_ok (.int _)
  · split
    · split
      · exact gives_ok (.int _)
      · exact gives_error _
    · exact gives_error _
  · exact gives_error _

theorem gives_toDouble (v : Value) : Gives Within (toDouble v) := by
  unfold toDouble
  split
  · exact gives_ok (.float _)
  · exact gives_ok (.float _)
  · exact gives_ok (.float _)
  · split
    · exact gives_ok (.float _)
    · exact gives_error _
  · exact gives_error _

/-- The terms of a progression are counted, and as many numbers as a list may have are not too
large for it. -/
theorem gives_progression (start stop step : Int) : Gives Within (progression start stop step) := by
  unfold progression
  split
  · exact gives_error _
  · refine (gives_checkItems _).bind fun _ hcount => gives_ok (.list ?_ ?_ ?_)
    · rw [List.length_map, List.length_range]
      exact hcount
    · rw [listSizeBytes_of_sizeBytes 32, List.length_map, List.length_range]
      · have hroom : maxItems * 32 ≤ maxListBytes := by decide
        omega
      · intro v hv
        obtain ⟨i, _, rfl⟩ := List.mem_map.1 hv
        rfl
    · intro v hv
      obtain ⟨i, _, rfl⟩ := List.mem_map.1 hv
      exact .int _

theorem gives_rangeOf (args : List Value) : Gives Within (rangeOf args) := by
  unfold rangeOf
  split
  · exact gives_error _
  · refine (gives_any _).bind fun bounds _ => ?_
    split
    · exact gives_progression _ _ _
    · exact gives_progression _ _ _
    · exact gives_progression _ _ _
    · exact gives_error _

/-- What is picked from values is one of them. -/
theorem gives_extreme (name : String) {pick : List Value → Option Value} {args : List Value}
    (hpick : ∀ items v, pick items = some v → v ∈ items) (h : ∀ a ∈ args, a.Within) :
    Gives Within (extreme name pick args) := by
  have hpicked : ∀ items : List Value, (∀ item ∈ items, item.Within) →
      Gives Within (do
        if items.isEmpty then .error (.emptySequence name)
        return (pick (← sortValues items)).getD .absent) := by
    intro items hitems
    dsimp only
    split
    · exact gives_error _
    · refine (gives_sortValues items).bind fun sorted hperm => gives_ok ?_
      cases hv : pick sorted with
      | none => exact .absent
      | some v => exact hitems v (hperm.subset (hpick sorted v hv))
  unfold extreme
  split
  · exact (gives_expectItems name (h _ List.mem_cons_self)).bind hpicked
  · exact hpicked _ h

theorem gives_sumInts (total : Int64) (items : List Value) : Gives Within (sumInts total items) := by
  induction items generalizing total with
  | nil => exact gives_ok (.int _)
  | cons v rest ih =>
      cases v with
      | int n =>
          rw [sumInts]
          split
          · exact ih _
          · exact gives_error _
      | _ => exact ih _

theorem gives_sumFloats (total : Decimal.Double) (items : List Value) :
    Gives Within (sumFloats total items) := by
  induction items generalizing total with
  | nil => exact gives_ok (.float _)
  | cons v rest ih => exact (gives_any _).bind fun x _ => ih _

theorem gives_sumOf (items : List Value) : Gives Within (sumOf items) := by
  unfold sumOf
  split
  · exact gives_sumInts _ _
  · exact gives_sumFloats _ _

theorem gives_absolute (v : Value) : Gives Within (absolute v) := by
  unfold absolute
  split
  · exact gives_exactInt _
  · exact gives_ok (.float _)
  · exact gives_error _

/-- A function that is not among the exceptions leads from values within the limits to such a
value. -/
theorem gives_function {f : Function} (hf : f.isUnchecked = false) {args : List Value}
    (h : ∀ a ∈ args, a.Within) : Gives Within (f.apply args) := by
  cases f with
  | len => exact (gives_any _).bind fun v _ => gives_lengthOf v
  | int => exact (gives_any _).bind fun v _ => gives_toInteger v
  | float => exact (gives_any _).bind fun v _ => gives_toDouble v
  | bool => exact (gives_any _).bind fun v _ => gives_ok (.bool _)
  | range => exact gives_rangeOf args
  | min => exact gives_extreme _ (fun items v hv => List.mem_of_head? hv) h
  | max => exact gives_extreme _ (fun items v hv => List.mem_of_getLast? hv) h
  | sum => exact (gives_any _).bind fun v _ => (gives_any _).bind fun items _ => gives_sumOf items
  | abs => exact (gives_any _).bind fun v _ => gives_absolute v
  | any => exact (gives_any _).bind fun _ _ => (gives_any _).bind fun _ _ => gives_ok (.bool _)
  | all => exact (gives_any _).bind fun _ _ => (gives_any _).bind fun _ _ => gives_ok (.bool _)
  | _ => cases hf

/-! ### Methods -/

theorem insertionPoint_le (size : Nat) (index : Int) : insertionPoint size index ≤ size := by
  unfold insertionPoint
  split <;> omega

/-- A list that gets one more item is within the limits, if its length and its room have been
checked. -/
theorem within_of_perm_cons {items longer : List Value} {item : Value}
    (hitems : (Value.list items).Within) (hitem : item.Within) (hperm : longer.Perm (item :: items))
    (hcount : items.length + 1 ≤ maxItems)
    (hbytes : listSizeBytes items + item.sizeBytes ≤ maxListBytes) : (Value.list longer).Within := by
  refine .of_perm (.list ?_ ?_ fun v hv => ?_) hperm
  · exact hcount
  · rw [listSizeBytes_cons]
    omega
  · rcases List.mem_cons.1 hv with rfl | hv
    · exact hitem
    · exact (within_list_iff.1 hitems).2.2 v hv

/-- A method that changes its list checks what it adds. -/
theorem gives_mutator (m : Mutator) {items args : List Value} (hitems : (Value.list items).Within)
    (h : ∀ a ∈ args, a.Within) :
    Gives (fun r => r.1.Within ∧ (Value.list r.2).Within) (m.apply items args) := by
  obtain ⟨hlength, hsize, heach⟩ := within_list_iff.1 hitems
  cases m with
  | append =>
      refine (gives_oneArgument h _).bind fun item hitem => (gives_checkItems _).bind fun _ hcount =>
        (gives_checkBytes _).bind fun _ hbytes => gives_ok ⟨.absent, ?_⟩
      exact within_of_perm_cons hitems hitem (List.perm_append_singleton item items) hcount hbytes
  | extend =>
      refine (gives_oneArgument h _).bind fun v hv => (gives_expectItems _ hv).bind fun more hmore =>
        (gives_checkItems _).bind fun _ hcount => (gives_checkBytes _).bind fun _ hbytes =>
          gives_ok ⟨.absent, .list ?_ ?_ fun w hw => ?_⟩
      · rw [List.length_append]
        exact hcount
      · rw [listSizeBytes_append]
        exact hbytes
      · rcases List.mem_append.1 hw with hw | hw
        · exact heach w hw
        · exact hmore w hw
  | insert =>
      refine (gives_twoArguments h _).bind fun pair hpair => ?_
      obtain ⟨index, item⟩ := pair
      refine (gives_checkItems _).bind fun _ hcount => (gives_any _).bind fun place _ =>
        (gives_checkBytes _).bind fun _ hbytes => gives_ok ⟨.absent, ?_⟩
      have hperm := List.perm_insertIdx item items (insertionPoint_le items.length place.toInt)
      exact within_of_perm_cons hitems hpair.2 hperm hcount hbytes
  | remove =>
      exact (gives_any _).bind fun item _ =>
        gives_ok ⟨.absent, hitems.of_sublist List.eraseP_sublist⟩
  | pop =>
      refine (gives_any _).bind fun index _ => ?_
      dsimp only
      split
      · exact gives_error _
      · have hpopped (place : Nat) : (items.getD place .absent).Within ∧
            (Value.list (items.eraseIdx place)).Within :=
          ⟨within_getD heach place, hitems.of_sublist (List.eraseIdx_sublist items place)⟩
        split
        · exact (gives_any _).bind fun place _ => gives_ok (hpopped place)
        · exact gives_ok (hpopped _)
  | clear => exact (gives_any _).bind fun _ _ => gives_ok ⟨.absent, hitems.of_sublist (List.nil_sublist _)⟩
  | sort =>
      refine (gives_any _).bind fun _ _ => (gives_sortValues items).bind fun sorted hperm => ?_
      exact gives_ok ⟨.absent, hitems.of_perm hperm⟩
  | reverse =>
      exact (gives_any _).bind fun _ _ => gives_ok ⟨.absent, hitems.of_perm (List.reverse_perm items)⟩

theorem gives_askList {items : List Value} (name : String) (args : List Value)
    (hitems : (Value.list items).Within) : Gives Within (askList items name args) := by
  unfold askList
  split
  · refine (gives_any _).bind fun item _ => ?_
    split
    · exact gives_ok (.int _)
    · exact gives_error _
  · exact (gives_any _).bind fun _ _ => gives_ok (.int _)
  · exact (gives_any _).bind fun _ _ => gives_ok hitems
  · exact gives_error _

theorem gives_askText {s name : String} (hname : isUncheckedMember name = false) (args : List Value)
    (hs : (Value.str s).Within) : Gives Within (askText s name args) := by
  unfold askText
  split
  · cases hname
  · cases hname
  · refine (gives_any _).bind fun arg _ => ?_
    split
    · exact gives_ok (hs.of_characters (Text.stripChars_sublist _ _))
    · exact (gives_any _).bind fun _ _ => gives_ok (hs.of_characters (Text.stripChars_sublist _ _))
  · refine (gives_any _).bind fun _ _ => (gives_any _).bind fun _ _ => (gives_any _).bind fun _ _ => ?_
    dsimp only
    split
    · exact gives_error _
    · exact gives_boundedText _
  · exact (gives_any _).bind fun _ _ => (gives_any _).bind fun _ _ => gives_ok (.bool _)
  · exact (gives_any _).bind fun _ _ => (gives_any _).bind fun _ _ => gives_ok (.bool _)
  · exact (gives_any _).bind fun _ _ => (gives_any _).bind fun _ _ => gives_ok (.bool _)
  · refine (gives_any _).bind fun _ _ => (gives_any _).bind fun _ _ => ?_
    split
    · exact gives_ok (.int _)
    · exact gives_ok (.int _)
  · cases hname
  · cases hname
  · exact gives_error _

/-- A method that changes nothing and is not among the exceptions leads from values within the limits
to such a value. -/
theorem gives_ask {receiver : Value} {name : String} (hname : isUncheckedMember name = false)
    (args : List Value) (h : receiver.Within) : Gives Within (ask receiver name args) := by
  unfold ask
  split
  · exact gives_askText hname args h
  · exact gives_askList name args h
  · exact gives_error _

/-! ### Libraries -/

/-- A text that is found is a part of the text that is searched. -/
theorem within_of_search {p : Pattern.Program} {atStart : Bool} {text found : String}
    (h : (Value.str text).Within) (hfound : p.search atStart text = some found) :
    (Value.str found).Within := by
  unfold Pattern.Program.search at hfound
  dsimp only at hfound
  split at hfound
  · cases hfound
  · split at hfound
    · cases hfound
    · cases hfound
      refine h.of_characters ?_
      rw [Array.toList_extract]
      exact (List.take_sublist _ _).trans (List.drop_sublist _ _)

theorem gives_searchPattern (name : String) (atStart : Bool) {args : List Value}
    (h : ∀ a ∈ args, a.Within) : Gives Within (searchPattern name atStart args) := by
  unfold searchPattern
  refine (gives_twoArguments h _).bind fun pair hpair => ?_
  obtain ⟨pattern, text⟩ := pair
  refine (gives_any _).bind fun p _ => (gives_expectText _ hpair.2).bind fun s hs => gives_ok ?_
  cases hfound : p.search atStart s with
  | none => exact .absent
  | some found => exact within_of_search hs hfound

theorem gives_callPattern {name : String} (hname : isUncheckedMember name = false)
    {args : List Value} (h : ∀ a ∈ args, a.Within) : Gives Within (callPattern name args) := by
  unfold callPattern
  split
  · exact gives_searchPattern _ _ h
  · exact gives_searchPattern _ _ h
  · refine (gives_any _).bind fun _ _ => (gives_any _).bind fun _ _ => (gives_any _).bind fun _ _ => ?_
    exact (gives_any _).bind fun _ _ => gives_boundedText _
  · cases hname
  · cases hname
  · exact gives_error _

theorem gives_callMath (name : String) (args : List Value) : Gives Within (callMath name args) := by
  unfold callMath
  split
  · exact (gives_any _).bind fun _ _ => gives_integerOf _ _
  · exact (gives_any _).bind fun _ _ => gives_integerOf _ _
  · exact (gives_any _).bind fun _ _ => gives_integerOf _ _
  · refine (gives_any _).bind fun _ _ => ?_
    split
    · exact gives_error _
    · exact gives_ok (.float _)
  · exact (gives_any _).bind fun _ _ => (gives_any _).bind fun _ _ => (gives_any _).bind fun _ _ =>
      gives_ok (.float _)
  · exact gives_error _

theorem gives_callRandom {name : String} (hname : isUncheckedMember name = false)
    {args : List Value} (h : ∀ a ∈ args, a.Within) (g : Random.Generator) :
    Gives (·.1.Within) (callRandom name args g) := by
  unfold callRandom
  split
  · exact (gives_any _).bind fun _ _ => gives_ok (.float _)
  · refine (gives_any _).bind fun _ _ => (gives_any _).bind fun _ _ => (gives_any _).bind fun _ _ => ?_
    dsimp only
    split
    · exact gives_error _
    · exact gives_ok (.int _)
  · refine (gives_oneArgument h _).bind fun v hv => (gives_expectItems _ hv).bind fun items hitems => ?_
    dsimp only
    split
    · exact gives_error _
    · exact gives_ok (within_getD hitems _)
  · cases hname
  · cases hname
  · exact gives_error _

/-- A function of a library that is not among the exceptions leads from values within the limits to
such a value. -/
theorem gives_callLibrary (l : Library) {name : String} (hname : isUncheckedMember name = false)
    {args : List Value} (h : ∀ a ∈ args, a.Within) (g : Random.Generator) :
    Gives (·.1.Within) (callLibrary l name args g) := by
  cases l with
  | re => exact (gives_callPattern hname h).map fun _ hv => hv
  | math => exact (gives_callMath name args).map fun _ hv => hv
  | random => exact gives_callRandom hname h g

theorem gives_constantOf (l : Library) (name : String) : Gives Within (constantOf l name) := by
  unfold constantOf
  split
  · exact gives_ok (.float _)
  · exact gives_ok (.float _)
  · exact gives_error _

end PromptWeave.Script
