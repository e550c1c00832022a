import PromptWeave.Proofs.Json.Tokens

/-!
# Reading back what is written

The text of a value is read as the tree of that value, in either style, if the value holds no double.
Main statement: `read?_render`.
-/
namespace PromptWeave.Json

/-! ### Values and trees -/

/-- The values that hold no double. -/
inductive Plain : Value → Prop where
  | null : Plain .null
  | bool (b : Bool) : Plain (.bool b)
  | integer (n : Int) : Plain (.integer n)
  | text (s : String) : Plain (.text s)
  | array {items : List Value} : (∀ v ∈ items, Plain v) → Plain (.array items)
  | object {fields : List (String × Value)} : (∀ f ∈ fields, Plain f.2) → Plain (.object fields)

mutual

/-- The tree that the text of a value writes; a double has none. -/
def Value.toTree : Value → Tree
  | .null | .float _ => .null
  | .bool b => .bool b
  | .integer n => .number (integerNumeral n)
  | .text s => .text (some s)
  | .array items => .array (treesOf items)
  | .object fields => .object (fieldTreesOf fields)

/-- The trees of items. -/
def treesOf : List Value → List Tree
  | [] => []
  | v :: rest => v.toTree :: treesOf rest

/-- The trees of fields. -/
def fieldTreesOf : List (String × Value) → List (Option String × Tree)
  | [] => []
  | (key, v) :: rest => (some key, v.toTree) :: fieldTreesOf rest

end

theorem fieldTreesOf_eq_map (fields : List (String × Value)) :
    fieldTreesOf fields = fields.map fun f => (some f.1, f.2.toTree) := by
  induction fields with
  | nil => rfl
  | cons f rest ih => rw [fieldTreesOf, ih, List.map_cons]

/-! ### Building trees from tokens -/

namespace Building

/-- Whether tokens are those of a tree, wherever a value may come. -/
structure Builds (ts : List Token) (t : Tree) : Prop where
  value : ∀ frames rest, steps ⟨frames, .value⟩ (ts ++ rest) = steps (place frames t) rest
  first : ∀ frames rest, steps ⟨frames, .valueOrClose⟩ (ts ++ rest) = steps (place frames t) rest

/-- Whether tokens are those of further items of an array. -/
def BuildsItems (ts : List Token) (trees : List Tree) : Prop :=
  ∀ done frames rest, steps ⟨.array done :: frames, .commaOrClose⟩ (ts ++ rest) =
    steps ⟨.array (trees.reverse ++ done) :: frames, .commaOrClose⟩ rest

/-- Whether tokens are those of further fields of an object. -/
def BuildsFields (ts : List Token) (trees : List (Option String × Tree)) : Prop :=
  ∀ done key frames rest, ∃ last,
    steps ⟨.object done key :: frames, .commaOrClose⟩ (ts ++ rest) =
      steps ⟨.object (trees.reverse ++ done) last :: frames, .commaOrClose⟩ rest

variable {ts us : List Token} {t : Tree}

theorem BuildsItems.nil : BuildsItems [] [] := fun _ _ _ => rfl

theorem Builds.item (h : Builds ts t) {trees : List Tree} (h' : BuildsItems us trees) :
    BuildsItems (.comma :: (ts ++ us)) (t :: trees) := by
  intro done frames rest
  have hcomma : steps ⟨.array done :: frames, .commaOrClose⟩ (.comma :: (ts ++ us) ++ rest) =
      steps ⟨.array done :: frames, .value⟩ (ts ++ (us ++ rest)) := by
    rw [List.cons_append, List.append_assoc]
    rfl
  rw [hcomma, h.value, place, h', List.reverse_cons, List.append_assoc]
  rfl

theorem BuildsFields.nil : BuildsFields [] [] := fun _ key _ _ => ⟨key, rfl⟩

theorem Builds.field (h : Builds ts t) (key : String) {trees : List (Option String × Tree)}
    (h' : BuildsFields us trees) :
    BuildsFields (.comma :: .text (some key) :: .colon :: (ts ++ us)) ((some key, t) :: trees) := by
  intro done before frames rest
  have hkey : steps ⟨.object done before :: frames, .commaOrClose⟩
      (.comma :: .text (some key) :: .colon :: (ts ++ us) ++ rest) =
        steps ⟨.object done (some key) :: frames, .value⟩ (ts ++ (us ++ rest)) := by
    rw [List.cons_append, List.cons_append, List.cons_append, List.append_assoc]
    rfl
  obtain ⟨last, hlast⟩ := h' ((some key, t) :: done) (some key) frames rest
  refine ⟨last, ?_⟩
  rw [hkey, h.value, place, hlast, List.reverse_cons, List.append_assoc]
  rfl

theorem Builds.array_nil : Builds [.openArray, .closeArray] (.array []) :=
  ⟨fun _ _ => rfl, fun _ _ => rfl⟩

theorem Builds.array (h : Builds ts t) {trees : List Tree} (h' : BuildsItems us trees) :
    Builds (.openArray :: (ts ++ us ++ [.closeArray])) (.array (t :: trees)) := by
  have hopened (frames : List Frame) (rest : List Token) :
      steps ⟨.array [] :: frames, .valueOrClose⟩ (ts ++ us ++ [.closeArray] ++ rest) =
        steps (place frames (.array (t :: trees))) rest := by
    rw [List.append_assoc, List.append_assoc, h.first, place, h']
    simp [steps, step]
  exact ⟨hopened, hopened⟩

theorem Builds.object_nil : Builds [.openObject, .closeObject] (.object []) :=
  ⟨fun _ _ => rfl, fun _ _ => rfl⟩

theorem Builds.object (h : Builds ts t) (key : String) {trees : List (Option String × Tree)}
    (h' : BuildsFields us trees) :
    Builds (.openObject :: .text (some key) :: .colon :: (ts ++ us ++ [.closeObject]))
      (.object ((some key, t) :: trees)) := by
  have hopened (frames : List Frame) (rest : List Token) :
      steps ⟨.object [] (some key) :: frames, .value⟩ (ts ++ us ++ [.closeObject] ++ rest) =
        steps (place frames (.object ((some key, t) :: trees))) rest := by
    obtain ⟨last, hlast⟩ := h' [(some key, t)] (some key) frames (.closeObject :: rest)
    rw [List.append_assoc, List.append_assoc, h.value, place, List.singleton_append, hlast]
    simp [steps, step]
  exact ⟨hopened, hopened⟩

end Building

open Building

/-! ### The characters of a value -/

section

variable (style : Style) (depth : Nat)

/-- The characters of items with a comma before each. -/
def furtherItems (items : List Value) : List Char :=
  items.flatMap fun v => ',' :: ((style.lead depth).toList ++ (v.write style depth).toList)

/-- The characters of fields with a comma before each. -/
def furtherFields (fields : List (String × Value)) : List Char :=
  fields.flatMap fun f => ',' :: ((style.lead depth).toList ++ ((quote f.1).toList ++
    (style.afterKey.toList ++ (f.2.write style depth).toList)))

theorem toList_writeItems (items : List Value) (written : String) :
    (writeItems style depth items false written).toList =
      written.toList ++ furtherItems style depth items := by
  induction items generalizing written with
  | nil => simp [writeItems, furtherItems]
  | cons v rest ih => simp [writeItems, ih, furtherItems]

theorem toList_writeFields (fields : List (String × Value)) (written : String) :
    (writeFields style depth fields false written).toList =
      written.toList ++ furtherFields style depth fields := by
  induction fields generalizing written with
  | nil => simp [writeFields, furtherFields]
  | cons f rest ih => simp [writeFields, ih, furtherFields]

theorem toList_write_array (v : Value) (rest : List Value) :
    ((Value.array (v :: rest)).write style depth).toList =
      '[' :: ((style.lead (depth + 1)).toList ++ (v.write style (depth + 1)).toList ++
        furtherItems style (depth + 1) rest ++ ((style.lead depth).toList ++ [']'])) := by
  simp [Value.write, writeItems, toList_writeItems]

theorem toList_write_object (key : String) (v : Value) (rest : List (String × Value)) :
    ((Value.object ((key, v) :: rest)).write style depth).toList =
      '{' :: ((style.lead (depth + 1)).toList ++ ((quote key).toList ++ (style.afterKey.toList ++
        (v.write style (depth + 1)).toList)) ++ furtherFields style (depth + 1) rest ++
          ((style.lead depth).toList ++ ['}'])) := by
  simp [Value.write, writeFields, toList_writeFields]

theorem reads_lead : Reads (style.lead depth).toList [] := by
  apply reads_spaces
  cases style with
  | compact => simp [Style.lead]
  | indented => simp [Style.lead, isSpace]

theorem reads_afterKey : Reads style.afterKey.toList [.colon] := by
  cases style with
  | compact => exact readsBefore_of_scanToken rfl fun _ _ => rfl
  | indented =>
      have hcolon : Reads [':'] [.colon] := readsBefore_of_scanToken rfl fun _ _ => rfl
      have hspace : Reads [' '] [] := reads_spaces (by simp [isSpace])
      exact hcolon.append hspace

/-- A number ends before a comma, before a closing bracket and before spaces. -/
theorem ends_lead {cs : List Char} (h : Ends cs) : Ends ((style.lead depth).toList ++ cs) := by
  cases style with
  | compact => simpa [Style.lead] using h
  | indented => simp [Style.lead, Ends]

theorem ends_furtherItems (items : List Value) {cs : List Char} (h : Ends cs) :
    Ends (furtherItems style depth items ++ cs) := by
  cases items with
  | nil => exact h
  | cons v rest => simp [furtherItems, Ends]

theorem ends_furtherFields (fields : List (String × Value)) {cs : List Char} (h : Ends cs) :
    Ends (furtherFields style depth fields ++ cs) := by
  cases fields with
  | nil => exact h
  | cons f rest => simp [furtherFields, Ends]

/-! ### Reading values -/

/-- Whether the text of a value is read as the tokens of its tree. -/
def WrittenAs (v : Value) : Prop :=
  ∃ ts, Spells (v.write style depth).toList ts ∧ Builds ts v.toTree

theorem exists_furtherItems {items : List Value} (h : ∀ v ∈ items, WrittenAs style depth v) :
    ∃ ts, Spells (furtherItems style depth items) ts ∧ BuildsItems ts (treesOf items) := by
  induction items with
  | nil => exact ⟨[], reads_nil.spells, .nil⟩
  | cons v rest ih =>
      obtain ⟨ts, hchars, hbuilds⟩ := h v List.mem_cons_self
      obtain ⟨us, hrest, hfurther⟩ := ih fun w hw => h w (List.mem_cons_of_mem v hw)
      have hcomma : Reads [','] [.comma] := readsBefore_of_scanToken rfl fun _ _ => rfl
      have hboth := ReadsBefore.append hchars hrest fun _ => ends_furtherItems style depth rest
      have hall := hcomma.append ((reads_lead style depth).append hboth)
      refine ⟨_, ?_, hbuilds.item hfurther⟩
      simpa [furtherItems] using hall

theorem exists_furtherFields {fields : List (String × Value)}
    (h : ∀ f ∈ fields, WrittenAs style depth f.2) :
    ∃ ts, Spells (furtherFields style depth fields) ts ∧ BuildsFields ts (fieldTreesOf fields) := by
  induction fields with
  | nil => exact ⟨[], reads_nil.spells, .nil⟩
  | cons f rest ih =>
      obtain ⟨key, v⟩ := f
      obtain ⟨ts, hchars, hbuilds⟩ := h (key, v) List.mem_cons_self
      obtain ⟨us, hrest, hfurther⟩ := ih fun g hg => h g (List.mem_cons_of_mem _ hg)
      have hcomma : Reads [','] [.comma] := readsBefore_of_scanToken rfl fun _ _ => rfl
      have hboth := ReadsBefore.append hchars hrest fun _ => ends_furtherFields style depth rest
      have hkey := (reads_quote key).append ((reads_afterKey style).append hboth)
      have hall := hcomma.append ((reads_lead style depth).append hkey)
      refine ⟨_, ?_, hbuilds.field key hfurther⟩
      simpa [furtherFields] using hall

/-- The last value in brackets ends before the bracket that closes them. -/
theorem reads_closed {cs ds : List Char} {ts us : List Token} {bracket : Char} {t : Token}
    (hcs : Spells cs ts) (hds : Spells ds us) (hfurther : ∀ rest, Ends rest → Ends (ds ++ rest))
    (hbracket : Reads [bracket] [t]) (hends : ∀ rest, Ends (bracket :: rest)) :
    Reads (cs ++ ds ++ ((style.lead depth).toList ++ [bracket])) (ts ++ us ++ [t]) := by
  have hend := (reads_lead style depth).append hbracket
  refine ReadsBefore.append (ReadsBefore.append hcs hds hfurther) hend fun rest _ => ?_
  rw [List.append_assoc]
  exact ends_lead style depth (hends rest)

theorem writtenAs_array {items : List Value} (h : ∀ v ∈ items, WrittenAs style (depth + 1) v) :
    WrittenAs style depth (.array items) := by
  have hopen : Reads ['['] [.openArray] := readsBefore_of_scanToken rfl fun _ _ => rfl
  have hclose : Reads [']'] [.closeArray] := readsBefore_of_scanToken rfl fun _ _ => rfl
  cases items with
  | nil =>
      refine ⟨_, ?_, .array_nil⟩
      simpa [Value.write] using Reads.spells (hopen.append hclose)
  | cons v rest =>
      obtain ⟨ts, hchars, hbuilds⟩ := h v List.mem_cons_self
      obtain ⟨us, hrest, hfurther⟩ := exists_furtherItems style (depth + 1) fun w hw =>
        h w (List.mem_cons_of_mem v hw)
      have hclosed := reads_closed style depth hchars hrest
        (fun _ => ends_furtherItems style (depth + 1) rest) hclose (by simp [Ends])
      have hall := hopen.append ((reads_lead style (depth + 1)).append hclosed)
      refine ⟨_, ?_, hbuilds.array hfurther⟩
      rw [toList_write_array]
      simpa using Reads.spells hall

theorem writtenAs_object {fields : List (String × Value)}
    (h : ∀ f ∈ fields, WrittenAs style (depth + 1) f.2) : WrittenAs style depth (.object fields) := by
  have hopen : Reads ['{'] [.openObject] := readsBefore_of_scanToken rfl fun _ _ => rfl
  have hclose : Reads ['}'] [.closeObject] := readsBefore_of_scanToken rfl fun _ _ => rfl
  cases fields with
  | nil =>
      refine ⟨_, ?_, .object_nil⟩
      simpa [Value.write] using Reads.spells (hopen.append hclose)
  | cons f rest =>
      obtain ⟨key, v⟩ := f
      obtain ⟨ts, hchars, hbuilds⟩ := h (key, v) List.mem_cons_self
      obtain ⟨us, hrest, hfurther⟩ := exists_furtherFields style (depth + 1) fun g hg =>
        h g (List.mem_cons_of_mem _ hg)
      have hclosed := reads_closed style depth hchars hrest
        (fun _ => ends_furtherFields style (depth + 1) rest) hclose (by simp [Ends])
      have hkey := (reads_quote key).append ((reads_afterKey style).append hclosed)
      have hall := hopen.append ((reads_lead style (depth + 1)).append hkey)
      refine ⟨_, ?_, hbuilds.object key hfurther⟩
      rw [toList_write_object]
      simpa using Reads.spells hall

end

/-- The text of a value is read as the tokens of its tree. -/
theorem Plain.writtenAs {v : Value} (h : Plain v) (style : Style) (depth : Nat) :
    WrittenAs style depth v := by
  induction h generalizing depth with
  | null =>
      have hword : Spells ['n', 'u', 'l', 'l'] [.null] := readsBefore_of_scanToken rfl fun _ _ => rfl
      exact ⟨_, by simpa [Value.write] using hword, fun _ _ => rfl, fun _ _ => rfl⟩
  | bool b =>
      cases b with
      | true =>
          have hword : Spells ['t', 'r', 'u', 'e'] [.bool true] :=
            readsBefore_of_scanToken rfl fun _ _ => rfl
          exact ⟨_, by simpa [Value.write] using hword, fun _ _ => rfl, fun _ _ => rfl⟩
      | false =>
          have hword : Spells ['f', 'a', 'l', 's', 'e'] [.bool false] :=
            readsBefore_of_scanToken rfl fun _ _ => rfl
          exact ⟨_, by simpa [Value.write] using hword, fun _ _ => rfl, fun _ _ => rfl⟩
  | integer n => exact ⟨_, spells_integer n, fun _ _ => rfl, fun _ _ => rfl⟩
  | text s => exact ⟨_, (reads_quote s).spells, fun _ _ => rfl, fun _ _ => rfl⟩
  | array _ ih => exact writtenAs_array style depth fun v hv => ih v hv (depth + 1)
  | object _ ih => exact writtenAs_object style depth fun f hf => ih f hf (depth + 1)

/-- The text of a value without doubles is read as the tree of the value. -/
theorem read?_render {v : Value} (h : Plain v) (style : Style) :
    Tree.read? (v.render style) = some v.toTree := by
  obtain ⟨ts, hchars, hbuilds⟩ := h.writtenAs style 0
  have hend : Ends [] := by simp [Ends]
  obtain ⟨left, -, hscan⟩ := hchars [] _ [] hend (Nat.le_refl _)
  have htokens : tokens? (v.render style) = some ts := by
    rw [List.append_nil] at hscan
    rw [tokens?, Value.render, hscan]
    simp [scanTokens]
  have hsteps := hbuilds.value [] []
  rw [List.append_nil] at hsteps
  rw [Tree.read?, htokens]
  simp only [Option.bind_eq_bind, Option.bind_some, hsteps]
  rfl

end PromptWeave.Json
