import PromptWeave.Proofs.Wildcard.Stepwise

/-!
# Levels that do not show

An expansion that reaches its deepest level only at tags that stand for themselves anyway goes the same
way with any further levels. Two expansions are run side by side, and what the one does at its deepest
level is the only thing in which they differ.
-/
namespace PromptWeave.Wildcard

open PromptWeave.Prompt (Context splitTags joinTags)

variable {σ : Type}

/-- Whether a tag stands for itself: it does not stand in angle brackets and has no block. -/
def IsPlain (tag : String) : Prop :=
  inner? tag = none ∧ ∀ piece ∈ pieces tag, piece.isBlock = false

/-- Whether an event is the reaching of the deepest level. -/
def Event.isCapped : Event → Bool
  | .capped _ => true
  | _ => false

/-- The choice that was made in an event, out of how many things and which of them. -/
def Event.choice? : Event → Option (Nat × Nat)
  | .chosen count index => some (count, index)
  | .drawn _ count index _ => some (count, index)
  | _ => none

/-- The choices that were made, one after the other. -/
def Expansion.choices (x : Expansion σ) : List (Nat × Nat) := x.events.reverse.filterMap Event.choice?

/-- Whether the deepest level was reached at plain tags only. -/
def Expansion.CappedAtPlain (x : Expansion σ) : Prop :=
  ∀ tag, .capped tag ∈ x.events → IsPlain tag

/-- Whether two expansions are the same, up to the reaching of a deepest level. -/
structure Alike (x y : Expansion σ) : Prop where
  context : y.context = x.context
  chance : y.chance = x.chance
  events : y.events.filter (!·.isCapped) = x.events.filter (!·.isCapped)

/-- What two resolvers give alike: the same tags, and expansions that are alike. -/
def SameTags {α : Type} (a b : α × Expansion σ) : Prop := b.1 = a.1 ∧ Alike a.2 b.2

theorem request_of_plain {tag : String} (h : IsPlain tag) : Request.ofTag tag = .plain := by
  unfold Request.ofTag
  have hany : (pieces tag).any Piece.isBlock = false := by
    rw [List.any_eq_false]
    intro piece hpiece
    rw [h.2 piece hpiece]
    exact Bool.false_ne_true
  rw [h.1]
  simp only [hany, Bool.false_eq_true, if_false]

/-! ### Events are kept -/

/-- Whatever happens is noted behind what has happened. -/
theorem stepwise_events (e : Expander σ) : Stepwise e fun x y => x.events <:+ y.events where
  refl x := List.suffix_refl _
  trans hxy hyz := hxy.trans hyz
  choose x chance count index := List.suffix_cons _ _
  draw name x := by
    unfold Expander.draw
    cases e.table.get? name with
    | none => exact List.suffix_refl _
    | some lines => exact List.suffix_cons _ _
  advance name x := by
    unfold Expander.advance
    cases e.table.get? name with
    | none => exact List.suffix_refl _
    | some lines => exact List.suffix_cons _ _
  observe watched name x := by
    unfold Expander.observe
    cases e.table.get? name with
    | none => exact List.suffix_refl _
    | some lines => exact List.suffix_cons _ _
  cap tag x := List.suffix_cons _ _
  defer line x := List.suffix_refl _
  takeBack hxy := hxy

theorem Expansion.CappedAtPlain.of_suffix {x y : Expansion σ} (hy : y.CappedAtPlain)
    (h : x.events <:+ y.events) : x.CappedAtPlain :=
  fun tag htag => hy tag (h.subset htag)

/-! ### Two expansions side by side -/

namespace Alike

variable {x y : Expansion σ}

theorem refl (x : Expansion σ) : Alike x x := ⟨rfl, rfl, rfl⟩

theorem note (h : Alike x y) (event : Event) : Alike (x.note event) (y.note event) where
  context := h.context
  chance := h.chance
  events := by simp only [Expansion.note, List.filter_cons, h.events]

/-- The reaching of the deepest level does not tell expansions apart. -/
theorem capped (h : Alike x y) (tag : String) : Alike (x.note (.capped tag)) y where
  context := h.context
  chance := h.chance
  events := h.events

theorem withChance (h : Alike x y) (chance : σ) : Alike { x with chance } { y with chance } where
  context := h.context
  chance := rfl
  events := h.events

theorem withContext (h : Alike x y) (f : Context → Context) :
    Alike { x with context := f x.context } { y with context := f y.context } where
  context := by rw [h.context]
  chance := h.chance
  events := h.events

theorem setCounter (h : Alike x y) (name : String) (n : UInt64) :
    Alike (x.setCounter name n) (y.setCounter name n) :=
  h.withContext fun c => { c with counters := c.counters.insert name n }

theorem showProgress (h : Alike x y) (name : String) (p : Prompt.Progress) :
    Alike (x.showProgress name p) (y.showProgress name p) :=
  h.withContext fun c => { c with progress := c.progress.insert name p }

theorem record (h : Alike x y) (name line : String) : Alike (x.record name line) (y.record name line) :=
  h.withContext (·.record name line)

theorem defer (h : Alike x y) (tags : List String) : Alike (x.defer tags) (y.defer tags) :=
  h.withContext fun c => { c with deferred := c.deferred ++ tags }

theorem takeBack (h : Alike x y) (count : Nat) : SameTags (x.takeBack count) (y.takeBack count) :=
  ⟨congrArg (fun c : Context => c.deferred.drop count) h.context,
    h.withContext fun c => { c with deferred := c.deferred.take count }⟩

/-- The choices are part of what happened apart from the reaching of the deepest level. -/
theorem choices_eq (h : Alike x y) : y.choices = x.choices := by
  have hkept (events : List Event) :
      (events.filter (!·.isCapped)).filterMap Event.choice? = events.filterMap Event.choice? := by
    rw [List.filterMap_filter]
    congr 1
    funext event
    cases event <;> rfl
  unfold Expansion.choices
  rw [List.filterMap_reverse, List.filterMap_reverse, ← hkept y.events, h.events, hkept]

end Alike

section Steps

variable (e : Expander σ) {x y : Expansion σ}

theorem sameTags_draw (name : String) (h : Alike x y) : SameTags (e.draw name x) (e.draw name y) := by
  unfold Expander.draw
  cases e.table.get? name with
  | none => exact ⟨rfl, h⟩
  | some lines =>
      dsimp only
      rw [h.chance]
      exact ⟨rfl, ((h.withChance _).record name _).note _⟩

theorem sameTags_advance (name : String) (h : Alike x y) :
    SameTags (e.advance name x) (e.advance name y) := by
  unfold Expander.advance Expansion.counter
  cases e.table.get? name with
  | none => exact ⟨rfl, h⟩
  | some lines =>
      dsimp only
      rw [h.context]
      exact ⟨rfl, (((h.setCounter name _).showProgress name _).record name _).note _⟩

theorem sameTags_observe (watched name : String) (h : Alike x y) :
    SameTags (e.observe watched name x) (e.observe watched name y) := by
  unfold Expander.observe Expansion.counter
  cases e.table.get? name with
  | none => exact ⟨rfl, h⟩
  | some lines =>
      dsimp only
      rw [h.context]
      exact ⟨rfl, ((h.showProgress name _).record name _).note _⟩

theorem sameTags_look (r : Reference) (h : Alike x y) : SameTags (e.look r x) (e.look r y) := by
  cases r with
  | chance name => exact sameTags_draw e name h
  | sequential name => exact sameTags_advance e name h
  | observer watched name => exact sameTags_observe e watched name h
  | malformed => exact ⟨rfl, h⟩

end Steps

/-- How a resolver stands to another one with further levels: from expansions that are alike both give
the same, as long as the first reaches its deepest level at plain tags only. -/
def Foreshadows (f g : Expander.Resolver σ) : Prop :=
  ∀ token x y, Alike x y → (f token x).2.CappedAtPlain → SameTags (f token x) (g token y)

section Further

variable {e : Expander σ} {f g : Expander.Resolver σ} (hfg : Foreshadows f g)
include hfg

theorem sameTags_resolveChoice (alternatives : List String) {x y : Expansion σ} (h : Alike x y)
    (hcapped : (e.resolveChoice f alternatives x).2.CappedAtPlain) :
    SameTags (e.resolveChoice f alternatives x) (e.resolveChoice g alternatives y) := by
  unfold Expander.resolveChoice at hcapped ⊢
  dsimp only at hcapped ⊢
  rw [h.chance]
  have hchosen := (h.withChance (e.chooser.choose alternatives.length x.chance).2).note
    (.chosen alternatives.length (e.chooser.choose alternatives.length x.chance).1)
  split
  · exact ⟨rfl, hchosen⟩
  · rename_i hempty
    rw [if_neg hempty] at hcapped
    exact hfg _ _ _ hchosen hcapped

theorem sameTags_resolveReference (token : String) (r : Reference) {x y : Expansion σ}
    (h : Alike x y) (hcapped : (e.resolveReference f token r x).2.CappedAtPlain) :
    SameTags (e.resolveReference f token r x) (e.resolveReference g token r y) := by
  have hlook := sameTags_look e r h
  unfold Expander.resolveReference at hcapped ⊢
  rcases hx : e.look r x with ⟨_ | line, x'⟩
  all_goals
    rcases hy : e.look r y with ⟨found, y'⟩
    rw [hx, hy] at hlook
    obtain ⟨rfl, hafter⟩ := hlook
    rw [hx] at hcapped
  · exact ⟨rfl, hafter⟩
  · obtain ⟨htags, hresolved⟩ := hfg line x' y' hafter hcapped
    dsimp only
    rw [htags]
    exact ⟨rfl, hresolved.defer _⟩

theorem sameTags_resolveBlock (name : String) {x y : Expansion σ} (h : Alike x y)
    (hcapped : (e.resolveBlock f name x).2.CappedAtPlain) :
    SameTags (e.resolveBlock f name x) (e.resolveBlock g name y) := by
  have hdraw := sameTags_draw e (Text.trim name) h
  unfold Expander.resolveBlock at hcapped ⊢
  rcases hx : e.draw (Text.trim name) x with ⟨_ | line, x'⟩
  all_goals
    rcases hy : e.draw (Text.trim name) y with ⟨found, y'⟩
    rw [hx, hy] at hdraw
    obtain ⟨rfl, hafter⟩ := hdraw
    rw [hx] at hcapped
  · exact ⟨rfl, hafter⟩
  · obtain ⟨htags, hresolved⟩ := hfg line x' y' hafter hcapped
    obtain ⟨haside, htaken⟩ := hresolved.takeBack x'.context.deferred.length
    dsimp only
    rw [hafter.context, htags, haside]
    exact ⟨rfl, htaken⟩

/-- What happens at one block is still known after the next. -/
theorem sameTags_resolvePieces (hevents : ∀ token x, x.events <:+ (f token x).2.events)
    (written : String) (parts : List Piece) {x y : Expansion σ} (h : Alike x y)
    (hcapped : (e.resolvePieces f written parts x).2.CappedAtPlain) :
    SameTags (e.resolvePieces f written parts x) (e.resolvePieces g written parts y) := by
  induction parts generalizing written x y with
  | nil => exact ⟨rfl, h⟩
  | cons piece rest ih =>
      cases piece with
      | text s => exact ih _ h hcapped
      | block name =>
          have hrest := (stepwise_events e).resolvePieces hevents
            (written ++ (e.resolveBlock f name x).1) rest (e.resolveBlock f name x).2
          obtain ⟨htext, hafter⟩ := sameTags_resolveBlock hfg name h (hcapped.of_suffix hrest)
          simp only [Expander.resolvePieces]
          rw [htext]
          exact ih _ hafter hcapped

end Further

/-! ### Levels -/

/-- With further levels a resolver goes the same way, as long as the one without them reaches its
deepest level at plain tags only. -/
theorem foreshadows_resolve (e : Expander σ) (levels further : Nat) :
    Foreshadows (e.resolve levels) (e.resolve (levels + further)) := by
  induction levels with
  | zero =>
      intro token x y h hcapped
      -- The deepest level is at a plain tag, which further levels leave as it is.
      have hplain : IsPlain token := hcapped token List.mem_cons_self
      cases further with
      | zero => exact ⟨rfl, h.note _⟩
      | succ further =>
          have hstays : e.resolve (0 + (further + 1)) token y = ([token], y) := by
            rw [Nat.zero_add, Expander.resolve, request_of_plain hplain]
          rw [hstays]
          exact ⟨rfl, h.capped token⟩
  | succ levels ih =>
      intro token x y h hcapped
      rw [Nat.add_right_comm]
      unfold Expander.resolve at hcapped ⊢
      cases hrequest : Request.ofTag token with
      | choice alternatives =>
          rw [hrequest] at hcapped
          exact sameTags_resolveChoice ih alternatives h hcapped
      | reference r =>
          rw [hrequest] at hcapped
          exact sameTags_resolveReference ih token r h hcapped
      | blocks parts =>
          rw [hrequest] at hcapped
          obtain ⟨htext, hafter⟩ :=
            sameTags_resolvePieces ih ((stepwise_events e).resolve levels) "" parts h hcapped
          exact ⟨congrArg (fun text => [text]) htext, hafter⟩
      | plain => exact ⟨rfl, h⟩

/-- An expander with another number of levels. -/
def Expander.withDepth (e : Expander σ) (n : Nat) : Expander σ := { e with maxDepth := n }

theorem resolvePieces_withDepth (e : Expander σ) (n : Nat) (f : Expander.Resolver σ)
    (written : String) (parts : List Piece) (x : Expansion σ) :
    (e.withDepth n).resolvePieces f written parts x = e.resolvePieces f written parts x := by
  induction parts generalizing written x with
  | nil => rfl
  | cons piece rest ih =>
      cases piece with
      | text s => exact ih _ _
      | block name => exact ih _ _

/-- The number of levels that are left is all that resolving knows of the depth. -/
theorem resolve_withDepth (e : Expander σ) (n levels : Nat) :
    (e.withDepth n).resolve levels = e.resolve levels := by
  induction levels with
  | zero => rfl
  | succ levels ih =>
      funext token x
      unfold Expander.resolve
      rw [ih]
      cases Request.ofTag token with
      | blocks parts =>
          dsimp only
          rw [resolvePieces_withDepth]
      | _ => rfl

theorem sameTags_expandFrom (e : Expander σ) {n : Nat} (hn : e.maxDepth ≤ n)
    (done tags : List String) {x y : Expansion σ} (h : Alike x y)
    (hcapped : (e.expandFrom done tags x).2.CappedAtPlain) :
    SameTags (e.expandFrom done tags x) ((e.withDepth n).expandFrom done tags y) := by
  induction tags generalizing done x y with
  | nil => exact ⟨rfl, h⟩
  | cons tag rest ih =>
      simp only [Expander.expandFrom] at hcapped ⊢
      have hrest := (stepwise_events e).expandFrom (done ++ (e.expandTag tag x).1) rest
        (e.expandTag tag x).2
      have hlevels : (e.withDepth n).expandTag = e.resolve (e.maxDepth + 1 + (n - e.maxDepth)) := by
        unfold Expander.expandTag
        rw [resolve_withDepth]
        congr 1
        change n + 1 = _
        omega
      obtain ⟨htags, hafter⟩ := foreshadows_resolve e (e.maxDepth + 1) (n - e.maxDepth) tag x y h
        (hcapped.of_suffix hrest)
      rw [← hlevels] at htags hafter
      rw [htags]
      exact ih _ hafter hcapped

/-- The number of levels does not show unless it bites. If an expansion reaches its deepest level only
at tags that neither stand in angle brackets nor have a block, then with any greater number of levels
the tags that it gives, the prompt that it leaves, and the choices that it makes one after the other
are the same. -/
theorem expansion_same_with_more_levels (e : Expander σ) (n : Nat) (hn : e.maxDepth ≤ n)
    (tags : List String) (c : Context) (chance : σ)
    (hcapped : ∀ tag, .capped tag ∈ (e.expandTags tags ⟨c, chance, []⟩).2.events → IsPlain tag) :
    let few := e.expandTags tags ⟨c, chance, []⟩
    let many := (e.withDepth n).expandTags tags ⟨c, chance, []⟩
    many.1 = few.1 ∧ many.2.context = few.2.context ∧ many.2.choices = few.2.choices ∧
      many.2.chance = few.2.chance := by
  intro few many
  obtain ⟨htags, halike⟩ := sameTags_expandFrom e hn [] tags (.refl ⟨c, chance, []⟩) hcapped
  exact ⟨htags, halike.context, halike.choices_eq, halike.chance⟩

/-- Two levels are enough for a reference to a reference to a plain tag, although the plain tag is
reached where they end. -/
theorem expansion_same_with_more_levels_chain :
    let chooser : Chooser Unit := ⟨fun count chance => (count - 1, chance)⟩
    let e : Expander Unit := ⟨.ofList [("a", ["c", "<b>"]), ("b", ["deep"])], chooser, 1⟩
    e.maxDepth ≤ 7 ∧
    (∀ tag, .capped tag ∈ (e.expandTags ["<a>"] ⟨.initial, (), []⟩).2.events → IsPlain tag) ∧
    Event.capped "deep" ∈ (e.expandTags ["<a>"] ⟨.initial, (), []⟩).2.events ∧
    ((e.withDepth 7).expandTags ["<a>"] ⟨.initial, (), []⟩).1 = ["deep"] ∧
    ((e.withDepth 7).expandTags ["<a>"] ⟨.initial, (), []⟩).2.choices = [(2, 1), (1, 0)] := by
  intro chooser e
  have hevents : (e.expandTags ["<a>"] ⟨.initial, (), []⟩).2.events =
      [.capped "deep", .drawn "b" 1 0 "deep", .drawn "a" 2 1 "<b>"] := by
    decide +kernel
  have hcapped : ∀ tag, .capped tag ∈ (e.expandTags ["<a>"] ⟨.initial, (), []⟩).2.events →
      IsPlain tag := by
    intro tag htag
    rw [hevents] at htag
    obtain rfl : tag = "deep" := by simpa using htag
    exact ⟨by decide +kernel, by decide +kernel⟩
  have htag : (e.expandTags ["<a>"] ⟨.initial, (), []⟩).1 = ["deep"] := by decide +kernel
  have hmore : e.maxDepth ≤ 7 := by decide
  obtain ⟨htags, -, hchoices, -⟩ :=
    expansion_same_with_more_levels e 7 hmore ["<a>"] .initial () hcapped
  refine ⟨hmore, hcapped, ?_, htags.trans htag, hchoices.trans ?_⟩
  · rw [hevents]
    exact List.mem_cons_self
  · unfold Expansion.choices
    rw [hevents]
    rfl

end PromptWeave.Wildcard
