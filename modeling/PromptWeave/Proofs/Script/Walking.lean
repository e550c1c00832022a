import PromptWeave.Proofs.Script.Cursor
import PromptWeave.Proofs.Script.WalkingParser

/-!
# Where the parser walks

A route is a sequence of moves inside a tape: one token ahead, or a look ahead over ends of lines that
goes back to where it began. What a part of the parser does that walks is compared with what a reader does
of the tokens that are left: it ends, it has moved on a route, and it comes to the same.
-/
namespace PromptWeave.Script

/-! ### Tapes -/

namespace Tape

variable {tape : Tape} {place : Nat}

/-- The cursor at a place. -/
def cursor (tape : Tape) (place : Nat) : Cursor :=
  ⟨tape.token place, tape.tokens.drop (place + 1)⟩

theorem length_tokens (tape : Tape) : tape.tokens.length = tape.before.length + 1 := by
  simp [tokens]

theorem length_pos (tape : Tape) : 0 < tape.tokens.length := by
  rw [length_tokens]
  exact Nat.succ_pos _

/-- At a place on the tape stands the token there. -/
theorem getElem?_tokens (h : place < tape.tokens.length) :
    tape.tokens[place]? = some (tape.token place) := by
  rw [length_tokens] at h
  rw [tokens, token, List.getD_eq_getElem?_getD, List.getElem?_append]
  split
  · rename_i hbefore
    rw [List.getElem?_eq_getElem hbefore]
    rfl
  · rename_i hbefore
    have hlast : place - tape.before.length = 0 := by omega
    rw [hlast, List.getElem?_eq_none (Nat.le_of_not_lt hbefore)]
    rfl

theorem tokens_drop (h : place < tape.tokens.length) :
    tape.tokens.drop place = (tape.cursor place).tokens := by
  rw [cursor, Cursor.tokens, List.drop_eq_getElem_cons h]
  have htoken := getElem?_tokens h
  rw [List.getElem?_eq_getElem h] at htoken
  rw [Option.some.inj htoken]

/-- A token that is not the end of the script is not the last one. -/
theorem lt_of_kind_ne (h : (tape.token place).kind ≠ .eof) : place + 1 < tape.tokens.length := by
  rw [length_tokens]
  refine Nat.succ_lt_succ (Nat.lt_of_not_le fun hle => h ?_)
  rw [token, List.getD_eq_getElem?_getD, List.getElem?_eq_none hle]
  rfl

/-- A token that another follows stands before the cursor at the next place. -/
theorem next (h : place + 1 < tape.tokens.length) :
    (tape.cursor place).Next (tape.token place).kind (tape.cursor (place + 1)) := by
  refine ⟨(tape.token place).line, ?_⟩
  rw [Cursor.Passes, ← tokens_drop h]
  rfl

theorem cursor_behind_last (h : ¬ place + 1 < tape.tokens.length) :
    (tape.cursor place).behind = tape.cursor place := by
  rw [Cursor.behind, cursor, List.drop_eq_nil_of_le (Nat.le_of_not_lt h)]

theorem beforeIn_cursor (tape : Tape) (place : Nat) :
    (tape.cursor place).beforeIn = tape.beforeIn place := by
  rw [Cursor.beforeIn, cursor, List.head?_drop, beforeIn]

theorem length_later (tape : Tape) (place : Nat) :
    (tape.cursor place).later.length = tape.tokens.length - (place + 1) := List.length_drop

end Tape

/-! ### Routes -/

/-- Whether moves lead from one place on a tape to another. They go ahead by one token that another
follows, or they look ahead, if that is allowed: over some ends of lines and back to where they began. -/
inductive Route (tape : Tape) (looks : Bool) : Nat → List Move → Nat → Prop where
  | still (place : Nat) : Route tape looks place [] place
  | ahead {place stop : Nat} {moves : List Move} (hplace : place + 1 < tape.tokens.length)
      (rest : Route tape looks (place + 1) moves stop) : Route tape looks place (.ahead :: moves) stop
  | lookahead {place count stop : Nat} {moves : List Move} (hlooks : looks = true)
      (hgap : ∀ i < count, (tape.token (place + i)).kind = .newline)
      (rest : Route tape looks place moves stop) :
      Route tape looks place (List.replicate count .ahead ++ .back place :: moves) stop

namespace Route

variable {tape : Tape} {looks : Bool} {place mid stop : Nat} {moves others : List Move}

theorem trans (h : Route tape looks place moves mid) (h' : Route tape looks mid others stop) :
    Route tape looks place (moves ++ others) stop := by
  induction h with
  | still => exact h'
  | ahead hplace _ ih => exact .ahead hplace (ih h')
  | lookahead hlooks hgap _ ih =>
      rw [List.append_assoc, List.cons_append]
      exact .lookahead hlooks hgap (ih h')

/-- A route leads nowhere behind its start. -/
theorem le (h : Route tape looks place moves stop) : place ≤ stop := by
  induction h with
  | still => exact Nat.le_refl _
  | ahead _ _ ih => omega
  | lookahead _ _ _ ih => exact ih

/-- A route stays on its tape. -/
theorem lt (h : Route tape looks place moves stop) (hplace : place < tape.tokens.length) :
    stop < tape.tokens.length := by
  induction h with
  | still => exact hplace
  | ahead hnext _ ih => exact ih hnext
  | lookahead _ _ _ ih => exact ih hplace

/-- Ends of lines can be passed over. -/
theorem over_newlines {count : Nat} (hgap : ∀ i < count, (tape.token (place + i)).kind = .newline) :
    Route tape looks place (List.replicate count .ahead) (place + count) := by
  induction count generalizing place with
  | zero => exact .still place
  | succ count ih =>
      have hfirst : (tape.token place).kind = .newline := hgap 0 (Nat.succ_pos count)
      have hrest := @ih (place + 1) fun i hi => by
        rw [Nat.add_right_comm]
        exact hgap (i + 1) (Nat.succ_lt_succ hi)
      rw [Nat.add_right_comm] at hrest
      exact .ahead (Tape.lt_of_kind_ne (by simp [hfirst])) hrest

/-- A route on which nothing is looked for leads ahead only. -/
theorem eq_replicate (h : Route tape false place moves stop) :
    moves = List.replicate (stop - place) .ahead := by
  induction h with
  | still => rw [Nat.sub_self, List.replicate_zero]
  | @ahead place stop moves _ rest ih =>
      have hle := rest.le
      rw [ih, ← List.replicate_succ]
      congr 1
      omega
  | lookahead hlooks => cases hlooks

end Route

/-- The places at which a parser stands that begins at one of them and makes some moves. -/
def places (place : Nat) : List Move → List Nat
  | [] => [place]
  | .ahead :: moves => place :: places (place + 1) moves
  | .back start :: moves => place :: places start moves

theorem mem_places_ahead {place count q : Nat} {moves : List Move}
    (h : q ∈ places place (List.replicate count .ahead ++ moves)) :
    q < place + count ∨ q ∈ places (place + count) moves := by
  induction count generalizing place with
  | zero => exact .inr h
  | succ count ih =>
      obtain rfl | hq := List.mem_cons.1 h
      · exact .inl (by omega)
      · rw [← Nat.add_assoc, Nat.add_right_comm]
        exact ih hq

/-- A parser that moves on a route stands on its tape all the time. -/
theorem Route.lt_of_mem_places {tape : Tape} {looks : Bool} {place stop q : Nat} {moves : List Move}
    (h : Route tape looks place moves stop) (hplace : place < tape.tokens.length)
    (hq : q ∈ places place moves) : q < tape.tokens.length := by
  induction h with
  | still =>
      obtain rfl := List.mem_singleton.1 hq
      exact hplace
  | ahead hnext _ ih =>
      obtain rfl | hq := List.mem_cons.1 hq
      · exact hplace
      · exact ih hnext hq
  | lookahead _ hgap _ ih =>
      have hover : Route tape false _ _ _ := over_newlines hgap
      have hend := hover.lt hplace
      obtain hless | hq := mem_places_ahead hq
      · omega
      · obtain rfl | hq := List.mem_cons.1 hq
        · exact hend
        · exact ih hplace hq

/-! ### Walkers -/

/-- A walker that has gone ahead. -/
def Walker.forward (w : Walker) (count : Nat) : Walker :=
  ⟨w.place + count, w.moves ++ List.replicate count .ahead⟩

theorem Walker.forward_zero (w : Walker) : w.forward 0 = w := by
  rw [forward, List.replicate_zero, List.append_nil, Nat.add_zero]

theorem Walker.forward_forward (w : Walker) (count : Nat) :
    (w.forward 1).forward count = w.forward (count + 1) := by
  rw [forward, forward, forward, List.append_assoc, List.replicate_append_replicate, Nat.add_comm 1,
    Nat.add_assoc, Nat.add_comm 1]

/-! ### Walks and readers -/

variable {α β : Type} {tape : Tape} {looks : Bool} {w : Walker} {goal : Nat} {kind : TokenKind}

/-- Whether a part of the parser that walks does what a reader does of the tokens that are left, from
where it stands on the tape. It ends, and its moves are a route; where it succeeds it has come to `goal`
at least. -/
def Tracks (tape : Tape) (looks : Bool) (w : Walker) (x : Walk α) (r : Reader α) (goal : Nat) : Prop :=
  w.place < tape.tokens.length → ∃ result place moves,
    x w = .some (result, ⟨place, w.moves ++ moves⟩) ∧ Route tape looks w.place moves place ∧
    r (tape.cursor w.place) = result.map (·, tape.cursor place) ∧ ∀ a, result = .ok a → goal ≤ place

namespace Walk

variable {σ : Type}

theorem bind_apply (x : Walk α) (f : α → Walk β) (w : Walker) :
    (x >>= f) w = (x w).bind fun y =>
      match y with
      | (.ok a, w) => f a w
      | (.error e, w) => .some (.error e, w) := by
  have hbind : (x >>= f) w = Part.bind (x w) fun y => ExceptT.bindCont f y.1 y.2 := rfl
  rw [hbind]
  congr 1
  funext y
  rcases y with ⟨_ | _, _⟩ <;> rfl

theorem bind_of_ok {x : Walk α} {a : α} {w' : Walker} (f : α → Walk β)
    (h : x w = .some (.ok a, w')) : (x >>= f) w = f a w' := by
  rw [bind_apply, h, Part.bind_some]

theorem bind_of_error {x : Walk α} {e : SyntaxError} {w' : Walker} (f : α → Walk β)
    (h : x w = .some (.error e, w')) : (x >>= f) w = .some (.error e, w') := by
  rw [bind_apply, h, Part.bind_some]

theorem fail_bind (fault : SyntaxFault) (f : α → Walk β) :
    fail tape fault >>= f = fail tape fault := by
  funext w
  exact bind_of_error f rfl

theorem mem_rounds {round : σ → Walk (α ⊕ σ)} {s : σ} {w : Walker}
    {z : (Except SyntaxError α × Walker) ⊕ (σ × Walker)} :
    z ∈ rounds round (s, w) ↔ ∃ y ∈ round s w, afterRound y = z := Part.mem_map_iff afterRound

/-- A loop is a round and, unless it was the last, the loop from where the round has come. -/
theorem loop_eq (round : σ → Walk (α ⊕ σ)) (s : σ) :
    loop round s = round s >>= Sum.elim pure (loop round) := by
  funext w
  refine Part.ext fun result => ?_
  rw [loop, PFun.mem_fix_iff, bind_apply, Part.mem_bind_iff]
  simp only [mem_rounds]
  constructor
  · rintro (⟨⟨out, w'⟩, hround, hlast⟩ | ⟨⟨s', w'⟩, ⟨⟨out, w''⟩, hround, hnext⟩, hrest⟩)
    · refine ⟨_, hround, ?_⟩
      rcases out with e | a | s'
      · cases hlast
        exact Part.mem_some _
      · cases hlast
        exact Part.mem_some _
      · cases hlast
    · refine ⟨_, hround, ?_⟩
      rcases out with e | a | s''
      · cases hnext
      · cases hnext
      · cases hnext
        exact hrest
  · rintro ⟨⟨out, w'⟩, hround, hresult⟩
    rcases out with e | a | s'
    · exact .inl ⟨_, hround, congrArg Sum.inl (Part.mem_some_iff.1 hresult).symm⟩
    · exact .inl ⟨_, hround, congrArg Sum.inl (Part.mem_some_iff.1 hresult).symm⟩
    · exact .inr ⟨(s', w'), ⟨_, hround, rfl⟩, hresult⟩

end Walk

theorem Walk.advance_of_lt (h : w.place + 1 < tape.tokens.length) :
    Walk.advance tape w = .some (.ok (tape.token w.place).kind, w.forward 1) := by
  rw [Tape.length_tokens] at h
  exact if_pos (Nat.lt_of_succ_lt_succ h)

theorem Walk.accept_of_eq (hkind : kind.Fixed) (h : (tape.token w.place).kind = kind) :
    Walk.accept tape kind w = .some (.ok true, w.forward 1) := by
  have hnext : w.place + 1 < tape.tokens.length := Tape.lt_of_kind_ne (h ▸ hkind.ne_eof)
  have hbeq : ((tape.token w.place).kind == kind) = true := hkind.beq_iff_eq.2 h
  rw [Walk.accept, Walk.bind_of_ok _ rfl, if_pos hbeq, Walk.bind_of_ok _ (Walk.advance_of_lt hnext)]
  rfl

theorem Walk.accept_of_ne (hkind : kind.Fixed) (h : (tape.token w.place).kind ≠ kind) :
    Walk.accept tape kind w = .some (.ok false, w) := by
  have hbeq : ¬ ((tape.token w.place).kind == kind) = true := fun heq => h (hkind.beq_iff_eq.1 heq)
  rw [Walk.accept, Walk.bind_of_ok _ rfl, if_neg hbeq]
  rfl

namespace Tracks

theorem mono {x : Walk α} {r : Reader α} {least : Nat} (h : Tracks tape looks w x r least)
    (hgoal : goal ≤ least) : Tracks tape looks w x r goal := by
  intro hplace
  obtain ⟨result, place, moves, hx, hroute, hr, hok⟩ := h hplace
  exact ⟨result, place, moves, hx, hroute, hr, fun a ha => Nat.le_trans hgoal (hok a ha)⟩

theorem bind {x : Walk α} {r : Reader α} {f : α → Walk β} {g : α → Reader β} {least : Nat}
    (h : Tracks tape looks w x r least)
    (hf : ∀ a w', least ≤ w'.place → Tracks tape looks w' (f a) (g a) goal) :
    Tracks tape looks w (x >>= f) (r >>= g) goal := by
  intro hplace
  obtain ⟨result, mid, moves, hx, hroute, hr, hok⟩ := h hplace
  rw [Reader.bind_apply, hr]
  cases result with
  | error e => exact ⟨.error e, mid, moves, Walk.bind_of_error f hx, hroute, rfl, nofun⟩
  | ok a =>
      obtain ⟨result, place, others, hfx, hrest, hgr, hgoal⟩ :=
        hf a ⟨mid, w.moves ++ moves⟩ (hok a rfl) (hroute.lt hplace)
      refine ⟨result, place, moves ++ others, ?_, hroute.trans hrest, hgr, hgoal⟩
      rw [Walk.bind_of_ok f hx, hfx, List.append_assoc]

end Tracks

theorem tracks_pure {a : α} (h : goal ≤ w.place) : Tracks tape looks w (pure a) (pure a) goal := by
  intro _
  refine ⟨.ok a, w.place, [], ?_, .still _, rfl, fun _ _ => h⟩
  rw [List.append_nil]
  rfl

theorem tracks_fail (fault : SyntaxFault) :
    Tracks tape looks w (Walk.fail tape fault : Walk α) (Reader.fail fault) goal := by
  intro _
  refine ⟨.error _, w.place, [], ?_, .still _, rfl, nofun⟩
  rw [List.append_nil]
  rfl

/-- What is built of a result at the end moves nothing. -/
theorem Tracks.then_pure {x : Walk α} {r : Reader α} (h : Tracks tape looks w x r goal) (f : α → β) :
    Tracks tape looks w (do return f (← x)) (do return f (← r)) goal :=
  h.bind fun _ _ hgoal => tracks_pure hgoal

/-- What would come after a failure does not matter. -/
theorem tracks_fail_bind (fault : SyntaxFault) {f : α → Walk β} {g : α → Reader β} :
    Tracks tape looks w (Walk.fail tape fault >>= f) (Reader.fail fault >>= g) goal := by
  rw [Walk.fail_bind]
  exact tracks_fail fault

section Steps

variable {γ : Type} {x : Walk γ} {r : Reader γ} {a : γ} {f : γ → Walk β} {g : γ → Reader β}
  {w' : Walker} {moves : List Move}

/-- After a step that succeeds the walk goes on from where the step has led. -/
theorem tracks_step (hx : x w = .some (.ok a, w')) (hmoves : w'.moves = w.moves ++ moves)
    (hroute : Route tape looks w.place moves w'.place)
    (hr : r (tape.cursor w.place) = .ok (a, tape.cursor w'.place))
    (h : Tracks tape looks w' (f a) (g a) goal) : Tracks tape looks w (x >>= f) (r >>= g) goal := by
  intro hplace
  obtain ⟨result, place, others, hf, hrest, hg, hok⟩ := h (hroute.lt hplace)
  refine ⟨result, place, moves ++ others, ?_, hroute.trans hrest, ?_, hok⟩
  · rw [Walk.bind_of_ok f hx, ← List.append_assoc, ← hmoves]
    exact hf
  · rw [Reader.bind_of_ok hr]
    exact hg

/-- What is only looked up moves nothing. -/
theorem tracks_look (hx : x w = .some (.ok a, w))
    (hr : r (tape.cursor w.place) = .ok (a, tape.cursor w.place))
    (h : Tracks tape looks w (f a) (g a) goal) : Tracks tape looks w (x >>= f) (r >>= g) goal :=
  tracks_step hx (List.append_nil _).symm (.still _) hr h

end Steps

section Moves

variable {f : TokenKind → Walk β} {g : TokenKind → Reader β}

theorem tracks_peek
    (h : Tracks tape looks w (f (tape.token w.place).kind) (g (tape.token w.place).kind) goal) :
    Tracks tape looks w (Walk.peek tape >>= f) (Reader.peek >>= g) goal := tracks_look rfl rfl h

/-- A walk notes its place where a reader keeps the tokens that are left. -/
theorem tracks_here {f : Nat → Walk β} {g : Cursor → Reader β}
    (h : Tracks tape looks w (f w.place) (g (tape.cursor w.place)) goal) :
    Tracks tape looks w (Walk.here >>= f) (get >>= g) goal := by
  unfold Tracks
  rw [Walk.bind_of_ok f rfl]
  exact h

theorem tracks_line {f : Nat → Walk β} {g : Nat → Reader β}
    (h : Tracks tape looks w (f (tape.token w.place).line) (g (tape.token w.place).line) goal) :
    Tracks tape looks w (Walk.line tape >>= f) (Reader.line >>= g) goal := tracks_look rfl rfl h

theorem tracks_inFollows {f : Bool → Walk β} {g : Bool → Reader β}
    (h : Tracks tape looks w (f (tape.beforeIn w.place)) (g (tape.beforeIn w.place)) goal) :
    Tracks tape looks w (Walk.inFollows tape >>= f) (Reader.inFollows >>= g) goal := by
  refine tracks_look rfl ?_ h
  rw [Reader.inFollows_apply, Tape.beforeIn_cursor]

/-- The number of tokens that are left bounds the loops of a reader. -/
theorem tracks_left {x : Walk β} {g : Nat → Reader β}
    (h : Tracks tape looks w x (g (tape.tokens.length - (w.place + 1))) goal) :
    Tracks tape looks w x (Reader.left >>= g) goal := by
  intro hplace
  rw [Reader.bind_of_ok (Reader.left_apply _), Tape.length_later]
  exact h hplace

/-- Passing over a token leads one place ahead, except at the last one. -/
theorem tracks_advance
    (h : ∀ w', w.place ≤ w'.place → ((tape.token w.place).kind ≠ .eof → w.place + 1 ≤ w'.place) →
      Tracks tape looks w' (f (tape.token w.place).kind) (g (tape.token w.place).kind) goal) :
    Tracks tape looks w (Walk.advance tape >>= f) (Reader.advance >>= g) goal := by
  by_cases hnext : w.place + 1 < tape.tokens.length
  · exact tracks_step (Walk.advance_of_lt hnext) rfl (.ahead hnext (.still _))
      (Reader.advance_apply (Tape.next hnext)) (h _ (Nat.le_succ _) fun _ => Nat.le_refl _)
  · have hlast : Walk.advance tape w = .some (.ok (tape.token w.place).kind, w) := by
      rw [Tape.length_tokens] at hnext
      exact if_neg (by omega)
    refine tracks_look hlast ?_
      (h w (Nat.le_refl _) fun hkind => absurd (Tape.lt_of_kind_ne hkind) hnext)
    rw [Reader.advance_eq, Tape.cursor_behind_last hnext]
    rfl

/-- A token that is not the end of the script is passed over. -/
theorem tracks_pass (hkind : (tape.token w.place).kind ≠ .eof)
    (h : ∀ w', w.place + 1 ≤ w'.place →
      Tracks tape looks w' (f (tape.token w.place).kind) (g (tape.token w.place).kind) goal) :
    Tracks tape looks w (Walk.advance tape >>= f) (Reader.advance >>= g) goal :=
  tracks_advance fun w' _ hnext => h w' (hnext hkind)

/-- A token of a kind that is accepted is passed over, and another is left. -/
theorem tracks_accept {f : Bool → Walk β} {g : Bool → Reader β} (hkind : kind.Fixed)
    (hpass : (tape.token w.place).kind = kind → ∀ w', w.place + 1 ≤ w'.place →
      Tracks tape looks w' (f true) (g true) goal)
    (hstay : (tape.token w.place).kind ≠ kind → Tracks tape looks w (f false) (g false) goal) :
    Tracks tape looks w (Walk.accept tape kind >>= f) (Reader.accept kind >>= g) goal := by
  by_cases hcurrent : (tape.token w.place).kind = kind
  · have hnext : w.place + 1 < tape.tokens.length := Tape.lt_of_kind_ne (hcurrent ▸ hkind.ne_eof)
    have hread : Reader.accept kind (tape.cursor w.place) = .ok (true, tape.cursor (w.place + 1)) :=
      Reader.accept_apply hkind (hcurrent ▸ Tape.next hnext)
    exact tracks_step (Walk.accept_of_eq hkind hcurrent) rfl (.ahead hnext (.still _)) hread
      (hpass hcurrent _ (Nat.le_refl _))
  · exact tracks_look (Walk.accept_of_ne hkind hcurrent) (Reader.accept_apply_of_ne hkind hcurrent)
      (hstay hcurrent)

theorem tracks_accept_ite {x y : Walk β} {r t : Reader β} (hkind : kind.Fixed)
    (hpass : ∀ w', w.place + 1 ≤ w'.place → Tracks tape looks w' x r goal)
    (hstay : Tracks tape looks w y t goal) :
    Tracks tape looks w (Walk.accept tape kind >>= fun b => if b = true then x else y)
      (Reader.accept kind >>= fun b => if b = true then r else t) goal :=
  tracks_accept hkind (fun _ w' hw' => hpass w' hw') fun _ => hstay

theorem tracks_expect (hkind : kind.Fixed) (what : String) :
    Tracks tape looks w (Walk.expect tape kind what) (Reader.expect kind what) (w.place + 1) := by
  rw [Walk.expect, Reader.expect]
  refine tracks_accept hkind (fun _ w' hw' => tracks_pure hw') fun _ => ?_
  exact tracks_peek (tracks_fail _)

theorem tracks_identifier :
    Tracks tape looks w (Walk.identifier tape) Reader.identifier (w.place + 1) := by
  rw [Walk.identifier, Reader.identifier]
  refine tracks_advance fun w' _ hnext => ?_
  cases hkind : (tape.token w.place).kind with
  | name letters => exact tracks_pure (hnext (by simp [hkind]))
  | _ => exact tracks_fail _

theorem tracks_endOfStatement :
    Tracks tape looks w (Walk.endOfStatement tape) Reader.endOfStatement w.place := by
  rw [Walk.endOfStatement, Reader.endOfStatement]
  refine tracks_peek ?_
  cases (tape.token w.place).kind with
  | newline => exact tracks_advance fun w' hw' _ => tracks_pure hw'
  | eof => exact tracks_pure (Nat.le_refl _)
  | mark m =>
      cases m with
      | rightBrace => exact tracks_pure (Nat.le_refl _)
      | _ => exact tracks_fail _
  | _ => exact tracks_fail _

end Moves

/-! ### Ends of lines -/

/-- Whether a number of ends of lines stand at a place, which both ways to read pass over. -/
structure Skips (tape : Tape) (w : Walker) (count : Nat) : Prop where
  newlines : ∀ i < count, (tape.token (w.place + i)).kind = .newline
  walked : Walk.skipNewlines tape w = .some (.ok (), w.forward count)
  read : Reader.skipNewlines (tape.cursor w.place) = .ok ((), tape.cursor (w.place + count))

theorem Walk.skipNewlines_eq :
    Walk.skipNewlines tape = do
      if ← Walk.accept tape .newline then Walk.skipNewlines tape else return () := by
  refine (Walk.loop_eq _ ()).trans ((bind_assoc _ _ _).trans (bind_congr fun b => ?_))
  cases b with
  | true => exact pure_bind _ _
  | false => exact pure_bind _ _

theorem Skips.zero (h : (tape.token w.place).kind ≠ .newline) : Skips tape w 0 where
  newlines := nofun
  walked := by
    rw [Walk.skipNewlines_eq, Walk.bind_of_ok _ (Walk.accept_of_ne .newline h), w.forward_zero]
    rfl
  read := Reader.skipNewlines_apply newlines_nil (Cursor.passes_nil.2 rfl) h

theorem Skips.succ {count : Nat} (hfirst : (tape.token w.place).kind = .newline)
    (h : Skips tape (w.forward 1) count) : Skips tape w (count + 1) where
  newlines i hi := by
    cases i with
    | zero => exact hfirst
    | succ i =>
        rw [← Nat.add_assoc, Nat.add_right_comm]
        exact h.newlines i (Nat.lt_of_succ_lt_succ hi)
  walked := by
    rw [Walk.skipNewlines_eq, Walk.bind_of_ok _ (Walk.accept_of_eq .newline hfirst)]
    exact h.walked.trans (by rw [w.forward_forward])
  read := by
    have hnext : w.place + 1 < tape.tokens.length := Tape.lt_of_kind_ne (by simp [hfirst])
    have hread := h.read
    rw [Walker.forward, Nat.add_assoc, Nat.add_comm 1] at hread
    rw [← hread, Tape.cursor, Tape.tokens_drop hnext]
    exact if_pos (TokenKind.Fixed.newline.beq_iff_eq.2 hfirst)

/-- Ends of lines are passed over up to some other token, which is the last one at the latest. -/
theorem exists_skips (hplace : w.place < tape.tokens.length) : ∃ count, Skips tape w count := by
  generalize hleft : tape.tokens.length - w.place = left
  induction left generalizing w with
  | zero => omega
  | succ left ih =>
      by_cases hfirst : (tape.token w.place).kind = .newline
      · have hnext : w.place + 1 < tape.tokens.length := Tape.lt_of_kind_ne (by simp [hfirst])
        have hrest : tape.tokens.length - (w.place + 1) = left := by omega
        obtain ⟨count, hcount⟩ := @ih (w.forward 1) hnext hrest
        exact ⟨count + 1, hcount.succ hfirst⟩
      · exact ⟨0, .zero hfirst⟩

/-- What comes behind ends of lines goes on from where they lead. -/
theorem Skips.tracks {f : Unit → Walk β} {g : Unit → Reader β} {count : Nat}
    (hskips : Skips tape w count) (h : Tracks tape looks (w.forward count) (f ()) (g ()) goal) :
    Tracks tape looks w (Walk.skipNewlines tape >>= f) (Reader.skipNewlines >>= g) goal :=
  tracks_step hskips.walked rfl (.over_newlines hskips.newlines) hskips.read h

/-- A part of the parser may be followed by nothing. -/
theorem tracks_of_bind_pure {x : Walk α} {r : Reader α}
    (h : Tracks tape looks w (x >>= pure) (r >>= pure) goal) : Tracks tape looks w x r goal := by
  rwa [bind_pure, bind_pure] at h

theorem tracks_skipNewlines {f : Unit → Walk β} {g : Unit → Reader β}
    (h : ∀ w', w.place ≤ w'.place → Tracks tape looks w' (f ()) (g ()) goal) :
    Tracks tape looks w (Walk.skipNewlines tape >>= f) (Reader.skipNewlines >>= g) goal := by
  intro hplace
  obtain ⟨count, hskips⟩ := exists_skips hplace
  exact hskips.tracks (h _ (Nat.le_add_right _ _)) hplace

end PromptWeave.Script
