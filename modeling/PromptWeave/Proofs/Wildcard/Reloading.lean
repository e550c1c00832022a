import PromptWeave.Proofs.Wildcard.Scans

/-!
# Reloads

A store is read again and again while its directory changes in any way between and under it. Its table is
at all times the one that the last successful scan has made as a whole, which is said to the listeners once
and in turn; what fails is not seen by anyone. A table that somebody holds stays what it was.

Main statement: `reload_is_all_or_nothing`.
-/
namespace PromptWeave.Wildcard

open PromptWeave.Files (Bytes Disk)

namespace Use

variable {S : Type}

/-- What is done with a store, and to the files under it. -/
inductive Action (S : Type) where
  /-- The files become others. -/
  | change (f : S → S)
  | load
  | reload
  | listen
  /-- The table as it is now is put aside. -/
  | hold
  /-- One of the tables that were put aside is looked at. -/
  | look (number : Nat)
  | get (name : String)

/-- What comes back. -/
inductive Answer where
  | done
  | read (result : Except LoadError Nat)
  | number (n : Nat)
  | table (table : Option Table)
  | lines (lines : Option (List String))

/-- A store, the files under it and the tables that were put aside. -/
structure State (S : Type) where
  store : Store
  files : S
  held : List Table

/-- Something that is done: what was there, what comes back, what the listeners are told, and what is
there afterwards. -/
structure Turn (S : Type) where
  before : State S
  action : Action S
  answer : Answer
  notices : List (Nat × Nat)
  after : State S

/-- Does something with a store. -/
def perform (disk : Disk (StateM S)) (s : State S) (action : Action S) : Turn S :=
  match action with
  | .change f => ⟨s, action, .done, [], { s with files := f s.files }⟩
  | .load =>
      let ((result, store), files) := s.store.load disk s.files
      ⟨s, action, .read result, [], { s with store, files }⟩
  | .reload =>
      let ((result, notices, store), files) := s.store.reload disk s.files
      ⟨s, action, .read result, notices, { s with store, files }⟩
  | .listen =>
      let (number, store) := s.store.listen
      ⟨s, action, .number number, [], { s with store }⟩
  | .hold =>
      ⟨s, action, .number s.held.length, [], { s with held := s.held ++ [s.store.snapshot] }⟩
  | .look number => ⟨s, action, .table s.held[number]?, [], s⟩
  | .get name => ⟨s, action, .lines (s.store.get? name), [], s⟩

/-- Does one thing after the other. -/
def turns (disk : Disk (StateM S)) : State S → List (Action S) → List (Turn S)
  | _, [] => []
  | s, action :: rest => perform disk s action :: turns disk (perform disk s action).after rest

@[simp] theorem before_perform (disk : Disk (StateM S)) (s : State S) (action : Action S) :
    (perform disk s action).before = s := by
  cases action <;> rfl

@[simp] theorem action_perform (disk : Disk (StateM S)) (s : State S) (action : Action S) :
    (perform disk s action).action = action := by
  cases action <;> rfl

/-! ### What has happened -/

/-- The table of all files in a directory, if it is there or can be made, and can be read. -/
def wholeTable? (disk : Disk (StateM S)) (root : String) (files : S) : Option Table :=
  let (made, files) := disk.makeDirectory root files
  if made then (disk.filesIn root files).1.map Table.ofFiles else none

/-- Whether somebody has begun to listen. -/
def Turn.listens (t : Turn S) : Bool :=
  match t.action with
  | .listen => true
  | _ => false

/-- Whether a table was put aside. -/
def Turn.holds (t : Turn S) : Bool :=
  match t.action with
  | .hold => true
  | _ => false

/-- The table that a reload has made. -/
def Turn.reloaded? (disk : Disk (StateM S)) (t : Turn S) : Option Table :=
  match t.action with
  | .reload => wholeTable? disk t.before.store.root t.before.files
  | _ => none

/-- The table that a scan has made. -/
def Turn.scanned? (disk : Disk (StateM S)) (t : Turn S) : Option Table :=
  match t.action with
  | .load => wholeTable? disk t.before.store.root t.before.files
  | .reload => wholeTable? disk t.before.store.root t.before.files
  | _ => none

/-- The table of the last scan that has succeeded, or the first table. -/
def lastTable (disk : Disk (StateM S)) (initial : Table) (earlier : List (Turn S)) : Table :=
  ((earlier.filterMap (Turn.scanned? disk)).getLast?).getD initial

theorem lastTable_concat (disk : Disk (StateM S)) (initial : Table) (earlier : List (Turn S))
    (t : Turn S) : lastTable disk initial (earlier ++ [t]) =
      (t.scanned? disk).getD (lastTable disk initial earlier) := by
  rw [lastTable, List.filterMap_append]
  cases hscan : t.scanned? disk with
  | none => simp [hscan, lastTable]
  | some table => simp [hscan]

/-- A scan makes the whole table, or fails. -/
theorem scan_cases (disk : Disk (StateM S)) (root : String) (files : S) :
    (∃ table behind, wholeTable? disk root files = some table ∧
      Store.scan disk root files = (.ok table, behind)) ∨
    ∃ e behind, wholeTable? disk root files = none ∧
      Store.scan disk root files = (.error e, behind) := by
  rw [wholeTable?, Store.scan_apply]
  rcases disk.makeDirectory root files with ⟨made, files⟩
  cases made with
  | false => exact .inr ⟨_, _, rfl, rfl⟩
  | true =>
      simp only [if_true]
      rcases disk.filesIn root files with ⟨_ | found, files⟩
      · exact .inr ⟨_, _, rfl, rfl⟩
      · exact .inl ⟨_, _, rfl, rfl⟩

/-! ### One turn -/

/-- What one turn does, whatever was done. Only a scan that has made a table changes the table, and only a
reload that has made one is told to the listeners there are. -/
structure Steps (disk : Disk (StateM S)) (t : Turn S) : Prop where
  root : t.after.store.root = t.before.store.root
  table : t.after.store.table = (t.scanned? disk).getD t.before.store.table
  listeners : t.after.store.listeners = t.before.store.listeners + if t.listens then 1 else 0
  held : t.after.held = t.before.held ++ if t.holds then [t.before.store.table] else []
  notices : t.notices =
    ((t.reloaded? disk).map fun table => t.before.store.notices table.size).getD []

theorem steps_perform (disk : Disk (StateM S)) (s : State S) (action : Action S) :
    Steps disk (perform disk s action) := by
  cases action with
  | load =>
      rcases scan_cases disk s.store.root s.files with ⟨_, _, hwhole, hscan⟩ | ⟨_, _, hwhole, hscan⟩ <;>
      constructor <;>
      simp [perform, Turn.scanned?, Turn.listens, Turn.holds, Turn.reloaded?, Store.load_apply,
        hwhole, hscan]
  | reload =>
      rcases scan_cases disk s.store.root s.files with ⟨_, _, hwhole, hscan⟩ | ⟨_, _, hwhole, hscan⟩ <;>
      constructor <;>
      simp [perform, Turn.scanned?, Turn.listens, Turn.holds, Turn.reloaded?, Store.reload_apply,
        hwhole, hscan]
  | _ =>
      constructor <;>
      simp [perform, Store.listen, Store.snapshot, Turn.scanned?, Turn.listens, Turn.holds,
        Turn.reloaded?]

/-- A scan that succeeds gives the number of its wildcards. -/
theorem perform_of_some {disk : Disk (StateM S)} {s : State S} {action : Action S}
    (haction : action = .load ∨ action = .reload) {table : Table}
    (htable : wholeTable? disk s.store.root s.files = some table) :
    (perform disk s action).answer = .read (.ok table.size) ∧
      (perform disk s action).after.store.table = table := by
  rcases scan_cases disk s.store.root s.files with ⟨whole, _, hwhole, hscan⟩ | ⟨_, _, hwhole, -⟩
  · obtain rfl : whole = table := Option.some.inj (hwhole.symm.trans htable)
    rcases haction with rfl | rfl
    · simp [perform, Store.load_apply, hscan]
    · simp [perform, Store.reload_apply, hscan]
  · cases hwhole.symm.trans htable

/-- One that fails leaves everything as it is. -/
theorem perform_of_none {disk : Disk (StateM S)} {s : State S} {action : Action S}
    (haction : action = .load ∨ action = .reload)
    (hnone : wholeTable? disk s.store.root s.files = none) :
    (∃ e, (perform disk s action).answer = .read (.error e)) ∧
      (perform disk s action).after.store = s.store ∧ (perform disk s action).notices = [] := by
  rcases scan_cases disk s.store.root s.files with ⟨_, _, hwhole, -⟩ | ⟨e, _, -, hscan⟩
  · cases hwhole.symm.trans hnone
  · rcases haction with rfl | rfl
    · simp [perform, Store.load_apply, hscan]
    · simp [perform, Store.reload_apply, hscan]

/-! ### Many turns -/

/-- What is known of a store after some turns. -/
structure Follows (disk : Disk (StateM S)) (root : String) (initial : Table)
    (earlier : List (Turn S)) (s : State S) : Prop where
  root : s.store.root = root
  table : s.store.table = lastTable disk initial earlier
  listeners : s.store.listeners = earlier.countP Turn.listens
  held : s.held = (earlier.filter Turn.holds).map (·.before.store.table)

variable {disk : Disk (StateM S)} {root : String} {initial : Table} {earlier : List (Turn S)}
  {s : State S}

theorem Follows.concat (h : Follows disk root initial earlier s) {t : Turn S} (ht : t.before = s)
    (hsteps : Steps disk t) : Follows disk root initial (earlier ++ [t]) t.after := by
  subst ht
  refine ⟨hsteps.root.trans h.root, ?_, ?_, ?_⟩
  · rw [hsteps.table, h.table, lastTable_concat]
  · rw [hsteps.listeners, h.listeners, List.countP_append]
    simp
  · rw [hsteps.held, h.held, List.filter_append, List.map_append]
    by_cases hholds : t.holds <;> simp [hholds]

/-- What a store has come to before each turn of a run. -/
theorem Follows.turns (h : Follows disk root initial earlier s) {actions : List (Action S)}
    {front later : List (Turn S)} {t : Turn S} (hrun : turns disk s actions = front ++ t :: later) :
    Follows disk root initial (earlier ++ front) t.before ∧
      (∃ action, t = perform disk t.before action) ∧
      ∃ rest, later = Use.turns disk t.after rest := by
  -- On what is still to be done; what has been done before may be anything that is followed.
  induction actions generalizing earlier s front with
  | nil => simp [Use.turns] at hrun
  | cons action rest ih =>
      rw [Use.turns] at hrun
      cases front with
      | nil =>
          obtain ⟨rfl, rfl⟩ := List.cons.inj hrun
          rw [before_perform, List.append_nil]
          exact ⟨h, ⟨action, rfl⟩, rest, rfl⟩
      | cons first front =>
          obtain ⟨rfl, hrest⟩ := List.cons.inj hrun
          have hnext := ih (h.concat (before_perform disk s action) (steps_perform disk s action))
            hrest
          rwa [List.append_assoc] at hnext

/-- What a turn has to be behind earlier ones. -/
structure AllOrNothing (disk : Disk (StateM S)) (root : String) (initial : Table)
    (earlier : List (Turn S)) (t : Turn S) : Prop where
  /-- The table is that of the last scan that has succeeded. -/
  table : t.before.store.snapshot = lastTable disk initial earlier
  tableAfter : t.after.store.snapshot = lastTable disk initial (earlier ++ [t])
  /-- A scan that succeeds gives the number of its wildcards. -/
  succeeds : t.action = .load ∨ t.action = .reload →
    ∀ table, wholeTable? disk root t.before.files = some table →
      t.answer = .read (.ok table.size) ∧ t.after.store.snapshot = table
  /-- One that fails leaves everything as it is. -/
  fails : t.action = .load ∨ t.action = .reload →
    wholeTable? disk root t.before.files = none →
      (∃ e, t.answer = .read (.error e)) ∧ t.after.store = t.before.store ∧ t.notices = []
  /-- A reload tells all who listen by then, each once and in the order in which they came. -/
  announces : t.action = .reload →
    ∀ table, wholeTable? disk root t.before.files = some table →
      t.notices = (List.range (earlier.countP Turn.listens)).map (·, table.size)
  /-- Nothing else is told to anybody. -/
  silent : t.action ≠ .reload → t.notices = []
  listen : t.action = .listen → t.answer = .number (earlier.countP Turn.listens)
  get : ∀ name, t.action = .get name →
    t.answer = .lines ((lastTable disk initial earlier).get? name)
  hold : t.action = .hold → t.answer = .number (earlier.countP Turn.holds)
  /-- A table that was put aside is what it was then. -/
  look : ∀ first h middle, earlier = first ++ h :: middle → h.action = .hold →
    t.action = .look (first.countP Turn.holds) →
      t.answer = .table (some (lastTable disk initial first))

theorem Follows.allOrNothing (h : Follows disk root initial earlier s) (action : Action S)
    (hheld : ∀ first h middle, earlier = first ++ h :: middle →
      h.before.store.table = lastTable disk initial first) :
    AllOrNothing disk root initial earlier (perform disk s action) := by
  have hsteps := steps_perform disk s action
  have hroot := h.root
  subst hroot
  constructor
  case table => simpa [Store.snapshot] using h.table
  case tableAfter =>
    rw [lastTable_concat, Store.snapshot, hsteps.table, before_perform, h.table]
  case succeeds =>
    intro haction table htable
    rw [action_perform] at haction
    rw [before_perform] at htable
    exact perform_of_some haction htable
  case fails =>
    intro haction hnone
    rw [action_perform] at haction
    rw [before_perform] at hnone ⊢
    exact perform_of_none haction hnone
  case announces =>
    intro haction table htable
    rw [before_perform] at htable
    rw [hsteps.notices, Turn.reloaded?, haction]
    simp only [before_perform]
    rw [htable, ← h.listeners]
    rfl
  case silent =>
    intro haction
    have hnone : (perform disk s action).reloaded? disk = none := by
      rw [action_perform] at haction
      rw [Turn.reloaded?, action_perform]
      cases action <;> first | rfl | exact absurd rfl haction
    rw [hsteps.notices, hnone]
    rfl
  case listen =>
    intro haction
    rw [action_perform] at haction
    subst haction
    exact congrArg Answer.number h.listeners
  case get =>
    intro name haction
    rw [action_perform] at haction
    subst haction
    rw [← h.table]
    rfl
  case hold =>
    intro haction
    rw [action_perform] at haction
    subst haction
    have hlength : s.held.length = earlier.countP Turn.holds := by
      rw [h.held, List.length_map, List.countP_eq_length_filter]
    exact congrArg Answer.number hlength
  case look =>
    intro first h' middle hearlier hholds haction
    rw [action_perform] at haction
    subst haction
    have hheld' : s.held[first.countP Turn.holds]? = some h'.before.store.table := by
      have hthere : h'.holds := by rw [Turn.holds, hholds]
      rw [h.held, hearlier, List.filter_append, List.map_append, List.countP_eq_length_filter,
        List.filter_cons_of_pos hthere]
      simp
    have hanswer : (perform disk s (.look (first.countP Turn.holds))).answer =
        .table s.held[first.countP Turn.holds]? := rfl
    rw [hanswer, hheld', hheld first h' middle hearlier]

/-! ### What a listener is told -/

/-- What a listener is told in turns. -/
def told (n : Nat) (run : List (Turn S)) : List Nat :=
  ((run.flatMap Turn.notices).filter (·.1 = n)).map Prod.snd

theorem told_append (n : Nat) (front back : List (Turn S)) :
    told n (front ++ back) = told n front ++ told n back := by
  simp [told]

theorem told_cons (n : Nat) (t : Turn S) (rest : List (Turn S)) :
    told n (t :: rest) = told n [t] ++ told n rest := told_append n [t] rest

theorem filter_notices (s : Store) (count n : Nat) :
    (s.notices count).filter (·.1 = n) = if n < s.listeners then [(n, count)] else [] := by
  rw [Store.notices]
  induction s.listeners with
  | zero => rfl
  | succ listeners ih =>
      rw [List.range_succ, List.map_append, List.filter_append, ih]
      by_cases hlast : listeners = n
      · subst hlast
        simp
      · have hiff : n < listeners + 1 ↔ n < listeners := by omega
        simp [hlast, hiff]

/-- A listener is told of a reload if it listens by then. -/
theorem Steps.told_eq {t : Turn S} (h : Steps disk t) (n : Nat) :
    told n [t] = if n < t.before.store.listeners then
      ((t.reloaded? disk).map Table.size).toList else [] := by
  have hnotices : told n [t] = (t.notices.filter (·.1 = n)).map Prod.snd := by simp [told]
  rw [hnotices, h.notices]
  cases t.reloaded? disk with
  | none => simp
  | some table =>
      simp only [Option.map_some, Option.getD_some, filter_notices]
      split <;> rfl

/-- Who listens is told of every reload from then on, once and in turn. -/
theorem told_turns {n : Nat} (hn : n < s.store.listeners) (actions : List (Action S)) :
    told n (turns disk s actions) =
      ((turns disk s actions).filterMap (Turn.reloaded? disk)).map Table.size := by
  induction actions generalizing s with
  | nil => rfl
  | cons action rest ih =>
      have hsteps := steps_perform disk s action
      have hmore : n < (perform disk s action).after.store.listeners := by
        rw [hsteps.listeners, before_perform]
        omega
      rw [turns, told_cons, hsteps.told_eq, before_perform, if_pos hn, ih hmore]
      cases hreload : (perform disk s action).reloaded? disk <;> simp [hreload]

/-- Who does not listen yet is told nothing. -/
theorem told_of_forall_le (disk : Disk (StateM S)) {n : Nat} {run : List (Turn S)}
    (h : ∀ t ∈ run, Steps disk t ∧ t.before.store.listeners ≤ n) : told n run = [] := by
  induction run with
  | nil => rfl
  | cons t rest ih =>
      obtain ⟨hsteps, hle⟩ := h t List.mem_cons_self
      rw [told_cons, hsteps.told_eq, if_neg (by omega),
        ih fun other hother => h other (List.mem_cons_of_mem t hother)]
      rfl

theorem follows_withTable (disk : Disk (StateM S)) (root : String) (initial : Table) (files : S) :
    Follows disk root initial [] ⟨.withTable root initial, files, []⟩ :=
  ⟨rfl, rfl, rfl, rfl⟩

end Use

open Use

variable {S : Type}

/-- Whatever is done with a store over wildcards in memory, and however its files change between, its table is
at all times that of the last scan that has succeeded, as a whole. A scan that fails is seen by nobody. Every
reload that succeeds tells the number that it returns to all who listen by then, once and in the order in
which they came, and nothing else is told to anybody, so that a listener hears of exactly the reloads behind
its own turn. A table that was put aside stays what it was. -/
theorem reload_is_all_or_nothing (disk : Disk (StateM S)) (root : String) (initial : Table) (files : S)
    (actions : List (Action S)) {earlier later : List (Turn S)} {t : Turn S}
    (hrun : turns disk ⟨.withTable root initial, files, []⟩ actions = earlier ++ t :: later) :
    AllOrNothing disk root initial earlier t ∧
      (t.action = .listen → told (earlier.countP Turn.listens) (earlier ++ t :: later) =
        (later.filterMap (Turn.reloaded? disk)).map Table.size) := by
  have hstart := follows_withTable disk root initial files
  obtain ⟨hfollows, ⟨action, ht⟩, rest, hlater⟩ := hstart.turns hrun
  rw [List.nil_append] at hfollows
  have hbefore {first middle : List (Turn S)} {u : Turn S} (hearlier : earlier = first ++ u :: middle) :
      Follows disk root initial first u.before ∧ Steps disk u := by
    have hsplit : earlier ++ t :: later = first ++ u :: (middle ++ t :: later) := by
      rw [hearlier, List.append_assoc]
      rfl
    obtain ⟨hfirst, ⟨_, hu⟩, -⟩ := hstart.turns (hrun.trans hsplit)
    exact ⟨hfirst, hu ▸ steps_perform disk u.before _⟩
  have hsteps : Steps disk t := ht ▸ steps_perform disk t.before action
  constructor
  · rw [ht]
    exact hfollows.allOrNothing action fun first h middle hearlier => (hbefore hearlier).1.table
  · intro hlisten
    -- Before its own turn no one has the listener's number.
    have hquiet : told (earlier.countP Turn.listens) earlier = [] := by
      refine told_of_forall_le disk fun u hu => ?_
      obtain ⟨first, middle, hearlier⟩ := List.append_of_mem hu
      obtain ⟨hfirst, husteps⟩ := hbefore hearlier
      refine ⟨husteps, ?_⟩
      rw [hfirst.listeners, hearlier, List.countP_append]
      omega
    have hnone : t.reloaded? disk = none := by rw [Turn.reloaded?, hlisten]
    have hheard : earlier.countP Turn.listens < t.after.store.listeners := by
      have hthere : t.listens = true := by rw [Turn.listens, hlisten]
      rw [hsteps.listeners, hfollows.listeners, hthere]
      simp
    rw [told_append, told_cons, hquiet, hsteps.told_eq, hnone, hlater, told_turns hheard]
    simp

/-- A directory of one file is read before anybody listens and its table is put aside. Then it has other files,
cannot be read twice, and has none. -/
theorem reload_is_all_or_nothing_changing_files :
    let disk : Disk (StateM (Option (List (String × Bytes)))) :=
      { holds := fun _ files => (files.isSome, files)
        read := fun _ files => (none, files)
        write := fun _ _ files => (false, files)
        makeDirectory := fun _ files => (true, files)
        filesIn := fun _ files => (files, files) }
    let one : List (String × Bytes) := [("a.txt", [0x78])]
    let two : List (String × Bytes) := [("b.txt", [0x79]), ("c.txt", [0x7A])]
    let actions : List (Action (Option (List (String × Bytes)))) :=
      [.change fun _ => some two, .reload, .change fun _ => none, .reload, .load, .listen,
        .change fun _ => some [], .reload, .look 0]
    let run := turns disk ⟨.withTable "w" .empty, some one, []⟩ (.load :: .hold :: .listen :: actions)
    ∃ earlier t later, run = earlier ++ t :: later ∧ t.action = .listen ∧
      t.before.store.snapshot = .ofFiles one ∧ told 0 run = [2, 0] := by
  intro disk one two actions run
  let loaded := perform disk ⟨.withTable "w" .empty, some one, []⟩ .load
  let kept := perform disk loaded.after .hold
  let t := perform disk kept.after .listen
  have hrun : run = [loaded, kept] ++ t :: turns disk t.after actions := rfl
  obtain ⟨hturn, htold⟩ := reload_is_all_or_nothing disk "w" .empty (some one) _ hrun
  refine ⟨_, _, _, hrun, rfl, hturn.table, ?_⟩
  rw [hrun]
  refine (htold rfl).trans ?_
  decide +kernel

end PromptWeave.Wildcard
