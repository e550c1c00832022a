import PromptWeave.Decimal.Text
import PromptWeave.Pattern.AsciiClass
import PromptWeave.Pattern.Property.Lookup
import PromptWeave.Pattern.Tree
import PromptWeave.Text.Blank
import PromptWeave.Text.Letter
import PromptWeave.Words

/-!
# Reading a pattern

A pattern is read from left to right. The open groups are kept in a list, the innermost first. Of
the flags only one bears on reading: in a verbose pattern blanks and comments are passed over. It
holds to the end of the group in which it is set.
-/
namespace PromptWeave.Pattern

open PromptWeave.Text

/-- Drops blanks and comments. -/
def dropBlank (inComment : Bool) : List Char → List Char
  | [] => []
  | c :: rest =>
      if inComment then dropBlank (c != '\n') rest
      else if isBlank c then dropBlank false rest
      else if c == '#' then dropBlank true rest
      else c :: rest

/-- What is left to read. -/
def skip (verbose : Bool) (cs : List Char) : List Char :=
  if verbose then dropBlank false cs else cs

/-- The next character past blanks and one number sign. -/
def pastMark (marked : Bool) : List Char → Option Char
  | [] => none
  | c :: rest =>
      if isBlank c then pastMark marked rest
      else if c == '#' && !marked then pastMark true rest
      else some c

/-- The character after a hyphen in a class, which tells whether the hyphen makes a range. -/
def glance (verbose : Bool) (cs : List Char) : Option Char :=
  if verbose then (pastMark false cs).orElse fun _ => cs.head? else cs.head?

/-- What an escape stands for. -/
inductive Item where
  | char (w : Written)
  | members (m : Members)
  | spot (s : Spot)

/-- The value of a hexadecimal digit. -/
def hexValue? (c : Char) : Option Nat :=
  if c.isDigit then some (c.toNat - '0'.toNat)
  else if 'a' ≤ c ∧ c ≤ 'f' then some (c.toNat - 'a'.toNat + 10)
  else if 'A' ≤ c ∧ c ≤ 'F' then some (c.toNat - 'A'.toNat + 10)
  else none

/-- The character with the code point that hexadecimal digits write. -/
def charOfHex? (digits : List Char) : Option Char := do
  let values ← digits.mapM hexValue?
  let n := values.foldl (fun n d => n * 16 + d) 0
  if digits.isEmpty || !n.isValidChar then none else some (Char.ofNat n)

/-- The characters up to a closing brace, and what comes after it. -/
def upToBrace (verbose : Bool) : (room : Nat) → List Char → Option (List Char × List Char)
  | 0, _ => none
  | room + 1, cs =>
      match skip verbose cs with
      | [] => none
      | '}' :: rest => some ([], rest)
      | c :: rest => (upToBrace verbose room rest).map fun (name, after) => (c :: name, after)

/-- A fixed number of characters. -/
def takeSkipping (verbose : Bool) : (count : Nat) → List Char → Option (List Char × List Char)
  | 0, cs => some ([], cs)
  | count + 1, cs =>
      match skip verbose cs with
      | [] => none
      | c :: rest =>
          (takeSkipping verbose count rest).map fun (taken, after) => (c :: taken, after)

/-- Reads a code point in hexadecimal digits: `count` of them, or any number of them in braces. -/
def readHex (verbose : Bool) (count : Nat) (cs : List Char) : Option (Item × List Char) :=
  match skip verbose cs with
  | '{' :: rest => do
      let (digits, after) ← upToBrace verbose (rest.length + 1) rest
      return (.char { char := ← charOfHex? digits }, skip verbose after)
  | cs => do
      let (digits, after) ← takeSkipping verbose count cs
      return (.char { char := ← charOfHex? digits, asByte := count == 2 }, skip verbose after)

/-- Reads the name of a property, one letter or a name in braces. -/
def readProperty (verbose negated : Bool) (cs : List Char) : Option (Item × List Char) :=
  match skip verbose cs with
  | [] => none
  | '{' :: rest => do
      let (name, after) ← upToBrace verbose (rest.length + 1) rest
      let (inverse, set) ← Property.ofText? name
      return (.members (.property (negated != inverse) set), after)
  | c :: rest => do
      return (.members (.property negated (← Property.named? (Property.plainName [c]))), rest)

/-- The edges of words that are named in braces. -/
def edgeOfName? (name : List Char) : Option Edge :=
  match String.ofList name with
  | "start" => some .start
  | "end" => some .stop
  | "start-half" => some .startHalf
  | "end-half" => some .stopHalf
  | _ => none

/-- Reads what follows the escape of a word boundary: the name of an edge in braces, or nothing. A
brace before anything but a letter begins a repetition. -/
def readBoundary (verbose : Bool) (cs : List Char) : Option (Item × List Char) :=
  match cs with
  | '{' :: rest =>
      match skip verbose rest with
      | [] => none
      | c :: _ =>
          if c.isAlpha || c == '-' then do
            let (name, after) ← upToBrace verbose (rest.length + 1) rest
            return (.spot (.edge (← edgeOfName? name)), after)
          else some (.spot (.edge .boundary), cs)
  | _ => some (.spot (.edge .boundary), cs)

/-- The characters that stand for themselves after a backslash. -/
def isEscapable (c : Char) : Bool := c.toNat < 128 && !c.isAlphanum && c != '<' && c != '>'

/-- Reads an escape after its backslash. -/
def readEscape (verbose : Bool) : List Char → Option (Item × List Char)
  | [] => none
  | c :: rest =>
      let char (c : Char) : Option (Item × List Char) := some (.char { char := c }, rest)
      let letter (negated : Bool) (l : ClassLetter) : Option (Item × List Char) :=
        some (.members (.letter negated l), rest)
      if isEscapable c then char c
      else
        match c with
        | 'x' => readHex verbose 2 rest
        | 'u' => readHex verbose 4 rest
        | 'U' => readHex verbose 8 rest
        | 'p' => readProperty verbose false rest
        | 'P' => readProperty verbose true rest
        | 'd' => letter false .digit
        | 'D' => letter true .digit
        | 's' => letter false .space
        | 'S' => letter true .space
        | 'w' => letter false .word
        | 'W' => letter true .word
        | 'a' => char '\x07'
        | 'f' => char '\x0c'
        | 't' => char '\t'
        | 'n' => char '\n'
        | 'r' => char '\r'
        | 'v' => char '\x0b'
        | 'A' => some (.spot .textStart, rest)
        | 'z' => some (.spot .textStop, rest)
        | 'b' => readBoundary verbose rest
        | 'B' => some (.spot (.edge .noBoundary), rest)
        | '<' => some (.spot (.edge .start), rest)
        | '>' => some (.spot (.edge .stop), rest)
        | _ => none

/-- A class that has not been closed. -/
structure OpenClass where
  negated : Bool
  /-- The left side of an operator and the operator, if one has been read. -/
  pending : Option (Members × SetOp)
  /-- The members since the last operator, back to front. -/
  parts : List Members

namespace OpenClass

/-- Adds members. -/
def add (k : OpenClass) (m : Members) : OpenClass := { k with parts := m :: k.parts }

/-- What has been read, with the last operator applied. -/
def combined (k : OpenClass) : Members :=
  let right := Members.ofParts k.parts.reverse
  match k.pending with
  | none => right
  | some (left, op) => .combined op left right

/-- Reads an operator. -/
def operator (k : OpenClass) (op : SetOp) : OpenClass :=
  { k with pending := some (k.combined, op), parts := [] }

/-- The class. -/
def close (k : OpenClass) : Members := .brackets k.negated k.combined

end OpenClass

/-- Reads the start of a class after its bracket: a caret, hyphens, a bracket that comes first. -/
def openClass (verbose : Bool) (cs : List Char) : Option (OpenClass × List Char) :=
  let (negated, cs) :=
    match skip verbose cs with
    | '^' :: rest => (true, skip verbose rest)
    | cs => (false, cs)
  let (hyphens, cs) := hyphensFrom [] cs.length cs
  match cs with
  | [] => none
  | ']' :: rest =>
      if hyphens.isEmpty then some (⟨negated, none, [.char { char := ']' }]⟩, skip verbose rest)
      else some (⟨negated, none, hyphens⟩, cs)
  | _ => some (⟨negated, none, hyphens⟩, cs)
where
  /-- Takes hyphens. -/
  hyphensFrom (taken : List Members) : (room : Nat) → List Char → List Members × List Char
    | room + 1, '-' :: rest =>
        hyphensFrom (.char { char := '-' } :: taken) room (skip verbose rest)
    | _, cs => (taken, cs)

/-- Reads a class that is named between colons, after its bracket. -/
def readNamedClass (cs : List Char) : Option (Members × List Char) :=
  match cs with
  | ':' :: rest =>
      let (negated, rest) := match rest with
        | '^' :: rest => (true, rest)
        | _ => (false, rest)
      match rest.dropWhile (· != ':') with
      | ':' :: ']' :: after =>
          (asciiClass? (String.ofList (rest.takeWhile (· != ':')))).map fun s =>
            (.ascii negated s, after)
      | _ => none
  | _ => none

/-- Reads one item of a class: an escape or a character. -/
def readClassItem (verbose : Bool) : List Char → Option (Item × List Char)
  | [] => none
  | '\\' :: rest => readEscape verbose rest
  | c :: rest => some (.char { char := c }, rest)

/-- Reads one item of a class, or a range between two characters. -/
def readClassRange (verbose : Bool) (cs : List Char) : Option (Members × List Char) := do
  let (first, rest) ← readClassItem verbose cs
  let rest := skip verbose rest
  let alone : Option (Members × List Char) := match first with
    | .char w => some (.char w, rest)
    | .members m => some (m, rest)
    | .spot _ => none
  match rest with
  | [] => none
  | '-' :: more =>
      let next := glance verbose more
      if next == some ']' || next == some '-' then alone
      else
        let (last, rest) ← readClassItem verbose (skip verbose more)
        match first, last with
        | .char a, .char b => if a.char ≤ b.char then some (.range a b, rest) else none
        | _, _ => none
  | _ => alone

/-- Reads classes up to the bracket that closes the outermost one. `outer` holds the classes around
the class `k`, the innermost first. -/
def readClass (verbose : Bool) :
    (room : Nat) → (outer : List OpenClass) → OpenClass → List Char → Option (Members × List Char)
  | 0, _, _, _ => none
  | room + 1, outer, k, cs =>
      match skip verbose cs with
      | [] => none
      | ']' :: rest =>
          match outer with
          | [] => some (k.close, rest)
          | o :: outer => readClass verbose room outer (o.add k.close) rest
      | '[' :: rest =>
          match readNamedClass rest with
          | some (m, rest) => readClass verbose room outer (k.add m) rest
          | none =>
              match openClass verbose rest with
              | some (inner, rest) => readClass verbose room (k :: outer) inner rest
              | none => none
      | '&' :: '&' :: rest => readClass verbose room outer (k.operator .inter) rest
      | '-' :: '-' :: rest => readClass verbose room outer (k.operator .diff) rest
      | '~' :: '~' :: rest => readClass verbose room outer (k.operator .symmDiff) rest
      | cs =>
          match readClassRange verbose cs with
          | some (m, rest) => readClass verbose room outer (k.add m) rest
          | none => none

/-- The branches and parts that have been read of a group, back to front. -/
structure Scope where
  branches : List Tree := []
  parts : List Tree := []

namespace Scope

/-- Adds a part. -/
def add (s : Scope) (t : Tree) : Scope := { s with parts := t :: s.parts }

/-- The parts of the branch at hand as one. -/
def branch (s : Scope) : Tree :=
  match s.parts with
  | [] => .nothing
  | [t] => t
  | parts => .sequence parts.reverse

/-- Begins another branch. -/
def alternate (s : Scope) : Scope := ⟨s.branch :: s.branches, []⟩

/-- All branches as one. -/
def close (s : Scope) : Tree :=
  match s.branches with
  | [] => s.branch
  | branches => .choice (s.branch :: branches).reverse

end Scope

/-- A group that has not been closed: its number and its flags, and how the pattern around it is
read. -/
structure OpenGroup where
  number : Option Nat
  changes : Switches
  verbose : Bool
  scope : Scope

/-- What has been read of a pattern. -/
structure ReadState where
  verbose : Bool := false
  scope : Scope := {}
  outer : List OpenGroup := []
  /-- How many groups are remembered. -/
  groups : Nat := 0
  names : List (String × Nat) := []

/-- Whether a pattern is verbose after changes. -/
def verboseAfter (verbose : Bool) (changes : Switches) : Bool :=
  (changes.lookup .verbose).getD verbose

namespace ReadState

/-- Adds a part. -/
def add (s : ReadState) (t : Tree) : ReadState := { s with scope := s.scope.add t }

/-- Opens a group. -/
def push (s : ReadState) (number : Option Nat) (changes : Switches) : ReadState :=
  { s with
    scope := {}, outer := ⟨number, changes, s.verbose, s.scope⟩ :: s.outer
    verbose := verboseAfter s.verbose changes }

/-- Opens a group that is remembered. -/
def pushNumbered (s : ReadState) : ReadState :=
  { s.push (some (s.groups + 1)) [] with groups := s.groups + 1 }

/-- Closes a group. -/
def pop? (s : ReadState) : Option ReadState :=
  match s.outer with
  | [] => none
  | g :: outer =>
      some { s with
        scope := g.scope.add (.group g.number g.changes s.scope.close), outer
        verbose := g.verbose }

/-- Repeats the last part. A change of flags cannot be repeated. -/
def repeatLast? (s : ReadState) (least : Nat) (most : Option Nat) (greedy : Bool) :
    Option ReadState :=
  match s.scope.parts with
  | [] => none
  | .flags _ :: _ => none
  | t :: parts =>
      some { s with scope := { s.scope with parts := .repeated least most greedy t :: parts } }

end ReadState

/-- Reads the letters of flags up to a colon or a closing parenthesis: the changes, back to front in
`read`, and whether a colon follows. `last` is the character before, and no letter may be there
twice. -/
def readFlags (on : Bool) (last : Option Char) (read : Switches) :
    List Char → Option (Switches × Bool × List Char)
  | [] => none
  | c :: rest =>
      if c == ':' || c == ')' then
        if last == some '-' then none else some (read.reverse, c == ':', rest)
      else if c == '-' then if on then readFlags false (some c) read rest else none
      else
        match Switch.ofLetter? c with
        | none => none
        | some f =>
            if (read.lookup f).isSome then none else readFlags on (some c) ((f, on) :: read) rest

/-- Whether a character may stand in the name of a group. -/
def isNamePart (isFirst : Bool) (c : Char) : Bool :=
  c == '_' || (if isFirst then isLetter c
    else c == '.' || c == '[' || c == ']' || isLetterOrNumber c)

/-- Reads the name of a group up to the angle bracket that closes it. -/
def readGroupName (cs : List Char) : Option (String × List Char) :=
  let name := cs.takeWhile (· != '>')
  match name, cs.dropWhile (· != '>') with
  | c :: more, _ :: rest =>
      if isNamePart true c && more.all (isNamePart false) then some (String.ofList name, rest)
      else none
  | _, _ => none

/-- Opens a group that is remembered under a name. -/
def openNamed (s : ReadState) (cs : List Char) : Option (ReadState × List Char) := do
  let (name, rest) ← readGroupName cs
  if (s.names.map (·.1)).contains name then none
  let s := s.pushNumbered
  return ({ s with names := (name, s.groups) :: s.names }, rest)

/-- Opens a group after its parenthesis, or sets flags. -/
def readGroupStart (s : ReadState) (cs : List Char) : Option (ReadState × List Char) :=
  match skip s.verbose cs with
  | '?' :: '=' :: _ => none
  | '?' :: '!' :: _ => none
  | '?' :: '<' :: '=' :: _ => none
  | '?' :: '<' :: '!' :: _ => none
  | '?' :: 'P' :: '<' :: rest => openNamed s rest
  | '?' :: '<' :: rest => openNamed s rest
  | '?' :: rest => do
      let (changes, opens, rest) ← readFlags true none [] rest
      if opens then some (s.push none changes, rest)
      else if changes.isEmpty then none
      else some ({ s.add (.flags changes) with verbose := verboseAfter s.verbose changes }, rest)
  | cs => some (s.pushNumbered, cs)

/-- Reads a question mark that makes a repetition take as little as it can. -/
def readLazy (cs : List Char) : Bool × List Char :=
  match cs with
  | '?' :: rest => (false, rest)
  | _ => (true, cs)

/-- Reads a number with blanks around it. -/
def readCount (verbose : Bool) (cs : List Char) : Option (Nat × List Char) :=
  let cs := cs.dropWhile isBlank
  let (digits, rest) := digitsFrom [] cs.length cs
  let n := Decimal.digitsValue digits
  if digits.isEmpty || words32 ≤ n then none
  else some (n, skip verbose (rest.dropWhile isBlank))
where
  /-- Takes digits, back to front in `read`. -/
  digitsFrom (read : List Char) : (room : Nat) → List Char → List Char × List Char
    | room + 1, c :: rest =>
        if c.isDigit then digitsFrom (c :: read) room (skip verbose rest)
        else (read.reverse, c :: rest)
    | _, cs => (read.reverse, cs)

/-- Reads the bounds of a repetition after their brace. -/
def readBounds (verbose : Bool) (cs : List Char) : Option (Nat × Option Nat × List Char) := do
  let (least, rest) ← readCount verbose (skip verbose cs)
  match rest with
  | '}' :: rest => some (least, some least, rest)
  | ',' :: rest =>
      match skip verbose rest with
      | '}' :: rest => some (least, none, rest)
      | rest =>
          let (most, rest) ← readCount verbose rest
          match rest with
          | '}' :: rest => if most < least then none else some (least, some most, rest)
          | _ => none
  | _ => none

/-- Reads the part that begins with the character `c`. -/
def readPart (s : ReadState) (c : Char) (rest : List Char) : Option (ReadState × List Char) := do
  match c with
  | '(' => readGroupStart s rest
  | ')' => return (← s.pop?, rest)
  | '|' => return ({ s with scope := s.scope.alternate }, rest)
  | '[' =>
      let (k, inside) ← openClass s.verbose rest
      let (m, rest) ← readClass s.verbose (inside.length + 1) [] k inside
      return (s.add (.members m), rest)
  | '?' =>
      let (greedy, rest) := readLazy rest
      return (← s.repeatLast? 0 (some 1) greedy, rest)
  | '*' =>
      let (greedy, rest) := readLazy rest
      return (← s.repeatLast? 0 none greedy, rest)
  | '+' =>
      let (greedy, rest) := readLazy rest
      return (← s.repeatLast? 1 none greedy, rest)
  | '{' =>
      let (least, most, rest) ← readBounds s.verbose rest
      let (greedy, rest) := readLazy (skip s.verbose rest)
      return (← s.repeatLast? least most greedy, rest)
  | '.' => return (s.add .dot, rest)
  | '^' => return (s.add (.spot .caret), rest)
  | '$' => return (s.add (.spot .dollar), rest)
  | '\\' =>
      match ← readEscape s.verbose rest with
      | (.char w, rest) => return (s.add (.char w), rest)
      | (.members m, rest) => return (s.add (.members m), rest)
      | (.spot p, rest) => return (s.add (.spot p), rest)
  | c => return (s.add (.char { char := c }), rest)

/-- Reads parts to the end. `room` bounds their number. -/
def readParts : (room : Nat) → ReadState → List Char → Option ReadState
  | 0, _, _ => none
  | room + 1, s, cs =>
      match skip s.verbose cs with
      | [] => if s.outer.isEmpty then some s else none
      | c :: rest =>
          match readPart s c rest with
          | some (s, rest) => readParts room s rest
          | none => none

/-- How deep a pattern may be nested. -/
def maxNesting : Nat := 250

/-- What a text says as a pattern: its tree, and the names of its groups with their numbers. -/
structure Reading where
  tree : Tree
  names : List (String × Nat)

/-- Reads a pattern. -/
def read? (text : String) : Option Reading := do
  let cs := text.toList
  let s ← readParts (cs.length + 1) {} cs
  let tree := s.scope.close
  if tree.fits maxNesting then some ⟨tree, s.names⟩ else none

end PromptWeave.Pattern
