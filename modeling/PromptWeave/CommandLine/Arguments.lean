import PromptWeave.Decimal.Text
import PromptWeave.Text.Pieces
import PromptWeave.Words

/-!
# Arguments of a command

Arguments give options and texts. An option has a long name after two dashes and may have a letter
after one; letters may be run together. The value of an option comes after an equals sign, right
after its letter, or as the next argument, which then may not begin with a dash. After two dashes
that stand alone everything is text.
-/
namespace PromptWeave.CommandLine

/-- The options. -/
inductive Setting where
  | config
  | wildcards
  | seed
  | verbose
  | help
  | version
  | request
  | session
  | json
  | file
  | tags
  deriving Repr, DecidableEq

/-- What the value of an option has to be. -/
inductive ValueKind where
  /-- The path of a file or a directory; it is not empty. -/
  | path
  /-- A natural number of 64 bits. -/
  | word
  | text
  deriving Repr, DecidableEq

namespace Setting

/-- The long name of an option. -/
def name : Setting → String
  | config => "config"
  | wildcards => "wildcards"
  | seed => "seed"
  | verbose => "verbose"
  | help => "help"
  | version => "version"
  | request => "request"
  | session => "session"
  | json => "json"
  | file => "file"
  | tags => "tags"

/-- The letter of an option. -/
def letter? : Setting → Option Char
  | config => some 'c'
  | wildcards => some 'w'
  | verbose => some 'v'
  | help => some 'h'
  | version => some 'V'
  | _ => none

/-- The kind of value that an option has; some have none. -/
def valueKind? : Setting → Option ValueKind
  | config | wildcards | request | session | file => some .path
  | seed => some .word
  | tags => some .text
  | verbose | help | version | json => none

/-- Whether an option may be given more than once to a command. -/
def isRepeatable (s : Setting) : Bool := s == tags

end Setting

/-- Why no command is carried out. -/
inductive Refusal where
  /-- The arguments are wrong. -/
  | misuse
  | helpWanted
  | versionWanted
  deriving Repr, DecidableEq

/-- The number that a text writes: digits, with a plus in front of them at most. -/
def readWord? (text : String) : Option UInt64 :=
  let digits := match text.toList with
    | '+' :: rest => rest
    | cs => cs
  let value := Decimal.digitsValue digits
  if digits.isEmpty || !digits.all Char.isDigit || words64 ≤ value then none
  else some (UInt64.ofNat value)

/-- Whether a text can be a value of a kind. -/
def ValueKind.admits : ValueKind → String → Bool
  | path, value => !value.isEmpty
  | word, value => (readWord? value).isSome
  | text, _ => true

/-- What has been given to a command. -/
structure Given where
  /-- The options with their values, in order; those without a value have an empty one. -/
  options : List (Setting × String)
  texts : List String
  deriving Repr, DecidableEq

namespace Given

/-- Nothing. -/
def empty : Given := ⟨[], []⟩

/-- The values of an option. -/
def values (g : Given) (s : Setting) : List String :=
  (g.options.filter (·.1 == s)).map (·.2)

/-- The value of an option. -/
def value? (g : Given) (s : Setting) : Option String := (g.values s).head?

/-- Whether an option has been given. -/
def has (g : Given) (s : Setting) : Bool := !(g.values s).isEmpty

/-- Takes an option that has no value. -/
def setFlag (g : Given) (s : Setting) : Except Refusal Given :=
  match s with
  | .help => .error .helpWanted
  | .version => .error .versionWanted
  | _ => if g.has s then .error .misuse else .ok { g with options := g.options ++ [(s, "")] }

/-- Takes an option with a value. -/
def setValue (g : Given) (s : Setting) (kind : ValueKind) (value : String) :
    Except Refusal Given :=
  if !kind.admits value || (g.has s && !s.isRepeatable) then .error .misuse
  else .ok { g with options := g.options ++ [(s, value)] }

end Given

/-- What an argument looks like. -/
inductive Shape where
  /-- Two dashes. -/
  | separator
  /-- A long name, with what comes after an equals sign. -/
  | long (name : String) (attached : Option String)
  /-- Letters after a dash. -/
  | letters (cs : List Char)
  | text
  deriving Repr, DecidableEq

/-- What an argument looks like. A dash that stands alone is text. -/
def Shape.ofArgument (argument : String) : Shape :=
  match argument.toList with
  | ['-', '-'] => separator
  | '-' :: '-' :: rest =>
      let name := String.ofList rest
      match Text.splitOnce? '=' name with
      | some (name, value) => long name (some value)
      | none => long name none
  | '-' :: c :: rest => letters (c :: rest)
  | _ => text

/-- What reading an option gives: what has been given with it, and the option and its kind of value
if the value is still to come. -/
abbrev OptionRead := Except Refusal (Given × Option (Setting × ValueKind))

/-- Reads an option with a long name. -/
def readLong (allowed : List Setting) (g : Given) (name : String) (attached : Option String) :
    OptionRead :=
  match allowed.find? (·.name == name) with
  | none => .error .misuse
  | some s =>
      match s.valueKind?, attached with
      | none, none => (·, none) <$> g.setFlag s
      | none, some _ => .error .misuse
      | some kind, some value => (·, none) <$> g.setValue s kind value
      | some kind, none => .ok (g, some (s, kind))

/-- Reads options with letters that are run together. What comes after the letter of an option with
a value is its value. -/
def readLetters (allowed : List Setting) (g : Given) : List Char → OptionRead
  | [] => .ok (g, none)
  | c :: rest =>
      match allowed.find? (·.letter? == some c) with
      | none => .error .misuse
      | some s =>
          match s.valueKind?, rest with
          | none, rest => (g.setFlag s).bind (readLetters allowed · rest)
          | some kind, [] => .ok (g, some (s, kind))
          | some kind, '=' :: value => (·, none) <$> g.setValue s kind (String.ofList value)
          | some kind, value => (·, none) <$> g.setValue s kind (String.ofList value)

/-- What a command takes: options, a number of texts, and the names of further commands. -/
structure Signature where
  allowed : List Setting
  texts : Nat
  commands : List String

namespace Signature

/-- Takes a text. -/
def addText (sig : Signature) (g : Given) (text : String) : Except Refusal Given :=
  if g.texts.length < sig.texts then .ok { g with texts := g.texts ++ [text] } else .error .misuse

/-- Takes texts. -/
def addTexts (sig : Signature) (g : Given) (texts : List String) : Except Refusal Given :=
  texts.foldlM sig.addText g

/-- What reading the arguments of a command gives: what has been given to it, and the name of a
further command with the arguments after it. -/
abbrev Reading := Except Refusal (Given × Option (String × List String))

/-- Reads the arguments of a command up to the name of a further command. -/
def read (sig : Signature) (g : Given) : List String → Reading
  | [] => .ok (g, none)
  | argument :: rest =>
      match Shape.ofArgument argument with
      | .separator => (·, none) <$> sig.addTexts g rest
      | .long name attached => proceed (readLong sig.allowed g name attached) rest
      | .letters cs => proceed (readLetters sig.allowed g cs) rest
      | .text =>
          if sig.commands.contains argument then .ok (g, some (argument, rest))
          else (sig.addText g argument).bind (sig.read · rest)
where
  /-- Reads on after an option, whose value may be the next argument. -/
  proceed (option : OptionRead) (rest : List String) : Reading :=
    match option with
    | .error e => .error e
    | .ok (g, none) => sig.read g rest
    | .ok (g, some (s, kind)) =>
        match rest with
        | [] => .error .misuse
        | value :: rest =>
            if Shape.ofArgument value = .text then
              (g.setValue s kind value).bind (sig.read · rest)
            else .error .misuse

end Signature
end PromptWeave.CommandLine
