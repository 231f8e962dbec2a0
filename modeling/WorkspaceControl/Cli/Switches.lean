import WorkspaceControl.Decimal.Digits
import WorkspaceControl.Text.Parts

/-!
# Switches and words of a command line

One level of a command line is read word by word. A word that begins with dashes is a switch: a long
one by its name, or short ones in a row. A switch may take a value, attached to it or as the next
word. After a bare `--` nothing is a switch. Any other word is a positional, or, at a level that has
branches, the name of the branch that the rest of the words belong to.

A value in a word of its own is only checked when something else has been seen after it. So at a
level with branches a faulty value is noticed after the branch has been read, and help that is asked
for in the branch comes first.
-/

namespace WorkspaceControl.Cli

/-- What a switch takes. -/
inductive Takes where
  /-- Nothing, and at most once. -/
  | nothing
  /-- One text, at most once. -/
  | text
  /-- One natural number below 2⁶⁴, at most once. -/
  | number
  /-- A text each time it is given. -/
  | texts
  deriving DecidableEq, Repr

structure Switch where
  long : String
  short : Option Char
  takes : Takes
  deriving DecidableEq, Repr

/-- Why the words of a level are not read to their end. -/
inductive Halt where
  /-- The words are not those of a command. -/
  | usage
  | help
  deriving DecidableEq, Repr

/-- How many positionals a level takes, if it takes them before a bare `--`. -/
inductive Words where
  /-- Any word is the name of a branch. -/
  | branches
  /-- At most so many words; what follows a bare `--` counts among them. -/
  | upTo (count : Nat)
  | any
  /-- At most so many words, and a command of its own after a bare `--`. -/
  | beforeCommand (count : Nat)
  deriving DecidableEq, Repr

/-- One level of a command line. -/
structure Level where
  switches : List Switch
  words : Words
  deriving DecidableEq, Repr

/-- The values given for switches, by the long names of these. -/
abbrev Given := List (String × String)

/-- What has been read of a level: values that were checked, a switch whose value is still due or
unchecked, and the positionals. -/
structure Progress where
  given : Given
  pending : Option (Switch × Option String)
  words : List String

/-- Nothing has been read. -/
def Progress.start : Progress := ⟨[], none, []⟩

/-- The number of a text, if it is below 2⁶⁴. -/
def number? (text : String) : Option Nat :=
  match Decimal.read? text.toList with
  | some n => if n < 0x10000000000000000 then some n else none
  | none => none

/-- Whether a value is one that a switch takes. -/
def Takes.accepts (t : Takes) (value : String) : Bool :=
  match t with
  | number => (number? value).isSome
  | nothing | text | texts => true

namespace Progress

/-- Adds a checked value. -/
def give (p : Progress) (s : Switch) (value : String) : Except Halt Progress :=
  let repeated := s.takes ≠ .texts ∧ (p.given.lookup s.long).isSome
  if repeated ∨ ¬s.takes.accepts value then .error .usage
  else .ok { p with given := p.given ++ [(s.long, value)] }

/-- Checks the value that is still unchecked. A value that is still due is missing. -/
def settle (p : Progress) : Except Halt Progress :=
  match p.pending with
  | none => .ok p
  | some (_, none) => .error .usage
  | some (s, some value) => { p with pending := none }.give s value

/-- Adds a value that was attached to its switch. -/
def attach (p : Progress) (s : Switch) (value : String) : Except Halt Progress := do
  (← p.settle).give s value

/-- Waits for the value of a switch in the next word. -/
def await (p : Progress) (s : Switch) : Except Halt Progress := do
  return { (← p.settle) with pending := some (s, none) }

/-- Gives help, after the value that is still unchecked. -/
def help (p : Progress) : Except Halt Progress := p.settle >>= fun _ => .error .help

end Progress

/-- The name of the switch that asks for help. -/
def helpName : String := "help"

/-- The letter of the switch that asks for help. -/
def helpLetter : Char := 'h'

namespace Level

/-- Reads a long switch after its dashes. -/
def readLong (level : Level) (p : Progress) (text : List Char) : Except Halt Progress :=
  let (name, attached) := Parts.divide '=' text
  let name := String.ofList name
  let attached := attached.map String.ofList
  match level.switches.find? (·.long = name), attached with
  | some s, attached =>
    if s.takes = .nothing then
      match attached with
      | none => p.attach s ""
      | some _ => .error .usage
    else
      match attached with
      | none => p.await s
      | some value => p.attach s value
  | none, none => if name = helpName then p.help else .error .usage
  | none, some _ => .error .usage

/-- Reads short switches after their dash. All that follows a switch which takes a value is that
value. -/
def readShort (level : Level) (p : Progress) : List Char → Except Halt Progress
  | [] => .ok p
  | c :: rest =>
    match level.switches.find? (·.short = some c) with
    | some s =>
      if s.takes = .nothing then do
        let p ← p.attach s ""
        level.readShort p rest
      else
        match rest with
        | [] => p.await s
        -- One equals sign between the letter and the value belongs to neither.
        | '=' :: value => p.attach s (String.ofList value)
        | value => p.attach s (String.ofList value)
    | none => if c = helpLetter then p.help else .error .usage

/-- Adds positionals, unless they are too many. -/
def addWords (level : Level) (p : Progress) (words : List String) : Except Halt Progress := do
  let p ← p.settle
  let words := p.words ++ words
  match level.words with
  | .any => return { p with words }
  | .upTo count | .beforeCommand count =>
    if words.length ≤ count then return { p with words } else .error .usage
  | .branches => .error .usage

/-- Where reading a level has stopped. -/
inductive Stop where
  /-- At the end, with the words after a bare `--` if the level keeps them apart. -/
  | ended (p : Progress) (command : List String)
  /-- At the name of a branch, with the words that belong to it. -/
  | branch (p : Progress) (name : String) (rest : List String)

/-- Whether a word begins with a dash and is not only one. -/
def looksLikeSwitch (word : List Char) : Bool :=
  match word with
  | '-' :: _ :: _ => true
  | _ => false

/-- Reads what follows a bare `--`. -/
def readRest (level : Level) (p : Progress) (rest : List String) : Except Halt Stop :=
  match level.words with
  | .beforeCommand _ => do return .ended (← p.settle) rest
  | .branches => if rest = [] then do return .ended (← p.settle) [] else .error .usage
  | .upTo _ | .any => do return .ended (← level.addWords p rest) []

def read (level : Level) (p : Progress) : List String → Except Halt Stop
  | [] => do return .ended (← p.settle) []
  | word :: rest =>
    -- A value that is due is the next word, whatever it says, unless it looks like a switch.
    let value? : Option Switch :=
      match p.pending with
      | some (s, none) => if looksLikeSwitch word.toList then none else some s
      | _ => none
    match value? with
    | some s => level.read { p with pending := some (s, some word) } rest
    | none =>
      match word.toList with
      | ['-', '-'] =>
        match p.pending with
        | some (_, none) => .error .usage
        | _ => level.readRest p rest
      | '-' :: '-' :: long => do
        let p ← level.readLong p long
        level.read p rest
      | '-' :: c :: short => do
        let p ← level.readShort p (c :: short)
        level.read p rest
      | _ =>
        if level.words = .branches then .ok (.branch p word rest)
        else do
          let p ← level.addWords p [word]
          level.read p rest

end Level

end WorkspaceControl.Cli
