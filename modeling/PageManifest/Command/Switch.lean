import PageManifest.Diff.Similar
import PageManifest.Text.Quoted

/-!
# Switches

A command line is a list of words.  Words that start with a hyphen are switches, given
by name or as a run of letters; all other words are operands, and so is every word
behind two hyphens that stand alone.  Reading takes words apart and judges no value.
-/

namespace PageManifest.Command

inductive Takes
  | nothing
  | text
  | file
  | choice (names : List String)
  deriving DecidableEq, Repr

/-- A switch: its letter, if it has one, its name, what it takes and what it is for. -/
structure Switch where
  letter : Option Char
  name : String
  takes : Takes
  required : Bool
  help : String
  deriving DecidableEq, Repr

namespace Switch

def long (s : Switch) : String :=
  "--" ++ s.name

/-- The written form of a letter. -/
def short (letter : Char) : String :=
  String.ofList ['-', letter]

/-- All forms of a switch, the short one first. -/
def forms (s : Switch) : List String :=
  s.letter.toList.map short ++ [s.long]

/-- How messages name a switch. -/
def label (s : Switch) : String :=
  " / ".intercalate (s.forms.map fun form => "'" ++ form ++ "'")

end Switch

inductive LineFault
  | noSwitch (written : String) (similar : List String)
  | noCommand (written : String) (similar : List String)
  | missingValue (written : String)
  | needlessValue (written : String)
  | missingSwitch (label : String)
  | missingOperand (label : String)
  | isDirectory (label value : String)
  | noChoice (label value : String) (names : List String)
  | extraOperands (values : List String)
  deriving DecidableEq, Repr

namespace LineFault

/-- The words that are offered for one that is unknown. -/
def offer : List String → String
  | [] => ""
  | [word] => " Did you mean " ++ Text.quotedString word ++ "?"
  | words => " (Did you mean one of: " ++ ", ".intercalate (words.map Text.quotedString) ++ "?)"

def message : LineFault → String
  | noSwitch written similar =>
      "No such option " ++ Text.quotedString written ++ "." ++ offer similar
  | noCommand written similar =>
      "No such command " ++ Text.quotedString written ++ "." ++ offer similar
  | missingValue written => "Option " ++ Text.quotedString written ++ " requires an argument."
  | needlessValue written => "Option " ++ Text.quotedString written ++ " does not take a value."
  | missingSwitch label => "Missing option " ++ label ++ "."
  | missingOperand label => "Missing argument " ++ label ++ "."
  | isDirectory label value =>
      "Invalid value for " ++ label ++ ": File " ++ Text.quotedString value ++ " is a directory."
  | noChoice label value names =>
      "Invalid value for " ++ label ++ ": " ++ Text.quotedString value ++ " is not one of " ++
        ", ".intercalate (names.map Text.quotedString) ++ "."
  | extraOperands [value] => "Got unexpected extra argument (" ++ value ++ ")"
  | extraOperands values =>
      "Got unexpected extra arguments (" ++ " ".intercalate values ++ ")"

/-- Whether a fault is shown together with the usage of the command. -/
def showsUsage : LineFault → Bool
  | missingValue _ => false
  | needlessValue _ => false
  | _ => true

end LineFault

/-- A switch that was given, with its value if it takes one. -/
structure Given where
  switch : Switch
  value : String
  deriving DecidableEq, Repr

structure Line where
  given : List Given
  operands : List String
  deriving DecidableEq, Repr

namespace Line

/-- Whether a switch was given. -/
def has (line : Line) (name : String) : Bool :=
  line.given.any (·.switch.name = name)

/-- How often a switch was given. -/
def count (line : Line) (name : String) : Nat :=
  line.given.countP (·.switch.name = name)

/-- The value of a switch; of several values the last counts. -/
def value? (line : Line) (name : String) : Option String :=
  (line.given.reverse.find? (·.switch.name = name)).map Given.value

/-- A line with more switches in front. -/
def prepend (given : List Given) (line : Line) : Line :=
  { line with given := given ++ line.given }

/-- The switches that were given, each once and in the order of their first appearance. -/
def distinct (line : Line) : List Switch :=
  (line.given.map Given.switch).eraseDups

end Line

/-- A word in front of its first equals sign, and what stands behind that. -/
def splitValue (word : Text) : Text × Option Text :=
  (word.takeWhile (· ≠ '='), match word.dropWhile (· ≠ '=') with
    | [] => none
    | _ :: value => some value)

/-- The value of a switch that has none in its own word: the next word. -/
def takeNext (s : Switch) (written : String) (next : Option String) :
    Except LineFault (List Given × Bool) :=
  match next with
  | some value => .ok ([⟨s, value⟩], true)
  | none => .error (.missingValue written)

/-- Reads a run of letters; a switch that takes a value takes the rest of the run. -/
def readLetters (switches : List Switch) (next : Option String) :
    Text → Except LineFault (List Given × Bool)
  | [] => .ok ([], false)
  | letter :: rest =>
      match switches.find? (·.letter = some letter) with
      | none => .error (.noSwitch (Switch.short letter) [])
      | some s =>
          if s.takes = .nothing then
            (readLetters switches next rest).map fun (given, used) => (⟨s, ""⟩ :: given, used)
          else if rest.isEmpty then takeNext s (Switch.short letter) next
          else .ok ([⟨s, String.ofList rest⟩], false)

/-- Reads a word made of switches, and tells whether it takes the next word as a value. -/
def readSwitches (switches : List Switch) (word : Text) (next : Option String) :
    Except LineFault (List Given × Bool) :=
  let (written, value) := splitValue word
  let written := String.ofList written
  match switches.find? (·.long = written), value with
  | some s, some value =>
      if s.takes = .nothing then .error (.needlessValue written)
      else .ok ([⟨s, String.ofList value⟩], false)
  | some s, none =>
      if s.takes = .nothing then .ok ([⟨s, ""⟩], false) else takeNext s written next
  | none, _ =>
      if word.take 2 = ['-', '-'] then
        .error (.noSwitch written (Diff.similar written (switches.map Switch.long)))
      else readLetters switches next (word.drop 1)

def isSwitches (word : Text) : Bool :=
  word.head? = some '-' && 1 < word.length

/--
Reads a command line.  Switches may stand between operands if `mixed` says so;
otherwise the first operand ends them.
-/
def Line.read (switches : List Switch) (mixed : Bool) : List String → Except LineFault Line
  | [] => .ok ⟨[], []⟩
  | word :: rest =>
      if word = "--" then .ok ⟨[], rest⟩
      else if isSwitches word.toList then
        match readSwitches switches word.toList rest.head? with
        | .error fault => .error fault
        | .ok (given, false) => (Line.read switches mixed rest).map (Line.prepend given)
        | .ok (given, true) => (Line.read switches mixed rest.tail).map (Line.prepend given)
      else if mixed then
        (Line.read switches mixed rest).map fun line =>
          { line with operands := word :: line.operands }
      else .ok ⟨[], word :: rest⟩
termination_by words => words.length
decreasing_by all_goals grind [List.length_tail]

end PageManifest.Command
