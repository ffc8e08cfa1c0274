import PageManifest.Command.Switch

/-!
# Manuals

A manual says what a command is for and which switches and operands it takes.  Its
page is laid out for a terminal of eighty columns.
-/

namespace PageManifest.Command

/-- What is told about a command; one with commands below it lists them. -/
structure Manual where
  about : String
  switches : List Switch
  operand : Option String
  commands : List (String × String)
  deriving DecidableEq, Repr

namespace Manual

def helpSwitch (letter : Option Char) : Switch :=
  ⟨letter, "help", .nothing, false, "Show this message and exit."⟩

def pageWidth : Nat := 80

/-- The widest first column of a table. -/
def columnLimit : Nat := 30

/-- The words of a text between single blanks. -/
def words : Text → List Text
  | [] => [[]]
  | ' ' :: t => [] :: words t
  | c :: t =>
      match words t with
      | [] => [[c]]
      | word :: rest => (c :: word) :: rest

/-- Fills lines with words, from a line that has been started. -/
def fill (width : Nat) (line : Text) : List Text → List Text
  | [] => [line]
  | word :: rest =>
      if line.length + 1 + word.length ≤ width then fill width (line ++ ' ' :: word) rest
      else line :: fill width word rest

/-- A text in lines of some width. -/
def wrap (width : Nat) (t : Text) : List Text :=
  match words t with
  | [] => []
  | word :: rest => fill width word rest

def blanks (n : Nat) : Text :=
  List.replicate n ' '

/-- A row of a table whose second column starts at some place. -/
def row (place : Nat) (first second : Text) : Text :=
  let gap :=
    if first.length + 2 ≤ place then blanks (place - first.length)
    else '\n' :: blanks (place + 2)
  let lines := wrap (pageWidth - place - 2) second
  blanks 2 ++ first ++ gap ++ ('\n' :: blanks (place + 2)).intercalate lines ++ ['\n']

def table (heading : String) (rows : List (String × String)) : Text :=
  let widest := (rows.map fun (first, _) => first.length).foldl max 0
  let place := min widest columnLimit + 2
  '\n' :: (heading ++ ":\n").toList ++
    rows.flatMap fun (first, second) => row place first.toList second.toList

/-- What stands for the value of a switch. -/
def valueName : Takes → String
  | .nothing => ""
  | .text => " TEXT"
  | .file => " FILE"
  | .choice names => " [" ++ "|".intercalate names ++ "]"

def switchRow (s : Switch) : String × String :=
  (", ".intercalate s.forms ++ valueName s.takes,
    s.help ++ if s.required then "  [required]" else "")

/-- The operands as they are written behind a command. -/
def operandNames (m : Manual) : String :=
  match m.operand with
  | some name => " " ++ name
  | none => if m.commands.isEmpty then "" else " [COMMAND] [ARGS]..."

def usage (m : Manual) (called : String) : Text :=
  ("Usage: " ++ called ++ " [OPTIONS]" ++ m.operandNames ++ "\n").toList

def page (m : Manual) (called : String) : Text :=
  m.usage called ++ ("\n  " ++ m.about ++ "\n").toList ++
    table "Options" (m.switches.map switchRow) ++
    if m.commands.isEmpty then [] else table "Commands" m.commands

end Manual

structure Call where
  called : String
  manual : Manual
  deriving DecidableEq, Repr

/-- What is told about a command line with a fault. -/
def Call.complaint (call : Call) (fault : LineFault) : Text :=
  let usage :=
    if fault.showsUsage then
      call.manual.usage call.called ++ ("Try '" ++ call.called ++ " --help' for help.\n\n").toList
    else []
  usage ++ ("Error: " ++ fault.message ++ "\n").toList

end PageManifest.Command
