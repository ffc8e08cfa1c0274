import PageManifest.Command.Perform
import PageManifest.Config.Load

/-!
# The program

A command line has settings for all commands, and a command with its own switches
and operands.  The settings are put into effect before the command is read on.
-/

namespace PageManifest.Command

inductive Ending
  | ended (status : Status) (complaint : Text)
  | badLine (complaint : Text)
  | failed (failure : Failure)
  deriving DecidableEq, Repr

namespace Ending

/-- The number by which the end of a run is reported. -/
def code : Ending → Nat
  | ended status _ => status.code
  | badLine _ => 2
  | failed _ => 1

/-- What is written to the errors at the end of a run. -/
def complaint : Ending → Text
  | ended _ complaint => complaint
  | badLine complaint => complaint
  | failed _ => []

/-- How a run ends that stops early, with what the console makes of its complaint. -/
def ofStop (shown : Text → Text) : Stop → Ending
  | .line call fault => badLine (shown (call.complaint fault))
  | .error e => ended e.status (shown ("Error: " ++ e.message ++ "\n").toList)
  | .failure f => failed f

end Ending

variable {m : Type → Type} [Monad m] [Host m] [Platform]

def ending (shown : Text → Text) (action : Act m Status) : m Ending := do
  match ← action.run with
  | .ok status => pure (.ended status [])
  | .error stop => pure (.ofStop shown stop)

/-- Reads and performs a command. -/
def runVerb (verb : Verb) (call : Call) (c : Config) (detailed : Bool) (words : List String) :
    Act m Status := do
  let line ← readLine call true words
  if line.has "help" then
    sayPage call
    pure .success
  else
    checkGiven call line
    checkOperand call line
    checkRequired call line
    checkExtra call line
    perform c detailed (.ofLine verb line)

def consoleFor (s : Settings) : Act m Terminal.Console :=
  match verbosity s.verbose s.quiet with
  | .ok verbosity => pure ⟨s.color, verbosity⟩
  | .error e => throw (.error e)

/-- The log that the environment asks for; a level of zero is taken at its word here. -/
def loggingFor (s : Settings) (level : Option Text) : Act m Log.Setup :=
  match Log.environmentLevel level >>= fun asked => Log.effectiveLevel asked level with
  | .ok threshold => pure ⟨threshold, s.color⟩
  | .error fault => throw (.failure (.badLevel fault))

/-- The configuration that settings ask for. -/
def configFor (s : Settings) : Act m Config :=
  reporting none (Config.load s.config none true s.strategy s.encoding)

/-- What the program says when no command is given. -/
def hint : String :=
  "Hint: use 'provmark embed PATH --manifest FILE' to embed a manifest."

/-- What the settings of a command line come to. -/
inductive Opening
  | page
  | ready (settings : Settings) (verb : Option Verb) (words : List String)

/-- Reads settings, and checks them unless the manual is asked for. -/
def readSettings (call : Call) (words : List String) : Act m Line := do
  let line ← readLine call false words
  if !line.has "help" then checkGiven call line
  pure line

/-- Reads the settings of a command line and the name of its command. -/
def opening (call : Call) (words : List String) : Act m Opening := do
  let line ← readSettings call words
  if line.has "help" then pure .page
  else
    match line.operands with
    | [] => pure (.ready (.ofLine line) none [])
    | name :: rest =>
        match Verb.ofName? name with
        | some verb => pure (.ready (.ofLine line) (some verb) rest)
        | none => do
            let again ← readSettings call line.operands
            if again.has "help" then pure .page
            else
              throw (.line call (.noCommand name
                (Diff.similar name (Verb.all.map Verb.name))))

/-- Runs the program; `level` is the level of log records that the environment asks for. -/
def run (program : String) (words : List String) (level : Option Text) : m Ending := do
  let call : Call := ⟨program, Settings.manual⟩
  match ← (opening (m := m) call words).run with
  | .error stop => pure (.ofStop Terminal.plain stop)
  | .ok .page => ending Terminal.plain (do sayPage call; pure .success)
  | .ok (.ready settings verb rest) => do
      let presentation : Act m (Terminal.Console × Log.Setup) := do
        let console ← consoleFor settings
        pure (console, ← loggingFor settings level)
      match ← presentation.run with
      | .error stop => pure (.ofStop Terminal.plain stop)
      | .ok (console, logging) => do
          Host.present console (some logging)
          ending console.shown (do
            let c ← configFor settings
            match verb with
            | none => do
                say (.ofLine hint.toList)
                say (.ofLine [])
                sayPage call
                pure .success
            | some verb =>
                runVerb verb ⟨program ++ " " ++ verb.name, verb.manual (some 'h')⟩ c
                  (decide (0 < console.verbosity)) rest)

def runAlone (program : String) (verb : Verb) (words : List String) : m Ending := do
  Host.present ⟨false, 0⟩ none
  ending Terminal.plain
    (runVerb verb ⟨program, verb.manual none⟩ Config.standard false words)

end PageManifest.Command
