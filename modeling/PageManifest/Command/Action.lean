import PageManifest.Command.Manual
import PageManifest.Command.Status
import PageManifest.Files

/-!
# Actions of commands

An action runs on a machine and may stop early: with a complaint about the command
line, with an error that commands report, or with a failure that they do not.
-/

namespace PageManifest.Command

inductive Stop
  | line (call : Call) (fault : LineFault)
  | error (error : Error)
  | failure (failure : Failure)
  deriving DecidableEq, Repr

abbrev Act (m : Type → Type) (α : Type) := ExceptT Stop m α

def Stop.ofFailure (document : Option Path) (f : Failure) : Stop :=
  match Error.ofFailure? document f with
  | some e => error e
  | none => failure f

variable {m : Type → Type} [Monad m] [Host m]

def reporting {α : Type} (document : Option Path) (operation : Run m α) : Act m α :=
  ExceptT.mk ((fun r => r.mapError (Stop.ofFailure document)) <$> operation.run)

/-- Takes program output. -/
def say (message : Terminal.Message) : Act m Unit :=
  ExceptT.lift (Host.say message)

/-- Says how things stand with a document. -/
def tell (document : Path) (message : String) (color : Option Terminal.Color) : Act m Unit :=
  say (.status document.toString.toList message.toList (color.map .named))

/-- The name that a value chooses; case makes no difference, and the long S is an S. -/
def chosen? (names : List String) (value : String) : Option String :=
  let folded := String.ofList (value.toList.map fun c => if c = 'ſ' then 's' else c.toLower)
  names.find? (· = folded)

/-- Checks a value; what a file is expected for must not be a directory. -/
def checkValue (call : Call) (label : String) (takes : Takes) (value : String) : Act m Unit := do
  match takes with
  | .nothing => pure ()
  | .text => pure ()
  | .choice names =>
      if (chosen? names value).isNone then throw (.line call (.noChoice label value names))
  | .file =>
      if value ≠ "" then
        match ← ExceptT.lift (Host.status (Path.verbatim value.toList)) with
        | .ok .directory => throw (.line call (.isDirectory label value))
        | .ok (.file _) => pure ()
        | .error (.os _) => pure ()
        | .error .nul => throw (.failure .nulInPath)

/-- Checks the values of switches that were given, each with its last value. -/
def checkGiven (call : Call) (line : Line) : Act m Unit :=
  line.distinct.forM fun s => checkValue call s.label s.takes ((line.value? s.name).getD "")

def checkOperand (call : Call) (line : Line) : Act m Unit := do
  match call.manual.operand with
  | none => pure ()
  | some name =>
      match line.operands with
      | [] => throw (.line call (.missingOperand ("'" ++ name ++ "'")))
      | value :: _ => checkValue call ("'" ++ name ++ "'") .file value

/-- Checks that no switch is missing that has to be given. -/
def checkRequired (call : Call) (line : Line) : Act m Unit :=
  call.manual.switches.forM fun s =>
    if s.required && !line.has s.name then throw (.line call (.missingSwitch s.label))
    else pure ()

/-- Checks that there are no more operands than a command takes. -/
def checkExtra (call : Call) (line : Line) : Act m Unit :=
  match line.operands.drop (if call.manual.operand.isSome then 1 else 0) with
  | [] => pure ()
  | values => throw (.line call (.extraOperands values))

def readLine (call : Call) (mixed : Bool) (words : List String) : Act m Line :=
  match Line.read call.manual.switches mixed words with
  | .ok line => pure line
  | .error fault => throw (.line call fault)

def sayPage (call : Call) : Act m Unit :=
  say (.text (call.manual.page call.called))

end PageManifest.Command
