import PageManifest.Text.Digit
import PageManifest.Text.Quoted

/-!
# Log records and levels

Severities are integers; seven of them have names.  A level is named by its name,
by an alias or by a number in decimal digits of any script.
-/

namespace PageManifest.Log

/-- The severities with a name. -/
inductive Level
  | notSet
  | trace
  | debug
  | info
  | warning
  | error
  | critical
  deriving DecidableEq, Repr

namespace Level

def severity : Level → Int
  | notSet => 0
  | trace => 5
  | debug => 10
  | info => 20
  | warning => 30
  | error => 40
  | critical => 50

def name : Level → String
  | notSet => "NOTSET"
  | trace => "TRACE"
  | debug => "DEBUG"
  | info => "INFO"
  | warning => "WARNING"
  | error => "ERROR"
  | critical => "CRITICAL"

def all : List Level :=
  [notSet, trace, debug, info, warning, error, critical]

/-- The level of a name in capitals; two levels have a second name. -/
def ofName? (name : String) : Option Level :=
  if name = "WARN" then some warning
  else if name = "FATAL" then some critical
  else all.find? (·.name = name)

@[simp] theorem ofName?_name (l : Level) : ofName? l.name = some l := by
  cases l <;> rfl

end Level

def severityName (severity : Int) : String :=
  match Level.all.find? (·.severity = severity) with
  | some level => level.name
  | none => "Level " ++ toString severity

/-- Something worth telling about a run: how severe, from where, and the text. -/
structure Record where
  severity : Int
  origin : String
  text : String
  deriving DecidableEq, Repr

namespace Record

/-- A record of what has been done. -/
def info (origin text : String) : Record :=
  ⟨Level.info.severity, origin, text⟩

/-- A record of something that may not be meant. -/
def warning (origin text : String) : Record :=
  ⟨Level.warning.severity, origin, text⟩

end Record

/-- Why a text made of digits is no level. -/
inductive LevelFault
  | noDecimal (t : Text)
  | tooLong (digits : Nat)
  deriving DecidableEq, Repr

/-- The longest run of digits that is read as a number. -/
def digitLimit : Nat := 4300

def LevelFault.message : LevelFault → String
  | noDecimal t =>
      "invalid literal for int() with base 10: " ++ String.ofList (Text.quoted t)
  | tooLong digits =>
      "Exceeds the limit (" ++ toString digitLimit ++
        " digits) for integer string conversion: value has " ++ toString digits ++
        " digits; use sys.set_int_max_str_digits() to increase the limit"

/--
Capitals, as far as they matter for names of levels: the dotless small I and the
long S are the only letters beyond ASCII with a capital in them.
-/
def capital (c : Char) : Char :=
  if c = 'ı' then 'I' else if c = 'ſ' then 'S' else c.toUpper

/-- The number in decimal digits of any script. -/
def readNumber (t : Text) : Except LevelFault Int :=
  match t.mapM Text.decimalValue? with
  | none => .error (.noDecimal t)
  | some digits =>
      if digitLimit < digits.length then .error (.tooLong digits.length)
      else .ok (digits.foldl (fun n d => n * 10 + d) 0 : Nat)

/-- The severity that a text denotes, if it denotes one. -/
def readLevel (value : Text) : Except LevelFault (Option Int) :=
  let t := (Text.trim value).map capital
  if !t.isEmpty && t.all Text.isDigit then (readNumber t).map some
  else .ok ((Level.ofName? (String.ofList t)).map Level.severity)

/-- The severity asked for by the environment; an empty value asks for none. -/
def environmentLevel (value : Option Text) : Except LevelFault (Option Int) :=
  match value with
  | none => .ok none
  | some t => if t.isEmpty then .ok none else readLevel t

/--
The severity from which records are shown.  Without an explicit one the
environment is asked; there, zero counts like no answer, and then only critical
records are shown.
-/
def effectiveLevel (explicit : Option Int) (environment : Option Text) :
    Except LevelFault Int :=
  match explicit with
  | some severity => .ok severity
  | none =>
      (environmentLevel environment).map fun asked =>
        match asked with
        | some severity => if severity = 0 then Level.critical.severity else severity
        | none => Level.critical.severity

end PageManifest.Log
