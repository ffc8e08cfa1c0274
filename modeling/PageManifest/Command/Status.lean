import PageManifest.Failure

/-!
# How commands end

A command ends with a status that scripts can tell apart, and a failed one with a
message.  Failures of the library become errors of the command by their category;
those of the remaining categories are faults of the program and stay failures.
-/

namespace PageManifest.Command

/-- The ways a command ends. -/
inductive Status
  | success
  | failed
  | wouldChange
  | manifestMissing
  | payloadMalformed
  | usage
  | textCoding
  | fileMissing
  | unsupported
  | fileTrouble
  | accessDenied
  | configuration
  deriving DecidableEq, Repr

/-- The number by which a status is reported. -/
def Status.code : Status → Nat
  | success => 0
  | failed => 1
  | wouldChange => 2
  | manifestMissing => 3
  | payloadMalformed => 4
  | usage => 64
  | textCoding => 65
  | fileMissing => 66
  | unsupported => 69
  | fileTrouble => 74
  | accessDenied => 77
  | configuration => 78

def Status.ofCategory? : Category → Option Status
  | .manifestMissing => some manifestMissing
  | .payloadMalformed => some payloadMalformed
  | .unsupported => some unsupported
  | .configuration => some configuration
  | .textCoding => some textCoding
  | .fileMissing => some fileMissing
  | .accessDenied => some accessDenied
  | .fileTrouble => some fileTrouble
  | .unknownCoding => none
  | .keyTwice => none
  | .tableTwice => none
  | .value => none
  | .call => none

structure Error where
  status : Status
  message : String
  deriving DecidableEq, Repr

namespace Error

/--
The error for a detail of some category.  The document at hand is named in front,
except that faults of a configuration are not about the document.
-/
def ofCategory? (document : Option Path) (category : Category) (detail : String) :
    Option Error :=
  (Status.ofCategory? category).map fun status =>
    match status, document with
    | .configuration, _ => ⟨status, detail⟩
    | _, none => ⟨status, detail⟩
    | _, some path => ⟨status, path.toString ++ ": " ++ detail⟩

end Error

/--
What a command tells about a failed file operation: where there is no file or no
access the reason says it all.
-/
def osDetail (category : Category) (reason message : String) : String :=
  match category with
  | .fileMissing => if reason.isEmpty then message else reason
  | .accessDenied => if reason.isEmpty then message else reason
  | _ => message

/-- What a command tells about a failure. -/
def detail : Failure → String
  | .os fault => osDetail fault.category fault.reason fault.message
  | f => f.message

/-- The error for a failure, if commands report failures of its category. -/
def Error.ofFailure? (document : Option Path) (f : Failure) : Option Error :=
  Error.ofCategory? document f.category (detail f)

end PageManifest.Command
