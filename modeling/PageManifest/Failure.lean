import PageManifest.Base64
import PageManifest.Charset.Basic
import PageManifest.Host
import PageManifest.Markup.Entity
import PageManifest.Region
import PageManifest.Strategy

/-!
# Failures

Every way in which an operation can fail, as its cause, with the wording and the
category that a command reports.
-/

namespace PageManifest

/-- What is wrong with a configuration. -/
inductive ConfigFault
  | noString (key : String)
  | unknownStrategy (value : String)
  | emptyEncoding
  | unknownEncoding (value : String)
  | badPlaceholder
  | badTempPrefix
  deriving DecidableEq, Repr

/-- The wording of a fault in a configuration. -/
def ConfigFault.message : ConfigFault → String
  | noString key => "'" ++ key ++ "' must be a string"
  | unknownStrategy value => Strategy.unknownMessage value
  | emptyEncoding => "'encoding' must be a non-empty string"
  | unknownEncoding value => "unknown encoding " ++ Text.quotedString value
  | badPlaceholder => "'placeholder' must be a non-empty string"
  | badTempPrefix => "'temp_prefix' must be a plain, non-empty file name prefix"

/-- The causes for which an operation fails. -/
inductive Failure
  | noManifest
  | elementLost
  | noReference
  | remoteReference (target : String)
  | companionUnreadable (path : Path) (fault : OsFault)
  | companionEmpty (path : Path)
  | companionMissing (path : Path)
  | malformedPayload (fault : Base64.Fault)
  | unknownStrategy (value : String)
  | unregistered (strategy : Strategy)
  | unsupportedAsset (assetType : String)
  | noDocumentPath
  | badConfig (fault : ConfigFault) (source : Option Path)
  | configMissing (path : Path)
  | configUnreadable (path : Path) (fault : OsFault)
  | configMalformed (path : Path)
  | configNoTable (path : Path)
  | configKeyTwice (key : String)
  | configTableTwice
  | charset (fault : Charset.Fault)
  | os (fault : OsFault)
  | nulInPath
  | noFileName (path : Path)
  | emptyPlaceholder
  | region (fault : Region.Fault)
  | longNumber (fault : Markup.LongNumber)
  | badLevel (fault : Log.LevelFault)
  deriving DecidableEq, Repr

/-- The kinds of failure that are told apart outside the library. -/
inductive Category
  | manifestMissing
  | payloadMalformed
  | unsupported
  | configuration
  | textCoding
  | fileMissing
  | accessDenied
  | fileTrouble
  | unknownCoding
  | keyTwice
  | tableTwice
  | value
  | call
  deriving DecidableEq, Repr

/-- The category of a failed file operation goes by its number. -/
def OsFault.category (f : OsFault) : Category :=
  if f.code = 2 then .fileMissing
  else if f.code = 1 ∨ f.code = 13 then .accessDenied
  else .fileTrouble

def Charset.Fault.category : Charset.Fault → Category
  | undecodable _ => .textCoding
  | unencodable _ => .textCoding
  | refused _ => .textCoding
  | noTextCoding _ _ => .unknownCoding
  | unknownCoding _ => .unknownCoding
  | nulInName => .value

def Region.Fault.category : Region.Fault → Category
  | noLength => .call
  | _ => .value

namespace Failure

/-- The failure behind a path that could not be used. -/
def ofPath : PathFault → Failure
  | .os fault => .os fault
  | .nul => .nulInPath

def category : Failure → Category
  | noManifest => .manifestMissing
  | elementLost => .manifestMissing
  | noReference => .manifestMissing
  | remoteReference _ => .manifestMissing
  | companionUnreadable _ _ => .manifestMissing
  | companionEmpty _ => .manifestMissing
  | companionMissing _ => .manifestMissing
  | malformedPayload _ => .payloadMalformed
  | unknownStrategy _ => .unsupported
  | unregistered _ => .unsupported
  | unsupportedAsset _ => .unsupported
  | noDocumentPath => .unsupported
  | badConfig _ _ => .configuration
  | configMissing _ => .configuration
  | configUnreadable _ _ => .configuration
  | configMalformed _ => .configuration
  | configNoTable _ => .configuration
  | configKeyTwice _ => .keyTwice
  | configTableTwice => .tableTwice
  | charset fault => fault.category
  | os fault => fault.category
  | nulInPath => .value
  | noFileName _ => .value
  | emptyPlaceholder => .value
  | region fault => fault.category
  | longNumber _ => .value
  | badLevel _ => .value

def message : Failure → String
  | noManifest => "no C2PA manifest found"
  | elementLost => "manifest element not found after placeholder insertion"
  | noReference => "no sidecar reference in document"
  | remoteReference target => "remote sidecar references are not supported: " ++ target
  | companionUnreadable path fault =>
      "cannot open sidecar manifest " ++ path.toString ++ ": " ++ fault.message
  | companionEmpty path => "sidecar manifest " ++ path.toString ++ " is empty"
  | companionMissing path => "sidecar manifest " ++ path.toString ++ " does not exist"
  | malformedPayload fault => "HTML manifest bad base64 encoding: " ++ fault.message
  | unknownStrategy value => Strategy.unknownMessage value
  | unregistered strategy => "no backend registered for strategy '" ++ strategy.name ++ "'"
  | unsupportedAsset assetType => "unsupported asset type: " ++ Text.quotedString assetType
  | noDocumentPath => "sidecar stream writes need a document path to name the companion file"
  | badConfig fault none => fault.message
  | badConfig fault (some source) => fault.message ++ " in " ++ source.toString
  | configMissing path => "config file not found: " ++ path.toString
  | configUnreadable path fault =>
      "cannot read config file " ++ path.toString ++ ": " ++ fault.message
  | configMalformed path => "invalid TOML in " ++ path.toString
  | configNoTable path => "[provmark] in " ++ path.toString ++ " must be a table"
  | configKeyTwice key => "Key \"" ++ key ++ "\" already exists."
  | configTableTwice => "Redefinition of an existing table"
  | charset fault => fault.message
  | os fault => fault.message
  | nulInPath => "embedded null byte"
  | noFileName path => path.describe ++ " has an empty name"
  | emptyPlaceholder => "placeholder manifest must not be empty"
  | region fault => fault.message
  | longNumber fault => fault.message
  | badLevel fault => fault.message

end Failure

/-- An operation on a machine that may fail. -/
abbrev Run (m : Type → Type) (α : Type) := ExceptT Failure m α

end PageManifest
