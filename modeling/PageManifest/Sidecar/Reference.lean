import PageManifest.Marker

/-!
# References to companion files

A companion file is named after its document, and the document refers to it by
one reference element.  A reference is seen from the directory of the document;
one to another machine is refused.
-/

namespace PageManifest.Sidecar

/-- What the name of a companion file adds to the name of its document. -/
def companionSuffix : String :=
  ".c2pa"

def companion (document : Path) : Except Failure Path :=
  match document.withName? (document.name ++ companionSuffix) with
  | some path => .ok path
  | none => .error (.noFileName document)

/-- The line break a document uses. -/
def newline (t : Text) : Text :=
  if Text.hasInfix ['\r', '\n'] t then ['\r', '\n']
  else if t.contains '\r' && !t.contains '\n' then ['\r']
  else ['\n']

/--
The document with a reference to `target`: an existing reference element is
replaced, otherwise one is put on a line of its own behind the opening tag of
the head, or at the very start.
-/
def insertReference (t : Text) (target : Text) : Text :=
  let tag := Markup.referenceTag target
  match Markup.referenceIn? t with
  | some found => found.before ++ tag ++ found.after
  | none =>
      match Markup.headOpening? t with
      | some head => head.before ++ head.item ++ newline t ++ tag ++ head.after
      | none => tag ++ newline t ++ t

/-- What inserting has to report: that the document has no head. -/
def insertNotices (t : Text) : List Log.Record :=
  if (Markup.referenceIn? t).isSome || (Markup.headOpening? t).isSome then []
  else
    [Log.Record.warning "provmark.embedding.sidecar"
      "sidecar.reference: no <head> found; prepending reference to document"]

/-- Whether a target names something beyond the file system. -/
def isRemote (target : Text) : Bool :=
  Text.hasInfix "://".toList target || (Text.afterExact "data:".toList target).isSome

/-- The file that a target names, seen from a directory. -/
def resolve (target : Text) (base : Path) : Except Failure Path :=
  if isRemote target then .error (.remoteReference (String.ofList target))
  else .ok (base.join (Path.ofText target))

/-- The companion file that a document refers to, seen from a directory. -/
def locate (charset : Charset) (t : Text) (base : Path) : Except Failure Path :=
  match ReferenceScan.ofText charset t with
  | .error failure => .error failure
  | .ok none => .error .noReference
  | .ok (some found) => resolve found.target base

end PageManifest.Sidecar
