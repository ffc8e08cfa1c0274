import PageManifest.Failure
import PageManifest.Markup.Element
import PageManifest.Markup.Reference

/-!
# Finding manifests in a document

Scanning never changes a document.  It reports the inline manifest or the place
for one, and the reference to a companion file.  Markers are in octets of the
encoded document.
-/

namespace PageManifest

/-- What a marker bounds: a payload text, a reference target, or nothing. -/
inductive MarkerKind
  | inlineTag
  | linkTag
  | insertionPoint
  deriving DecidableEq, Repr

def MarkerKind.name : MarkerKind → String
  | inlineTag => "inline_tag"
  | linkTag => "link_tag"
  | insertionPoint => "insertion_point"

/-- A range of octets in an encoded document. -/
structure Marker where
  kind : MarkerKind
  offset : Nat
  length : Nat
  deriving DecidableEq, Repr

/-- The octet just past a marker. -/
def Marker.stop (m : Marker) : Nat :=
  m.offset + m.length

/--
The marker of the characters from `start` up to `stop`.  Both ends are measured
from the start of the encoded document, so a byte-order mark counts once, in the
offset.
-/
def Marker.ofSpan (kind : MarkerKind) (charset : Charset) (t : Text) (start stop : Nat) :
    Except Charset.Fault Marker :=
  match charset.byteOffset t start with
  | .error fault => .error fault
  | .ok offset =>
      match charset.byteOffset t stop with
      | .error fault => .error fault
      | .ok finish => .ok ⟨kind, offset, finish - offset⟩

/-- What a document holds of an inline manifest. -/
inductive InlineScan
  | manifest (payload : Bytes) (marker : Marker)
  | insertionPoint (marker : Marker)
  | nothing
  deriving DecidableEq, Repr

namespace InlineScan

/-- The payload that was found. -/
def payload? : InlineScan → Option Bytes
  | manifest payload _ => some payload
  | _ => none

/-- The marker that was found. -/
def marker? : InlineScan → Option Marker
  | manifest _ marker => some marker
  | insertionPoint marker => some marker
  | nothing => none

/-- Without a payload, the place for one is behind the opening tag of the head. -/
def ofHead (charset : Charset) (t : Text) : Except Failure InlineScan :=
  match Markup.headOpening? t with
  | none => .ok nothing
  | some head =>
      match charset.byteOffset t (head.before.length + head.item.length : Nat) with
      | .error fault => .error (.charset fault)
      | .ok offset => .ok (insertionPoint ⟨.insertionPoint, offset, 0⟩)

/-- Reads the first manifest element.  A blank body counts as no manifest. -/
def ofText (charset : Charset) (t : Text) : Except Failure InlineScan :=
  match Markup.Element.find? t with
  | none => ofHead charset t
  | some found =>
      let body := found.item.body
      let encoded := Text.trim body
      if encoded.isEmpty then ofHead charset t
      else
        match Base64.decode encoded with
        | .error fault => .error (.malformedPayload fault)
        | .ok payload =>
            let start := found.before.length + found.item.opening.length +
              (body.length - (Text.trimStart body).length)
            match Marker.ofSpan .inlineTag charset t start (start + encoded.length) with
            | .error fault => .error (.charset fault)
            | .ok marker => .ok (manifest payload marker)

/-- The payload of a document, which has to be there. -/
def readPayload (charset : Charset) (t : Text) : Except Failure Bytes :=
  match ofText charset t with
  | .error failure => .error failure
  | .ok (manifest (b :: payload) _) => .ok (b :: payload)
  | .ok _ => .error .noManifest

end InlineScan

/-- A reference to a companion file: its target, and the marker of the raw attribute value. -/
structure ReferenceScan where
  target : Text
  marker : Marker
  deriving DecidableEq, Repr

namespace ReferenceScan

/-- The reference element with its target attribute; a blank target counts as none. -/
def usable? (t : Text) : Option (Text.Found Text × Markup.Attribute) :=
  match Markup.referenceIn? t with
  | none => none
  | some tag =>
      match Markup.href? tag.item with
      | none => none
      | some href => if (Text.trim href.value).isEmpty then none else some (tag, href)

/-- What scanning for a reference has to report: an element without a target. -/
def notices (t : Text) : List Log.Record :=
  match Markup.referenceIn? t, usable? t with
  | some tag, none =>
      [Log.Record.warning "provmark.markers.scanner"
        ("scan.reference: reference element without href: " ++
          String.ofList (Text.quoted tag.item))]
  | _, _ => []

/-- Reads the first reference element. -/
def ofText (charset : Charset) (t : Text) : Except Failure (Option ReferenceScan) :=
  match usable? t with
  | none => .ok none
  | some (tag, href) =>
      let start := tag.before.length + href.lead.length
      match Marker.ofSpan .linkTag charset t start (start + href.value.length) with
      | .error fault => .error (.charset fault)
      | .ok marker =>
          match Markup.unescape (Text.trim href.value) with
          | .error fault => .error (.longNumber fault)
          | .ok target => .ok (some ⟨target, marker⟩)

end ReferenceScan

end PageManifest
