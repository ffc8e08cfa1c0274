import PageManifest.Marker

/-!
# Inline manifests

Embedding replaces the first manifest element, or else goes in front of the
closing tag of the body, or else behind the document.  Blanks around the place
are dropped, so that repeated embedding does not pile them up.  Removing takes
out every manifest element together with the blanks around it.
-/

namespace PageManifest.Inline

/-- The canonical manifest element of a payload. -/
def tag (payload : Bytes) : Text :=
  "<script type=\"".toList ++ Markup.manifestType ++ "\">".toList ++ Base64.encode payload ++
    "</script>".toList

/-- Whether a document has a manifest element, whatever its body. -/
def hasElement (t : Text) : Bool :=
  (Markup.Element.find? t).isSome

/--
Puts `replacement` in the place of the first manifest element and the blanks
around it.  `seen` is the text already passed, in reverse, and `inRun` tells
whether it ends in a blank.
-/
def replaceFirst (replacement : Text) (seen : Text) (inRun : Bool) : Text → Text
  | [] => seen.reverse
  | c :: t =>
      match Markup.Element.padded? inRun (c :: t) with
      | some (_, rest) => seen.reverse ++ replacement ++ rest
      | none => replaceFirst replacement (c :: seen) (Text.isBlank c) t

/--
Takes out every manifest element with the blanks around it, from left to right.
`seen` is the text kept so far, in reverse.
-/
def removeFrom (seen : Text) (inRun : Bool) (t : Text) : Text :=
  match _h : Markup.Element.padded? inRun t with
  | some (_, rest) => removeFrom seen false rest
  | none =>
      match t with
      | [] => seen.reverse
      | c :: t => removeFrom (c :: seen) (Text.isBlank c) t
termination_by t.length
decreasing_by
  · exact Markup.Element.padded?_length _h
  · simp

/-- The document with a payload embedded. -/
def embed (t : Text) (payload : Bytes) : Text :=
  if hasElement t then replaceFirst (tag payload) [] false t
  else
    match Markup.bodyClosing? t with
    | some found => Text.trimEnd found.before ++ tag payload ++ found.item ++ found.after
    | none => Text.trimEnd t ++ tag payload

/-- What embedding has to report: that the document has no place for a manifest. -/
def embedNotices (t : Text) : List Log.Record :=
  if hasElement t || (Markup.bodyClosing? t).isSome then []
  else
    [Log.Record.warning "provmark.embedding.inline"
      "inline.embed: no </body> found; appending manifest at end of document"]

/-- The document without manifest elements. -/
def remove (t : Text) : Text :=
  removeFrom [] false t

/-- Whether a document holds a payload; a document whose payload cannot be read is refused. -/
def hasPayload (t : Text) : Except Failure Bool :=
  (InlineScan.ofText (.codec .utf8) t).map fun scan =>
    match scan.payload? with
    | some payload => !payload.isEmpty
    | none => false

/-- A copy of a document that holds a payload, if need be a stand-in. -/
def withPlaceholder (t : Text) (placeholder : Bytes) : Except Failure Text :=
  if placeholder.isEmpty then .error .emptyPlaceholder
  else
    (hasPayload t).map fun present => if present then t else embed t placeholder

/-- What making such a copy has to report. -/
def placeholderNotices (t : Text) (placeholder : Bytes) : List Log.Record :=
  match placeholder.isEmpty, hasPayload t with
  | false, .ok false => embedNotices t
  | _, _ => []

/-- The regions in front of, of, and behind a range of a document of `total` octets. -/
def regionsAround (start stop total : Nat) : List Region :=
  [⟨0, start, .included⟩, ⟨start, stop - start, .excluded⟩,
    ⟨stop, (total - stop : Nat), .included⟩]

/--
The regions of a document: everything around the payload text is included.  A
document without a payload is measured with the placeholder in place.
-/
def hashRegions (charset : Charset) (t : Text) (placeholder : Bytes) :
    Except Failure (List Region) :=
  match withPlaceholder t placeholder with
  | .error failure => .error failure
  | .ok padded =>
      match InlineScan.ofText charset padded with
      | .error failure => .error failure
      | .ok (.manifest _ marker) =>
          match charset.encode padded with
          | .error fault => .error (.charset fault)
          | .ok data => .ok (regionsAround marker.offset marker.stop data.length)
      | .ok _ => .error .elementLost

/-- The hash of a document over all but its payload text. -/
structure DataHash where
  regions : List Region
  total : Nat
  excluded : Bytes
  digest : String

/-- Measures and hashes a document, after checking that the regions cover it. -/
def dataHash [Platform] (charset : Charset) (t : Text) (placeholder : Bytes) (algorithm : String) :
    Except Failure DataHash :=
  match withPlaceholder t placeholder, hashRegions charset t placeholder with
  | .error failure, _ => .error failure
  | _, .error failure => .error failure
  | .ok padded, .ok regions =>
      match charset.encode padded with
      | .error fault => .error (.charset fault)
      | .ok data =>
          match Region.checkPartition regions data.length with
          | .error fault => .error (.region fault)
          | .ok () =>
              match Region.digestIncluded data regions algorithm with
              | .error fault => .error (.region fault)
              | .ok digest =>
                  let excluded := (Region.ofKind .excluded regions).flatMap fun r =>
                    Region.slice data r.offset r.stop
                  .ok ⟨regions, data.length, excluded, digest⟩

end PageManifest.Inline
