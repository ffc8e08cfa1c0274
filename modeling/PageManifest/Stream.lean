import PageManifest.Text.Basic

/-!
# Streams of octets

A stream is read and written at its position, which then moves behind what was read
or written.  Documents on streams are read and replaced as a whole, wherever the
position was before.
-/

namespace PageManifest

/-- A stream with its position, which may lie behind the last octet. -/
structure OctetStream where
  content : Bytes
  position : Nat
  deriving DecidableEq, Repr

namespace OctetStream

def seek (s : OctetStream) (position : Nat) : OctetStream :=
  { s with position := position }

/-- The octets from the position on, and the stream once they are read. -/
def read (s : OctetStream) : Bytes × OctetStream :=
  (s.content.drop s.position, s.seek (max s.position s.content.length))

/-- Writes over what is there; a gap in front of the position is filled with zeros. -/
def write (s : OctetStream) (data : Bytes) : OctetStream :=
  if data.isEmpty then s
  else
    let gap := List.replicate (s.position - s.content.length) 0
    ⟨(s.content ++ gap).take s.position ++ (data ++ s.content.drop (s.position + data.length)),
      s.position + data.length⟩

/-- Drops what is behind the position. -/
def truncate (s : OctetStream) : OctetStream :=
  { s with content := s.content.take s.position }

/-- All octets of a stream, and the stream once they are read. -/
def readAll (s : OctetStream) : Bytes × OctetStream :=
  (s.seek 0).read

/-- A stream with another content. -/
def replace (s : OctetStream) (data : Bytes) : OctetStream :=
  ((s.seek 0).write data).truncate

@[simp] theorem readAll_eq (s : OctetStream) :
    s.readAll = (s.content, s.seek s.content.length) := by
  simp [readAll, read, seek]

/-- Nothing is left of the old content, and the position is behind the new one. -/
@[simp] theorem replace_eq (s : OctetStream) (data : Bytes) :
    s.replace data = ⟨data, data.length⟩ := by
  cases data <;> simp [replace, truncate, write, seek]

end OctetStream

end PageManifest
