import PageManifest.Charset.SingleOctet
import PageManifest.Charset.Wide

/-!
# Text codings

A coding writes an optional byte-order mark and then each character on its own,
so the encoded form of a joined text is the mark followed by the joined octets of
its parts.  Reading takes a mark off, if there is one, and then reads character
by character up to the first fault.
-/

namespace PageManifest.Charset

/-- The codings in which documents can be read and written. -/
inductive Codec
  | ascii
  | latin1
  | western
  | utf8
  | utf8Marked
  | utf16
  | utf16Fixed (order : ByteOrder)
  | utf32
  | utf32Fixed (order : ByteOrder)
  deriving DecidableEq, Repr

namespace Codec

/-- The byte-order mark in front of an encoded text. -/
def mark : Codec → Bytes
  | utf8Marked => [0xef, 0xbb, 0xbf]
  | utf16 => [0xff, 0xfe]
  | utf32 => [0xff, 0xfe, 0, 0]
  | _ => []

/-- Whether a character has an encoded form. -/
def encodes : Codec → Char → Bool
  | ascii, c => c.toNat < 0x80
  | latin1, c => c.toNat < 0x100
  | western, c => (Western.octet? c).isSome
  | _, _ => true

/-- The octets of a character, none if it has no encoded form. -/
def octets : Codec → Char → Bytes
  | ascii, c => if c.toNat < 0x80 then [UInt8.ofNat c.toNat] else []
  | latin1, c => if c.toNat < 0x100 then [UInt8.ofNat c.toNat] else []
  | western, c => (Western.octet? c).toList
  | utf8, c => Utf8.octets c
  | utf8Marked, c => Utf8.octets c
  | utf16, c => Utf16.octets .little c
  | utf16Fixed order, c => Utf16.octets order c
  | utf32, c => Utf32.octets .little c
  | utf32Fixed order, c => Utf32.octets order c

/-- The name that faults of encoding give. -/
def label : Codec → String
  | ascii => "ascii"
  | latin1 => "latin-1"
  | western => "charmap"
  | utf8 => "utf-8"
  | utf8Marked => "utf-8"
  | utf16 => "utf-16"
  | utf16Fixed .little => "utf-16-le"
  | utf16Fixed .big => "utf-16-be"
  | utf32 => "utf-32"
  | utf32Fixed .little => "utf-32-le"
  | utf32Fixed .big => "utf-32-be"

/-- Why a character without an encoded form has none. -/
def whyUnencodable : Codec → Unencodable
  | ascii => .beyond 128
  | latin1 => .beyond 256
  | _ => .unassigned

/-- The octets of a text without the mark. -/
def body (k : Codec) (t : Text) : Bytes :=
  t.flatMap k.octets

/-- The encoded text, or the first run of characters without an encoded form. -/
def encode (k : Codec) (t : Text) : Except EncodeFault Bytes :=
  match t.dropWhile k.encodes with
  | [] => .ok (k.mark ++ k.body t)
  | bad =>
      .error ⟨k.label, (t.takeWhile k.encodes).length, bad.takeWhile (!k.encodes ·),
        k.whyUnencodable⟩

/-- Reads one character; the octet order of a coding with a mark is `order`. -/
def step (k : Codec) (order : ByteOrder) : UInt8 → Bytes → Step :=
  match k with
  | ascii => Ascii.step
  | latin1 => Latin1.step
  | western => Western.step
  | utf8 | utf8Marked => Utf8.step
  | utf16 => Utf16.step order
  | utf16Fixed order => Utf16.step order
  | utf32 => Utf32.step order
  | utf32Fixed order => Utf32.step order

/--
Reads octets to their end, which lies at the place `finish`.  `seen` holds the
characters so far in reverse.  Every step takes at least one octet, so as many
steps as there are octets suffice.
-/
def readAll (coding : String) (step : UInt8 → Bytes → Step) (finish : Nat) :
    (fuel : Nat) → (seen : Text) → Bytes → Except DecodeFault Text
  | _, seen, [] => .ok seen.reverse
  | 0, seen, _ => .ok seen.reverse
  | fuel + 1, seen, b :: rest =>
      match step b rest with
      | .ok (c, rest') => readAll coding step finish fuel (c :: seen) rest'
      | .error (count, reason) =>
          .error ⟨coding, finish - (rest.length + 1), (b :: rest).take count, reason⟩

/-- The octet order announced at the start of the octets, and what follows the mark. -/
def takeMark (k : Codec) (bytes : Bytes) : ByteOrder × Bytes :=
  match k, bytes with
  | utf8Marked, 0xef :: 0xbb :: 0xbf :: rest => (.little, rest)
  | utf16, 0xff :: 0xfe :: rest => (.little, rest)
  | utf16, 0xfe :: 0xff :: rest => (.big, rest)
  | utf32, 0xff :: 0xfe :: 0 :: 0 :: rest => (.little, rest)
  | utf32, 0 :: 0 :: 0xfe :: 0xff :: rest => (.big, rest)
  | _, _ => (.little, bytes)

/-- The name that faults of decoding give: it tells the octet order that was found. -/
def readLabel (k : Codec) (order : ByteOrder) : String :=
  match k with
  | utf16 => (utf16Fixed order).label
  | utf32 => (utf32Fixed order).label
  | k => k.label

/-- Where octets end for a fault: a mark counts as data only where it tells the octet order. -/
def finish (k : Codec) (bytes rest : Bytes) : Nat :=
  match k with
  | utf8Marked => rest.length
  | _ => bytes.length

/-- The text that octets encode, or the first octets that encode none. -/
def decode (k : Codec) (bytes : Bytes) : Except DecodeFault Text :=
  let (order, rest) := k.takeMark bytes
  readAll (k.readLabel order) (k.step order) (k.finish bytes rest) rest.length [] rest

@[simp] theorem body_nil (k : Codec) : k.body [] = [] := rfl

@[simp] theorem body_append (k : Codec) (s t : Text) : k.body (s ++ t) = k.body s ++ k.body t := by
  simp [body]

/-- A text is encoded exactly if each of its characters has an encoded form. -/
theorem encode_eq_ok_iff {k : Codec} {t : Text} {bytes : Bytes} :
    k.encode t = .ok bytes ↔ (∀ c ∈ t, k.encodes c = true) ∧ bytes = k.mark ++ k.body t := by
  unfold encode
  cases hd : t.dropWhile k.encodes with
  | nil =>
      have all : ∀ c ∈ t, k.encodes c = true := by
        have ht := List.takeWhile_append_dropWhile (p := k.encodes) (l := t)
        rw [hd, List.append_nil] at ht
        rw [← ht]
        exact List.all_eq_true.mp List.all_takeWhile
      constructor
      · intro h
        injection h with h
        exact ⟨all, h.symm⟩
      · rintro ⟨_, rfl⟩
        rfl
  | cons c rest =>
      have bad : ¬ k.encodes c = true := by
        have hh := List.head?_dropWhile_not k.encodes t
        rw [hd] at hh
        simpa using hh
      have mem : c ∈ t := (List.dropWhile_sublist k.encodes).subset (by rw [hd]; simp)
      constructor
      · intro h
        cases h
      · intro h
        exact absurd (h.1 c mem) bad

end Codec

end PageManifest.Charset
