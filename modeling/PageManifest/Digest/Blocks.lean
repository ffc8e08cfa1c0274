import PageManifest.Charset.Wide

/-!
# Message blocks

The digests below all work on blocks of fixed size.  A message is followed by the
octet 0x80, by zeros up to the place of the length field in a last block, and by
its length in bits.
-/

namespace PageManifest.Digest

/-- The octets of a number, `width` of them, most significant first. -/
def bigEndian : (width : Nat) → Nat → Bytes
  | 0, _ => []
  | width + 1, n => bigEndian width (n / 256) ++ [UInt8.ofNat (n % 256)]

/-- The octets of a number in either order. -/
def octetsOf (order : Charset.ByteOrder) (width n : Nat) : Bytes :=
  order.arrange (bigEndian width n)

/-- The number that octets denote, most significant first. -/
def number (octets : Bytes) : Nat :=
  octets.foldl (fun acc b => acc * 256 + b.toNat) 0

/-- The number that octets denote in either order. -/
def numberOf (order : Charset.ByteOrder) (octets : Bytes) : Nat :=
  number (order.arrange octets)

/-- How a digest cuts a message into blocks, and blocks into words. -/
structure Layout where
  blockSize : Nat
  wordSize : Nat
  lengthSize : Nat
  order : Charset.ByteOrder

/-- Cuts octets into pieces of `size`; as many pieces as there are octets suffice. -/
def pieces (size : Nat) : (fuel : Nat) → Bytes → List Bytes
  | 0, _ => []
  | _ + 1, [] => []
  | fuel + 1, bytes => bytes.take size :: pieces size fuel (bytes.drop size)

def Layout.padded (l : Layout) (message : Bytes) : Bytes :=
  let used := (message.length + 1 + l.lengthSize) % l.blockSize
  let zeros := (l.blockSize - used) % l.blockSize
  message ++ 0x80 :: List.replicate zeros 0 ++
    octetsOf l.order l.lengthSize (message.length * 8)

/-- The blocks of a message, each as its words. -/
def Layout.blocks (l : Layout) (message : Bytes) : List (List Nat) :=
  let bytes := l.padded message
  (pieces l.blockSize bytes.length bytes).map fun block =>
    (pieces l.wordSize block.length block).map (numberOf l.order)

end PageManifest.Digest
