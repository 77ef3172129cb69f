/-!
# UTF-8

Reading bytes as text, strictly or with `U+FFFD` in the place of each maximal malformed sequence,
and the longest end of a text that fits a number of bytes, which begins at a boundary between
characters.
-/

namespace Multipass.Text

/-- The number of bytes a text takes in UTF-8. -/
def byteCount (s : List Char) : Nat :=
  s.foldr (fun c n => c.utf8Size + n) 0

theorem byteCount_cons (c : Char) (s : List Char) :
    byteCount (c :: s) = c.utf8Size + byteCount s := rfl

/-- How a sequence goes on behind its first byte: the number of bytes still owed, the range of the
first of them, and the bits the first byte gives to the code point. -/
structure Lead where
  owed : Nat
  low : Nat
  high : Nat
  bits : Nat

/-- The sequences that a first byte opens; no sequence starts with a continuation byte, with
`C0`, `C1`, or with a byte from `F5` on. -/
def lead? (b : Nat) : Option Lead :=
  if b < 0x80 then some ⟨0, 0x80, 0xbf, b⟩
  else if b < 0xc2 then none
  else if b < 0xe0 then some ⟨1, 0x80, 0xbf, b - 0xc0⟩
  else if b == 0xe0 then some ⟨2, 0xa0, 0xbf, 0⟩
  else if b == 0xed then some ⟨2, 0x80, 0x9f, 13⟩
  else if b < 0xf0 then some ⟨2, 0x80, 0xbf, b - 0xe0⟩
  else if b == 0xf0 then some ⟨3, 0x90, 0xbf, 0⟩
  else if b < 0xf4 then some ⟨3, 0x80, 0xbf, b - 0xf0⟩
  else if b == 0xf4 then some ⟨3, 0x80, 0x8f, 4⟩
  else none

/-- Where reading stands: between characters, or within a sequence of which `owed` bytes are
missing, the next of them from `low` to `high`. -/
inductive Utf8State where
  | between
  | within (owed low high bits : Nat)

/-- The state behind a first byte, and the character it already completes. -/
def openSequence (b : Nat) : Option (Utf8State × Option Char) :=
  match lead? b with
  | none => none
  | some ⟨0, _, _, bits⟩ => some (.between, some (Char.ofNat bits))
  | some ⟨owed, low, high, bits⟩ => some (.within owed low high bits, none)

/-- The stand-in for bytes that are no text. -/
def replacement : Char := Char.ofNat 0xfffd

/-- Reads bytes from a state. With `lossy`, malformed sequences become `U+FFFD`; otherwise they
refuse the whole text. -/
def decodeFrom (lossy : Bool) : Utf8State → List UInt8 → Option (List Char)
  | .between, [] => some []
  | .within .., [] => if lossy then some [replacement] else none
  | .between, b :: bs =>
    match openSequence b.toNat with
    | some (state, some c) => (decodeFrom lossy state bs).map (c :: ·)
    | some (state, none) => decodeFrom lossy state bs
    | none => if lossy then (decodeFrom lossy .between bs).map (replacement :: ·) else none
  | .within owed low high bits, b :: bs =>
    let n := b.toNat
    if low ≤ n && n ≤ high then
      let bits := bits * 64 + (n - 0x80)
      if owed ≤ 1 then (decodeFrom lossy .between bs).map (Char.ofNat bits :: ·)
      else decodeFrom lossy (.within (owed - 1) 0x80 0xbf bits) bs
    else if lossy then
      match openSequence n with
      | some (state, some c) => (decodeFrom lossy state bs).map (replacement :: c :: ·)
      | some (state, none) => (decodeFrom lossy state bs).map (replacement :: ·)
      | none => (decodeFrom lossy .between bs).map (replacement :: replacement :: ·)
    else none

/-- The text of well-formed bytes. -/
def decode? (bytes : List UInt8) : Option String :=
  (decodeFrom false .between bytes).map String.ofList

/-- The text of any bytes, with `U+FFFD` for each maximal malformed sequence. -/
def decodeLossy (bytes : List UInt8) : String :=
  String.ofList ((decodeFrom true .between bytes).getD [])

/-- The bytes of a text. -/
def encode (s : String) : List UInt8 :=
  s.toUTF8.toList

/-! ### Ends of a text -/

/-- Holds of a byte that goes on with a character which a byte before it began. -/
def isContinuation (b : UInt8) : Bool :=
  0x80 ≤ b.toNat && b.toNat < 0xc0

/-- Holds of a place in the bytes of a text where a character begins or the text ends. -/
def isBoundary (bytes : List UInt8) (place : Nat) : Bool :=
  match bytes[place]? with
  | some b => place = 0 || !isContinuation b
  | none => place = bytes.length

/-- The first boundary from a place on. Beyond the end of the text there is none, and a search that
came there would never end. -/
def boundaryFrom (bytes : List UInt8) (place : Nat) : Option Nat :=
  if isBoundary bytes place then some place
  else if place < bytes.length then boundaryFrom bytes (place + 1)
  else none
termination_by bytes.length - place

/-- The text of the bytes from a boundary on; a place within a character is refused. -/
def sliceFrom? (bytes : List UInt8) (place : Nat) : Option String :=
  if isBoundary bytes place then decode? (bytes.drop place) else none

/-- The longest end of a text that takes at most `limit` bytes. -/
def tail? (limit : Nat) (s : String) : Option String :=
  let bytes := encode s
  if bytes.length ≤ limit then some s
  else (boundaryFrom bytes (bytes.length - limit)).bind (sliceFrom? bytes)

end Multipass.Text
