import Multipass.Digest.Sha256
import Multipass.Shell.Program.Format

/-!
# Programs for bytes

Programs that write bytes in other forms: in digits, in the letters of base 64, and as digests.
-/

namespace Multipass.Shell

/-! ### Base 64 -/

/-- The letters of base 64 in their order. -/
def base64Letters : Array UInt8 :=
  (bytesOf "ABCDEFGHIJKLMNOPQRSTUVWXYZabcdefghijklmnopqrstuvwxyz0123456789+/").toArray

/-- Bytes in base 64. -/
def toBase64 : Bytes → Bytes
  | [] => []
  | [a] => letters 2 [a, 0, 0] ++ [61, 61]
  | [a, b] => letters 3 [a, b, 0] ++ [61]
  | a :: b :: c :: rest => letters 4 [a, b, c] ++ toBase64 rest
where
  letters (count : Nat) (s : Bytes) : Bytes :=
    let n := s.foldl (fun n b => 256 * n + b.toNat) 0
    ([n / 262144 % 64, n / 4096 % 64, n / 64 % 64, n % 64].take count).map fun i =>
      base64Letters.getD i 61

/-- The bytes that groups of letters stand for, and whether all of them were read. -/
def ofBase64 (s : Bytes) : Bytes × Bool :=
  let value? (b : UInt8) : Option Nat := base64Letters.toList.idxOf? b
  let rec go : (fuel : Nat) → Bytes → Bytes × Bool
    | 0, _ => ([], true)
    | _, [] => ([], true)
    | fuel + 1, s =>
      let group := s.take 4
      let letters := group.takeWhile fun b => (value? b).isSome
      let n := (letters.filterMap value?).foldl (fun n d => 64 * n + d) 0
      let rest := s.drop 4
      let bytes (n count : Nat) : Bytes :=
        ([n / 65536 % 256, n / 256 % 256, n % 256].take count).map UInt8.ofNat
      match letters.length, group.drop letters.length with
      | 4, _ =>
        let (others, fine) := go fuel rest
        (bytes n 3 ++ others, fine)
      | 3, [61] =>
        let (others, fine) := go fuel rest
        (bytes (n * 64) 2 ++ others, fine)
      | 2, [61, 61] =>
        let (others, fine) := go fuel rest
        (bytes (n * 4096) 1 ++ others, fine)
      | 3, _ => (bytes (n * 64) 2, false)
      | 2, _ => (bytes (n * 4096) 1, false)
      | _, _ => ([], false)
  go (s.length + 1) s

/-- Lines of at most some bytes. -/
def wrapped (width : Nat) (s : Bytes) : Bytes :=
  let rec go : (fuel : Nat) → Bytes → Bytes
    | 0, _ => []
    | _, [] => []
    | fuel + 1, s => s.take width ++ newlineByte :: go fuel (s.drop width)
  if width = 0 then s else go (s.length + 1) s

/-- Writes bytes in base 64, or the bytes that base 64 stands for. -/
def base64 : Program :=
  let options : Options := {
    name := "base64"
    flags := "di".toList
    valued := "w".toList
    words := [("decode", 'd'), ("ignore-garbage", 'i'), ("wrap", 'w')] }
  options.program fun g call =>
    match g.operands with
    | _ :: other :: _ => options.complaint s!"extra operand '{textOf other}'"
    | files =>
      let file := files.headD inputName
      match call.read file with
      | .error reason => Effect.complains 1 s!"base64: {textOf file}: {reason}"
      | .ok s =>
        let left := leftBehind [file]
        if g.has 'd' then
          let plain := s.filter fun b =>
            if g.has 'i' then base64Letters.contains b || b = 61 else b != newlineByte
          let (out, fine) := ofBase64 plain
          if fine then { Effect.say out with left }
          else { (Effect.say out).followedBy (Effect.complains 1 "base64: invalid input") with left }
        else
          let width := ((g.value? 'w').bind natural?).getD 76
          { Effect.say (wrapped width (toBase64 s)) with left }

/-! ### Digests -/

/-- A word turned to the left. -/
def turnLeft (x n : UInt32) : UInt32 :=
  (x <<< n) ||| (x >>> (32 - n))

/-- Bytes with a one, zeros, and their length, in blocks of sixty-four bytes. -/
def paddedBlocks (littleEnd : Bool) (s : Bytes) : List Bytes :=
  let zeros := (119 - s.length % 64) % 64
  let length := Digest.bigEndian 8 (8 * s.length)
  let all := s ++ 128 :: List.replicate zeros 0 ++ (if littleEnd then length.reverse else length)
  let rec go : (fuel : Nat) → Bytes → List Bytes
    | 0, _ => []
    | _, [] => []
    | fuel + 1, s => s.take 64 :: go fuel (s.drop 64)
  go (all.length / 64 + 1) all

/-- The words of bytes, four bytes each. -/
def blockWords (littleEnd : Bool) : Bytes → List UInt32
  | a :: b :: c :: d :: rest =>
    let parts := if littleEnd then [d, c, b, a] else [a, b, c, d]
    UInt32.ofNat (parts.foldl (fun n x => 256 * n + x.toNat) 0) :: blockWords littleEnd rest
  | _ => []

/-- The constants of the rounds of a digest of sixteen bytes. -/
def md5Constants : Array UInt32 :=
  #[
    0xd76aa478, 0xe8c7b756, 0x242070db, 0xc1bdceee, 0xf57c0faf, 0x4787c62a,
    0xa8304613, 0xfd469501, 0x698098d8, 0x8b44f7af, 0xffff5bb1, 0x895cd7be,
    0x6b901122, 0xfd987193, 0xa679438e, 0x49b40821, 0xf61e2562, 0xc040b340,
    0x265e5a51, 0xe9b6c7aa, 0xd62f105d, 0x02441453, 0xd8a1e681, 0xe7d3fbc8,
    0x21e1cde6, 0xc33707d6, 0xf4d50d87, 0x455a14ed, 0xa9e3e905, 0xfcefa3f8,
    0x676f02d9, 0x8d2a4c8a, 0xfffa3942, 0x8771f681, 0x6d9d6122, 0xfde5380c,
    0xa4beea44, 0x4bdecfa9, 0xf6bb4b60, 0xbebfbc70, 0x289b7ec6, 0xeaa127fa,
    0xd4ef3085, 0x04881d05, 0xd9d4d039, 0xe6db99e5, 0x1fa27cf8, 0xc4ac5665,
    0xf4292244, 0x432aff97, 0xab9423a7, 0xfc93a039, 0x655b59c3, 0x8f0ccc92,
    0xffeff47d, 0x85845dd1, 0x6fa87e4f, 0xfe2ce6e0, 0xa3014314, 0x4e0811a1,
    0xf7537e82, 0xbd3af235, 0x2ad7d2bb, 0xeb86d391
  ]

/-- How far words are turned in the rounds. -/
def md5Turns : Array UInt32 :=
  #[7, 12, 17, 22, 5, 9, 14, 20, 4, 11, 16, 23, 6, 10, 15, 21]

/-- A digest of sixteen bytes. -/
def md5 (s : Bytes) : Bytes :=
  let block (state : UInt32 × UInt32 × UInt32 × UInt32) (bytes : Bytes) :=
    let words := (blockWords true bytes).toArray
    let (a, b, c, d) := (List.range 64).foldl
      (fun ((a, b, c, d) : UInt32 × UInt32 × UInt32 × UInt32) i =>
        let (f, g) : UInt32 × Nat :=
          if i < 16 then ((b &&& c) ||| (~~~b &&& d), i)
          else if i < 32 then ((d &&& b) ||| (~~~d &&& c), (5 * i + 1) % 16)
          else if i < 48 then (b ^^^ c ^^^ d, (3 * i + 5) % 16)
          else (c ^^^ (b ||| ~~~d), (7 * i) % 16)
        let sum := a + f + md5Constants.getD i 0 + words.getD g 0
        (d, b + turnLeft sum (md5Turns.getD (4 * (i / 16) + i % 4) 0), b, c)) state
    (state.1 + a, state.2.1 + b, state.2.2.1 + c, state.2.2.2 + d)
  let (a, b, c, d) := (paddedBlocks true s).foldl block
    ((0x67452301, 0xefcdab89, 0x98badcfe, 0x10325476) : UInt32 × UInt32 × UInt32 × UInt32)
  [a, b, c, d].flatMap fun w => (Digest.bigEndian 4 w.toNat).reverse

/-- A digest of twenty bytes. -/
def sha1 (s : Bytes) : Bytes :=
  let block (state : UInt32 × UInt32 × UInt32 × UInt32 × UInt32) (bytes : Bytes) :=
    let words := (List.range 64).foldl (fun (ws : Array UInt32) i =>
      let w (k : Nat) : UInt32 := ws.getD (i + 16 - k) 0
      ws.push (turnLeft (w 3 ^^^ w 8 ^^^ w 14 ^^^ w 16) 1)) (blockWords false bytes).toArray
    let (a, b, c, d, e) := (List.range 80).foldl
      (fun ((a, b, c, d, e) : UInt32 × UInt32 × UInt32 × UInt32 × UInt32) i =>
        let (f, k) : UInt32 × UInt32 :=
          if i < 20 then ((b &&& c) ||| (~~~b &&& d), 0x5a827999)
          else if i < 40 then (b ^^^ c ^^^ d, 0x6ed9eba1)
          else if i < 60 then ((b &&& c) ||| (b &&& d) ||| (c &&& d), 0x8f1bbcdc)
          else (b ^^^ c ^^^ d, 0xca62c1d6)
        (turnLeft a 5 + f + e + k + words.getD i 0, a, turnLeft b 30, c, d)) state
    (state.1 + a, state.2.1 + b, state.2.2.1 + c, state.2.2.2.1 + d, state.2.2.2.2 + e)
  let (a, b, c, d, e) := (paddedBlocks false s).foldl block
    ((0x67452301, 0xefcdab89, 0x98badcfe, 0x10325476, 0xc3d2e1f0) :
      UInt32 × UInt32 × UInt32 × UInt32 × UInt32)
  [a, b, c, d, e].flatMap fun w => Digest.bigEndian 4 w.toNat

/-- Writes the digests of files. -/
def digests (name : String) (digest : Bytes → Bytes) : Program :=
  Options.program { name, flags := "bctwz".toList } fun g call =>
    let files := orInput g.operands
    { Effect.all (files.map fun file =>
        match call.read file with
        | .ok s => Effect.say (bytesOf (Digest.hex (digest s)) ++ bytesOf "  " ++ file ++ [newlineByte])
        | .error reason => Effect.complains 1 s!"{name}: {textOf file}: {reason}") with
      left := leftBehind files }

/-- A checksum of bytes and of their length. -/
def checksum (s : Bytes) : Nat :=
  let step (crc : UInt32) (b : UInt8) : UInt32 :=
    (List.range 8).foldl (fun (c : UInt32) _ =>
      if c &&& 0x80000000 = 0 then c <<< 1 else (c <<< 1) ^^^ 0x04c11db7)
      (crc ^^^ (UInt32.ofNat b.toNat <<< 24))
  let rec length : (fuel : Nat) → Nat → Bytes
    | 0, _ => []
    | fuel + 1, n => if n = 0 then [] else UInt8.ofNat (n % 256) :: length fuel (n / 256)
  (~~~((s ++ length 8 s.length).foldl step 0)).toNat

/-- Writes the checksums of files. -/
def cksum : Program :=
  Options.program { name := "cksum" } fun g call =>
    let files := orInput g.operands
    { Effect.all (files.map fun file =>
        match call.read file with
        | .ok s =>
          let title := if g.operands.isEmpty then [] else 32 :: file
          Effect.say (bytesOf s!"{checksum s} {s.length}" ++ title ++ [newlineByte])
        | .error reason => Effect.complains 1 s!"cksum: {textOf file}: {reason}") with
      left := leftBehind files }

/-! ### Dumps -/

/-- How bytes are dumped. -/
structure DumpFormat where
  /-- The kind of the digits: octal, hexadecimal, decimal with a sign or without, or characters. -/
  kind : Char
  size : Nat := 1

/-- Digits of a number to a base, filled up with zeros. -/
def zeroFilled (width base n : Nat) : Bytes :=
  let ds := Nat.toDigits base n
  bytesOf (String.ofList (List.replicate (width - ds.length) '0' ++ ds))

/-- The width of a dumped item. -/
def DumpFormat.width (f : DumpFormat) : Nat :=
  match f.kind with
  | 'c' => 4
  | 'a' => 4
  | 'x' => 1 + 2 * f.size
  | 'o' => 1 + (8 * f.size + 2) / 3
  | 'd' => [(1, 5), (2, 7), (4, 12), (8, 21)].lookup f.size |>.getD 12
  | _ => [(1, 4), (2, 6), (4, 11), (8, 21)].lookup f.size |>.getD 11

/-- A byte as a character or an escape. -/
def dumpedChar (b : UInt8) : Bytes :=
  match [(0, "\\0"), (7, "\\a"), (8, "\\b"), (12, "\\f"), (10, "\\n"), (13, "\\r"), (9, "\\t"),
    (11, "\\v")].lookup b with
  | some t => bytesOf t
  | none => if 32 ≤ b && b < 127 then [b] else zeroFilled 3 8 b.toNat

/-- The names of control characters. -/
def controlNames : List String :=
  ["nul", "soh", "stx", "etx", "eot", "enq", "ack", "bel", "bs", "ht", "nl", "vt", "ff", "cr", "so",
    "si", "dle", "dc1", "dc2", "dc3", "dc4", "nak", "syn", "etb", "can", "em", "sub", "esc", "fs",
    "gs", "rs", "us", "sp"]

/-- An item of a dump. -/
def DumpFormat.item (f : DumpFormat) (s : Bytes) : Bytes :=
  let n := s.reverse.foldl (fun n b => 256 * n + b.toNat) 0
  let text : Bytes := match f.kind with
    | 'c' => dumpedChar (s.headD 0)
    | 'a' =>
      let b := (s.headD 0).toNat % 128
      if b = 127 then bytesOf "del" else ((controlNames[b]?).map bytesOf).getD [UInt8.ofNat b]
    | 'x' => zeroFilled (2 * f.size) 16 n
    | 'o' => zeroFilled ((8 * f.size + 2) / 3) 8 n
    | 'd' =>
      let half := Nat.pow 2 (8 * f.size - 1)
      bytesOf (toString (if n < half then (n : Int) else (n : Int) - 2 * half))
    | _ => decimal n
  padFront f.width text

/-- Lists of a fixed number of bytes. -/
def groupsOf (size : Nat) (s : Bytes) : List Bytes :=
  let rec go : (fuel : Nat) → Bytes → List Bytes
    | 0, _ => []
    | _, [] => []
    | fuel + 1, s => s.take (max 1 size) :: go fuel (s.drop (max 1 size))
  go (s.length + 1) s

/-- The formats that a type spells. -/
def dumpFormats : (fuel : Nat) → Bytes → Option (List DumpFormat)
  | 0, _ => none
  | _, [] => some []
  | fuel + 1, b :: s =>
    let kind := charOf b
    let ds := s.takeWhile isDigitByte
    let rest := s.drop ds.length
    if kind = 'c' || kind = 'a' then (dumpFormats fuel s).map ({ kind } :: ·)
    else if ['x', 'o', 'd', 'u'].contains kind then
      let (size, rest) : Nat × Bytes := match natural? ds, rest with
        | some n, rest => (n, rest)
        | none, 67 :: rest => (1, rest)
        | none, 83 :: rest => (2, rest)
        | none, 73 :: rest => (4, rest)
        | none, 76 :: rest => (8, rest)
        | none, rest => (4, rest)
      if [1, 2, 4, 8].contains size then (dumpFormats fuel rest).map ({ kind, size } :: ·) else none
    else none

/-- The lines of a dump; a line like the one before is left out, and a star stands for such lines. -/
def dumpLines (address : Nat → Bytes) (formats : List DumpFormat) (all : Bool) (start : Nat) :
    (before : Option Bytes) → (starred : Bool) → List Bytes → List Bytes
  | _, _, [] => []
  | before, starred, s :: rest =>
    let next := start + s.length
    if !all && before = some s && !rest.isEmpty then
      (if starred then [] else [[42]]) ++ dumpLines address formats all next before true rest
    else
      -- All formats of a byte are as wide as the widest of them.
      let perByte (f : DumpFormat) : Nat := (f.width + f.size - 1) / f.size
      let widest := (formats.map perByte).foldl max 0
      let one (f : DumpFormat) : Bytes :=
        (groupsOf f.size s).flatMap fun g =>
          let filled := g ++ List.replicate (f.size - g.length) 0
          padFront (widest * f.size) (f.item filled)
      let front := address start
      let lines := formats.zipIdx.map fun (f, i) =>
        (if i = 0 then front else List.replicate front.length 32) ++ one f
      lines ++ dumpLines address formats all next (some s) false rest

/-- Dumps files. -/
def od : Program :=
  let options : Options := {
    name := "od"
    flags := "abcdovxsi".toList
    valued := "AtNjw".toList
    words := [("address-radix", 'A'), ("format", 't'), ("read-bytes", 'N'), ("skip-bytes", 'j'),
      ("output-duplicates", 'v'), ("width", 'w')] }
  options.program fun g call =>
    let formats? := (g.options.filterMap fun (c, value) => match c with
      | 'a' => some (some [{ kind := 'a' }])
      | 'b' => some (some [{ kind := 'o' }])
      | 'c' => some (some [{ kind := 'c' }])
      | 'd' => some (some [{ kind := 'u', size := 2 }])
      | 'o' => some (some [{ kind := 'o', size := 2 }])
      | 'x' => some (some [{ kind := 'x', size := 2 }])
      | 's' => some (some [{ kind := 'd', size := 2 }])
      | 'i' => some (some [{ kind := 'd', size := 4 }])
      | 't' => some (dumpFormats (value.length + 1) value)
      | _ => none).mapM id
    match formats? with
    | none =>
      let type := textOf ((g.value? 't').getD [])
      options.complaint s!"invalid type string '{type}'"
    | some lists =>
      let formats : List DumpFormat :=
        if lists.isEmpty then [{ kind := 'o', size := 2 }] else lists.flatten
      let files := orInput g.operands
      let (content, e) := readTogether "od" 1 call files
      let skip := ((g.value? 'j').bind natural?).getD 0
      let content := content.drop skip
      let content := match (g.value? 'N').bind natural? with
        | some n => content.take n
        | none => content
      let width := ((g.value? 'w').bind natural?).getD 16
      let radix := (g.value? 'A').map textOf
      let address (n : Nat) : Bytes := match radix with
        | some "n" => []
        | some "d" => zeroFilled 7 10 n
        | some "x" => zeroFilled 6 16 n
        | _ => zeroFilled 7 8 n
      let lines := dumpLines address formats (g.has 'v') skip none false (groupsOf width content)
      let last := if radix = some "n" then [] else [address (skip + content.length)]
      (Effect.say (joinLineEnds (lines ++ last))).followedBy e

end Multipass.Shell
