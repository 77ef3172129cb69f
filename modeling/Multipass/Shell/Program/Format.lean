import Multipass.Number.Decimal
import Multipass.Shell.Program.Basic

/-!
# Formatted output

Arguments laid out by a format: escapes by a backslash, and directives with flags, a width, and a
precision. A format is used again while arguments are left. The shell and the system each have a
program for it; they differ in some escapes, in the precision of their numbers, and in what they
say about arguments that are no numbers.
-/

namespace Multipass.Shell

open Number

/-! ### Escapes -/

/-- The value of a byte as an octal digit. -/
def octal? (b : UInt8) : Option Nat :=
  if 48 ≤ b && b ≤ 55 then some (b.toNat - 48) else none

/-- The value of a byte as a hexadecimal digit. -/
def hexadecimal? (b : UInt8) : Option Nat :=
  if 48 ≤ b && b ≤ 57 then some (b.toNat - 48)
  else if 97 ≤ b && b ≤ 102 then some (b.toNat - 87)
  else if 65 ≤ b && b ≤ 70 then some (b.toNat - 55)
  else none

/-- The number of up to `count` digits to a base, and what is left. -/
def digitsUpTo (base : Nat) (digit? : UInt8 → Option Nat) : (count value : Nat) → Bytes → Nat × Bytes
  | 0, value, s => (value, s)
  | _, value, [] => (value, [])
  | count + 1, value, b :: s =>
    match digit? b with
    | some d => digitsUpTo base digit? count (base * value + d) s
    | none => (value, b :: s)

/-- Who lays out. -/
inductive Dialect where
  /-- The shell. -/
  | shell
  /-- A program of the system. -/
  | system
  deriving DecidableEq, Repr

/-- Where an escape stands. -/
inductive EscapePlace where
  /-- In a format. -/
  | format
  /-- In an argument. -/
  | argument
  deriving DecidableEq, Repr

/-- The byte of a letter behind a backslash. -/
def letterEscape? (d : Dialect) (b : UInt8) : Option UInt8 :=
  let common := [('a', 7), ('b', 8), ('f', 12), ('n', 10), ('r', 13), ('t', 9), ('v', 11),
    ('\\', 92)]
  (if d = .system then ('e', 27) :: common else common).lookup (charOf b)

/-- The bytes of an escape behind its backslash and what is left, or nothing if it asks to end all
output. -/
def escapeBytes? (d : Dialect) (place : EscapePlace) (s : Bytes) : Option (Bytes × Bytes) :=
  match s with
  | [] => some ([92], [])
  | b :: rest =>
    match letterEscape? d b with
    | some e => some ([e], rest)
    | none =>
      let c := charOf b
      if c = 'c' && (place = .argument || d = .system) then none
      else if c = '0' && place = .argument then
        let (n, rest) := digitsUpTo 8 octal? 3 0 rest
        some ([UInt8.ofNat n], rest)
      else if (octal? b).isSome && (place = .format || d = .system) then
        let (n, rest) := digitsUpTo 8 octal? 3 0 s
        some ([UInt8.ofNat n], rest)
      else if d = .system && c = 'x' && (rest.head?.bind hexadecimal?).isSome then
        let (n, rest) := digitsUpTo 16 hexadecimal? 2 0 rest
        some ([UInt8.ofNat n], rest)
      else if c = '"' && (place = .format || d = .system) then some ([b], rest)
      else some ([92, b], rest)

/-- A text without its escapes, and whether it asks to end all output. `fuel` bounds the length. -/
def unescapeBytes (d : Dialect) (place : EscapePlace) : (fuel : Nat) → Bytes → Bytes × Bool
  | 0, s => (s, false)
  | _, [] => ([], false)
  | fuel + 1, b :: s =>
    if b = 92 then
      match escapeBytes? d place s with
      | none => ([], true)
      | some (e, s) =>
        let (rest, stop) := unescapeBytes d place fuel s
        (e ++ rest, stop)
    else
      let (rest, stop) := unescapeBytes d place fuel s
      (b :: rest, stop)

/-! ### Numbers -/

/-- How an argument reads as a number. -/
inductive NumberFit where
  | whole
  /-- There is more behind the number. -/
  | partly
  | notAtAll
  | tooGreat
  deriving DecidableEq, Repr

/-- The code of the character behind a quote. -/
def quotedCode? (s : Bytes) : Option Nat :=
  match s with
  | 39 :: b :: _ => some b.toNat
  | 34 :: b :: _ => some b.toNat
  | _ => none

/-- The integer at the start of an argument, in decimal, octal, or hexadecimal digits. -/
def readInteger (s : Bytes) : Int × NumberFit :=
  match quotedCode? s with
  | some n => (n, .whole)
  | none =>
    let s := s.dropWhile fun b => b = 32 || (9 ≤ b && b ≤ 13)
    let (negative, digits) := match s with
      | 45 :: s => (true, s)
      | 43 :: s => (false, s)
      | s => (false, s)
    let (n, rest, none?) : Nat × Bytes × Bool := match digits with
      | 48 :: x :: h :: rest =>
        if (x = 120 || x = 88) && (hexadecimal? h).isSome then
          let (n, rest) := digitsUpTo 16 hexadecimal? (rest.length + 1) 0 (h :: rest)
          (n, rest, false)
        else
          let (n, rest) := digitsUpTo 8 octal? (rest.length + 3) 0 digits
          (n, rest, false)
      | 48 :: _ =>
        let (n, rest) := digitsUpTo 8 octal? digits.length 0 digits
        (n, rest, false)
      | digits =>
        let (n, rest) := digitsUpTo 10 (fun b => if isDigitByte b then some (b.toNat - 48) else none)
          digits.length 0 digits
        (n, rest, rest.length = digits.length)
    let i : Int := if negative then -n else n
    (i, if none? then (if s.isEmpty && digits.isEmpty then .whole else .notAtAll)
      else if rest.isEmpty then .whole else .partly)

/-- The number at the start of an argument, with a point and an exponent. -/
def readReal (fmt : Format) (s : Bytes) : Binary × NumberFit :=
  match quotedCode? s with
  | some n => (Binary.ofNat fmt n, .whole)
  | none =>
    let s := s.dropWhile fun b => b = 32 || (9 ≤ b && b ≤ 13)
    let (negative, body) := match s with
      | 45 :: s => (true, s)
      | 43 :: s => (false, s)
      | s => (false, s)
    let word := ((textOf body).map Char.toLower)
    if ["inf", "infinity"].contains word then (.infinite negative, .whole)
    else if word = "nan" then (.nan, .whole)
    else
      let whole := body.takeWhile isDigitByte
      let rest := body.drop whole.length
      let (fraction, rest) := match rest with
        | 46 :: rest => (rest.takeWhile isDigitByte, rest.dropWhile isDigitByte)
        | rest => ([], rest)
      if whole.isEmpty && fraction.isEmpty then
        (Binary.zero fmt false, if s.isEmpty then .whole else .notAtAll)
      else
        let digits := (whole ++ fraction).foldl (fun n b => 10 * n + (b.toNat - 48)) 0
        let (exponent, rest) : Int × Bytes := match rest with
          | e :: tail =>
            if e = 101 || e = 69 then
              let (down, ds) := match tail with
                | 45 :: t => (true, t)
                | 43 :: t => (false, t)
                | t => (false, t)
              match natural? (ds.takeWhile isDigitByte) with
              | some n => (if down then -(n : Int) else n, ds.dropWhile isDigitByte)
              | none => (0, rest)
            else (0, rest)
          | [] => (0, [])
        let exponent := max (-20000) (min 20000 exponent) - fraction.length
        let x := if digits = 0 then Binary.zero fmt negative
          else Binary.ofDecimal fmt negative digits exponent
        (x, if rest.isEmpty then .whole else .partly)

/-! ### Directives -/

/-- A directive of a format. -/
structure Directive where
  left : Bool := false
  zeros : Bool := false
  plus : Bool := false
  space : Bool := false
  alternate : Bool := false
  width : Nat := 0
  precision : Option Nat := none
  conversion : Char := 's'

/-- Sets a flag. -/
def Directive.setFlag (d : Directive) (b : UInt8) : Option Directive :=
  match charOf b with
  | '-' => some { d with left := true }
  | '0' => some { d with zeros := true }
  | '+' => some { d with plus := true }
  | ' ' => some { d with space := true }
  | '#' => some { d with alternate := true }
  | '\'' => some d
  | _ => none

/-- The flags at the start of a directive. -/
def flags (d : Directive) : Bytes → Directive × Bytes
  | [] => (d, [])
  | b :: s =>
    match d.setFlag b with
    | some d => flags d s
    | none => (d, b :: s)

/-- The number that a text starts with, or that an argument gives in the place of a star. -/
def measure (s : Bytes) (arguments : List Bytes) : Option Int × Bytes × List Bytes :=
  match s with
  | 42 :: s => (some (readInteger (arguments.headD [])).1, s, arguments.tail)
  | s =>
    let ds := s.takeWhile isDigitByte
    ((natural? ds).map fun n => (n : Int), s.drop ds.length, arguments)

/-- The directive behind a percent sign, what is left, and the arguments that are left. -/
def directive? (s : Bytes) (arguments : List Bytes) : Option (Directive × Bytes × List Bytes) :=
  let (d, s) := flags {} s
  let (width, s, arguments) := measure s arguments
  let width := width.getD 0
  let d := { d with left := d.left || width < 0, width := width.natAbs }
  let (precision, s, arguments) : Option Nat × Bytes × List Bytes := match s with
    | 46 :: s =>
      let (n, s, arguments) := measure s arguments
      let n := n.getD 0
      (if n < 0 then none else some n.toNat, s, arguments)
    | s => (none, s, arguments)
  -- Letters for the size of a number change nothing.
  let s := s.dropWhile fun b => ['h', 'l', 'L', 'q', 'j', 'z', 't'].contains (charOf b)
  match s with
  | c :: s => some ({ d with precision, conversion := charOf c }, s, arguments)
  | [] => none

/-- A text filled up to the width of a directive. -/
def Directive.fill (d : Directive) (s : Bytes) : Bytes :=
  let fill := List.replicate (d.width - s.length) (32 : UInt8)
  if d.left then s ++ fill else fill ++ s

/-- Digits with their sign, filled up to the width of a directive. -/
def Directive.fillNumber (d : Directive) (negative : Bool) (mark digits : List Char)
    (zeros : Bool) : Bytes :=
  let sign : List Char :=
    if negative then ['-'] else if d.plus then ['+'] else if d.space then [' '] else []
  let least := if zeros && !d.left then d.width - sign.length - mark.length else 0
  let body := List.replicate (least - digits.length) '0' ++ digits
  d.fill ((sign ++ mark ++ body).map byteOf)

/-- An integer in the layout of a directive. -/
def Directive.integer (d : Directive) (i : Int) : Bytes :=
  let natural := (i % 0x10000000000000000).toNat
  let (base, n, signed) := match d.conversion with
    | 'd' | 'i' => (10, i.natAbs, true)
    | 'u' => (10, natural, false)
    | 'o' => (8, natural, false)
    | _ => (16, natural, false)
  let ds := if d.precision = some 0 && n = 0 then [] else Nat.toDigits base n
  let ds := if d.conversion = 'X' then ds.map Char.toUpper else ds
  let ds := List.replicate (d.precision.getD 0 - ds.length) '0' ++ ds
  let mark : List Char := match d.alternate, d.conversion with
    | true, 'o' => if ds.head? = some '0' then [] else ['0']
    | true, 'x' => if n = 0 then [] else ['0', 'x']
    | true, 'X' => if n = 0 then [] else ['0', 'X']
    | _, _ => []
  let d := if signed then d else { d with plus := false, space := false }
  d.fillNumber (signed && i < 0) mark ds (d.zeros && d.precision.isNone)

/-- The digits of a positive number with one before the point, and its exponent. -/
def leadingDigits (places num den : Nat) (binary : Int) : List Char × Int :=
  let top := decimalExponent num den 8 (binary * 30103 / 100000 - 2)
  let (n, d) := onGrid num den (top - places)
  let k := roundQuotient n d
  if k = Nat.pow 10 (places + 1) then (digitChars (k / 10), top + 1) else (digitChars k, top)

/-- Digits behind their first one, with a point in front of them. -/
def fractionChars (alternate : Bool) (ds : List Char) : List Char :=
  if ds.isEmpty && !alternate then [] else '.' :: ds

/-- An exponent with its sign and two digits at least. -/
def exponentChars (e : Int) : List Char :=
  let ds := digitChars e.natAbs
  ['e', if e < 0 then '-' else '+'] ++ (if ds.length = 1 then '0' :: ds else ds)

/-- The text of a number that is not negative. -/
def Directive.realChars (d : Directive) (m : Nat) (e : Int) : List Char :=
  let places := d.precision.getD 6
  let (num, den) := Binary.magnitude m e
  let scientific (places : Nat) : List Char × Int :=
    if m = 0 then (List.replicate (places + 1) '0', 0)
    else leadingDigits places num den ((Nat.log2 m : Int) + e)
  let fixedText (places : Nat) : List Char :=
    let s := fixedChars places (.finite false m e)
    if places = 0 && d.alternate then s ++ ['.'] else s
  match d.conversion.toLower with
  | 'f' => fixedText places
  | 'e' =>
    let (ds, x) := scientific places
    ds.take 1 ++ fractionChars d.alternate (ds.drop 1) ++ exponentChars x
  | _ =>
    let significant := max 1 places
    let (ds, x) := scientific (significant - 1)
    let bare (s : List Char) : List Char :=
      if d.alternate || !s.contains '.' then s
      else
        let kept := (s.reverse.dropWhile (· = '0')).reverse
        if kept.getLast? = some '.' then kept.dropLast else kept
    if -4 ≤ x && x < significant then bare (fixedText (significant - 1 - x).toNat)
    else bare (ds.take 1 ++ fractionChars d.alternate (ds.drop 1)) ++ exponentChars x

/-- A number in the layout of a directive. -/
def Directive.real (d : Directive) (x : Binary) : Bytes :=
  let upper (s : List Char) : List Char := if d.conversion.isUpper then s.map Char.toUpper else s
  match x with
  | .nan => d.fillNumber false [] (upper ['n', 'a', 'n']) false
  | .infinite s => d.fillNumber s [] (upper ['i', 'n', 'f']) false
  | .finite s m e => d.fillNumber s [] (upper (d.realChars m e)) d.zeros

/-! ### Formats -/

/-- The precision with which a program reads numbers. -/
def Dialect.real : Dialect → Format
  | .shell => .double
  | .system => ⟨64, -16445, 16320⟩

/-- What a program says about an argument that is no number. -/
def Dialect.complaint (d : Dialect) (argument : Bytes) : NumberFit → Option String
  | .whole => none
  | .tooGreat => match d with
    | .shell => some s!"printf: {textOf argument}: Numerical result out of range"
    | .system => some s!"printf: '{textOf argument}': Numerical result out of range"
  | .notAtAll => match d with
    | .shell => some s!"printf: {textOf argument}: expected numeric value"
    | .system => some s!"printf: '{textOf argument}': expected a numeric value"
  | .partly => match d with
    | .shell => some s!"printf: {textOf argument}: not completely converted"
    | .system => some s!"printf: '{textOf argument}': value not completely converted"

/-- An integer within 64 bits, and whether it had to be cut. -/
def clamped (signed : Bool) (i : Int) : Int × Bool :=
  let low : Int := -0x8000000000000000
  let high : Int := if signed then 0x7fffffffffffffff else 0xffffffffffffffff
  if i < low then (low, true) else if high < i then (high, true) else (i, false)

/-- What laying out yields. -/
structure Layout where
  out : Bytes := []
  /-- What is said about arguments. -/
  complaints : List String := []
  /-- The arguments that are left. -/
  rest : List Bytes := []
  /-- Whether the format asks for arguments. -/
  used : Bool := false
  stopped : Bool := false
  /-- Whether there is a directive that there is not. -/
  wrong : Bool := false

/-- Something in front of a layout. -/
def Layout.after (l : Layout) (s : Bytes) (complaints : List String) : Layout :=
  { l with out := s ++ l.out, complaints := complaints ++ l.complaints }

/-- An argument in the layout of a directive, what is said about it, and whether all ends with it;
nothing if there is no such directive. -/
def Directive.apply? (style : Dialect) (d : Directive) (argument : Bytes) :
    Option (Bytes × List String × Bool) :=
  let c := d.conversion
  if ['d', 'i', 'u', 'o', 'x', 'X'].contains c then
    let (i, reading) := readInteger argument
    let (i, cut) := clamped (c = 'd' || c = 'i') i
    some (d.integer i, (style.complaint argument (if cut then .tooGreat else reading)).toList, false)
  else if ['e', 'E', 'f', 'F', 'g', 'G'].contains c then
    let (x, reading) := readReal style.real argument
    some (d.real x, (style.complaint argument reading).toList, false)
  else if c = 'c' then some (d.fill (argument.take 1), [], false)
  else if c = 'b' then
    let (s, stop) := unescapeBytes style .argument (argument.length + 1) argument
    some (d.fill (match d.precision with
      | some n => s.take n
      | none => s), [], stop)
  else if c = 's' then
    some (d.fill (match d.precision with
      | some n => argument.take n
      | none => argument), [], false)
  else none

/-- Holds of letters. -/
def isLetterByte (b : UInt8) : Bool :=
  (65 ≤ b && b ≤ 90) || (97 ≤ b && b ≤ 122)

/-- What is said about a directive that there is not. -/
def Dialect.unknown (style : Dialect) (s : Bytes) : String :=
  match style with
  | .shell =>
    if (s.dropWhile fun b => !isLetterByte b).isEmpty then "printf: missing format character"
    else s!"printf: %{textOf s}: invalid directive"
  | .system => s!"printf: %{textOf s}: invalid conversion specification"

/-- One use of a format. -/
def formatOnce (style : Dialect) : (fuel : Nat) → Bytes → List Bytes → Layout
  | 0, _, rest => { rest }
  | _, [], rest => { rest }
  | fuel + 1, b :: s, arguments =>
    if b = 37 then
      match s with
      | 37 :: s => (formatOnce style fuel s arguments).after [37] []
      | s =>
        match directive? s arguments with
        | none => { rest := [], complaints := [style.unknown s], stopped := true, wrong := true }
        | some (d, after, arguments) =>
          match d.apply? style (arguments.headD []) with
          | none =>
            { rest := []
              complaints := [style.unknown (s.take (s.length - after.length))]
              stopped := true
              wrong := true }
          | some (out, complaints, stop) =>
            -- A number that is not given is zero, and nothing is said about it.
            let complaints := if arguments.isEmpty then [] else complaints
            if stop then { out, complaints, stopped := true }
            else
              { (formatOnce style fuel after arguments.tail).after out complaints with used := true }
    else if b = 92 then
      match escapeBytes? style .format s with
      | none => { stopped := true }
      | some (e, s) => (formatOnce style fuel s arguments).after e []
    else (formatOnce style fuel s arguments).after [b] []

/-- A format, used again while it uses arguments and some are left. -/
def formatAll (style : Dialect) (s : Bytes) : (fuel : Nat) → List Bytes → Layout
  | 0, rest => { rest }
  | fuel + 1, arguments =>
    let l := formatOnce style (s.length + 1) s arguments
    if l.used && !l.rest.isEmpty && !l.stopped then
      (formatAll style s fuel l.rest).after l.out l.complaints
    else l

/-- Writes arguments by a format. -/
def printf (style : Dialect) (voice : String) : Program := fun call =>
  let said (s : String) : Nat × Bytes := (2, bytesOf (voice ++ s ++ "\n"))
  let arguments := match call.arguments with
    | [45, 45] :: rest => rest
    | arguments => arguments
  match arguments with
  | [] =>
    match style with
    | .shell => { written := [said "printf: usage: printf format [arg ...]"], status := 2 }
    | .system =>
      { written := [said "printf: missing operand\nTry 'printf --help' for more information."]
        status := 1 }
  | s :: arguments =>
    let l := formatAll style s (arguments.length + 1) arguments
    let excess := style = .system && !l.used && !l.stopped && !arguments.isEmpty
    let warnings := if excess then
        [s!"printf: warning: ignoring excess arguments, starting with '{textOf (arguments.headD [])}'"]
      else []
    { written := (if l.out.isEmpty then [] else [(1, l.out)]) ++ (l.complaints ++ warnings).map said
      status := if l.wrong && style = .shell then 2 else if l.complaints.isEmpty then 0 else 1 }

end Multipass.Shell
