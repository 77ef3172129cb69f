import Multipass.Shell.Program.Counts

/-!
# Sorting lines

Lines are compared by keys, which are stretches of fields, and by all their bytes where the keys do
not tell them apart. A key is compared byte by byte, as a number, or as a version.
-/

namespace Multipass.Shell

/-- How a key is compared. -/
structure KeyOrder where
  ignoreBlanks : Bool := false
  dictionary : Bool := false
  printable : Bool := false
  foldCase : Bool := false
  numeric : Bool := false
  /-- Numbers with exponents, and numbers with suffixes. -/
  general : Bool := false
  human : Bool := false
  month : Bool := false
  version : Bool := false
  reverse : Bool := false
  deriving DecidableEq, Repr

/-- Sets what a letter asks for. -/
def KeyOrder.set (k : KeyOrder) (c : Char) : Option KeyOrder :=
  match c with
  | 'b' => some { k with ignoreBlanks := true }
  | 'd' => some { k with dictionary := true }
  | 'f' => some { k with foldCase := true }
  | 'g' => some { k with general := true }
  | 'h' => some { k with human := true }
  | 'i' => some { k with printable := true }
  | 'M' => some { k with month := true }
  | 'n' => some { k with numeric := true }
  | 'r' => some { k with reverse := true }
  | 'V' => some { k with version := true }
  | _ => none

/-- The letters of orders that exclude each other, if there are any. -/
def KeyOrder.conflict? (k : KeyOrder) : Option String :=
  let kinds := [k.numeric, k.general, k.human, k.month, k.version || k.dictionary || k.printable]
  if kinds.countP id ≤ 1 then none
  else
    let letters := [('d', k.dictionary), ('f', k.foldCase), ('g', k.general), ('h', k.human),
      ('i', k.printable), ('M', k.month), ('n', k.numeric), ('V', k.version)]
    some (String.ofList ((letters.filter Prod.snd).map Prod.fst))

/-- A key: the field and the byte where it starts and where it ends, counted from one. -/
structure SortKey where
  startField : Nat := 1
  startByte : Nat := 1
  /-- The end; a byte of zero is the end of the field. -/
  stop : Option (Nat × Nat) := none
  order : KeyOrder := {}
  /-- Whether it has an order of its own. -/
  own : Bool := false
  /-- Whether blanks are passed over at its end. -/
  stopBlanks : Bool := false
  deriving Repr

/-- A number at the start of a key, and what is left; or what is wrong. -/
def keyNumber (s : Bytes) (place : String) : Except String (Nat × Bytes) :=
  let inner := s.dropWhile fun b => b = 32 || b = 9
  let ds := inner.takeWhile isDigitByte
  match natural? ds with
  | some n => .ok (n, inner.drop ds.length)
  | none => .error s!"invalid number {place}: invalid count at start of '{textOf s}'"

/-- A field with a byte and letters, and what is left; or what is wrong. -/
def keyPlace (whole s : Bytes) (place : String) :
    Except String (Nat × Option Nat × List Char × Bytes) := do
  let invalid (message : String) : String :=
    s!"{message}: invalid field specification '{textOf whole}'"
  let (field, rest) ← keyNumber s place
  if field = 0 then throw (invalid "field number is zero")
  let (byte, rest) ← match rest with
    | 46 :: rest => do
      let (byte, rest) ← keyNumber rest "after '.'"
      if byte = 0 && place = "at field start" then throw (invalid "character offset is zero")
      pure (some byte, rest)
    | rest => pure (none, rest)
  let letters := rest.takeWhile fun b => (KeyOrder.set {} (charOf b)).isSome
  return (field, byte, letters.map charOf, rest.drop letters.length)

/-- The key of an option; or what is wrong. -/
def sortKey (s : Bytes) : Except String SortKey := do
  let stray : String := s!"stray character in field spec: invalid field specification '{textOf s}'"
  let ordered (order : KeyOrder) (letters : List Char) : KeyOrder :=
    letters.foldl (fun order c => (order.set c).getD order) order
  let (field, byte, letters, rest) ← keyPlace s s "at field start"
  let order := ordered {} letters
  let key : SortKey := {
    startField := field
    startByte := byte.getD 1
    order
    own := !letters.isEmpty }
  match rest with
  | [] => return key
  | 44 :: rest =>
    let (field, byte, letters, rest) ← keyPlace s rest "after ','"
    if !rest.isEmpty then throw stray
    let order := ordered { key.order with ignoreBlanks := false } letters
    return { key with
      stop := some (field, byte.getD 0)
      order := { order with ignoreBlanks := key.order.ignoreBlanks }
      stopBlanks := order.ignoreBlanks
      own := key.own || !letters.isEmpty }
  | _ => throw stray

/-- Holds of blanks between fields. -/
def isFieldBlank (b : UInt8) : Bool :=
  b = 32 || b = 9 || b = 10

/-- A line from the start of a field on, in which a field without a separator between it and the
next has the blanks in front of it. -/
def fromField (separator : Option UInt8) : (fields : Nat) → Bytes → Bytes
  | 0, s => s
  | n + 1, s =>
    match separator with
    | some b => fromField separator n ((s.dropWhile (· != b)).drop 1)
    | none => fromField separator n ((s.dropWhile isFieldBlank).dropWhile fun b => !isFieldBlank b)

/-- The bytes of a line behind its first field, less than that if the field is followed by a
separator. -/
def behindField (separator : Option UInt8) (s : Bytes) : Bytes :=
  match separator with
  | some b => s.dropWhile (· != b)
  | none => (s.dropWhile isFieldBlank).dropWhile fun b => !isFieldBlank b

/-- The part of a line that a key stands for. -/
def SortKey.part (separator : Option UInt8) (k : SortKey) (line : Bytes) : Bytes :=
  let start := fromField separator (k.startField - 1) line
  let start := if k.order.ignoreBlanks then start.dropWhile isFieldBlank else start
  let start := start.drop (k.startByte - 1)
  match k.stop with
  | none => start
  | some (field, byte) =>
    let before := fromField separator (field - 1) line
    let stop :=
      if byte = 0 then behindField separator before
      else (if k.stopBlanks then before.dropWhile isFieldBlank else before).drop byte
    start.take (start.length - stop.length)

/-- A number at the start of bytes: its sign, the digits before the point without zeros in front,
and those behind it without zeros at the end. -/
def sortNumber (s : Bytes) : Bool × Bytes × Bytes :=
  let s := s.dropWhile isFieldBlank
  let (negative, s) := match s with
    | 45 :: s => (true, s)
    | s => (false, s)
  let whole := s.takeWhile isDigitByte
  let fraction := match s.drop whole.length with
    | 46 :: rest => rest.takeWhile isDigitByte
    | _ => []
  let whole := whole.dropWhile (· = 48)
  let fraction := (fraction.reverse.dropWhile (· = 48)).reverse
  (negative && !(whole.isEmpty && fraction.isEmpty), whole, fraction)

/-- The order of bytes. -/
def compareBytes (a b : Bytes) : Ordering :=
  if a < b then .lt else if a = b then .eq else .gt

/-- The order of numbers. -/
def compareNumbers (a b : Bytes) : Ordering :=
  let (n, w, f) := sortNumber a
  let (m, v, g) := sortNumber b
  let sizes := (compare w.length v.length).then ((compareBytes w v).then (compareBytes f g))
  match n, m with
  | false, false => sizes
  | true, true => sizes.swap
  | true, false => .lt
  | false, true => .gt

/-- The rank of the suffix of a number. -/
def suffixRank (s : Bytes) : Nat :=
  let s := s.dropWhile isFieldBlank
  let s := match s with
    | 45 :: s => s
    | s => s
  let s := s.dropWhile isDigitByte
  let s := match s with
    | 46 :: s => s.dropWhile isDigitByte
    | s => s
  match s with
  | b :: _ => (["K", "M", "G", "T", "P", "E", "Z", "Y"].idxOf? (String.ofList [(charOf b).toUpper])).elim
      0 (· + 1)
  | [] => 0

/-- A number with a suffix by its sign, the rank of its suffix, and its size: zero has no rank. -/
def compareHuman (a b : Bytes) : Ordering :=
  let rank (s : Bytes) : Int :=
    let (negative, whole, fraction) := sortNumber s
    if whole.isEmpty && fraction.isEmpty then 0
    else if negative then -(suffixRank s : Int) else suffixRank s
  (compare (rank a) (rank b)).then (compareNumbers a b)

/-- A number as its digits behind the point, without zeros at either end, and its exponent. -/
structure Magnitude where
  exponent : Int
  digits : Bytes

/-- What bytes are at their start: no number, none that can be ordered, or a number with its sign. -/
inductive GeneralNumber where
  | nothing
  | unordered
  | number (negative : Bool) (size : Magnitude)

/-- The number at the start of bytes, which may have an exponent. -/
def generalNumber (s : Bytes) : GeneralNumber :=
  let s := s.dropWhile fun b => isFieldBlank b || (11 ≤ b && b ≤ 13)
  let (negative, s) := match s with
    | 45 :: s => (true, s)
    | 43 :: s => (false, s)
    | s => (false, s)
  let word := textOf ((s.take 3).map fun b => if 65 ≤ b && b ≤ 90 then b + 32 else b)
  if word = "inf" then .number negative ⟨1000000000000, [49]⟩
  else if word = "nan" then .unordered
  else
    let whole := s.takeWhile isDigitByte
    let rest := s.drop whole.length
    let (fraction, rest) := match rest with
      | 46 :: rest => (rest.takeWhile isDigitByte, rest.dropWhile isDigitByte)
      | rest => ([], rest)
    if whole.isEmpty && fraction.isEmpty then .nothing
    else
      let power : Int := match rest with
        | b :: rest =>
          if b = 101 || b = 69 then
            let (minus, ds) := match rest with
              | 45 :: ds => (true, ds)
              | 43 :: ds => (false, ds)
              | ds => (false, ds)
            let n := ((natural? (ds.takeWhile isDigitByte)).getD 0 : Int)
            if minus then -n else n
          else 0
        | [] => 0
      let all := whole ++ fraction
      let digits := all.dropWhile (· = 48)
      let exponent := (whole.length : Int) - ((all.length - digits.length : Nat) : Int) + power
      let digits := (digits.reverse.dropWhile (· = 48)).reverse
      if digits.isEmpty then .number false ⟨-1000000000000, []⟩ else .number negative ⟨exponent, digits⟩

/-- The order of numbers with exponents: what is no number comes first. -/
def compareGeneral (a b : Bytes) : Ordering :=
  let rank : GeneralNumber → Nat
    | .nothing => 0
    | .unordered => 1
    | .number .. => 2
  match generalNumber a, generalNumber b with
  | .number n x, .number m y =>
    let sizes := (compare x.exponent y.exponent).then (compareBytes x.digits y.digits)
    match n, m with
    | false, false => sizes
    | true, true => sizes.swap
    | true, false => .lt
    | false, true => .gt
  | x, y => compare (rank x) (rank y)

/-- The number of a month by its name. -/
def monthRank (s : Bytes) : Nat :=
  let word := ((s.dropWhile isFieldBlank).take 3).map fun b => (charOf b).toUpper
  (["JAN", "FEB", "MAR", "APR", "MAY", "JUN", "JUL", "AUG", "SEP", "OCT", "NOV", "DEC"].idxOf?
    (String.ofList word)).elim 0 (· + 1)

/-- The rank of a byte in a version: a tilde, the end, letters, other signs. -/
def versionRank (b : UInt8) : Nat :=
  if b = 126 then 0 else if (charOf b).isAlpha then b.toNat + 1 else b.toNat + 256

/-- The order of stretches that are no digits. -/
def compareSigns : Bytes → Bytes → Ordering
  | [], [] => .eq
  | [], b :: _ => compare 1 (versionRank b)
  | a :: _, [] => compare (versionRank a) 1
  | a :: s, b :: t => (compare (versionRank a) (versionRank b)).then (compareSigns s t)

/-- The order of versions: stretches of digits as numbers, and what is between them by its bytes.
`fuel` bounds the number of stretches. -/
def compareVersions : (fuel : Nat) → Bytes → Bytes → Ordering
  | 0, _, _ => .eq
  | fuel + 1, a, b =>
    if a.isEmpty && b.isEmpty then .eq
    else
      let signs (s : Bytes) : Bytes := s.takeWhile fun b => !isDigitByte b
      let rest (s : Bytes) : Bytes := s.dropWhile fun b => !isDigitByte b
      let number (s : Bytes) : Bytes := (s.takeWhile isDigitByte).dropWhile (· = 48)
      let x := rest a
      let y := rest b
      ((compareSigns (signs a) (signs b)).then
        ((compare (number x).length (number y).length).then (compareBytes (number x) (number y)))).then
        (compareVersions fuel (x.dropWhile isDigitByte) (y.dropWhile isDigitByte))

/-- A key in the form in which its bytes are compared. -/
def KeyOrder.form (k : KeyOrder) (s : Bytes) : Bytes :=
  let s := if k.dictionary then
      s.filter fun b => b = 32 || b = 9 || (charOf b).isAlphanum
    else if k.printable then s.filter fun b => 32 ≤ b && b ≤ 126
    else s
  if k.foldCase then s.map fun b => if 97 ≤ b && b ≤ 122 then b - 32 else b else s

/-- The order of two keys. -/
def KeyOrder.compare (k : KeyOrder) (a b : Bytes) : Ordering :=
  let order :=
    if k.numeric then compareNumbers a b
    else if k.general then compareGeneral a b
    else if k.human then compareHuman a b
    else if k.month then Ord.compare (monthRank a) (monthRank b)
    else if k.version then compareVersions (a.length + b.length + 1) a b
    else compareBytes (k.form a) (k.form b)
  if k.reverse then order.swap else order

/-- How lines are compared. -/
structure LineOrder where
  keys : List SortKey
  separator : Option UInt8
  /-- Whether the order is reversed where the keys do not tell. -/
  reverse : Bool
  /-- Whether lines with the same keys are the same. -/
  keysOnly : Bool

/-- The order of two lines by their keys. -/
def LineOrder.byKeys (o : LineOrder) (a b : Bytes) : Ordering :=
  o.keys.foldl (fun order k =>
    order.then (k.order.compare (k.part o.separator a) (k.part o.separator b))) .eq

/-- The order of two lines. -/
def LineOrder.compare (o : LineOrder) (a b : Bytes) : Ordering :=
  (o.byKeys a b).then
    (if o.keysOnly then .eq
    else if o.reverse then (compareBytes a b).swap
    else compareBytes a b)

/-- Lines without those that are the same as the one before. -/
def LineOrder.withoutRepeats (o : LineOrder) : List Bytes → List Bytes
  | a :: b :: rest =>
    match o.withoutRepeats (b :: rest) with
    | c :: others => if o.byKeys a b = .eq then a :: others else a :: c :: others
    | [] => [a]
  | lines => lines

/-- The first place where lines are out of order, with its line. -/
def LineOrder.disorder? (o : LineOrder) (unique : Bool) : Nat → List Bytes → Option (Nat × Bytes)
  | place, a :: b :: rest =>
    let order := o.compare a b
    if order = .gt || (unique && order = .eq) then some (place + 1, b)
    else o.disorder? unique (place + 1) (b :: rest)
  | _, _ => none

/-- Merges lists of lines of which each is taken to be sorted. `fuel` bounds the number of lines. -/
def LineOrder.merge (o : LineOrder) : (fuel : Nat) → List Bytes → List Bytes → List Bytes
  | 0, as, bs => as ++ bs
  | _, [], bs => bs
  | _, as, [] => as
  | fuel + 1, a :: as, b :: bs =>
    if o.compare a b = .gt then b :: merge o fuel (a :: as) bs else a :: merge o fuel as (b :: bs)

/-- The number behind a sign. -/
def signedField? (sign : UInt8) : Bytes → Option Nat
  | b :: ds => if b = sign then natural? ds else none
  | [] => none

/-- Arguments in which a field with a plus sign, and one with a hyphen behind it, is a key. -/
def withPlainKeys : List Bytes → List Bytes
  | a :: b :: rest =>
    match signedField? 43 a, signedField? 45 b with
    | some n, some m => bytesOf "-k" :: (decimal (n + 1) ++ 44 :: decimal m) :: withPlainKeys rest
    | some n, none => bytesOf "-k" :: decimal (n + 1) :: withPlainKeys (b :: rest)
    | none, _ => if a = [45, 45] then a :: b :: rest else a :: withPlainKeys (b :: rest)
  | [a] =>
    match signedField? 43 a with
    | some n => [bytesOf "-k", decimal (n + 1)]
    | none => [a]
  | [] => []

/-- The options of sorting. -/
def sortOptions : Options where
  name := "sort"
  flags := "bcCdfghiMmnrRsuVz".toList
  valued := "koStT".toList
  words := [("ignore-leading-blanks", 'b'), ("dictionary-order", 'd'), ("ignore-case", 'f'),
    ("general-numeric-sort", 'g'), ("ignore-nonprinting", 'i'), ("key", 'k'), ("merge", 'm'),
    ("month-sort", 'M'), ("numeric-sort", 'n'), ("human-numeric-sort", 'h'), ("version-sort", 'V'),
    ("random-sort", 'R'), ("reverse", 'r'), ("stable", 's'), ("check", '1'), ("output", 'o'),
    ("batch-size", '2'), ("buffer-size", 'S'), ("field-separator", 't'),
    ("temporary-directory", 'T'), ("unique", 'u'), ("zero-terminated", 'z'), ("sort", '3'),
    ("parallel", '4')]
  wordValued := ['2', '3', '4']
  wordOptional := ['1']
  status := 2

/-- Options in which the words for an order, or for a check, are letters. -/
def plainSortOptions (options : List (Char × Bytes)) : Except Effect (List (Char × Bytes)) :=
  let usual := { sortOptions with status := 1 }
  options.mapM fun (c, s) =>
    if c = '3' then do
      let word ← wordChoice usual "sort"
        ["general-numeric", "human-numeric", "month", "numeric", "random", "version"] s
      let letter := [("general-numeric", 'g'), ("human-numeric", 'h'), ("month", 'M'),
        ("numeric", 'n'), ("random", 'R')].lookup word
      return (letter.getD 'V', [])
    else if c = '1' && !s.isEmpty then do
      let word ← wordChoice usual "check" ["quiet", "silent", "diagnose-first"] s
      return (if word = "diagnose-first" then 'c' else 'C', [])
    else return (if c = '1' then 'c' else c, s)

/-- The byte between fields, if one is given. -/
def fieldSeparator (g : Given) : Except String (Option UInt8) :=
  (g.values 't').foldlM (fun before s => do
    let b ← match s with
      | [] => throw "empty tab"
      | [b] => pure b
      | s => if s = bytesOf "\\0" then pure 0 else throw s!"multi-character tab {quotedTab s}"
    if before.isSome && before != some b then throw "incompatible tabs"
    return some b) none
where
  quotedTab (s : Bytes) : String :=
    s!"'{textOf s}'"

/-- Sorts the lines of files. -/
def sortLines : Program := fun call =>
  sortOptions.program (fun g call =>
    let fails (message : String) : Effect := Effect.complains 2 s!"sort: {message}"
    let settled : Except Effect Effect := do
      let g := { g with options := ← plainSortOptions g.options }
      let shared := g.options.foldl (fun k o => (k.set o.1).getD k) ({} : KeyOrder)
      let keys ← (g.values 'k').mapM fun k => (sortKey k).mapError fails
      let separator ← (fieldSeparator g).mapError fails
      let keys := keys.map fun k =>
        if k.own then k else { k with order := shared, stopBlanks := shared.ignoreBlanks }
      let keys := if keys.isEmpty then [{ order := shared }] else keys
      match keys.findSome? fun k => k.order.conflict? with
      | some letters => throw (fails s!"options '-{letters}' are incompatible")
      | none => pure ()
      let files := orInput g.operands
      let checks := g.has 'c' || g.has 'C'
      if checks && files.length > 1 then
        throw (fails (s!"extra operand '{textOf (files.getD 1 [])}' not allowed with "
          ++ (if g.has 'C' then "-C" else "-c")))
      let o : LineOrder := {
        keys
        separator
        reverse := shared.reverse
        keysOnly := g.has 's' || g.has 'u' }
      match (files.map fun f => (f, call.read f)).find? fun c => c.2.toOption.isNone with
      | some (file, .error reason) =>
        throw (fails (if reason = missing then s!"cannot read: {textOf file}: {reason}"
          else s!"read failed: {textOf file}: {reason}"))
      | _ => pure ()
      let (_, e) := readTogether "sort" 2 call files
      let mark : UInt8 := if g.has 'z' then 0 else newlineByte
      let parts := files.map fun f => (stretchesOf mark ((call.read f).toOption.getD [])).1
      let lines := parts.flatten
      if checks then
        match o.disorder? (g.has 'u') 1 lines with
        | none => return e
        | some (place, line) =>
          if g.has 'C' then return { e with status := 1 }
          else
            let file := textOf (files.headD inputName)
            return { Effect.complains 1 s!"sort: {file}:{place}: disorder: {textOf line}" with
              left := e.left }
      else
        let sorted :=
          if g.has 'm' then parts.foldl (fun as bs => o.merge (as.length + bs.length) as bs) []
          else lines.mergeSort fun a b => o.compare a b != .gt
        let sorted := if g.has 'u' then o.withoutRepeats sorted else sorted
        let out := joinStretches mark sorted
        match g.value? 'o' with
        | some target =>
          return { (call.writes target out fun reason => fails s!"open failed: {textOf target}: {reason}")
            with left := e.left }
        | none => return (Effect.say out).followedBy e
    match settled with
    | .ok e | .error e => e) { call with arguments := withPlainKeys call.arguments }

end Multipass.Shell
