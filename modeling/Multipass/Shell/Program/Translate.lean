import Multipass.Shell.Program.Format

/-!
# Translating characters

Sets of bytes, written with ranges, classes, and escapes, and the program that replaces, deletes,
or joins the bytes of its input by them.
-/

namespace Multipass.Shell

/-- The bytes from one to another. -/
def byteRange (first last : UInt8) : Bytes :=
  (List.range (last.toNat + 1 - first.toNat)).map fun i => UInt8.ofNat (first.toNat + i)

/-- The bytes of a named class. -/
def classBytes? (name : String) : Option Bytes :=
  let digits := byteRange 48 57
  let upper := byteRange 65 90
  let lower := byteRange 97 122
  let punctuation := byteRange 33 47 ++ byteRange 58 64 ++ byteRange 91 96 ++ byteRange 123 126
  match name with
  | "alpha" => some (upper ++ lower)
  | "digit" => some digits
  | "alnum" => some (digits ++ upper ++ lower)
  | "upper" => some upper
  | "lower" => some lower
  | "space" => some (byteRange 9 13 ++ [32])
  | "blank" => some [9, 32]
  | "punct" => some punctuation
  | "cntrl" => some (byteRange 0 31 ++ [127])
  | "xdigit" => some (digits ++ byteRange 65 70 ++ byteRange 97 102)
  | "print" => some (byteRange 32 126)
  | "graph" => some (byteRange 33 126)
  | _ => none

/-- A set with the bytes that escapes stand for, each with whether it was escaped. -/
def setBytes : (fuel : Nat) → Bytes → List (UInt8 × Bool)
  | 0, _ => []
  | _, [] => []
  | fuel + 1, 92 :: s =>
    match s with
    | [] => [(92, false)]
    | b :: rest =>
      match letterEscape? .shell b with
      | some e => (e, true) :: setBytes fuel rest
      | none =>
        if (octal? b).isSome then
          let (n, rest) := digitsUpTo 8 octal? 3 0 s
          (UInt8.ofNat n, true) :: setBytes fuel rest
        else (b, true) :: setBytes fuel rest
  | fuel + 1, b :: s => (b, false) :: setBytes fuel s

/-- A part of a set. -/
inductive SetPart where
  | bytes (s : Bytes)
  | named (name : String) (s : Bytes)
  /-- One byte as often as it takes, or a number of times. -/
  | again (b : UInt8) (count : Nat)
  deriving Repr

/-- The parts of a set, or what is wrong with it. `fuel` bounds their number. -/
def setParts : (fuel : Nat) → List (UInt8 × Bool) → Except String (List SetPart)
  | 0, _ => .ok []
  | _, [] => .ok []
  | fuel + 1, (b, escaped) :: s =>
    let single : Except String (List SetPart) :=
      match s with
      | (45, false) :: (c, _) :: rest =>
        if c < b then
          .error s!"range-endpoints of '{charOf b}-{charOf c}' are in reverse collating sequence order"
        else do
          let others ← setParts fuel rest
          return .bytes (byteRange b c) :: others
      | s => do
        let others ← setParts fuel s
        return .bytes [b] :: others
    if b = 91 && !escaped then
      match s with
      | (58, false) :: inner =>
        let name := inner.takeWhile fun x => x.1 != 58
        match inner.drop name.length with
        | (58, false) :: (93, false) :: rest =>
          match classBytes? (textOf (name.map Prod.fst)) with
          | some bytes => do
            let others ← setParts fuel rest
            return .named (textOf (name.map Prod.fst)) bytes :: others
          | none => .error s!"invalid character class '{textOf (name.map Prod.fst)}'"
        | _ => single
      | (61, false) :: (c, _) :: (61, false) :: (93, false) :: rest => do
        let others ← setParts fuel rest
        return .bytes [c] :: others
      | (c, _) :: (42, false) :: inner =>
        let digits := inner.takeWhile fun x => isDigitByte x.1
        match inner.drop digits.length with
        | (93, false) :: rest => do
          let others ← setParts fuel rest
          let ds := digits.map Prod.fst
          let base := if ds.head? = some 48 then 8 else 10
          return .again c (ds.foldl (fun n d => base * n + (d.toNat - 48)) 0) :: others
        | _ => single
      | _ => single
    else single

/-- The bytes of the parts of a set, `size` of them if a part is as long as it takes. -/
def spread (size : Nat) (parts : List SetPart) : Bytes :=
  let length (p : SetPart) : Nat :=
    match p with
    | .bytes s => s.length
    | .named _ s => s.length
    | .again _ count => count
  let fixed := (parts.map length).foldl (· + ·) 0
  parts.flatMap fun
    | .bytes s => s
    | .named _ s => s
    | .again b count => List.replicate (if count = 0 then size - fixed else count) b

/-- Bytes in which those of a set are not repeated next to each other. -/
def squeeze (set : Bytes) : Bytes → Bytes
  | a :: b :: s => if a = b && set.contains a then squeeze set (b :: s) else a :: squeeze set (b :: s)
  | s => s

/-- The byte that another one becomes. -/
def replacement (old new : Bytes) (b : UInt8) : UInt8 :=
  -- Of two places in the set the last counts.
  match old.reverse.idxOf? b with
  | some i =>
    let i := old.length - 1 - i
    new.getD i (new.getLastD b)
  | none => b

/-- Replaces bytes of the input, deletes them, or joins repeated ones. -/
def tr : Program :=
  let options : Options := {
    name := "tr"
    flags := "cCdst".toList
    words := [("complement", 'c'), ("delete", 'd'), ("squeeze-repeats", 's'),
      ("truncate-set1", 't')] }
  options.program fun g call =>
    let complement := g.has 'c' || g.has 'C'
    let parts (s : Bytes) : Except String (List SetPart) :=
      setParts (s.length + 1) (setBytes (s.length + 1) s)
    let first (s : Bytes) : Except String Bytes := do
      let set := spread 0 (← parts s)
      return if complement then (byteRange 0 255).filter fun b => !set.contains b else set
    let say (s : Bytes) : Effect := { Effect.say s with left := some [] }
    let run : Except String Effect :=
      match g.operands, g.has 'd', g.has 's' with
      | [a], true, false => do
        let set ← first a
        return say (call.input.filter fun b => !set.contains b)
      | [a], false, true => do
        let set ← first a
        return say (squeeze set call.input)
      | [a, b], true, true => do
        let set ← first a
        let other := spread 0 (← parts b)
        return say (squeeze other (call.input.filter fun b => !set.contains b))
      | [a, b], false, squeezes => do
        let old ← first a
        let new := spread old.length (← parts b)
        if new.isEmpty && !g.has 't' then
          throw "when not truncating set1, string2 must be non-empty"
        else
          let old := if g.has 't' then old.take new.length else old
          let out := call.input.map (replacement old new)
          return say (if squeezes then squeeze new out else out)
      | [], _, _ => return options.complaint "missing operand"
      | [a], false, false =>
        return options.complaint
          s!"missing operand after '{textOf a}'\nTwo strings must be given when translating."
      | [a], true, true =>
        return options.complaint s!"missing operand after '{textOf a}'\nTwo strings must be given when both deleting and squeezing repeats."
      | _ :: b :: [], true, false =>
        return options.complaint s!"extra operand '{textOf b}'\nOnly one string may be given when deleting without squeezing repeats."
      | _ :: _ :: c :: _, _, _ => return options.complaint s!"extra operand '{textOf c}'"
    match run with
    | .ok e => e
    | .error reason => Effect.complains 1 s!"tr: {reason}"

end Multipass.Shell
