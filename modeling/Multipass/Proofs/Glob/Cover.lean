import Mathlib.Tactic.Lemma
import Multipass.Glob.Match

/-!
# What globs stand for

Each token of a glob stands for some sequences of bytes, and a sequence of tokens for what its
tokens stand for, one behind the other. The tables by which paths are matched tell just that, for
each end of the path.

Main statement: `isMatch_iff`.
-/

namespace Multipass.Glob

mutual

/-- Holds of a token and the bytes that it stands for. -/
inductive Token.Covers : Token → List UInt8 → Prop where
  | literal {c} :
    Token.Covers (.literal c) (charBytes c)
  | any {b} :
    Token.Covers .any [b]
  | star {s} :
    Token.Covers .star s
  | noLeadingDirs :
    Token.Covers .leadingDirs []
  | leadingDirs {s} :
    Token.Covers .leadingDirs (s ++ [separatorByte])
  | allBelow {s} :
    Token.Covers .allBelow (separatorByte :: s)
  | noInnerDirs :
    Token.Covers .innerDirs [separatorByte]
  | innerDirs {s} :
    Token.Covers .innerDirs (separatorByte :: (s ++ [separatorByte]))
  | oneOf {negated ranges b} :
    inClass negated ranges b = true →
    Token.Covers (.oneOf negated ranges) [b]
  | noAlternates {branches} :
    allVoid branches = true →
    Token.Covers (.alternates branches) []
  /-- A branch that stands for nothing but the empty sequence is no branch. -/
  | alternates {branches branch s} :
    branch ∈ branches →
    isVoid branch = false →
    SequenceCovers branch s →
    Token.Covers (.alternates branches) s

/-- Holds of a sequence of tokens and the bytes that it stands for. -/
inductive SequenceCovers : List Token → List UInt8 → Prop where
  | nil :
    SequenceCovers [] []
  | cons {t ts s rest} :
    Token.Covers t s →
    SequenceCovers ts rest →
    SequenceCovers (t :: ts) (s ++ rest)

end

/-- Holds of a sequence of tokens and the path that it matches. The single token of directories
stands for every path. A path that ends in a point has no last name, so it is not matched by a
sequence that ends in a point and goes by the last name. -/
def Matches (ts : List Token) (path : List UInt8) : Prop :=
  ts = [.leadingDirs] ∨
    SequenceCovers ts path ∧
      ¬(endsInPoint path = true ∧ literalPoint ts = true ∧ goesByPoint ts = true)

/-! ### Tables -/

/-- Holds of a table that tells of each end of a path whether it has a property. -/
inductive Tells (P : List UInt8 → Prop) : List UInt8 → Table → Prop where
  | last {here} :
    (here = true ↔ P []) →
    Tells P [] [here]
  | cons {b path here later} :
    (here = true ↔ P (b :: path)) →
    Tells P path later →
    Tells P (b :: path) (here :: later)

variable {P Q : List UInt8 → Prop} {path : List UInt8} {table table' : Table}

lemma Tells.headD (tells : Tells P path table) : table.headD false = true ↔ P path := by
  cases tells with
  | last h => exact h
  | cons h _ => exact h

lemma Tells.congr (tells : Tells P path table) (same : ∀ s, P s ↔ Q s) : Tells Q path table := by
  induction tells with
  | last h => exact .last (h.trans (same _))
  | cons h _ ih => exact .cons (h.trans (same _)) ih

/-- Holds of bytes that begin with a part of one kind and go on with the other. -/
def Then (P Q : List UInt8 → Prop) (s : List UInt8) : Prop :=
  ∃ part rest, s = part ++ rest ∧ P part ∧ Q rest

lemma tells_nowhere (path : List UInt8) : Tells (fun _ => False) path (nowhere path) := by
  induction path with
  | nil => exact .last (by simp)
  | cons b path ih => exact .cons (by simp) ih

lemma tells_atEnd (path : List UInt8) : Tells (· = []) path (atEnd path) := by
  induction path with
  | nil => exact .last (by simp)
  | cons b path ih => exact .cons (by simp) ih

lemma Tells.eitherTable (tells : Tells P path table) (tells' : Tells Q path table') :
    Tells (fun s => P s ∨ Q s) path (eitherTable table table') := by
  induction tells generalizing table' with
  | last h =>
    cases tells' with
    | last h' => exact .last (by rw [Bool.or_eq_true, h, h'])
  | cons h _ ih =>
    cases tells' with
    | cons h' later' => exact .cons (by rw [Bool.or_eq_true, h, h']) (ih later')

lemma Tells.behindByte (tells : Tells P path table) (isByte : UInt8 → Bool) :
    Tells (Then (fun part => ∃ b, part = [b] ∧ isByte b = true) P) path
      (behindByte isByte path table) := by
  have front (b : UInt8) (s : List UInt8) :
      Then (fun part => ∃ b, part = [b] ∧ isByte b = true) P (b :: s) ↔ isByte b = true ∧ P s := by
    constructor
    · rintro ⟨_, rest, eq, ⟨b', rfl, held⟩, behind⟩
      cases eq
      exact ⟨held, behind⟩
    · rintro ⟨held, behind⟩
      exact ⟨[b], s, rfl, ⟨b, rfl, held⟩, behind⟩
  induction tells with
  | last =>
    refine .last ⟨nofun, ?_⟩
    rintro ⟨_, rest, eq, ⟨b, rfl, -⟩, -⟩
    cases eq
  | @cons b path here later h tells ih =>
    refine .cons ?_ ih
    rw [front, List.tail_cons, Bool.and_eq_true, tells.headD]

lemma Tells.hereOrLater (tells : Tells P path table) :
    Tells (Then (fun _ => True) P) path (hereOrLater table) := by
  induction tells with
  | last h =>
    refine .last ?_
    simp only [Glob.hereOrLater, List.headD_nil, Bool.or_false, h]
    constructor
    · exact fun held => ⟨[], [], rfl, trivial, held⟩
    · rintro ⟨part, rest, eq, -, held⟩
      obtain ⟨rfl, rfl⟩ := List.append_eq_nil_iff.1 eq.symm
      exact held
  | @cons b path here later h _ ih =>
    refine .cons ?_ ih
    rw [Bool.or_eq_true, h, ih.headD]
    constructor
    · rintro (held | ⟨part, rest, rfl, -, held⟩)
      · exact ⟨[], _, rfl, trivial, held⟩
      · exact ⟨b :: part, rest, rfl, trivial, held⟩
    · rintro ⟨part, rest, eq, -, held⟩
      cases part with
      | nil =>
        cases eq
        exact .inl held
      | cons c part =>
        cases eq
        exact .inr ⟨part, rest, rfl, trivial, held⟩

/-! ### Tokens before a table -/

lemma Tells.behindSeparator (tells : Tells P path table) :
    Tells (Then (· = [separatorByte]) P) path (behindSeparator path table) := by
  refine (tells.behindByte (· == separatorByte)).congr fun s => ?_
  simp only [Then, beq_iff_eq]
  constructor
  · rintro ⟨_, rest, rfl, ⟨b, rfl, rfl⟩, held⟩
    exact ⟨_, rest, rfl, rfl, held⟩
  · rintro ⟨_, rest, rfl, rfl, held⟩
    exact ⟨_, rest, rfl, ⟨_, rfl, rfl⟩, held⟩

/-- Directories, if there are any, end in a separator. -/
lemma Tells.behindDirs (tells : Tells P path table) :
    Tells (Then (Token.Covers .leadingDirs) P) path (behindDirs path table) := by
  refine (tells.eitherTable tells.behindSeparator.hereOrLater).congr fun s => ?_
  constructor
  · rintro (held | ⟨dirs, _, rfl, -, _, rest, rfl, rfl, held⟩)
    · exact ⟨[], s, rfl, .noLeadingDirs, held⟩
    · exact ⟨dirs ++ [separatorByte], rest, by simp, .leadingDirs, held⟩
  · rintro ⟨part, rest, rfl, covers, held⟩
    cases covers with
    | noLeadingDirs => exact .inl held
    | @leadingDirs dirs =>
      exact .inr ⟨dirs, separatorByte :: rest, by simp, trivial, _, rest, rfl, rfl, held⟩

lemma Tells.bytes (tells : Tells P path table) (bytes : List UInt8) :
    Tells (Then (· = bytes) P) path
      (bytes.foldr (fun b table => Glob.behindByte (· == b) path table) table) := by
  induction bytes with
  | nil =>
    refine tells.congr fun s => ⟨fun held => ⟨[], s, rfl, rfl, held⟩, ?_⟩
    rintro ⟨_, rest, rfl, rfl, held⟩
    exact held
  | cons b bytes ih =>
    refine (ih.behindByte (· == b)).congr fun s => ?_
    simp only [Then, beq_iff_eq]
    constructor
    · rintro ⟨_, _, rfl, ⟨c, rfl, rfl⟩, _, rest, rfl, rfl, held⟩
      exact ⟨_, rest, by simp, rfl, held⟩
    · rintro ⟨_, rest, rfl, rfl, held⟩
      exact ⟨[b], bytes ++ rest, by simp, ⟨b, rfl, rfl⟩, bytes, rest, rfl, rfl, held⟩

/-- What a part stands for, and then another. -/
lemma then_then {P Q R : List UInt8 → Prop} {s : List UInt8} :
    Then P (Then Q R) s ↔ Then (Then P Q) R s := by
  constructor
  · rintro ⟨a, _, rfl, ha, b, c, rfl, hb, hc⟩
    exact ⟨a ++ b, c, (List.append_assoc ..).symm, ⟨a, b, rfl, ha, hb⟩, hc⟩
  · rintro ⟨_, c, rfl, ⟨a, b, rfl, ha, hb⟩, hc⟩
    exact ⟨a, b ++ c, List.append_assoc .., ha, b, c, rfl, hb, hc⟩

lemma Then.congr {P P' : List UInt8 → Prop} (same : ∀ s, P s ↔ P' s) (s : List UInt8) :
    Then P Q s ↔ Then P' Q s := by
  simp only [Then, same]

lemma allVoid_iff {branches : List (List Token)} :
    allVoid branches = true ↔ ∀ b ∈ branches, isVoid b = true := by
  induction branches with
  | nil => simp [allVoid]
  | cons b branches ih => rw [allVoid, Bool.and_eq_true, ih, List.forall_mem_cons]

mutual

/-- A table behind a token becomes the table in front of it. -/
lemma Token.tells_before (t : Token) {P : List UInt8 → Prop} {table : Table}
    (tells : Tells P path table) :
    Tells (Then t.Covers P) path (t.before path table) := by
  cases t with
  | literal c =>
    refine (tells.bytes (charBytes c)).congr (Then.congr fun s => ?_)
    exact ⟨fun eq => eq ▸ .literal, fun covers => by cases covers; rfl⟩
  | any =>
    refine (tells.behindByte fun _ => true).congr (Then.congr fun s => ?_)
    refine ⟨?_, fun covers => by cases covers; exact ⟨_, rfl, rfl⟩⟩
    rintro ⟨b, rfl, -⟩
    exact .any
  | star =>
    exact tells.hereOrLater.congr (Then.congr fun s => ⟨fun _ => .star, fun _ => trivial⟩)
  | leadingDirs => exact tells.behindDirs
  | allBelow =>
    refine tells.hereOrLater.behindSeparator.congr fun s => then_then.trans (Then.congr ?_ s)
    refine fun s => ⟨?_, fun covers => by cases covers; exact ⟨_, _, rfl, rfl, trivial⟩⟩
    rintro ⟨_, rest, rfl, rfl, -⟩
    exact .allBelow
  | innerDirs =>
    refine tells.behindDirs.behindSeparator.congr fun s => then_then.trans (Then.congr ?_ s)
    refine fun s => ⟨?_, fun covers => ?_⟩
    · rintro ⟨_, dirs, rfl, rfl, covers⟩
      cases covers with
      | noLeadingDirs => exact .noInnerDirs
      | leadingDirs => exact .innerDirs
    · cases covers with
      | noInnerDirs => exact ⟨_, [], rfl, rfl, .noLeadingDirs⟩
      | innerDirs => exact ⟨_, _, rfl, rfl, .leadingDirs⟩
  | oneOf negated ranges =>
    refine (tells.behindByte (inClass negated ranges)).congr (Then.congr fun s => ?_)
    refine ⟨?_, fun covers => by cases covers with | oneOf held => exact ⟨_, rfl, held⟩⟩
    rintro ⟨b, rfl, held⟩
    exact .oneOf held
  | alternates branches =>
    rw [Token.before]
    split
    · next void =>
      refine tells.congr fun s => ⟨fun held => ⟨[], s, rfl, .noAlternates void, held⟩, ?_⟩
      rintro ⟨part, rest, rfl, covers, held⟩
      cases covers with
      | noAlternates => exact held
      | alternates mem full =>
        rw [allVoid_iff.1 void _ mem] at full
        cases full
    · next full =>
      refine (tells_branchesBefore branches tells).congr
        (Then.congr fun s => ⟨?_, fun covers => ?_⟩)
      · rintro ⟨b, mem, full, covers⟩
        exact .alternates mem full covers
      · cases covers with
        | noAlternates void => exact absurd void full
        | alternates mem full covers => exact ⟨_, mem, full, covers⟩

lemma tells_sequenceBefore (ts : List Token) {P : List UInt8 → Prop} {table : Table}
    (tells : Tells P path table) :
    Tells (Then (SequenceCovers ts) P) path (sequenceBefore path ts table) := by
  cases ts with
  | nil =>
    refine tells.congr fun s => ⟨fun held => ⟨[], s, rfl, .nil, held⟩, ?_⟩
    rintro ⟨_, rest, rfl, covers, held⟩
    cases covers
    exact held
  | cons t ts =>
    refine (t.tells_before (tells_sequenceBefore ts tells)).congr fun s =>
      then_then.trans (Then.congr ?_ s)
    refine fun s => ⟨?_, fun covers => by cases covers; exact ⟨_, _, rfl, ‹_›, ‹_›⟩⟩
    rintro ⟨_, _, rfl, first, others⟩
    exact .cons first others

lemma tells_branchesBefore (branches : List (List Token)) {P : List UInt8 → Prop} {table : Table}
    (tells : Tells P path table) :
    Tells (Then (fun part => ∃ b ∈ branches, isVoid b = false ∧ SequenceCovers b part) P) path
      (branchesBefore path branches table) := by
  cases branches with
  | nil =>
    refine (tells_nowhere path).congr fun s => ⟨False.elim, ?_⟩
    rintro ⟨_, _, -, ⟨b, mem, -⟩, -⟩
    exact absurd mem List.not_mem_nil
  | cons b branches =>
    have others := tells_branchesBefore branches tells
    have first := tells_sequenceBefore b tells
    rw [branchesBefore]
    split
    · next void =>
      refine others.congr (Then.congr fun s => ?_)
      simp [void]
    · next full =>
      rw [Bool.not_eq_true] at full
      refine (first.eitherTable others).congr fun s => ?_
      simp only [Then, List.mem_cons, or_and_right, exists_or, exists_eq_left, full, true_and,
        and_or_left]

end

/-! ### Whole paths -/

lemma accepts_iff {ts : List Token} : accepts ts path = true ↔ SequenceCovers ts path := by
  rw [accepts, (tells_sequenceBefore ts (tells_atEnd path)).headD]
  constructor
  · rintro ⟨part, _, rfl, covers, rfl⟩
    rwa [List.append_nil]
  · exact fun covers => ⟨path, [], (List.append_nil _).symm, covers, rfl⟩

theorem isMatch_iff {ts : List Token} : isMatch ts path = true ↔ Matches ts path := by
  rw [isMatch.eq_def]
  split
  · simp [Matches]
  · next other =>
    have other : ts ≠ [.leadingDirs] := other
    simp only [Matches, other, false_or]
    split
    · next nameless =>
      simp only [Bool.and_eq_true] at nameless
      simp [nameless]
    · next named =>
      simp only [Bool.and_eq_true, and_assoc] at named
      rw [accepts_iff]
      exact ⟨fun covers => ⟨covers, named⟩, And.left⟩

end Multipass.Glob
