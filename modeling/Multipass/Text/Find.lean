/-!
# Finding text in text

The first occurrence of a pattern, and what follows from it: containment and replacement. A
pattern is found at the leftmost place where the text continues with it, and the search goes on
behind the whole occurrence.
-/

namespace Multipass.Text

/-- What follows `pattern` if `s` starts with it. -/
def dropPattern? : (pattern s : List Char) → Option (List Char)
  | [], s => some s
  | _ :: _, [] => none
  | p :: ps, c :: cs => if p = c then dropPattern? ps cs else none

theorem dropPattern?_eq_some_iff {pattern s rest : List Char} :
    dropPattern? pattern s = some rest ↔ s = pattern ++ rest := by
  induction pattern generalizing s with
  | nil => simp [dropPattern?, eq_comm]
  | cons p ps ih =>
    cases s with
    | nil => simp [dropPattern?]
    | cons c cs =>
      by_cases h : p = c
      · simp [dropPattern?, h, ih]
      · simp [dropPattern?, h, Ne.symm h]

/-- The text before and behind the first occurrence of `pattern`. -/
def splitAt? (pattern : List Char) : List Char → Option (List Char × List Char)
  | [] => (dropPattern? pattern []).map fun rest => ([], rest)
  | c :: cs =>
    match dropPattern? pattern (c :: cs) with
    | some rest => some ([], rest)
    | none => (splitAt? pattern cs).map fun (before, after) => (c :: before, after)

/-- A found pattern lies between the two parts. -/
theorem eq_append_of_splitAt? {pattern s before after : List Char}
    (h : splitAt? pattern s = some (before, after)) : s = before ++ pattern ++ after := by
  induction s generalizing before with
  | nil =>
    simp only [splitAt?, Option.map_eq_some_iff, Prod.mk.injEq] at h
    obtain ⟨_, hd, rfl, rfl⟩ := h
    simpa using dropPattern?_eq_some_iff.1 hd
  | cons c cs ih =>
    rw [splitAt?] at h
    split at h
    · next hd =>
      simp only [Option.some.injEq, Prod.mk.injEq] at h
      obtain ⟨rfl, rfl⟩ := h
      simpa using dropPattern?_eq_some_iff.1 hd
    · simp only [Option.map_eq_some_iff, Prod.mk.injEq, Prod.exists] at h
      obtain ⟨b, a, hs, rfl, rfl⟩ := h
      simp [ih hs]

/-- Holds when `pattern` occurs in `s`. -/
def occursIn (pattern s : List Char) : Bool :=
  (splitAt? pattern s).isSome

/-- Replaces each occurrence of a pattern that is not empty, from left to right; `fuel` bounds
the number of characters still to be looked at. -/
def replaceWithin (pattern value : List Char) : (fuel : Nat) → List Char → List Char
  | 0, s => s
  | fuel + 1, s =>
    match splitAt? pattern s with
    | none => s
    | some (before, after) => before ++ value ++ replaceWithin pattern value fuel after

/-- Replaces each occurrence of a pattern that is not empty, from left to right. -/
def replaceChars (pattern value s : List Char) : List Char :=
  if pattern.isEmpty then s else replaceWithin pattern value s.length s

/-- Replaces each occurrence of a pattern that is not empty, from left to right. -/
def replace (pattern value s : String) : String :=
  String.ofList (replaceChars pattern.toList value.toList s.toList)

/-- Holds when `pattern` occurs in `s`. -/
def contains (s pattern : String) : Bool :=
  occursIn pattern.toList s.toList

/-- The pieces of a text between the occurrences of one character. -/
def splitOnChar (sep : Char) : List Char → List (List Char)
  | [] => [[]]
  | c :: cs =>
    if c = sep then [] :: splitOnChar sep cs
    else
      match splitOnChar sep cs with
      | [] => [[c]]
      | piece :: rest => (c :: piece) :: rest

theorem splitOnChar_ne_nil (sep : Char) (s : List Char) : splitOnChar sep s ≠ [] := by
  cases s with
  | nil => simp [splitOnChar]
  | cons c cs =>
    rw [splitOnChar]
    split
    · simp
    · split <;> simp

end Multipass.Text
