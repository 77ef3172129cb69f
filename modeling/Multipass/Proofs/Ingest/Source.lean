import Multipass.Proofs.Ingest.Selection

/-!
# What is told of a source

The language of a file is told by what stands behind the last point of its name, and the lines of a
source are what stands between its line feeds. Both are stated apart from how they are computed.

Main statements: `language?_iff` and `lines_iff`.
-/

namespace Multipass.Ingest

/-! ### Languages -/

/-- The languages of files by what stands behind the last point of their names. -/
def languages : List (String × String) :=
  [("php", "php"), ("phtml", "php"), ("js", "javascript"), ("mjs", "javascript"),
    ("cjs", "javascript"), ("ts", "typescript"), ("tsx", "typescript"), ("py", "python"),
    ("rb", "ruby"), ("rs", "rust"), ("go", "go"), ("java", "java")]

/-- Holds of the name of a file and its language: its extension, in letters of either case, is one of
those that are known. A point in front of the whole name does not count. -/
def Tells (name language : String) : Prop :=
  ∃ stem extension, name = stem ++ "." ++ extension ∧ stem ≠ "" ∧ '.' ∉ extension.toList ∧
    (extension.toLower, language) ∈ languages

section

variable {name language stem extension : String} {names : List String}

lemma exists_last_point {s : List Char} (mem : '.' ∈ s) :
    ∃ front back, s = front ++ '.' :: back ∧ '.' ∉ back := by
  induction s with
  | nil => cases mem
  | cons c s ih =>
    by_cases later : '.' ∈ s
    · obtain ⟨front, back, rfl, last⟩ := ih later
      exact ⟨c :: front, back, rfl, last⟩
    · obtain rfl := (List.mem_cons.1 mem).resolve_right later
      exact ⟨[], s, rfl, later⟩

lemma extensionOf_of_point (last : '.' ∉ extension.toList) :
    Path.extensionOf (stem ++ "." ++ extension) = if stem = "" then none else some extension := by
  have chars : (stem ++ "." ++ extension).toList = stem.toList ++ '.' :: extension.toList := by
    simp
  rw [Path.extensionOf, chars, Text.splitOnChar_append, Text.splitOnChar_of_notMem last,
    List.reverse_append, List.reverse_singleton, List.singleton_append]
  by_cases empty : stem = ""
  · subst empty
    rfl
  · obtain ⟨before, rest, pieces⟩ : ∃ before rest,
        (Text.splitOnChar '.' stem.toList).reverse = before :: rest :=
      List.exists_cons_of_ne_nil fun none =>
        Text.splitOnChar_ne_nil _ _ (List.reverse_eq_nil_iff.1 none)
    have full : (rest.isEmpty && before.isEmpty) = false := by
      rw [Bool.eq_false_iff, Ne, Bool.and_eq_true, List.isEmpty_iff, List.isEmpty_iff]
      rintro ⟨rfl, rfl⟩
      have whole : ['.'].intercalate (stem.toList.splitOn '.') = stem.toList :=
        List.intercalate_splitOn '.'
      rw [← Text.splitOnChar_eq, List.reverse_eq_iff.1 pieces] at whole
      exact empty (String.toList_inj.1 whole.symm)
    simp only [pieces, full, empty, Bool.false_eq_true, if_false, String.ofList_toList]

theorem extensionOf_iff : Path.extensionOf name = some extension ↔
    ∃ stem, name = stem ++ "." ++ extension ∧ stem ≠ "" ∧ '.' ∉ extension.toList := by
  constructor
  · intro found
    by_cases pointed : '.' ∈ name.toList
    · obtain ⟨front, back, chars, last⟩ := exists_last_point pointed
      have eq : name = String.ofList front ++ "." ++ String.ofList back := by
        rw [← String.toList_inj, chars]
        simp
      rw [eq, extensionOf_of_point (by rwa [String.toList_ofList])] at found
      split at found
      · cases found
      · next full =>
        cases found
        exact ⟨_, eq, full, by rwa [String.toList_ofList]⟩
    · rw [Path.extensionOf, Text.splitOnChar_of_notMem pointed] at found
      cases found
  · rintro ⟨stem, rfl, full, last⟩
    rw [extensionOf_of_point last, if_neg full]

lemma languageOfExtension_iff :
    Path.languageOfExtension extension = some language ↔ (extension, language) ∈ languages := by
  unfold Path.languageOfExtension
  split <;> simp_all [languages, eq_comm]

lemma asciiLower_eq : Path.asciiLower name = name.toLower := by
  have mapped : name.toLower = name.map Char.toLower := rfl
  rw [Path.asciiLower, mapped, ← String.toList_inj, String.toList_ofList, String.toList_map]

/-- The components of the text of names are the names. -/
lemma components_intercalate (full : names ≠ []) (isName : ∀ name ∈ names, IsName name) :
    Path.components ("/".intercalate names) = names := by
  have pieces : Text.splitOnChar '/' ("/".intercalate names).toList = names.map String.toList := by
    rw [String.toList_intercalate, Text.splitOnChar_eq]
    exact pieces_intercalate full isName
  have kept : ∀ piece ∈ names.map String.toList,
      (!(piece.isEmpty || piece == ['.'])) = true := by
    refine List.forall_mem_map.2 fun name mem => ?_
    simp only [Bool.not_eq_true', Bool.or_eq_false_iff, List.isEmpty_eq_false_iff,
      beq_eq_false_iff_ne]
    exact ⟨fun none => (isName name mem).nonempty (String.toList_inj.1 none),
      fun point => (isName name mem).ne_here (String.toList_inj.1 point)⟩
  rw [Path.components, pieces]
  split
  · next rest point =>
    have mem : ['.'] ∈ names.map String.toList := point ▸ List.mem_cons_self
    simpa using kept _ mem
  · rw [List.filter_eq_self.2 kept, List.map_map]
    simp

/-- The language of a file is the one that the last of its names tells. -/
theorem language?_iff (full : names ≠ []) (isName : ∀ name ∈ names, IsName name) :
    Path.language? ("/".intercalate names) = some language ↔
      ∃ name, names.getLast? = some name ∧ Tells name language := by
  have own := isName _ (List.getLast_mem full)
  have last : Path.fileName? ("/".intercalate names) = some (names.getLast full) := by
    simp only [Path.fileName?, components_intercalate full isName, List.getLast?_eq_some_getLast full,
      own.ne_here, own.ne_above, or_self, if_false]
  simp only [Path.language?, Path.extension?, last, Option.bind_some, Option.bind_eq_some_iff,
    extensionOf_iff, languageOfExtension_iff, asciiLower_eq, List.getLast?_eq_some_getLast full,
    Option.some.injEq, exists_eq_left', Tells]
  constructor
  · rintro ⟨extension, ⟨stem, eq, rest⟩, known⟩
    exact ⟨stem, extension, eq, rest.1, rest.2, known⟩
  · rintro ⟨stem, extension, eq, full, pointless, known⟩
    exact ⟨extension, ⟨stem, eq, full, pointless⟩, known⟩

end

/-! ### Lines -/

/-- Holds of characters and the number of lines that they fall into; the last one need not end. -/
inductive Lines : List Char → Nat → Prop where
  | none :
    Lines [] 0
  | last {line} :
    line ≠ [] →
    '\n' ∉ line →
    Lines line 1
  | line {line rest n} :
    '\n' ∉ line →
    Lines rest n →
    Lines (line ++ '\n' :: rest) (n + 1)

/-- There are as many lines as line feeds, and one more if the last character is another one. -/
lemma lineCount_of_last {s : List Char} {c : Char} (last : s.getLast? = some c) :
    lineCount (String.ofList s) = s.count '\n' + if c = '\n' then 0 else 1 := by
  simp only [lineCount, String.toList_ofList, last]
  split
  · next none => cases none
  · next eq =>
    cases eq
    rfl
  · next other eq =>
    cases eq
    have ne : c ≠ '\n' := fun same => other (same ▸ rfl)
    rw [if_neg ne]

lemma lineCount_of_lines {s : List Char} {n : Nat} (lines : Lines s n) :
    lineCount (String.ofList s) = n := by
  induction lines with
  | none => rfl
  | @last line full whole =>
    have ends : line.getLast full ≠ '\n' := fun eq => whole (eq ▸ List.getLast_mem full)
    rw [lineCount_of_last (List.getLast?_eq_some_getLast full), List.count_eq_zero.2 whole, if_neg ends]
  | @line line rest n whole _ ih =>
    have breaks : (line ++ '\n' :: rest).count '\n' = rest.count '\n' + 1 := by
      rw [List.count_append, List.count_eq_zero.2 whole, List.count_cons_self, Nat.zero_add]
    cases rest with
    | nil =>
      rw [← ih, lineCount_of_last (List.getLast?_concat ..), breaks]
      rfl
    | cons c rest =>
      have last := List.getLast?_eq_some_getLast (List.cons_ne_nil c rest)
      rw [← ih, lineCount_of_last last, lineCount_of_last (c := (c :: rest).getLast (by simp)), breaks,
        Nat.add_right_comm]
      rw [List.getLast?_append, List.getLast?_cons_cons, last, Option.some_or]

lemma exists_lines (s : List Char) : ∃ n, Lines s n := by
  induction s with
  | nil => exact ⟨0, .none⟩
  | cons c s ih =>
    obtain ⟨n, lines⟩ := ih
    by_cases ends : c = '\n'
    · have cut : Lines ([] ++ '\n' :: s) (n + 1) := .line List.not_mem_nil lines
      exact ⟨n + 1, ends ▸ cut⟩
    · have first (line : List Char) (whole : '\n' ∉ line) : '\n' ∉ c :: line :=
        fun mem => (List.mem_cons.1 mem).elim (fun eq => ends eq.symm) whole
      cases lines with
      | none => exact ⟨1, .last (List.cons_ne_nil _ _) (first [] List.not_mem_nil)⟩
      | last _ whole => exact ⟨1, .last (List.cons_ne_nil _ _) (first _ whole)⟩
      | line whole lines => exact ⟨_, .line (first _ whole) lines⟩

/-- The lines of a source are counted. -/
theorem lines_iff {source : String} {n : Nat} : Lines source.toList n ↔ lineCount source = n := by
  have counted {n : Nat} (lines : Lines source.toList n) : lineCount source = n := by
    rw [← lineCount_of_lines lines, String.ofList_toList]
  refine ⟨counted, ?_⟩
  rintro rfl
  obtain ⟨n, lines⟩ := exists_lines source.toList
  rwa [counted lines]

end Multipass.Ingest
