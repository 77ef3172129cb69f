import Mathlib.Data.List.Forall2
import Multipass.Prompt.Template
import Multipass.Proofs.Text.Find

/-!
# Inputs in a prompt

A prompt should be followed by all inputs exactly if its template expands none of them. The template
is looked at as written for that, so a placeholder counts if it ends, as written, in the placeholder
of an input: one with blanks around its name does not, and one with further braces in front does.

Main statements: `fill_splits` for filled templates, and `prompt_eq_iff`.
-/

namespace Multipass.Template

/-!
### How a template is filled

A template falls into pieces from left to right, and in one way only. The pieces put together are the
template, whatever is known of its placeholders; filling it replaces each placeholder whose name is
known, and nothing else. Values take the place of their placeholders as they are.
-/

section

open Text

/-- How a text falls into pieces: a placeholder reaches from the first opening to the first closing
behind it, and an opening without a closing behind it is text, as is all that follows it. -/
inductive Splits : List Char → List Piece → Prop where
  | text {s} :
    ¬ opening <:+: s →
    Splits s [.literal s]
  | unclosed {before after} :
    Ahead opening before →
    ¬ closing <:+: after →
    Splits (before ++ opening ++ after) [.literal (before ++ opening ++ after)]
  | placeholder {before name rest ps} :
    Ahead opening before →
    Ahead closing name →
    Splits rest ps →
    Splits (before ++ opening ++ (name ++ closing ++ rest))
      (.literal before :: .placeholder name :: ps)

/-- What becomes of a piece: a placeholder gives way to the value of the name in it, without the
blanks around it, and stays as written if there is none. -/
inductive Piece.Becomes (value : String → Option String) : Piece → List Char → Prop where
  | literal {s} :
    Becomes value (.literal s) s
  | known {name v} :
    value (String.ofList (trimChars name)) = some v →
    Becomes value (.placeholder name) v.toList
  | unknown {name} :
    value (String.ofList (trimChars name)) = none →
    Becomes value (.placeholder name) (written (.placeholder name))

lemma opening_ne_nil : opening ≠ [] := List.cons_ne_nil _ _

lemma closing_ne_nil : closing ≠ [] := List.cons_ne_nil _ _

/-- A text falls into its pieces. -/
lemma splits_pieces (s : List Char) : Splits s (pieces s) := by
  fun_induction pieces s with
  | case1 s none => exact .text (splitAt?_eq_none_iff.1 none)
  | case2 s before after opens none =>
    obtain ⟨rfl, ahead⟩ := (splitAt?_eq_some_iff opening_ne_nil).1 opens
    exact .unclosed ahead (splitAt?_eq_none_iff.1 none)
  | case3 s before after opens name rest closes shorter ih =>
    obtain ⟨rfl, ahead⟩ := (splitAt?_eq_some_iff opening_ne_nil).1 opens
    obtain ⟨rfl, within⟩ := (splitAt?_eq_some_iff closing_ne_nil).1 closes
    exact .placeholder ahead within ih

/-- A text falls into pieces in one way. -/
lemma Splits.eq_pieces {s : List Char} {ps : List Piece} (splits : Splits s ps) : ps = pieces s := by
  induction splits with
  | @text s none =>
    rw [← splitAt?_eq_none_iff] at none
    fun_cases pieces s with
    | case1 => rfl
    | case2 before after opens => cases none.symm.trans opens
    | case3 before after opens => cases none.symm.trans opens
  | @unclosed before after ahead none =>
    have found := ahead.splitAt?_eq opening_ne_nil after
    rw [← splitAt?_eq_none_iff] at none
    fun_cases pieces (before ++ opening ++ after) with
    | case1 => rfl
    | case2 => rfl
    | case3 before' after' opens name rest closes =>
      cases found.symm.trans opens
      cases none.symm.trans closes
  | @placeholder before name rest ps ahead within _ ih =>
    have found := ahead.splitAt?_eq opening_ne_nil (name ++ closing ++ rest)
    have closed := within.splitAt?_eq closing_ne_nil rest
    fun_cases pieces (before ++ opening ++ (name ++ closing ++ rest)) with
    | case1 none => cases none.symm.trans found
    | case2 before' after' opens none =>
      cases found.symm.trans opens
      cases none.symm.trans closed
    | case3 before' after' opens name' rest' closes =>
      cases found.symm.trans opens
      cases closed.symm.trans closes
      rw [ih]

lemma Splits.flatMap_written {s : List Char} {ps : List Piece} (splits : Splits s ps) :
    ps.flatMap Piece.written = s := by
  induction splits with
  | text none => simp [Piece.written]
  | unclosed ahead none => simp [Piece.written]
  | placeholder ahead within _ ih => simp [Piece.written, ih]

lemma Piece.becomes_filled (value : String → Option String) (p : Piece) :
    Becomes value p (filled value p) := by
  cases p with
  | literal s => exact .literal
  | placeholder name =>
    rw [filled]
    split
    · next known => exact .known known
    · next unknown => exact .unknown unknown

/-- Nothing is lost: where no name is known, a template is filled with itself. -/
lemma flatMap_filled_none (ps : List Piece) :
    ps.flatMap (Piece.filled fun _ => none) = ps.flatMap Piece.written := by
  refine List.flatMap_congr ?_
  rintro (s | name) -
  · rfl
  · rfl

/-- A template falls into pieces in one way, which put together are the template. Filling it puts
together what becomes of them, and leaves it as it is where no name is known. -/
theorem fill_splits (template : String) :
    ∃ ps : List Piece, (∀ qs, Splits template.toList qs ↔ qs = ps) ∧
      ps.flatMap Piece.written = template.toList ∧
      (∀ value, ∃ parts, List.Forall₂ (Piece.Becomes value) ps parts ∧
        fill template value = String.ofList parts.flatten) ∧
      fill template (fun _ => none) = template := by
  have splits := splits_pieces template.toList
  have written := splits.flatMap_written
  refine ⟨pieces template.toList, ?_, written, ?_, ?_⟩
  · intro qs
    constructor
    · exact Splits.eq_pieces
    · rintro rfl
      exact splits
  · intro value
    refine ⟨(pieces template.toList).map (Piece.filled value), ?_, ?_⟩
    · rw [List.forall₂_map_right_iff, List.forall₂_same]
      intro p _
      exact p.becomes_filled value
    · rw [← List.flatMap_def]
      rfl
  · rw [fill, flatMap_filled_none, written, String.ofList_toList]

end

open Text

/-- Holds of a placeholder that gives way to an input. -/
def Piece.expandsContent : Piece → Bool
  | .literal _ => false
  | .placeholder name => contentNames.contains (String.ofList (trimChars name))

/-- Holds of a placeholder that ends, as written, in the placeholder of an input without blanks. -/
def Piece.spellsContent : Piece → Bool
  | .literal _ => false
  | .placeholder name => contentNames.any fun c => (opening ++ c.toList).isSuffixOf (opening ++ name)

/-- Holds of a template of which some placeholder gives way to an input. -/
def expandsContent (template : String) : Bool :=
  (pieces template.toList).any Piece.expandsContent

/-- Holds of a template in which some placeholder is spelled like that of an input. -/
def spellsContent (template : String) : Bool :=
  (pieces template.toList).any Piece.spellsContent

/-- A filled template, which all inputs follow, if there are any, unless it is `expanded` to some. -/
def withInputs (expanded : Bool) (template : String) (ctx : InvocationContext) : String :=
  if expanded || ctx.combined.isEmpty then fill template (value ctx)
  else fill template (value ctx) ++ InvocationContext.gap ++ ctx.combined

variable {c s before after : List Char}

/-! ### Where a placeholder is written -/

/-- A name without a closing brace ends where it is closed. -/
lemma ahead_closing_of_plain (plain : '\x7d' ∉ c) : Ahead closing c := by
  intro occurs
  have count := occurs.sublist.count_le '\x7d'
  rw [List.count_append, List.count_eq_zero.2 plain] at count
  exact absurd count (by decide)

/-- An opening is no part of a closing. -/
lemma infix_closing_append_opening :
    closing <:+: before ++ opening ++ after ↔ closing <:+: before ∨ closing <:+: after := by
  have other : '\x7b' ∉ closing := by decide
  have layout : before ++ opening ++ after = before ++ '\x7b' :: ([] ++ '\x7b' :: after) := by
    simp [opening]
  have empty : ¬ closing <:+: [] := by simp [closing]
  rw [layout, infix_append_cons_iff other, infix_append_cons_iff other]
  simp only [empty, false_or]

lemma ahead_closing_append (none : ¬ closing <:+: before) (ahead : Ahead closing c) :
    Ahead closing (before ++ opening ++ c) := by
  rw [Ahead, List.append_assoc, infix_closing_append_opening]
  exact not_or.2 ⟨none, ahead⟩

/-- A placeholder that is written in a text ends some placeholder of which the text consists. -/
lemma exists_of_written (plain : '\x7d' ∉ c) {ps : List Piece} (splits : Splits s ps)
    (occurs : opening ++ c ++ closing <:+: s) :
    ∃ name, .placeholder name ∈ ps ∧ opening ++ c <:+ opening ++ name := by
  induction splits with
  | text none =>
    have front : opening <:+: opening ++ c ++ closing := by
      rw [List.append_assoc]
      exact (List.prefix_append ..).isInfix
    exact absurd (front.trans occurs) none
  | @unclosed before after ahead none =>
    obtain ⟨u, v, eq⟩ := occurs
    have eq : before ++ opening ++ after = u ++ opening ++ (c ++ closing ++ v) := by
      rw [← eq]
      simp
    obtain ⟨w, rfl⟩ := ahead.prefix_of eq
    have closed : closing <:+: [] ++ opening ++ after := by
      have eq : opening ++ after = w ++ opening ++ (c ++ closing ++ v) := by
        simpa using eq
      rw [List.nil_append, eq]
      exact ⟨w ++ opening ++ c, v, by simp⟩
    obtain empty | closed := infix_closing_append_opening.1 closed
    · exact absurd empty (by simp [closing])
    · exact absurd closed none
  | @placeholder before name rest ps ahead within _ ih =>
    obtain ⟨u, v, eq⟩ := occurs
    have eq : before ++ opening ++ (name ++ closing ++ rest) = u ++ opening ++ (c ++ closing ++ v) := by
      rw [← eq]
      simp
    obtain ⟨w, rfl⟩ := ahead.prefix_of eq
    have first : Ahead closing ([] ++ opening ++ name) := ahead_closing_append (by simp [closing]) within
    by_cases closed : closing <:+: w
    · -- It stands behind the placeholder that is closed first.
      obtain ⟨b, a, rfl, last⟩ := exists_ahead closing_ne_nil closed
      have eq : [] ++ opening ++ name ++ closing ++ rest =
          b ++ closing ++ (a ++ (opening ++ c ++ closing) ++ v) := by
        simpa using eq
      obtain ⟨-, rfl⟩ := first.unique closing_ne_nil last eq
      obtain ⟨other, mem, ends⟩ := ih ⟨a, v, rfl⟩
      exact ⟨other, List.mem_cons_of_mem _ (List.mem_cons_of_mem _ mem), ends⟩
    · -- It is closed where that placeholder is.
      have last : Ahead closing (w ++ opening ++ c) :=
        ahead_closing_append closed (ahead_closing_of_plain plain)
      have eq : [] ++ opening ++ name ++ closing ++ rest = w ++ opening ++ c ++ closing ++ v := by
        simpa using eq
      obtain ⟨eq, -⟩ := first.unique closing_ne_nil last eq
      refine ⟨name, by simp, w, ?_⟩
      simpa using eq.symm

/-- A placeholder is written in a text exactly if it ends some placeholder of the text. -/
lemma written_iff (plain : '\x7d' ∉ c) :
    opening ++ c ++ closing <:+: s ↔
      ∃ name, .placeholder name ∈ pieces s ∧ opening ++ c <:+ opening ++ name := by
  constructor
  · exact exists_of_written plain (splits_pieces s)
  · rintro ⟨name, mem, front, ends⟩
    have written : Piece.written (.placeholder name) <:+: s := by
      rw [← (splits_pieces s).flatMap_written]
      exact List.infix_of_mem_flatten (List.mem_map_of_mem mem)
    refine List.IsInfix.trans ⟨front, [], ?_⟩ written
    simp only [Piece.written, ← ends, List.append_assoc, List.append_nil]

/-! ### Prompts -/

lemma plain_contentNames : ∀ c ∈ contentNames, '\x7d' ∉ c.toList := by
  decide

/-- What a template is looked at for is whether a placeholder is spelled like that of an input. -/
lemma namesContent_eq (template : String) : namesContent template = spellsContent template := by
  rw [Bool.eq_iff_iff, namesContent, spellsContent, List.any_eq_true, List.any_eq_true]
  constructor
  · rintro ⟨c, mem, occurs⟩
    rw [contains, String.toList_ofList, occursIn_iff, written_iff (plain_contentNames c mem)] at occurs
    obtain ⟨name, piece, ends⟩ := occurs
    refine ⟨.placeholder name, piece, ?_⟩
    exact List.any_eq_true.2 ⟨c, mem, List.isSuffixOf_iff_suffix.2 ends⟩
  · rintro ⟨p, piece, spells⟩
    cases p with
    | literal s => cases spells
    | placeholder name =>
      obtain ⟨c, mem, ends⟩ := List.any_eq_true.1 spells
      refine ⟨c, mem, ?_⟩
      rw [contains, String.toList_ofList, occursIn_iff, written_iff (plain_contentNames c mem)]
      exact ⟨name, piece, List.isSuffixOf_iff_suffix.1 ends⟩

lemma append_gap_ne (s t : String) : s ++ InvocationContext.gap ++ t ≠ s := by
  intro eq
  have count := congrArg String.length eq
  rw [String.length_append, String.length_append] at count
  have : InvocationContext.gap.length = 2 := rfl
  omega

/-- All inputs follow a prompt unless its template spells the placeholder of one. That is as it
should be, so that they follow unless the template expands one, exactly if there are no inputs or the
template spells such a placeholder just when it expands one. -/
theorem prompt_eq_iff (template : String) (ctx : InvocationContext) :
    prompt template ctx = withInputs (spellsContent template) template ctx ∧
      (prompt template ctx = withInputs (expandsContent template) template ctx ↔
        ctx.combined.isEmpty = true ∨ spellsContent template = expandsContent template) := by
  have apart := append_gap_ne (fill template (value ctx)) ctx.combined
  have spelled : prompt template ctx = withInputs (spellsContent template) template ctx := by
    simp only [prompt, withInputs, namesContent_eq]
  refine ⟨spelled, ?_⟩
  rw [spelled]
  simp only [withInputs]
  cases ctx.combined.isEmpty <;> cases spellsContent template <;> cases expandsContent template <;>
    simp [apart, apart.symm]

/-- The context of a record of which nothing but the source is asked for. -/
def onlySource : InvocationContext where
  runId := "run"
  path := "a.php"
  file := "./a.php"
  language := some "php"
  source := some "x"
  parsed := none
  previous := none

/-- A placeholder with blanks around its name is expanded, and its input follows once more; one with
a further brace in front is not expanded, and its input is left out. -/
theorem prompt_strays :
    (prompt "\x7b\x7b source \x7d\x7d" onlySource = "x\n\nSource:\nx" ∧
      withInputs (expandsContent "\x7b\x7b source \x7d\x7d") "\x7b\x7b source \x7d\x7d" onlySource =
        "x") ∧
    (prompt "\x7b\x7b\x7bsource\x7d\x7d\x7d" onlySource = "\x7b\x7b\x7bsource\x7d\x7d\x7d" ∧
      withInputs (expandsContent "\x7b\x7b\x7bsource\x7d\x7d\x7d")
          "\x7b\x7b\x7bsource\x7d\x7d\x7d" onlySource =
        "\x7b\x7b\x7bsource\x7d\x7d\x7d\n\nSource:\nx") := by
  decide +kernel

end Multipass.Template
