import Mathlib.Data.List.Infix
import Multipass.Text.Find

/-!
# First occurrences, and pieces

A pattern is found exactly where it occurs, and at the first place: it occurs neither in the text in
front of it nor across the end of that text. A text falls into the pieces between its separators.

Main statements: `occursIn_iff`, `splitAt?_eq_some_iff`, and `splitOnChar_eq`.
-/

namespace Multipass.Text

variable {pattern s before after : List Char}

lemma dropPattern?_eq_none_iff : dropPattern? pattern s = none ↔ ¬ pattern <+: s := by
  rw [Option.eq_none_iff_forall_ne_some]
  constructor
  · rintro none ⟨rest, rfl⟩
    exact none rest (dropPattern?_eq_some_iff.2 rfl)
  · intro no rest found
    exact no ⟨rest, (dropPattern?_eq_some_iff.1 found).symm⟩

/-- A pattern is found in a text exactly if it occurs there. -/
theorem occursIn_iff : occursIn pattern s = true ↔ pattern <:+: s := by
  induction s with
  | nil => cases pattern <;> simp [occursIn, splitAt?, dropPattern?]
  | cons c cs ih =>
    rw [List.infix_cons_iff, ← ih, occursIn, splitAt?]
    split
    · next rest found =>
      have front : pattern <+: c :: cs := ⟨rest, (dropPattern?_eq_some_iff.1 found).symm⟩
      simp [front]
    · next none =>
      have front := dropPattern?_eq_none_iff.1 none
      simp [occursIn, front]

theorem splitAt?_eq_none_iff : splitAt? pattern s = none ↔ ¬ pattern <:+: s := by
  rw [← occursIn_iff, occursIn]
  simp

/-- What stands in front of an occurrence, and all of that occurrence but its end, holds no other. -/
def Ahead (pattern before : List Char) : Prop :=
  ¬ pattern <:+: before ++ pattern.dropLast

lemma cut_prefix : before ++ pattern.dropLast <+: before ++ pattern ++ after := by
  rw [List.append_assoc]
  refine (List.prefix_append_right_inj _).2 ?_
  exact (List.dropLast_prefix pattern).trans (List.prefix_append ..)

/-- A pattern does not stand at the very front if something stands ahead of it. -/
lemma not_prefix_of_ahead {c : Char} (ahead : Ahead pattern (c :: before)) :
    ¬ pattern <+: c :: before ++ pattern ++ after := by
  intro front
  have short : pattern.length ≤ (c :: before ++ pattern.dropLast).length := by
    simp only [List.length_append, List.length_cons, List.length_dropLast]
    omega
  exact ahead (List.prefix_of_prefix_length_le front cut_prefix short).isInfix

/-- A pattern is found at its first occurrence. -/
theorem splitAt?_eq_some_iff (nonempty : pattern ≠ []) :
    splitAt? pattern s = some (before, after) ↔
      s = before ++ pattern ++ after ∧ Ahead pattern before := by
  have short : Ahead pattern [] := by
    intro occurs
    have := occurs.length_le
    have := List.length_pos_iff.2 nonempty
    simp only [List.nil_append, List.length_dropLast] at *
    omega
  constructor
  · intro found
    refine ⟨eq_append_of_splitAt? found, ?_⟩
    induction s generalizing before with
    | nil =>
      simp only [splitAt?, Option.map_eq_some_iff, Prod.mk.injEq] at found
      obtain ⟨_, -, rfl, -⟩ := found
      exact short
    | cons c cs ih =>
      have parts := eq_append_of_splitAt? found
      rw [splitAt?] at found
      split at found
      · cases found
        exact short
      · next none =>
        simp only [Option.map_eq_some_iff, Prod.mk.injEq, Prod.exists] at found
        obtain ⟨b, a, found, rfl, rfl⟩ := found
        have front := dropPattern?_eq_none_iff.1 none
        rw [Ahead, List.cons_append, List.infix_cons_iff]
        rintro (first | later)
        · rw [parts] at front
          rw [← List.cons_append] at first
          exact front (first.trans cut_prefix)
        · exact ih found later
  · rintro ⟨rfl, ahead⟩
    induction before with
    | nil =>
      cases pattern with
      | nil => exact absurd rfl nonempty
      | cons p ps =>
        have found : dropPattern? (p :: ps) (p :: (ps ++ after)) = some after :=
          dropPattern?_eq_some_iff.2 rfl
        simp only [List.nil_append, List.cons_append, splitAt?, found]
    | cons c before ih =>
      have none : dropPattern? pattern (c :: (before ++ pattern ++ after)) = none :=
        dropPattern?_eq_none_iff.2 (not_prefix_of_ahead ahead)
      have tail : Ahead pattern before := fun occurs => ahead (occurs.trans (List.infix_cons List.infix_rfl))
      simp only [List.cons_append, splitAt?, none, ih tail, Option.map_some]

lemma Ahead.splitAt?_eq (nonempty : pattern ≠ []) (ahead : Ahead pattern before) (after : List Char) :
    splitAt? pattern (before ++ pattern ++ after) = some (before, after) :=
  (splitAt?_eq_some_iff nonempty).2 ⟨rfl, ahead⟩

/-- What occurs in a text occurs there first. -/
lemma exists_ahead (nonempty : pattern ≠ []) (occurs : pattern <:+: s) :
    ∃ before after, s = before ++ pattern ++ after ∧ Ahead pattern before := by
  obtain ⟨⟨before, after⟩, found⟩ := Option.isSome_iff_exists.1 (occursIn_iff.2 occurs)
  exact ⟨before, after, (splitAt?_eq_some_iff nonempty).1 found⟩

/-- A text has one first occurrence. -/
lemma Ahead.unique {before' after' : List Char} (nonempty : pattern ≠ []) (ahead : Ahead pattern before)
    (ahead' : Ahead pattern before') (eq : before ++ pattern ++ after = before' ++ pattern ++ after') :
    before = before' ∧ after = after' := by
  have found := ahead.splitAt?_eq nonempty after
  rw [eq, ahead'.splitAt?_eq nonempty after'] at found
  cases found
  exact ⟨rfl, rfl⟩

/-- Every occurrence stands behind what is ahead of the first. -/
lemma Ahead.prefix_of {u v : List Char} (ahead : Ahead pattern before)
    (eq : before ++ pattern ++ after = u ++ pattern ++ v) : before <+: u := by
  have front : before <+: before ++ pattern ++ after := ⟨pattern ++ after, (List.append_assoc ..).symm⟩
  have other : u <+: before ++ pattern ++ after := eq ▸ ⟨pattern ++ v, (List.append_assoc ..).symm⟩
  by_cases short : before.length ≤ u.length
  · exact List.prefix_of_prefix_length_le front other short
  · -- An earlier occurrence would end within the first.
    have whole : u ++ pattern <+: before ++ pattern ++ after := eq ▸ List.prefix_append ..
    have within : u ++ pattern <+: before ++ pattern.dropLast := by
      refine List.prefix_of_prefix_length_le whole cut_prefix ?_
      simp only [List.length_append, List.length_dropLast]
      omega
    exact absurd ((List.suffix_append u pattern).isInfix.trans within.isInfix) ahead

/-! ### Occurrences beside a character -/

lemma prefix_append_cons_iff {c : Char} (other : c ∉ pattern) :
    pattern <+: before ++ c :: after ↔ pattern <+: before := by
  constructor
  · intro front
    by_cases short : pattern.length ≤ before.length
    · exact List.prefix_of_prefix_length_le front (List.prefix_append ..) short
    · -- A longer pattern would reach the character.
      have cut : before ++ [c] <+: before ++ c :: after := ⟨after, by simp⟩
      have reach : before ++ [c] <+: pattern := by
        refine List.prefix_of_prefix_length_le cut front ?_
        simp only [List.length_append, List.length_singleton]
        omega
      exact absurd (reach.subset (by simp)) other
  · intro front
    exact front.trans (List.prefix_append ..)

/-- A pattern without some character occurs on one side of that character. -/
lemma infix_append_cons_iff {c : Char} (other : c ∉ pattern) :
    pattern <:+: before ++ c :: after ↔ pattern <:+: before ∨ pattern <:+: after := by
  induction before with
  | nil =>
    have front : pattern <+: [] ++ c :: after ↔ pattern <+: [] := prefix_append_cons_iff other
    rw [List.nil_append] at front ⊢
    rw [List.infix_cons_iff, front, List.prefix_nil, List.infix_nil]
  | cons b before ih =>
    have front : pattern <+: (b :: before) ++ c :: after ↔ pattern <+: b :: before :=
      prefix_append_cons_iff other
    rw [List.cons_append] at front ⊢
    rw [List.infix_cons_iff, List.infix_cons_iff, front, ih, or_assoc]

/-! ### Single characters in the place of others -/

lemma replaceWithin_singleton {c d : Char} {fuel : Nat} (enough : s.length ≤ fuel) :
    replaceWithin [c] [d] fuel s = s.map fun x => if x = c then d else x := by
  have kept {s : List Char} (absent : ¬[c] <:+: s) : s.map (fun x => if x = c then d else x) = s := by
    refine (List.map_congr_left fun x mem => if_neg ?_).trans (List.map_id s)
    rintro rfl
    exact absent ((List.singleton_infix_iff x s).2 mem)
  induction fuel generalizing s with
  | zero =>
    rw [List.length_eq_zero_iff.1 (Nat.le_zero.1 enough)]
    rfl
  | succ fuel ih =>
    rw [replaceWithin]
    split
    · next none => exact (kept (splitAt?_eq_none_iff.1 none)).symm
    · next before after found =>
      obtain ⟨rfl, ahead⟩ := (splitAt?_eq_some_iff (List.cons_ne_nil c [])).1 found
      rw [Ahead, List.dropLast_singleton, List.append_nil] at ahead
      simp only [List.length_append, List.length_singleton] at enough
      rw [ih (by omega), List.map_append, List.map_append, kept ahead, List.map_singleton, if_pos rfl]

/-- A character in the place of another is put there wherever the other stands. -/
theorem replaceChars_singleton {c d : Char} :
    replaceChars [c] [d] s = s.map fun x => if x = c then d else x :=
  replaceWithin_singleton Nat.le.refl

/-! ### Pieces between separators -/

variable {sep : Char} {t : List Char}

theorem splitOnChar_eq : splitOnChar sep s = s.splitOn sep := by
  induction s with
  | nil => rfl
  | cons c s ih =>
    rw [splitOnChar, List.splitOn_cons_eq_if_modifyHead, ← ih]
    simp only [beq_iff_eq]
    split
    · rfl
    · cases pieces : splitOnChar sep s with
      | nil => exact absurd pieces (splitOnChar_ne_nil sep s)
      | cons => rfl

lemma splitOnChar_append :
    splitOnChar sep (s ++ sep :: t) = splitOnChar sep s ++ splitOnChar sep t := by
  simp only [splitOnChar_eq, List.splitOn_append_cons_self]

lemma splitOnChar_of_notMem (one : sep ∉ s) : splitOnChar sep s = [s] := by
  rw [splitOnChar_eq, List.splitOn_eq_singleton one]

lemma mem_of_mem_intercalate {c : Char} {pieces : List (List Char)}
    (mem : c ∈ [sep].intercalate pieces) (other : c ≠ sep) : ∃ piece ∈ pieces, c ∈ piece := by
  induction pieces with
  | nil => cases mem
  | cons piece pieces ih =>
    cases pieces with
    | nil =>
      rw [List.intercalate_singleton] at mem
      exact ⟨piece, List.mem_cons_self, mem⟩
    | cons next pieces =>
      rw [List.intercalate_cons_cons, List.append_assoc, List.singleton_append] at mem
      rcases List.mem_append.1 mem with mem | mem
      · exact ⟨piece, List.mem_cons_self, mem⟩
      · obtain ⟨found, found_mem, mem⟩ := ih ((List.mem_cons.1 mem).resolve_left other)
        exact ⟨found, List.mem_cons_of_mem _ found_mem, mem⟩

/-- The pieces of a text hold all of it but the separators. -/
lemma mem_splitOnChar {c : Char} (mem : c ∈ s) (other : c ≠ sep) :
    ∃ piece ∈ splitOnChar sep s, c ∈ piece := by
  have whole : c ∈ [sep].intercalate (s.splitOn sep) := by rwa [List.intercalate_splitOn]
  rw [splitOnChar_eq]
  exact mem_of_mem_intercalate whole other

end Multipass.Text
