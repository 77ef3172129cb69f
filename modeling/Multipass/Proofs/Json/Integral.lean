import Mathlib.Data.String.Basic
import Multipass.Proofs.Json.RoundTrip

/-!
# Values of integers

What is read of a text has the fields of each object in ascending order of their keys. When its
numbers are integers besides, it is read back from its own compact text.

Main statement: `plain_of_parse`.
-/

namespace Multipass.Json

/-- Holds of a value in which each object has its fields in ascending order of their keys. -/
inductive Ordered : Json → Prop where
  | null :
    Ordered .null
  | bool {b} :
    Ordered (.bool b)
  | int {i} :
    Ordered (.int i)
  | float {x} :
    Ordered (.float x)
  | str {s} :
    Ordered (.str s)
  | arr {js} :
    (∀ j ∈ js, Ordered j) →
    Ordered (.arr js)
  | obj {fs} :
    (fs.map Prod.fst).Pairwise (· < ·) →
    (∀ f ∈ fs, Ordered f.2) →
    Ordered (.obj fs)

/-- Holds of a value in which each number is an integer. -/
inductive Integral : Json → Prop where
  | null :
    Integral .null
  | bool {b} :
    Integral (.bool b)
  | int {i} :
    Integral (.int i)
  | str {s} :
    Integral (.str s)
  | arr {js} :
    (∀ j ∈ js, Integral j) →
    Integral (.arr js)
  | obj {fs} :
    (∀ f ∈ fs, Integral f.2) →
    Integral (.obj fs)

variable {depth : Nat} {j : Json} {s rest : List Char} {negative : Bool}

/-! ### Keys in order -/

lemma fst_insertField_subset (key : String) (j : Json) (fs : List (String × Json)) {k : String}
    (mem : k ∈ (insertField key j fs).map Prod.fst) : k = key ∨ k ∈ fs.map Prod.fst := by
  induction fs with
  | nil => exact .inl (List.mem_singleton.1 mem)
  | cons f fs ih =>
    rw [insertField] at mem
    split at mem
    · exact List.mem_cons.1 mem
    · split at mem
      · exact (List.mem_cons.1 mem).imp_right (List.mem_cons_of_mem _)
      · obtain rfl | mem := List.mem_cons.1 mem
        · exact .inr List.mem_cons_self
        · exact (ih mem).imp_right (List.mem_cons_of_mem _)

/-- A field goes to its place among fields in order. -/
lemma ascending_insertField {fs : List (String × Json)} (key : String) (j : Json)
    (ascending : (fs.map Prod.fst).Pairwise (· < ·)) :
    ((insertField key j fs).map Prod.fst).Pairwise (· < ·) := by
  induction fs with
  | nil => exact List.pairwise_singleton _ _
  | cons f fs ih =>
    obtain ⟨first, others⟩ := List.pairwise_cons.1 ascending
    rw [insertField]
    split
    · next lt =>
      refine List.pairwise_cons.2 ⟨fun k mem => ?_, ascending⟩
      obtain rfl | mem := List.mem_cons.1 mem
      · exact lt
      · exact lt.trans (first k mem)
    · split
      · next eq =>
        subst eq
        exact List.pairwise_cons.2 ⟨first, others⟩
      · next not_lt ne =>
        refine List.pairwise_cons.2 ⟨fun k mem => ?_, ih others⟩
        obtain rfl | mem := fst_insertField_subset key j fs mem
        · exact lt_of_le_of_ne (le_of_not_gt not_lt) (Ne.symm ne)
        · exact first k mem

/-! ### What is read -/

/-- A value that holds no others has nothing to put in order. -/
lemma Readable.ordered (readable : Readable 0 j) : Ordered j := by
  cases readable with
  | null => exact .null
  | bool => exact .bool
  | int => exact .int
  | float => exact .float
  | str => exact .str

theorem ordered_value (h : value depth s = .ok (j, rest)) : Ordered j := by
  induction depth using Nat.strongRecOn generalizing s j rest with
  | ind depth ih =>
    unfold value at h
    split at h
    · cases h
    · exact (readable_literal .null h).ordered
    · exact (readable_literal .bool h).ordered
    · exact (readable_literal .bool h).ordered
    · exact (readable_number h).ordered
    · obtain ⟨p, -, h⟩ := bind_eq_ok.1 h
      cases h
      exact .str
    · split at h
      · cases h
      · next depth =>
        obtain ⟨p, items, h⟩ := bind_eq_ok.1 h
        cases h
        exact .arr (forall_array (fun _ _ _ => ih depth (Nat.lt_succ_self depth)) items)
    · split at h
      · cases h
      · next depth =>
        obtain ⟨p, fields, h⟩ := bind_eq_ok.1 h
        cases h
        -- Each field goes to its place among those that were read before it.
        have kept := keeps_object
          (K := fun fs => (fs.map Prod.fst).Pairwise (· < ·) ∧ ∀ f ∈ fs, Ordered f.2)
          (fun key _ _ j _ read held => ⟨ascending_insertField key j held.1,
            forall_insertField key (ih depth (Nat.lt_succ_self depth) read) held.2⟩)
          ⟨.nil, fun _ mem => absurd mem List.not_mem_nil⟩ fields
        exact .obj kept.1 kept.2
    · split at h
      · exact (readable_number h).ordered
      · cases h

/-- The keys of what a text is read as are in order. -/
theorem ordered_of_parse {text : String} (h : parse text = .ok j) : Ordered j := by
  obtain ⟨⟨k, rest⟩, read, h⟩ := bind_eq_ok.1 h
  dsimp only at h
  split at h <;> cases h
  exact ordered_value read

/-! ### Values that are read back -/

lemma exactItems_of_forall {js : List Json}
    (all : ∀ j ∈ js, j.Exact ∧ j.nesting ≤ depth) : ExactItems js ∧ nestingItems js ≤ depth := by
  induction js with
  | nil => exact ⟨trivial, Nat.zero_le _⟩
  | cons j js ih =>
    obtain ⟨first, others⟩ := List.forall_mem_cons.1 all
    exact ⟨⟨first.1, (ih others).1⟩, Nat.max_le.2 ⟨first.2, (ih others).2⟩⟩

lemma exactFields_of_forall {fs : List (String × Json)}
    (all : ∀ f ∈ fs, f.2.Exact ∧ f.2.nesting ≤ depth) :
    ExactFields fs ∧ nestingFields fs ≤ depth := by
  induction fs with
  | nil => exact ⟨trivial, Nat.zero_le _⟩
  | cons f fs ih =>
    obtain ⟨first, others⟩ := List.forall_mem_cons.1 all
    exact ⟨⟨first.1, (ih others).1⟩, Nat.max_le.2 ⟨first.2, (ih others).2⟩⟩

/-- A readable value of integers with its fields in order is exact. -/
lemma Readable.exact (readable : Readable depth j) (ordered : j.Ordered) (integral : j.Integral) :
    j.Exact ∧ j.nesting ≤ depth := by
  induction readable with
  | null => exact ⟨trivial, Nat.zero_le _⟩
  | bool => exact ⟨trivial, Nat.zero_le _⟩
  | int low high => exact ⟨⟨low, high⟩, Nat.zero_le _⟩
  | float => cases integral
  | str => exact ⟨trivial, Nat.zero_le _⟩
  | arr _ ih =>
    cases ordered with
    | arr ordered =>
      cases integral with
      | arr integral =>
        have items := exactItems_of_forall fun j mem => ih j mem (ordered j mem) (integral j mem)
        exact ⟨items.1, Nat.succ_le_succ items.2⟩
  | obj _ ih =>
    cases ordered with
    | obj ascending ordered =>
      cases integral with
      | obj integral =>
        have fields := exactFields_of_forall fun f mem => ih f mem (ordered f mem) (integral f mem)
        exact ⟨⟨ascending, fields.1⟩, Nat.succ_le_succ fields.2⟩

/-- A value of integers that is read of a text is one that a column can hold. -/
theorem plain_of_parse {text : String} (h : parse text = .ok j) (integral : j.Integral) :
    j.Plain := by
  have exact := (readable_of_parse h).exact (ordered_of_parse h) integral
  exact ⟨exact.1, exact.2⟩

end Multipass.Json
