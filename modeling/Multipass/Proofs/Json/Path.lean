import Multipass.Proofs.Json.Integral

/-!
# Values within values

What stands in a value at a path is told apart from how it is looked up. As the keys of an object
are in order, looking up a key finds the one field that has it.

Main statements: `mem_iff_lookup` and `At.field_iff`.
-/

namespace Multipass.Json

/-- Holds of a value, a path, and the value that stands there: a field of an object stands under its
key, and the first item of an array under `0`. -/
inductive At : Json → List String → Json → Prop where
  | here {j} :
    At j [] j
  | field {fs key j path k} :
    (key, j) ∈ fs →
    At j path k →
    At (.obj fs) (key :: path) k
  | first {j js path k} :
    At j path k →
    At (.arr (j :: js)) ("0" :: path) k

variable {j k l : Json} {fs : List (String × Json)} {key : String} {path : List String}

/-- Where keys are in order, looking up a key finds its field. -/
lemma mem_iff_lookup (ascending : (fs.map Prod.fst).Pairwise (· < ·)) :
    (key, j) ∈ fs ↔ lookup key fs = some j := by
  induction fs with
  | nil => exact ⟨fun mem => absurd mem List.not_mem_nil, nofun⟩
  | cons f fs ih =>
    obtain ⟨own, value⟩ := f
    obtain ⟨first, others⟩ := List.pairwise_cons.1 ascending
    rw [lookup, List.mem_cons, ih others, Prod.mk.injEq]
    split
    · next eq =>
      have absent : lookup key fs ≠ some j := fun found =>
        absurd (eq ▸ first key (List.mem_map_of_mem ((ih others).2 found))) (lt_irrefl key)
      simp only [eq, true_and, absent, or_false, Option.some.injEq, eq_comm]
    · next ne => simp only [Ne.symm ne, false_and, false_or]

lemma Ordered.of_field? (ordered : j.Ordered) (found : j.field? key = some k) : k.Ordered := by
  cases ordered with
  | obj ascending each => exact each _ ((mem_iff_lookup ascending).2 found)
  | _ => cases found

/-- What stands behind a key stands in the field of that key. -/
theorem At.field_iff (ordered : j.Ordered) (name : key ≠ "0") :
    j.At (key :: path) l ↔ ∃ k, j.field? key = some k ∧ k.At path l := by
  constructor
  · intro stands
    cases stands with
    | field mem stands =>
      cases ordered with
      | obj ascending _ => exact ⟨_, (mem_iff_lookup ascending).1 mem, stands⟩
    | first => exact absurd rfl name
  · rintro ⟨k, found, stands⟩
    cases ordered with
    | obj ascending _ => exact .field ((mem_iff_lookup ascending).2 found) stands
    | _ => cases found

lemma At.end_iff : j.At [] k ↔ j = k := by
  constructor
  · rintro ⟨⟩
    rfl
  · rintro rfl
    exact .here

end Multipass.Json
