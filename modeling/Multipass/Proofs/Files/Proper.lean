import Mathlib.Tactic.Lemma
import Multipass.Files.Tree

/-!
# Proper names and trees

A relative path is put behind a base as it is, after some text that depends on the base alone. The
entries of a directory have names, each once, so that a name leads to one entry.

Main statements: `Path.join_join` and `Node.Proper.get?`.
-/

namespace Multipass

/-- Holds of a name that an entry of a directory may have. -/
structure IsName (name : String) : Prop where
  nonempty : name ≠ ""
  ne_here : name ≠ "."
  ne_above : name ≠ ".."
  no_separator : '/' ∉ name.toList

lemma isName_iff {name : String} :
    IsName name ↔ name ≠ "" ∧ name ≠ "." ∧ name ≠ ".." ∧ '/' ∉ name.toList :=
  ⟨fun proper => ⟨proper.nonempty, proper.ne_here, proper.ne_above, proper.no_separator⟩,
    fun names => ⟨names.1, names.2.1, names.2.2.1, names.2.2.2⟩⟩

instance (name : String) : Decidable (IsName name) :=
  decidable_of_iff _ isName_iff.symm

namespace Path

variable {base name p : String}

lemma isAbsolute_append (nonempty : base ≠ "") : isAbsolute (base ++ p) = isAbsolute base := by
  have full : base.toList ≠ [] := fun none => nonempty (String.toList_inj.1 none)
  rw [isAbsolute, isAbsolute, String.toList_append, List.head?_append,
    List.head?_eq_some_head full, Option.some_or]

end Path

lemma IsName.not_absolute {name : String} (proper : IsName name) :
    Path.isAbsolute name = false := by
  rw [Path.isAbsolute, beq_eq_false_iff_ne]
  exact fun front => proper.no_separator (List.mem_of_mem_head? front)

lemma IsName.getLast?_ne {name : String} (proper : IsName name) (front : List Char) :
    (front ++ name.toList).getLast? ≠ some '/' := by
  have full : name.toList ≠ [] := fun none => proper.nonempty (String.toList_inj.1 none)
  rw [List.getLast?_append, List.getLast?_eq_some_getLast full, Option.some_or, Ne,
    Option.some_inj]
  exact fun last => proper.no_separator (last ▸ List.getLast_mem full)

/-- A name that goes on without a separator is a name. -/
lemma IsName.append {name ending : String} (proper : IsName name) (plain : '/' ∉ ending.toList) :
    IsName (name ++ ending) := by
  have full : name.toList ≠ [] := fun none => proper.nonempty (String.toList_inj.1 none)
  refine ⟨fun none => proper.nonempty (String.append_eq_empty_iff.1 none).1, ?_, ?_, ?_⟩
  · intro same
    have chars : name.toList ++ ending.toList = ['.'] := by
      rw [← String.toList_append, same]
      rfl
    obtain ⟨here, -⟩ := (List.append_eq_singleton_iff.1 chars).resolve_left fun none => full none.1
    exact proper.ne_here (String.toList_inj.1 here)
  · intro same
    have chars : name.toList ++ ending.toList = ['.', '.'] := by
      rw [← String.toList_append, same]
      rfl
    rcases List.append_eq_cons_iff.1 chars with ⟨none, -⟩ | ⟨rest, front, behind⟩
    · exact full none
    · rcases List.singleton_eq_append_iff.1 behind with ⟨rfl, -⟩ | ⟨rfl, -⟩
      · exact proper.ne_here (String.toList_inj.1 front)
      · exact proper.ne_above (String.toList_inj.1 front)
  · rw [String.toList_append, List.mem_append, not_or]
    exact ⟨proper.no_separator, plain⟩

namespace Path

variable {base name p : String}

lemma join_eq (nonempty : base ≠ "") (relative : isAbsolute p = false) :
    join base p =
      if base.toList.getLast? == some '/' then base ++ p else base ++ "/" ++ p := by
  rw [join, relative, Bool.false_or, if_neg (fun empty => nonempty (String.isEmpty_iff.1 empty))]

/-- Relative paths are put behind a base in one way. -/
lemma exists_front (base : String) :
    ∃ front, ∀ p, isAbsolute p = false → join base p = front ++ p := by
  by_cases nonempty : base = ""
  · subst nonempty
    refine ⟨"", fun p _ => ?_⟩
    have empty : (isAbsolute p || "".isEmpty) = true := Bool.or_true _
    rw [join, if_pos empty, String.empty_append]
  · cases last : base.toList.getLast? == some '/' with
    | true => exact ⟨base, fun p relative => by rw [join_eq nonempty relative, last, if_pos rfl]⟩
    | false =>
      refine ⟨base ++ "/", fun p relative => ?_⟩
      rw [join_eq nonempty relative, last, if_neg Bool.false_ne_true]

lemma join_ne_empty (nonempty : p ≠ "") : join base p ≠ "" := by
  rw [join]
  split
  · exact nonempty
  · split
    · exact fun empty => nonempty (String.append_eq_empty_iff.1 empty).2
    · exact fun empty => nonempty (String.append_eq_empty_iff.1 empty).2

/-- What goes on with a name goes on with the path that it ends. -/
lemma join_append (proper : IsName name) : join base (name ++ p) = join base name ++ p := by
  obtain ⟨front, behind⟩ := exists_front base
  have longer : isAbsolute (name ++ p) = false := by
    rw [isAbsolute_append proper.nonempty, proper.not_absolute]
  rw [behind _ longer, behind name proper.not_absolute, String.append_assoc]

/-- A path behind a name behind a base is the path below the name, behind the base. -/
theorem join_join (proper : IsName name) (relative : isAbsolute p = false) :
    join (join base name) p = join base (name ++ "/" ++ p) := by
  obtain ⟨front, behind⟩ := exists_front base
  have longer : isAbsolute (name ++ "/" ++ p) = false := by
    rw [String.append_assoc, isAbsolute_append proper.nonempty, proper.not_absolute]
  have last : ((join base name).toList.getLast? == some '/') = false := by
    rw [behind name proper.not_absolute, String.toList_append, beq_eq_false_iff_ne]
    exact proper.getLast?_ne front.toList
  rw [join_eq (join_ne_empty proper.nonempty) relative, last, if_neg Bool.false_ne_true,
    behind _ longer, behind name proper.not_absolute]
  simp only [String.append_assoc]

end Path

namespace Node

/-- Holds of a part of a tree whose directories have proper names for their entries, each once. -/
inductive Proper : Node → Prop where
  | file {content executable} :
    Proper (.file content executable)
  | link {target} :
    Proper (.link target)
  | sealed {isDirectory} :
    Proper (.sealed isDirectory)
  | directory {es} :
    (es.map Prod.fst).Nodup →
    (∀ e ∈ es, IsName e.1) →
    (∀ e ∈ es, Proper e.2) →
    Proper (.directory es)

variable {es : List (String × Node)} {name : String} {node part : Node}

lemma proper_empty : Proper (.directory []) :=
  .directory List.nodup_nil nofun nofun

lemma Proper.cons (others : Proper (.directory es)) (own : IsName name) (proper : Proper node)
    (new : name ∉ es.map Prod.fst) : Proper (.directory ((name, node) :: es)) := by
  cases others with
  | directory once names propers =>
    exact .directory (List.nodup_cons.2 ⟨new, once⟩) (List.forall_mem_cons.2 ⟨own, names⟩)
      (List.forall_mem_cons.2 ⟨proper, propers⟩)

lemma mem_of_child? (found : child? name es = some node) : (name, node) ∈ es := by
  induction es with
  | nil => cases found
  | cons e es ih =>
    rw [child?] at found
    split at found
    · next same =>
      cases found
      cases same
      exact List.mem_cons_self
    · exact List.mem_cons_of_mem _ (ih found)

lemma child?_of_mem (once : (es.map Prod.fst).Nodup) (mem : (name, node) ∈ es) :
    child? name es = some node := by
  induction es with
  | nil => cases mem
  | cons e es ih =>
    rw [List.map_cons, List.nodup_cons] at once
    rw [child?]
    rcases List.mem_cons.1 mem with rfl | mem
    · rw [if_pos rfl]
    · have other : e.1 ≠ name := by
        rintro rfl
        exact once.1 (List.mem_map.2 ⟨_, mem, rfl⟩)
      rw [if_neg other]
      exact ih once.2 mem

lemma get?_append {names more : List String} :
    node.get? (names ++ more) = (node.get? names).bind (·.get? more) := by
  induction names generalizing node with
  | nil => rw [List.nil_append, get?, Option.bind_some]
  | cons name names ih =>
    cases node with
    | file => rfl
    | link => rfl
    | sealed => rfl
    | directory es =>
      rw [List.cons_append, get?, get?]
      cases child? name es with
      | none => rfl
      | some child => exact ih

/-- The entry of a name is what that name leads to from its directory. -/
lemma get?_entry {location : List String}
    (here : node.get? location.reverse = some (.directory es)) :
    node.get? (name :: location).reverse = child? name es := by
  rw [List.reverse_cons, get?_append, here, Option.bind_some, get?]
  cases child? name es <;> rfl

/-- The way to a part of a tree goes through directories. -/
lemma directory_of_get? {names : List String} (there : node.get? (names ++ [name]) = some part) :
    ∃ es, node.get? names = some (.directory es) := by
  rw [get?_append, Option.bind_eq_some_iff] at there
  obtain ⟨before, front, last⟩ := there
  cases before with
  | directory es => exact ⟨es, front⟩
  | file => cases last
  | link => cases last
  | sealed => cases last

lemma Proper.get? {names : List String} (proper : node.Proper)
    (there : node.get? names = some part) : part.Proper := by
  induction names generalizing node with
  | nil =>
    cases there
    exact proper
  | cons name names ih =>
    cases proper with
    | file => cases there
    | link => cases there
    | sealed => cases there
    | @directory es _ _ propers =>
      rw [Node.get?] at there
      split at there
      · next child found => exact ih (propers _ (mem_of_child? found)) there
      · cases there

/-- Names that lead to a part of a tree are names of entries. -/
lemma Proper.isName {names : List String} (proper : node.Proper)
    (there : node.get? names = some part) : ∀ name ∈ names, IsName name := by
  induction names generalizing node with
  | nil => nofun
  | cons name names ih =>
    cases proper with
    | file => cases there
    | link => cases there
    | sealed => cases there
    | @directory es _ isNames propers =>
      rw [Node.get?] at there
      split at there
      · next child found =>
        have mem := mem_of_child? found
        exact List.forall_mem_cons.2 ⟨isNames _ mem, ih (propers _ mem) there⟩
      · cases there

end Node

end Multipass
