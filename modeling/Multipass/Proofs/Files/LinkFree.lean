import Multipass.Proofs.Files.Walk

/-!
# Trees without links

A walk through a tree without links, all of which may be read, comes to its end and finds each of
its files.

Main statement: `Walk.files_linkFree`.
-/

namespace Multipass

/-- Holds of a part of a tree that holds no links, and nothing that may not be read. -/
inductive Node.LinkFree : Node → Prop where
  | file {content executable} :
    Node.LinkFree (.file content executable)
  | directory {es} :
    (∀ e ∈ es, Node.LinkFree e.2) →
    Node.LinkFree (.directory es)

lemma Node.linkFree_empty : LinkFree (.directory []) :=
  .directory nofun

lemma Node.LinkFree.cons {es : List (String × Node)} {name : String} {node : Node}
    (others : LinkFree (.directory es)) (free : LinkFree node) :
    LinkFree (.directory ((name, node) :: es)) := by
  cases others with
  | directory frees => exact .directory (List.forall_mem_cons.2 ⟨free, frees⟩)

lemma Node.LinkFree.get? {node part : Node} {names : List String} (free : node.LinkFree)
    (there : node.get? names = some part) : part.LinkFree := by
  induction names generalizing node with
  | nil =>
    cases there
    exact free
  | cons name names ih =>
    cases free with
    | file => cases there
    | directory frees =>
      rw [Node.get?] at there
      split at there
      · next child found => exact ih (frees _ (Node.mem_of_child? found)) there
      · cases there

namespace FileTree.Walk

variable {w : Walk} {location : Location} {names : List String} {node : Node}
  {es : List (String × Node)}

/-- Holds of the files that a part of a tree holds, behind the names that lead to it. -/
def Holds (names : List String) (node : Node) (files : List FoundFile) : Prop :=
  ∀ found, found ∈ files ↔ ∃ more executable,
    found.names = names ++ more ∧ node.get? more = some (.file found.content executable)

lemma holds_directory {files : List FoundFile} (once : (es.map Prod.fst).Nodup)
    (held : ∀ found, found ∈ files ↔ ∃ e ∈ es, ∃ more executable,
      found.names = names ++ e.1 :: more ∧ e.2.get? more = some (.file found.content executable)) :
    Holds names (.directory es) files := by
  intro found
  rw [held]
  constructor
  · rintro ⟨e, mem, more, executable, eq, there⟩
    refine ⟨e.1 :: more, executable, eq, ?_⟩
    rw [Node.get?, Node.child?_of_mem once mem]
    exact there
  · rintro ⟨more, executable, eq, there⟩
    cases more with
    | nil => cases there
    | cons name more =>
      rw [Node.get?] at there
      split at there
      · next child here => exact ⟨_, Node.mem_of_child? here, more, executable, eq, there⟩
      · cases there

lemma filesOf_linkFree (w : Walk) (links : Nat) (ancestors : List Ancestor) (location : Location)
    (names : List String) (free : node.LinkFree) (proper : node.Proper) :
    ∃ files, filesOf w links ancestors location names node = .ok files ∧
      Holds names.reverse node files := by
  induction free generalizing ancestors location names with
  | @file content executable =>
    refine ⟨_, by rw [filesOf], fun found => ?_⟩
    rw [List.mem_singleton]
    constructor
    · rintro rfl
      exact ⟨[], executable, (List.append_nil _).symm, rfl⟩
    · rintro ⟨more, _, eq, there⟩
      cases more with
      | nil =>
        cases there
        rw [List.append_nil] at eq
        exact congrArg (FoundFile.mk · found.content) eq
      | cons => cases there
  | @directory es _ ih =>
    cases proper with
    | directory once _ propers =>
      -- The entries are gone through one by one.
      have entries {ancestors : List Ancestor} :
          ∀ part : List (String × Node), (∀ e ∈ part, e ∈ es) →
          ∃ files, filesOfEntries w links ancestors location names part = .ok files ∧
            ∀ found, found ∈ files ↔ ∃ e ∈ part, ∃ more executable,
              found.names = names.reverse ++ e.1 :: more ∧
                e.2.get? more = some (.file found.content executable) := by
        intro part
        induction part with
        | nil => exact fun _ => ⟨[], by rw [filesOfEntries], by simp⟩
        | cons e part ih' =>
          intro inside
          rw [List.forall_mem_cons] at inside
          obtain ⟨files, eq, held⟩ := ih e inside.1 ancestors (e.1 :: location) (e.1 :: names)
            (propers e inside.1)
          obtain ⟨others, eq', held'⟩ := ih' inside.2
          refine ⟨files ++ others, by rw [filesOfEntries_cons, eq, eq']; rfl, fun found => ?_⟩
          rw [List.mem_append, held, held', List.exists_mem_cons_iff]
          simp only [List.reverse_cons, List.append_assoc, List.singleton_append]
      obtain ⟨files, eq, held⟩ := entries es fun _ mem => mem
      exact ⟨files, by rw [filesOf]; exact eq, holds_directory once held⟩

/-- Below a root without links a walk comes where the names alone lead. -/
theorem get?_of_reaches {location' : Location} {part : Node} (proper : w.tree.top.Proper)
    (leads : w.tree.resolve w.root true = .ok (location, node)) (free : node.LinkFree)
    (reaches : w.Reaches names location' part) : node.get? names = some part := by
  induction reaches with
  | root leads' =>
    rw [leads] at leads'
    cases leads'
    rfl
  | entry here mem _ ih =>
    cases here.proper proper with
    | directory once _ _ =>
      rw [Node.get?_append, ih, Option.bind_some, Node.get?, Node.child?_of_mem once mem]
      rfl
  | link _ _ mem _ ih =>
    cases free.get? ih with
    | directory frees => cases frees _ mem

lemma link_notMem_of_reaches {location' : Location} {top : Node} {name target : String}
    (proper : w.tree.top.Proper) (leads : w.tree.resolve w.root true = .ok (location, top))
    (free : top.LinkFree) (reaches : w.Reaches names location' (.directory es)) :
    (name, .link target) ∉ es := by
  intro mem
  cases free.get? (get?_of_reaches proper leads free reaches) with
  | directory frees => cases frees _ mem

/-- The files that a walk finds in a directory without links are the files that it holds. -/
theorem files_linkFree {t : FileTree} {root : String} (follow : Bool) (proper : t.top.Proper)
    (leads : t.resolve root true = .ok (location, .directory es))
    (free : (Node.directory es).LinkFree) :
    ∃ files, t.files root follow = .ok files ∧ Holds [] (.directory es) files := by
  obtain ⟨files, eq, held⟩ := filesOf_linkFree ⟨t, root, follow⟩ maxLinks [] location [] free
    (proper.get? (get?_of_resolve leads))
  rw [filesOf] at eq
  exact ⟨files, (files_of_directory leads).trans eq, held⟩

end FileTree.Walk

end Multipass
