import Mathlib.Data.List.Infix
import Mathlib.Data.List.Nodup
import Multipass.Files.Walk
import Multipass.Proofs.Files.Resolve

/-!
# What walks come to

A walk comes to a file by names that lead there as a path, too; it comes there once. It can end
early: below its root, at a link that it follows, or at a directory that may not be read.

Main statements: `Walk.resolve_of_reaches` and `Walk.outcome_files`.
-/

namespace Multipass

/-- The path that a walk ends at early. -/
def WalkFault.path : WalkFault → String
  | .unreachable path _ => path
  | .loop path _ => path
  | .shut path => path

/-- Holds of a fault in front of a directory that may not be read. -/
def WalkFault.IsDenied (fault : WalkFault) : Prop :=
  ∃ path, fault = .unreachable path .denied

namespace FileTree.Walk

/-- Holds of names, a place, and what is there, if a walk comes there by these names. -/
inductive Reaches (w : Walk) : List String → Location → Node → Prop where
  | root {location node} :
    w.tree.resolve w.root true = .ok (location, node) →
    Reaches w [] location node
  | entry {names location es name node} :
    Reaches w names location (.directory es) →
    (name, node) ∈ es →
    (∀ target, node ≠ .link target) →
    Reaches w (names ++ [name]) (name :: location) node
  | link {names location es name target location' node} :
    w.follow = true →
    Reaches w names location (.directory es) →
    (name, .link target) ∈ es →
    w.tree.resolve (w.pathOf (names ++ [name])) true = .ok (location', node) →
    Reaches w (names ++ [name]) location' node

variable {w : Walk} {names : List String} {location : Location} {node : Node}
  {es : List (String × Node)} {name : String}

/-- The files of one part and of others; the first fault is the end. -/
def both (first others : Except WalkFault (List FoundFile)) : Except WalkFault (List FoundFile) :=
  match first with
  | .error e => .error e
  | .ok files =>
    match others with
    | .error e => .error e
    | .ok more => .ok (files ++ more)

lemma filesOfEntries_cons {links : Nat} {ancestors : List Ancestor} {e : String × Node}
    {rest : List (String × Node)} :
    filesOfEntries w links ancestors location names (e :: rest) =
      both (filesOf w links ancestors (e.1 :: location) (e.1 :: names) e.2)
        (filesOfEntries w links ancestors location names rest) := by
  rw [filesOfEntries]
  rfl

lemma pathOf_append_singleton : w.pathOf (names ++ [name]) = Path.join (w.pathOf names) name := by
  rw [pathOf, List.foldl_append]
  rfl

/-- Where a walk comes by some names, their path leads. -/
theorem resolve_of_reaches (proper : w.tree.top.Proper) (reaches : w.Reaches names location node) :
    w.tree.resolve (w.pathOf names) true = .ok (location, node) := by
  induction reaches with
  | root leads => exact leads
  | entry _ mem own ih =>
    cases proper.get? (get?_of_resolve ih) with
    | directory once names_proper _ =>
      rw [pathOf_append_singleton]
      exact resolve_entry ih (names_proper _ mem) (Node.child?_of_mem once mem) own
  | link _ _ _ leads => exact leads

lemma Reaches.proper (proper : w.tree.top.Proper) (reaches : w.Reaches names location node) :
    node.Proper :=
  proper.get? (get?_of_resolve (resolve_of_reaches proper reaches))

/-- The names that a walk goes by are names of entries. -/
lemma Reaches.isName (proper : w.tree.top.Proper) (reaches : w.Reaches names location node) :
    ∀ name ∈ names, IsName name := by
  have step {names location es name node} (front : ∀ name ∈ names, IsName name)
      (here : w.Reaches names location (.directory es)) (mem : (name, node) ∈ es) :
      ∀ name' ∈ names ++ [name], IsName name' := by
    cases here.proper proper with
    | directory _ names_proper _ =>
      intro name' mem'
      rcases List.mem_append.1 mem' with mem' | mem'
      · exact front name' mem'
      · rw [List.mem_singleton.1 mem']
        exact names_proper _ mem
  induction reaches with
  | root => nofun
  | entry here mem _ ih => exact step ih here mem
  | link _ here mem _ ih => exact step ih here mem

/-- A walk comes to a name through a directory. -/
lemma Reaches.front (reaches : w.Reaches (names ++ [name]) location node) :
    ∃ location' es, w.Reaches names location' (.directory es) := by
  generalize more : names ++ [name] = all at reaches
  cases reaches with
  | root => exact absurd more (List.append_ne_nil_of_right_ne_nil _ (List.cons_ne_nil name []))
  | entry here =>
    obtain ⟨rfl, -⟩ := List.append_inj' more rfl
    exact ⟨_, _, here⟩
  | link _ here =>
    obtain ⟨rfl, -⟩ := List.append_inj' more rfl
    exact ⟨_, _, here⟩

/-- Holds of what a walk meets by some names: it comes there, or a link stands there in a directory
that it comes to. -/
def Meets (w : Walk) (names : List String) (location : Location) (node : Node) : Prop :=
  match node with
  | .link target => ∃ front name location' es, names = front ++ [name] ∧
      w.Reaches front location' (.directory es) ∧ (name, .link target) ∈ es
  | node => w.Reaches names location node

lemma Reaches.meets (reaches : w.Reaches names location (.directory es)) (mem : (name, node) ∈ es) :
    w.Meets (names ++ [name]) (name :: location) node := by
  cases node with
  | file => exact reaches.entry mem nofun
  | directory => exact reaches.entry mem nofun
  | sealed => exact reaches.entry mem nofun
  | link => exact ⟨names, name, location, es, rfl, reaches, mem⟩

/-- A walk comes to what a link leads to, if it follows links. -/
lemma Meets.followed {target : String} {location' : Location} {node' : Node}
    (meets : w.Meets names location (.link target)) (follow : w.follow = true)
    (leads : w.tree.resolve (w.pathOf names) true = .ok (location', node')) :
    w.Reaches names location' node' := by
  obtain ⟨front, name, _, es, rfl, reaches, mem⟩ := meets
  exact .link follow reaches mem leads

/-- Holds of what a walk may come to: files that it reaches, each once, or a fault, at a directory that
may not be read unless the walk follows links. All names are within some bounds. -/
inductive Outcome (w : Walk) (within : List String → Prop) :
    Except WalkFault (List FoundFile) → Prop where
  | ok {files} :
    (∀ found ∈ files, within found.names ∧
      ∃ location executable, w.Reaches found.names location (.file found.content executable)) →
    (files.map FoundFile.names).Nodup →
    Outcome w within (.ok files)
  | error {fault names} :
    (w.follow = true ∨ fault.IsDenied) →
    within names →
    fault.path = w.pathOf names →
    Outcome w within (.error fault)

variable {within within' : List String → Prop} {result : Except WalkFault (List FoundFile)}

lemma Outcome.mono (outcome : w.Outcome within result)
    (wider : ∀ names, within names → within' names) : w.Outcome within' result := by
  cases outcome with
  | ok reached once =>
    exact .ok (fun found mem => ⟨wider _ (reached found mem).1, (reached found mem).2⟩) once
  | error why inside path => exact .error why (wider _ inside) path

lemma outcome_file {content : List UInt8} {executable : Bool}
    (reaches : w.Reaches names location (.file content executable)) :
    w.Outcome (names <+: ·) (.ok [⟨names, content⟩]) := by
  refine .ok (fun found mem => ?_) (List.nodup_singleton names)
  cases List.mem_singleton.1 mem
  exact ⟨List.prefix_rfl, location, executable, reaches⟩

/-- Names within the bounds of two walks are within one of them only. -/
lemma Outcome.both {others : Except WalkFault (List FoundFile)}
    (outcome : w.Outcome within result) (outcome' : w.Outcome within' others)
    (apart : ∀ names, within names → ¬within' names) :
    w.Outcome (fun n => within n ∨ within' n) (both result others) := by
  cases outcome with
  | error why inside path => exact .error why (.inl inside) path
  | ok reached once =>
    cases outcome' with
    | error why inside path => exact .error why (.inr inside) path
    | ok reached' once' =>
      refine .ok (fun found mem => ?_) ?_
      · rcases List.mem_append.1 mem with mem | mem
        · exact ⟨.inl (reached found mem).1, (reached found mem).2⟩
        · exact ⟨.inr (reached' found mem).1, (reached' found mem).2⟩
      · rw [List.map_append]
        refine List.nodup_append.2 ⟨once, once', ?_⟩
        simp only [List.forall_mem_map]
        intro found mem found' mem' same
        exact apart _ (reached found mem).1 (same ▸ (reached' found' mem').1)

/-- Names that go on in two ways go on by the same name. -/
lemma name_eq_of_fronts {name' : String} {more : List String} (front : names ++ [name] <+: more)
    (front' : names ++ [name'] <+: more) : name = name' := by
  have same := (List.prefix_of_prefix_length_le front front' (by simp)).eq_of_length (by simp)
  exact List.singleton_inj.1 (List.append_cancel_left same)

mutual

lemma outcome_filesOf (proper : w.tree.top.Proper) {links : Nat} {ancestors : List Ancestor}
    {location : Location} {names : List String} {node : Node} (own : node.Proper)
    (meets : w.Meets names.reverse location node) :
    w.Outcome (names.reverse <+: ·) (filesOf w links ancestors location names node) := by
  -- What a directory comes to is within its names.
  have inside {es : List (String × Node)} {names result}
      (outcome : w.Outcome (fun n => ∃ e ∈ es, names ++ [e.1] <+: n) result) :
      w.Outcome (names <+: ·) result :=
    outcome.mono fun _ ⟨e, _, front⟩ => (List.prefix_append names [e.1]).trans front
  cases node with
  | file content executable =>
    rw [filesOf]
    exact outcome_file meets
  | directory es =>
    rw [filesOf]
    cases own with
    | directory once _ propers =>
      exact inside (outcome_filesOfEntries proper once propers fun e mem => meets.meets mem)
  | sealed isDirectory =>
    cases isDirectory with
    | false =>
      rw [filesOf]
      exact .ok nofun List.nodup_nil
    | true =>
      rw [filesOf]
      exact .error (.inr ⟨_, rfl⟩) List.prefix_rfl rfl
  | link target =>
    rw [filesOf]
    cases followed : w.follow with
    | false => exact .ok nofun List.nodup_nil
    | true =>
      simp only [Bool.not_true, Bool.false_eq_true, if_false]
      split
      · exact .error (.inl followed) List.prefix_rfl rfl
      · next _ leads => exact outcome_file (meets.followed followed leads)
      · exact .error (.inl followed) List.prefix_rfl rfl
      · exact .ok nofun List.nodup_nil
      · exact .error (.inl followed) List.prefix_rfl rfl
      · next location' es leads =>
        have reaches := meets.followed followed leads
        split
        · exact .error (.inl followed) List.prefix_rfl rfl
        · cases links with
          | zero => exact .error (.inl followed) List.prefix_rfl rfl
          | succ links =>
            cases reaches.proper proper with
            | directory once _ propers =>
              exact inside (outcome_filesOfEntries proper once propers
                fun e mem => reaches.meets mem)
termination_by (links, sizeOf node)

lemma outcome_filesOfEntries (proper : w.tree.top.Proper) {links : Nat}
    {ancestors : List Ancestor} {location : Location} {names : List String}
    {es : List (String × Node)} (once : (es.map Prod.fst).Nodup) (propers : ∀ e ∈ es, e.2.Proper)
    (meets : ∀ e ∈ es, w.Meets (names.reverse ++ [e.1]) (e.1 :: location) e.2) :
    w.Outcome (fun n => ∃ e ∈ es, names.reverse ++ [e.1] <+: n)
      (filesOfEntries w links ancestors location names es) := by
  match es, once, propers, meets with
  | [], _, _, _ =>
    rw [filesOfEntries]
    exact .ok nofun List.nodup_nil
  | (name, node) :: rest, once, propers, meets =>
    rw [List.map_cons, List.nodup_cons] at once
    rw [List.forall_mem_cons] at propers meets
    have first : w.Outcome (names.reverse ++ [name] <+: ·)
        (filesOf w links ancestors (name :: location) (name :: names) node) := by
      rw [← List.reverse_cons] at meets ⊢
      exact outcome_filesOf proper propers.1 meets.1
    have others : w.Outcome (fun n => ∃ e ∈ rest, names.reverse ++ [e.1] <+: n)
        (filesOfEntries w links ancestors location names rest) :=
      outcome_filesOfEntries proper once.2 propers.2 meets.2
    rw [filesOfEntries_cons]
    refine (first.both others ?_).mono ?_
    · rintro more front ⟨e', mem, front'⟩
      exact once.1 (List.mem_map.2 ⟨e', mem, (name_eq_of_fronts front front').symm⟩)
    · rintro more (front | ⟨e', mem, front⟩)
      · exact ⟨_, List.mem_cons_self, front⟩
      · exact ⟨e', List.mem_cons_of_mem _ mem, front⟩
termination_by (links, sizeOf es)

end

/-- What a walk comes to in a directory is below it. -/
lemma Reaches.outcome (proper : w.tree.top.Proper)
    (reaches : w.Reaches names.reverse location (.directory es)) (links : Nat)
    (ancestors : List Ancestor) :
    w.Outcome (fun n => ∃ e ∈ es, names.reverse ++ [e.1] <+: n)
      (filesOfEntries w links ancestors location names es) := by
  cases reaches.proper proper with
  | directory once _ propers =>
    exact outcome_filesOfEntries proper once propers fun e mem => reaches.meets mem

/-! ### From the root -/

section Root

variable {t : FileTree} {root : String} {follow : Bool}

/-- A walk below a directory goes through its entries. -/
lemma files_of_directory (leads : t.resolve root true = .ok (location, .directory es)) :
    t.files root follow =
      filesOfEntries ⟨t, root, follow⟩ maxLinks [⟨location, []⟩] location [] es := by
  rw [files]
  rcases resolve_unfollowed t root with ⟨location', target, link⟩ | same
  · simp only [link, leads]
  · simp only [same, leads]
    rw [filesOf]

/-- A root that is a file is found by no name, unless it is a link that is not followed. -/
lemma files_of_file (follow : Bool) {content : List UInt8} {executable : Bool}
    (leads : t.resolve root true = .ok (location, .file content executable)) :
    t.files root follow = .ok [] ∨ t.files root follow = .ok [⟨[], content⟩] := by
  rw [files]
  rcases resolve_unfollowed t root with ⟨location', target, link⟩ | same
  · simp only [link, leads]
    cases follow with
    | false => exact .inl rfl
    | true => exact .inr rfl
  · simp only [same, leads]
    rw [filesOf]
    exact .inr rfl

/-- A root that may not be read: nothing is found if it is a file, and a directory is a fault. -/
lemma files_of_sealed (follow : Bool) {isDirectory : Bool}
    (leads : t.resolve root true = .ok (location, .sealed isDirectory)) :
    (isDirectory = false ∧ t.files root follow = .ok []) ∨
      ∃ fault, t.files root follow = .error fault ∧ fault.path = root ∧
        (follow = true ∨ fault.IsDenied) := by
  rw [files]
  rcases resolve_unfollowed t root with ⟨location', target, link⟩ | same
  · simp only [link, leads]
    cases isDirectory with
    | false => exact .inl ⟨rfl, rfl⟩
    | true =>
      cases follow with
      | false => exact .inr ⟨_, rfl, rfl, .inr ⟨root, rfl⟩⟩
      | true => exact .inr ⟨_, rfl, rfl, .inl rfl⟩
  · simp only [same, leads]
    cases isDirectory with
    | false =>
      rw [filesOf]
      exact .inl ⟨rfl, rfl⟩
    | true =>
      rw [filesOf]
      exact .inr ⟨_, rfl, rfl, .inr ⟨root, rfl⟩⟩

theorem outcome_files (follow : Bool) (proper : t.top.Proper)
    (leads : t.resolve root true = .ok (location, node)) :
    Outcome ⟨t, root, follow⟩ (fun _ => True) (t.files root follow) := by
  have reaches : Reaches ⟨t, root, follow⟩ [] location node := .root leads
  cases node with
  | sealed isDirectory =>
    rcases files_of_sealed follow leads with ⟨-, files⟩ | ⟨fault, files, path, why⟩
    · rw [files]
      exact .ok nofun List.nodup_nil
    · rw [files]
      have path : fault.path = Walk.pathOf ⟨t, root, follow⟩ [] := path
      exact .error why trivial path
  | link target => exact absurd rfl (resolve_ne_link leads target)
  | file content executable =>
    rcases files_of_file follow leads with files | files
    · rw [files]
      exact .ok nofun List.nodup_nil
    · rw [files]
      exact (outcome_file reaches).mono fun _ _ => trivial
  | directory es =>
    rw [files_of_directory leads]
    rw [← List.reverse_nil] at reaches
    exact (reaches.outcome proper maxLinks _).mono fun _ _ => trivial

end Root

end FileTree.Walk

end Multipass
