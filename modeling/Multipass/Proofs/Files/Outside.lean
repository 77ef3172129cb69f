import Multipass.Proofs.Files.Walk

/-!
# Trees that differ below some directories

Two trees are walked below one root, and what differs lies below directories that are barred. As
long as the links outside of these lead alike, the two walks find the same files outside, or one of
them ends at a fault below a barred directory.

Main statements: `Walk.Alike.reaches`, `Walk.Alike.read?_entry`, and `Walk.agree_files`.
-/

namespace Multipass.FileTree.Walk

mutual

/-- Holds of two parts of trees, behind some names, that differ at most below barred directories. -/
inductive Outside (barred : List String → Prop) : List String → Node → Node → Prop where
  | file {names content executable} :
    Outside barred names (.file content executable) (.file content executable)
  | link {names target} :
    Outside barred names (.link target) (.link target)
  | sealed {names isDirectory} :
    Outside barred names (.sealed isDirectory) (.sealed isDirectory)
  | inside {names es es'} :
    barred names →
    Outside barred names (.directory es) (.directory es')
  | directory {names es es'} :
    EntriesOutside barred names es es' →
    Outside barred names (.directory es) (.directory es')

/-- Holds of the entries of two directories that are the same but for what is below them. -/
inductive EntriesOutside (barred : List String → Prop) :
    List String → List (String × Node) → List (String × Node) → Prop where
  | nil {names} :
    EntriesOutside barred names [] []
  | cons {names name node node' es es'} :
    Outside barred (names ++ [name]) node node' →
    EntriesOutside barred names es es' →
    EntriesOutside barred names ((name, node) :: es) ((name, node') :: es')

end

/-- Holds of what one path leads to in two trees, if it differs at most below barred directories. -/
inductive LeadsAlike (barred : List String → Prop) (names : List String) :
    Except FileFault (Location × Node) → Except FileFault (Location × Node) → Prop where
  | fault {fault} :
    LeadsAlike barred names (.error fault) (.error fault)
  | node {location node node'} :
    Outside barred names node node' →
    LeadsAlike barred names (.ok (location, node)) (.ok (location, node'))

/-- Holds of names that are not below a barred directory. -/
def Open (barred : List String → Prop) (names : List String) : Prop :=
  ∀ front more, names = front ++ more → more ≠ [] → ¬barred front

/-- The walk through another tree. -/
def through (w : Walk) (t : FileTree) : Walk :=
  { w with tree := t }

/-- Holds of the trees of two walks, if they differ at most below barred directories: their roots
do, and what the links lead to that a walk follows outside. -/
structure Alike (w : Walk) (t : FileTree) (barred : List String → Prop) : Prop where
  proper : w.tree.top.Proper
  proper' : t.top.Proper
  root : ∀ follow, LeadsAlike barred [] (w.tree.resolve w.root follow) (t.resolve w.root follow)
  links : w.follow = true → ∀ names location target, w.Meets names location (.link target) →
    Open barred names →
      LeadsAlike barred names (w.tree.resolve (w.pathOf names) true)
        (t.resolve (w.pathOf names) true)

variable {w : Walk} {t : FileTree} {barred : List String → Prop} {names : List String}
  {name : String} {location : Location} {node : Node} {es es' : List (String × Node)}

mutual

lemma Outside.refl (names : List String) : ∀ node, Outside barred names node node
  | .file .. => .file
  | .link _ => .link
  | .sealed _ => .sealed
  | .directory es => .directory (EntriesOutside.refl names es)

lemma EntriesOutside.refl (names : List String) : ∀ es, EntriesOutside barred names es es
  | [] => .nil
  | (_, node) :: es => .cons (Outside.refl _ node) (EntriesOutside.refl names es)

end

lemma open_nil : Open barred [] := by
  intro front more eq full
  exact absurd (List.append_eq_nil_iff.1 eq.symm).2 full

lemma Open.append_singleton (outside : Open barred names) (free : ¬barred names) :
    Open barred (names ++ [name]) := by
  intro front more eq full
  obtain ⟨before, last, rfl⟩ := List.eq_nil_or_concat more |>.resolve_left full
  rw [List.concat_eq_append, ← List.append_assoc] at eq
  obtain ⟨rfl, -⟩ := List.append_inj' eq rfl
  by_cases none : before = []
  · rwa [none, List.append_nil] at free
  · exact outside front before rfl none

lemma Open.front (outside : Open barred (names ++ [name])) : Open barred names ∧ ¬barred names := by
  refine ⟨fun front more eq full => ?_, outside names [name] rfl (List.cons_ne_nil name [])⟩
  refine outside front (more ++ [name]) ?_ (List.append_ne_nil_of_left_ne_nil full _)
  rw [eq, List.append_assoc]

/-- An entry outside is in the other directory, too. -/
lemma EntriesOutside.mem (alike : EntriesOutside barred names es es') (mem : (name, node) ∈ es) :
    ∃ node', (name, node') ∈ es' ∧ Outside barred (names ++ [name]) node node' := by
  induction es generalizing es' with
  | nil => cases mem
  | cons e es ih =>
    cases alike with
    | cons first others =>
      rcases List.mem_cons.1 mem with eq | mem
      · cases eq
        exact ⟨_, List.mem_cons_self, first⟩
      · obtain ⟨node', mem', alike⟩ := ih others mem
        exact ⟨node', List.mem_cons_of_mem _ mem', alike⟩

/-- A name outside leads nowhere in both directories, or to parts that are alike. -/
lemma EntriesOutside.child? (alike : EntriesOutside barred names es es') (name : String) :
    (Node.child? name es = none ∧ Node.child? name es' = none) ∨
      ∃ node node', Node.child? name es = some node ∧ Node.child? name es' = some node' ∧
        Outside barred (names ++ [name]) node node' := by
  induction es generalizing es' with
  | nil =>
    cases alike
    exact .inl ⟨rfl, rfl⟩
  | cons e es ih =>
    cases alike with
    | cons first others =>
      rw [Node.child?, Node.child?]
      split
      · next same =>
        subst same
        exact .inr ⟨_, _, rfl, rfl, first⟩
      · exact ih others

lemma Outside.of_directory (alike : Outside barred names (.directory es) node) :
    ∃ es', node = .directory es' := by
  cases alike with
  | inside => exact ⟨_, rfl⟩
  | directory => exact ⟨_, rfl⟩

lemma Outside.entries (alike : Outside barred names (.directory es) node) (free : ¬barred names) :
    ∃ es', node = .directory es' ∧ EntriesOutside barred names es es' := by
  cases alike with
  | inside bars => exact absurd bars free
  | directory entries => exact ⟨_, rfl, entries⟩

/-- Where one walk comes outside of barred directories, the other comes, too. -/
theorem Alike.reaches (alike : w.Alike t barred) (reaches : w.Reaches names location node)
    (outside : Open barred names) :
    ∃ node', (w.through t).Reaches names location node' ∧ Outside barred names node node' := by
  induction reaches with
  | root leads =>
    have same := alike.root true
    rw [leads] at same
    generalize there : t.resolve w.root true = result at same
    cases same with
    | node same => exact ⟨_, .root there, same⟩
  | @entry names location es name node here mem own ih =>
    obtain ⟨front, free⟩ := outside.front
    obtain ⟨_, here', same⟩ := ih front
    obtain ⟨es', rfl, entries⟩ := same.entries free
    obtain ⟨node', mem', same⟩ := entries.mem mem
    refine ⟨node', here'.entry mem' fun target eq => ?_, same⟩
    subst eq
    cases same
    exact own target rfl
  | @link names location es name target location' node follow here mem leads ih =>
    obtain ⟨front, free⟩ := outside.front
    obtain ⟨_, here', same⟩ := ih front
    obtain ⟨es', rfl, entries⟩ := same.entries free
    obtain ⟨node', mem', same⟩ := entries.mem mem
    cases same
    have same := alike.links follow _ location target ⟨names, name, location, es, rfl, here, mem⟩
      outside
    rw [leads] at same
    generalize there : t.resolve (w.pathOf (names ++ [name])) true = result at same
    cases same with
    | node same => exact ⟨_, .link follow here' mem' there, same⟩

/-- A name in a directory outside, unless it is a link, is read as the same in both trees. -/
theorem Alike.read?_entry (alike : w.Alike t barred)
    (reaches : w.Reaches names location (.directory es)) (outside : Open barred names)
    (free : ¬barred names) (proper : IsName name) (own : ∀ target, (name, .link target) ∉ es) :
    w.tree.read? (Path.join (w.pathOf names) name) = t.read? (Path.join (w.pathOf names) name) := by
  obtain ⟨_, reaches', same⟩ := alike.reaches reaches outside
  obtain ⟨es', rfl, entries⟩ := same.entries free
  have leads := resolve_of_reaches alike.proper reaches
  have leads' : t.resolve (w.pathOf names) true = .ok (location, .directory es') :=
    resolve_of_reaches alike.proper' reaches'
  rcases entries.child? name with ⟨none, none'⟩ | ⟨node, node', found, found', same⟩
  · rw [read?, read?, find?, find?, resolve_missing leads proper none,
      resolve_missing leads' proper none']
  · have unlinked (target : String) : node ≠ .link target := by
      rintro rfl
      exact own target (Node.mem_of_child? found)
    have unlinked' (target : String) : node' ≠ .link target := by
      rintro rfl
      cases same
      exact unlinked target rfl
    rw [read?, read?, find?, find?, resolve_entry leads proper found unlinked,
      resolve_entry leads' proper found' unlinked']
    cases same with
    | file => rfl
    | link => rfl
    | sealed => rfl
    | inside => rfl
    | directory => rfl

/-! ### Two walks at once -/

/-- Holds of a fault below a barred directory. -/
def Below (w : Walk) (barred : List String → Prop) (fault : WalkFault) : Prop :=
  ∃ front more, barred front ∧ more ≠ [] ∧ fault.path = w.pathOf (front ++ more)

/-- Holds of what two walks come to, if they find the same files among those that are kept, or have
the same fault, or if one of them ends below a barred directory. -/
inductive Agree (w : Walk) (barred : List String → Prop) (kept : List String → Bool) :
    Except WalkFault (List FoundFile) → Except WalkFault (List FoundFile) → Prop where
  | files {files files'} :
    files.filter (fun found => kept found.names) = files'.filter (fun found => kept found.names) →
    Agree w barred kept (.ok files) (.ok files')
  | fault {fault} :
    Agree w barred kept (.error fault) (.error fault)
  | ended {fault result} :
    Below w barred fault →
    Agree w barred kept (.error fault) result
  | ended' {fault result} :
    Below w barred fault →
    Agree w barred kept result (.error fault)

variable {kept : List String → Bool} {result result' : Except WalkFault (List FoundFile)}

lemma Agree.refl (result : Except WalkFault (List FoundFile)) : Agree w barred kept result result := by
  cases result with
  | error => exact .fault
  | ok => exact .files rfl

lemma Agree.both {others others' : Except WalkFault (List FoundFile)}
    (agree : Agree w barred kept result result') (agree' : Agree w barred kept others others') :
    Agree w barred kept (both result others) (both result' others') := by
  cases agree with
  | fault => exact .fault
  | ended below => exact .ended below
  | ended' below => exact .ended' below
  | files same =>
    cases agree' with
    | fault => exact .fault
    | ended below => exact .ended below
    | ended' below => exact .ended' below
    | files same' =>
      refine .files ?_
      rw [List.filter_append, List.filter_append, same, same']

/-- Holds if no file below a barred directory is kept. -/
def Drops (w : Walk) (barred : List String → Prop) (kept : List String → Bool) : Prop :=
  ∀ front more location content executable, barred front → more ≠ [] →
    w.Reaches (front ++ more) location (.file content executable) → kept (front ++ more) = false

/-- What a walk comes to below a barred directory is dropped, or it ends there. -/
lemma Drops.outcome (drops : w.Drops barred kept) (bars : barred names)
    (outcome : w.Outcome (fun n => ∃ e ∈ es, names ++ [e.1] <+: n) result) :
    (∃ files, result = .ok files ∧ files.filter (fun found => kept found.names) = []) ∨
      ∃ fault, result = .error fault ∧ Below w barred fault := by
  have below {n : List String} (inside : ∃ e ∈ es, names ++ [e.1] <+: n) :
      ∃ more, more ≠ [] ∧ n = names ++ more := by
    obtain ⟨e, -, rest, rfl⟩ := inside
    exact ⟨e.1 :: rest, List.cons_ne_nil _ _, by rw [List.append_assoc]; rfl⟩
  cases outcome with
  | @ok files reached _ =>
    refine .inl ⟨files, rfl, List.filter_eq_nil_iff.2 fun found mem => ?_⟩
    obtain ⟨inside, location, executable, reaches⟩ := reached found mem
    obtain ⟨more, full, eq⟩ := below inside
    rw [eq] at reaches ⊢
    rw [drops names more location _ executable bars full reaches]
    exact Bool.false_ne_true
  | @error fault n _ inside path =>
    obtain ⟨more, full, rfl⟩ := below inside
    exact .inr ⟨fault, rfl, names, more, bars, full, path⟩

mutual

lemma agree_filesOf (alike : w.Alike t barred) (drops : w.Drops barred kept)
    (drops' : (w.through t).Drops barred kept) {links : Nat} {ancestors : List Ancestor}
    {location : Location} {names : List String} {node node' : Node}
    (same : Outside barred names.reverse node node') (outside : Open barred names.reverse)
    (meets : w.Meets names.reverse location node)
    (meets' : (w.through t).Meets names.reverse location node') :
    Agree w barred kept (filesOf w links ancestors location names node)
      (filesOf (w.through t) links ancestors location names node') := by
  cases node with
  | file content executable =>
    cases same
    rw [filesOf, filesOf]
    exact .files rfl
  | directory es =>
    obtain ⟨es', rfl⟩ := same.of_directory
    rw [filesOf, filesOf]
    exact agree_directory alike drops drops' same outside meets meets'
  | sealed isDirectory =>
    cases same
    cases isDirectory with
    | false =>
      rw [filesOf, filesOf]
      exact .files rfl
    | true =>
      rw [filesOf, filesOf]
      exact .fault
  | link target =>
    cases same
    rw [filesOf, filesOf]
    cases followed : w.follow with
    | false =>
      have followed' : (w.through t).follow = false := followed
      rw [followed']
      exact .files rfl
    | true =>
      have followed' : (w.through t).follow = true := followed
      rw [followed']
      simp only [Bool.not_true, Bool.false_eq_true, if_false]
      have same := alike.links followed _ location target meets outside
      have path : (w.through t).pathOf names.reverse = w.pathOf names.reverse := rfl
      have tree : (w.through t).tree = t := rfl
      rw [path, tree]
      have reach {location' node} (leads : w.tree.resolve (w.pathOf names.reverse) true =
          .ok (location', node)) := meets.followed followed leads
      have reach' {location' node} (leads : t.resolve (w.pathOf names.reverse) true =
          .ok (location', node)) := meets'.followed followed' leads
      generalize w.tree.resolve (w.pathOf names.reverse) true = result at same reach
      generalize t.resolve (w.pathOf names.reverse) true = result' at same reach'
      cases same with
      | fault => exact .fault
      | @node location' node node' same =>
        cases node with
        | file => cases same; exact .files rfl
        | link => cases same; exact .fault
        | sealed isDirectory =>
          cases same
          cases isDirectory with
          | false => exact .files rfl
          | true => exact .fault
        | directory es =>
          obtain ⟨es', rfl⟩ := same.of_directory
          -- Both links lead to one place, so a loop is seen by both walks or by none.
          dsimp only
          cases ancestor? location' ancestors with
          | some => exact .fault
          | none =>
            cases links with
            | zero => exact .fault
            | succ links =>
              exact agree_directory alike drops drops' same outside (reach rfl) (reach' rfl)
termination_by (links, sizeOf node, 0)

lemma agree_directory (alike : w.Alike t barred) (drops : w.Drops barred kept)
    (drops' : (w.through t).Drops barred kept) {links : Nat} {ancestors : List Ancestor}
    {location : Location} {names : List String} {es es' : List (String × Node)}
    (same : Outside barred names.reverse (.directory es) (.directory es'))
    (outside : Open barred names.reverse)
    (reaches : w.Reaches names.reverse location (.directory es))
    (reaches' : (w.through t).Reaches names.reverse location (.directory es')) :
    Agree w barred kept (filesOfEntries w links ancestors location names es)
      (filesOfEntries (w.through t) links ancestors location names es') := by
  by_cases bars : barred names.reverse
  -- Below a barred directory the entries need not match: each walk is looked at by itself.
  · rcases drops.outcome bars (reaches.outcome alike.proper links ancestors) with
      ⟨files, eq, none⟩ | ⟨fault, eq, below⟩
    · rcases drops'.outcome bars (reaches'.outcome alike.proper' links ancestors) with
        ⟨files', eq', none'⟩ | ⟨fault, eq', below⟩
      · rw [eq, eq']
        exact .files (none.trans none'.symm)
      · rw [eq']
        exact .ended' below
    · rw [eq]
      exact .ended below
  · obtain ⟨_, eq, entries⟩ := same.entries bars
    cases eq
    exact agree_entries alike drops drops' entries (fun _ => outside.append_singleton bars)
      (fun e mem => reaches.meets mem) (fun e mem => reaches'.meets mem)
termination_by (links, sizeOf es, 1)

lemma agree_entries (alike : w.Alike t barred) (drops : w.Drops barred kept)
    (drops' : (w.through t).Drops barred kept) {links : Nat} {ancestors : List Ancestor}
    {location : Location} {names : List String} {es es' : List (String × Node)}
    (same : EntriesOutside barred names.reverse es es')
    (outside : ∀ name, Open barred (names.reverse ++ [name]))
    (meets : ∀ e ∈ es, w.Meets (names.reverse ++ [e.1]) (e.1 :: location) e.2)
    (meets' : ∀ e ∈ es', (w.through t).Meets (names.reverse ++ [e.1]) (e.1 :: location) e.2) :
    Agree w barred kept (filesOfEntries w links ancestors location names es)
      (filesOfEntries (w.through t) links ancestors location names es') := by
  match es, es', same, meets, meets' with
  | [], [], _, _, _ =>
    rw [filesOfEntries, filesOfEntries]
    exact .files rfl
  | (name, node) :: rest, (name', node') :: rest', same, meets, meets' =>
    cases same with
    | cons first others =>
      rw [List.forall_mem_cons] at meets meets'
      rw [filesOfEntries_cons, filesOfEntries_cons]
      refine .both ?_ (agree_entries alike drops drops' others outside meets.2 meets'.2)
      rw [← List.reverse_cons] at first meets meets'
      exact agree_filesOf alike drops drops' first (List.reverse_cons ▸ outside name) meets.1
        meets'.1
termination_by (links, sizeOf es, 0)

end

/-- A root that is no directory, or a link to such, is the same to both walks. -/
lemma agree_leaf (alike : w.Alike t barred) (leads : w.tree.resolve w.root true = .ok (location, node))
    (leads' : t.resolve w.root true = .ok (location, node)) (leaf : ∀ es, node ≠ .directory es) :
    Agree w barred kept (w.tree.files w.root w.follow) (t.files w.root w.follow) := by
  have same := alike.root false
  rcases resolve_unfollowed w.tree w.root with ⟨_, _, link⟩ | own
  · rw [link] at same
    generalize link' : t.resolve w.root false = result at same
    cases same with
    | node same =>
      cases same
      simp only [files, link, link', leads, leads']
      cases node with
      | directory es => exact absurd rfl (leaf es)
      | link target => exact absurd rfl (resolve_ne_link leads target)
      | file => exact .refl _
      | sealed isDirectory => cases isDirectory <;> exact .refl _
  · rw [own, leads] at same
    generalize own' : t.resolve w.root false = result at same
    cases same with
    | node same =>
      cases node with
      | directory es => exact absurd rfl (leaf es)
      | link target => exact absurd rfl (resolve_ne_link leads target)
      | file =>
        cases same
        simp only [files, own, own', leads]
        rw [filesOf, filesOf]
        exact .files rfl
      | sealed isDirectory =>
        cases same
        simp only [files, own, own', leads]
        cases isDirectory with
        | false =>
          rw [filesOf, filesOf]
          exact .files rfl
        | true =>
          rw [filesOf, filesOf]
          exact .fault

/-- Two walks from a root that leads somewhere find the same files outside of barred directories, or
one of them ends below a barred directory. -/
theorem agree_files (alike : w.Alike t barred) (drops : w.Drops barred kept)
    (drops' : (w.through t).Drops barred kept)
    (leads : w.tree.resolve w.root true = .ok (location, node)) :
    Agree w barred kept (w.tree.files w.root w.follow) (t.files w.root w.follow) := by
  have same := alike.root true
  rw [leads] at same
  generalize leads' : t.resolve w.root true = result at same
  cases same with
  | @node _ _ node' same =>
    cases node with
    | link target => exact absurd rfl (resolve_ne_link leads target)
    | directory es =>
      obtain ⟨es', rfl⟩ := same.of_directory
      rw [files_of_directory leads, files_of_directory leads']
      rw [← List.reverse_nil] at same
      exact agree_directory alike drops drops' same open_nil (.root leads) (.root leads')
    | file =>
      cases same
      exact agree_leaf alike leads leads' nofun
    | sealed =>
      cases same
      exact agree_leaf alike leads leads' nofun

end Multipass.FileTree.Walk
