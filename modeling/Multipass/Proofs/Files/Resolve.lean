import Multipass.Proofs.Files.Proper
import Multipass.Proofs.Text.Find

/-!
# Where paths lead

A name behind a path to a directory leads to the entry of that name: following a path can be cut
into following its front and then its end.

Main statements: `resolve_join`, and from it `resolve_entry` and `resolve_missing`.
-/

namespace Multipass.FileTree

variable {t : FileTree} {top node : Node} {location location' : Location}
  {es : List (String × Node)} {base name : String} {follow : Bool}

/-! ### Steps of a path -/

/-- The names between the separators of a text. -/
def namesBetween (s : List Char) : List String :=
  ((Text.splitOnChar '/' s).filter fun piece => !piece.isEmpty).map String.ofList

lemma steps_eq (path : String) :
    steps path = if path.toList.getLast? == some '/' then namesBetween path.toList ++ ["."]
      else namesBetween path.toList := rfl

lemma namesBetween_append (s s' : List Char) :
    namesBetween (s ++ '/' :: s') = namesBetween s ++ namesBetween s' := by
  rw [namesBetween, Text.splitOnChar_append, List.filter_append, List.map_append]
  rfl

lemma namesBetween_name (proper : IsName name) : namesBetween name.toList = [name] := by
  have full : name.toList ≠ [] := fun none => proper.nonempty (String.toList_inj.1 none)
  rw [namesBetween, Text.splitOnChar_of_notMem proper.no_separator]
  simp [full]

lemma start_join (nonempty : base ≠ "") (proper : IsName name) :
    start location (Path.join base name) = start location base := by
  rw [start, start, Path.join_eq nonempty proper.not_absolute]
  split
  · rw [Path.isAbsolute_append nonempty]
  · rw [String.append_assoc, Path.isAbsolute_append nonempty]

/-- A name behind a path is one more step, in the place of the point that a separator at the end of
the path stands for. -/
lemma steps_join (nonempty : base ≠ "") (proper : IsName name) :
    ∃ names, steps (Path.join base name) = names ++ [name] ∧
      (steps base = names ∨ steps base = names ++ ["."]) := by
  have inner (s : List Char) : (s ++ name.toList).getLast? ≠ some '/' := by
    have full : name.toList ≠ [] := fun none => proper.nonempty (String.toList_inj.1 none)
    rw [List.getLast?_append, List.getLast?_eq_some_getLast full, Option.some_or]
    rw [Ne, Option.some_inj]
    exact fun last => proper.no_separator (last ▸ List.getLast_mem full)
  rw [Path.join_eq nonempty proper.not_absolute]
  split
  · next last =>
    obtain ⟨front, eq⟩ := List.getLast?_eq_some_iff.1 (beq_iff_eq.1 last)
    refine ⟨namesBetween front, ?_, .inr ?_⟩
    · have path : (base ++ name).toList = front ++ '/' :: name.toList := by
        rw [String.toList_append, eq, List.append_assoc, List.singleton_append]
      rw [steps_eq, String.toList_append, if_neg (by simpa using inner base.toList),
        ← String.toList_append, path, namesBetween_append, namesBetween_name proper]
    · rw [steps_eq, if_pos last, eq, namesBetween_append]
      simp [namesBetween, Text.splitOnChar]
  · next last =>
    refine ⟨namesBetween base.toList, ?_, .inl ?_⟩
    · have path : (base ++ "/" ++ name).toList = base.toList ++ '/' :: name.toList := by
        rw [String.toList_append, String.toList_append, List.append_assoc]
        rfl
      rw [steps_eq, String.toList_append, if_neg (by simpa using inner (base ++ "/").toList),
        ← String.toList_append, path, namesBetween_append, namesBetween_name proper]
    · rw [steps_eq, if_neg last]

/-! ### Single steps -/

section Steps

variable {links : Nat} {rest : List String} {target : String}

lemma resolveFrom_nil :
    resolveFrom top follow links location [] =
      match top.get? location.reverse with
      | some node => .ok (location, node)
      | none => .error .notFound :=
  (resolveFrom.eq_def top follow links location []).trans rfl

/-- There is no step from a place that is no directory. -/
lemma resolveFrom_astray (links : Nat)
    (astray : ∀ es, top.get? location.reverse ≠ some (.directory es)) :
    ∃ fault, ∀ follow name rest,
      resolveFrom top follow links location (name :: rest) = .error fault := by
  cases here : top.get? location.reverse with
  | none =>
    refine ⟨.notFound, fun follow name rest => ?_⟩
    rw [resolveFrom.eq_def, here]
  | some node =>
    cases node with
    | directory es => exact absurd here (astray es)
    | file => exact ⟨.notADirectory, fun follow name rest => by rw [resolveFrom.eq_def, here]⟩
    | link => exact ⟨.notADirectory, fun follow name rest => by rw [resolveFrom.eq_def, here]⟩
    | sealed isDirectory =>
      cases isDirectory with
      | false => exact ⟨.notADirectory, fun follow name rest => by rw [resolveFrom.eq_def, here]⟩
      | true => exact ⟨.denied, fun follow name rest => by rw [resolveFrom.eq_def, here]⟩

variable (here : top.get? location.reverse = some (.directory es))
include here

lemma resolveFrom_point :
    resolveFrom top follow links location ("." :: rest) =
      resolveFrom top follow links location rest := by
  rw [resolveFrom.eq_def, here]
  rfl

lemma resolveFrom_points :
    resolveFrom top follow links location (".." :: rest) =
      resolveFrom top follow links location.tail rest := by
  rw [resolveFrom.eq_def, here]
  rfl

variable (ne_here : name ≠ ".") (ne_above : name ≠ "..")
include ne_here ne_above

lemma resolveFrom_missing (none : Node.child? name es = none) :
    resolveFrom top follow links location (name :: rest) = .error .notFound := by
  rw [resolveFrom.eq_def, here]
  simp only [ne_here, ne_above, none, if_false]

lemma resolveFrom_entry (child : Node.child? name es = some node)
    (own : ∀ target, node ≠ .link target) :
    resolveFrom top follow links location (name :: rest) =
      resolveFrom top follow links (name :: location) rest := by
  rw [resolveFrom.eq_def, here]
  cases node with
  | link target => exact absurd rfl (own target)
  | file => simp only [ne_here, ne_above, child, if_false]
  | directory => simp only [ne_here, ne_above, child, if_false]
  | sealed => simp only [ne_here, ne_above, child, if_false]

lemma resolveFrom_link_last (child : Node.child? name es = some (.link target)) :
    resolveFrom top false links location [name] = .ok (name :: location, .link target) := by
  rw [resolveFrom.eq_def, here]
  simp [ne_here, ne_above, child]

lemma resolveFrom_link (child : Node.child? name es = some (.link target))
    (on : rest ≠ [] ∨ follow = true) :
    resolveFrom top follow links location (name :: rest) =
      match links with
      | 0 => .error .tooManyLinks
      | links + 1 =>
        resolveFrom top follow links (start location target) (steps target ++ rest) := by
  have followed : (rest.isEmpty && !follow) = false := by
    rcases on with more | rfl
    · rw [List.isEmpty_eq_false_iff.2 more, Bool.false_and]
    · rw [Bool.not_true, Bool.and_false]
  rw [resolveFrom.eq_def, here]
  cases links with
  | zero => simp only [ne_here, ne_above, child, if_false, followed, Bool.false_eq_true]
  | succ => simp only [ne_here, ne_above, child, if_false, followed, Bool.false_eq_true]

end Steps

/-- Holds of a place where there is no link. -/
def NoLink (top : Node) (location : Location) : Prop :=
  ∀ target, top.get? location.reverse ≠ some (.link target)

lemma noLink_of_directory (here : top.get? location.reverse = some (.directory es)) :
    NoLink top location := by
  intro target
  rw [here]
  nofun

lemma noLink_tail (here : top.get? location.reverse = some (.directory es)) :
    NoLink top location.tail := by
  cases location with
  | nil => exact noLink_of_directory here
  | cons name location =>
    rw [List.reverse_cons] at here
    exact noLink_of_directory (Node.directory_of_get? here).choose_spec

lemma noLink_start {target : String} (here : top.get? location.reverse = some (.directory es)) :
    NoLink top (start location target) := by
  induction location generalizing es with
  | nil =>
    rw [start, ite_self]
    exact noLink_of_directory here
  | cons name location ih =>
    rw [start]
    split
    · next absolute =>
      rw [List.reverse_cons] at here
      have := ih (Node.directory_of_get? here).choose_spec
      rwa [start, if_pos absolute] at this
    · exact noLink_of_directory here

/-- What a first step comes to, whatever is behind it. -/
inductive FirstStep (top : Node) (links : Nat) (location : Location) (name : String) : Prop where
  | stuck (fault : FileFault) :
    (∀ follow rest, resolveFrom top follow links location (name :: rest) = .error fault) →
    FirstStep top links location name
  | goes (location' : Location) :
    NoLink top location' →
    (∀ follow rest, resolveFrom top follow links location (name :: rest) =
      resolveFrom top follow links location' rest) →
    FirstStep top links location name
  | link (target : String) :
    NoLink top (start location target) →
    resolveFrom top false links location [name] = .ok (name :: location, .link target) →
    (∀ follow rest, (rest ≠ [] ∨ follow = true) →
      resolveFrom top follow links location (name :: rest) =
        match links with
        | 0 => .error .tooManyLinks
        | links + 1 =>
          resolveFrom top follow links (start location target) (steps target ++ rest)) →
    FirstStep top links location name

lemma firstStep (top : Node) (links : Nat) (location : Location) (name : String) :
    FirstStep top links location name := by
  by_cases directory : ∃ es, top.get? location.reverse = some (.directory es)
  · obtain ⟨es, here⟩ := directory
    by_cases point : name = "."
    · subst point
      exact .goes location (noLink_of_directory here) fun _ _ => resolveFrom_point here
    by_cases points : name = ".."
    · subst points
      exact .goes location.tail (noLink_tail here) fun _ _ => resolveFrom_points here
    have entry {node} (child : Node.child? name es = some node)
        (own : ∀ target, node ≠ .link target) : FirstStep top links location name := by
      refine .goes (name :: location) (fun target there => ?_) fun _ _ =>
        resolveFrom_entry here point points child own
      rw [Node.get?_entry here, child] at there
      exact own target (Option.some_inj.1 there)
    match child : Node.child? name es with
    | none => exact .stuck _ fun _ _ => resolveFrom_missing here point points child
    | some (.file ..) => exact entry child nofun
    | some (.directory _) => exact entry child nofun
    | some (.sealed _) => exact entry child nofun
    | some (.link target) =>
      exact .link target (noLink_start here) (resolveFrom_link_last here point points child)
        fun _ _ on => resolveFrom_link here point points child on
  · obtain ⟨fault, stuck⟩ := resolveFrom_astray links fun es here =>
      directory ⟨es, here⟩
    exact .stuck fault fun follow rest => stuck follow name rest

/-! ### Following a path -/

/-- Holds when some steps lead from one place to another, whatever is behind them; a link that they
end in is followed. -/
def Passes (top : Node) (links : Nat) (location : Location) (names : List String) (links' : Nat)
    (location' : Location) : Prop :=
  ∀ rest follow, (rest ≠ [] ∨ follow = true) →
    resolveFrom top follow links location (names ++ rest) =
      resolveFrom top follow links' location' rest

/-- Holds when some steps lead nowhere, whatever is behind them. -/
def Strands (top : Node) (links : Nat) (location : Location) (names : List String)
    (fault : FileFault) : Prop :=
  ∀ rest follow, (rest ≠ [] ∨ follow = true) →
    resolveFrom top follow links location (names ++ rest) = .error fault

lemma passes_or_strands (top : Node) (links : Nat) (location : Location) (names : List String) :
    (∃ links' location', Passes top links location names links' location') ∨
      ∃ fault, Strands top links location names fault := by
  induction links using Nat.strongRecOn generalizing location names with
  | _ links fewer =>
  induction names generalizing location with
  | nil => exact .inl ⟨links, location, fun _ _ _ => rfl⟩
  | cons name names ih =>
    cases firstStep top links location name with
    | stuck _ eq => exact .inr ⟨_, fun rest follow _ => eq follow (names ++ rest)⟩
    | goes location' _ eq =>
      refine (ih location').imp ?_ ?_
      · rintro ⟨links', end', passes⟩
        exact ⟨links', end', fun rest follow on => (eq follow _).trans (passes rest follow on)⟩
      · rintro ⟨fault, strands⟩
        exact ⟨fault, fun rest follow on => (eq follow _).trans (strands rest follow on)⟩
    | link target _ _ eq =>
      have eq {rest follow} (on : rest ≠ [] ∨ follow = true) :=
        eq follow (names ++ rest)
          (on.imp_left fun more none => more (List.append_eq_nil_iff.1 none).2)
      cases links with
      | zero => exact .inr ⟨_, fun rest follow on => eq on⟩
      | succ links =>
        refine (fewer links (Nat.lt_succ_self links) (start location target)
          (steps target ++ names)).imp ?_ ?_
        · rintro ⟨links', end', passes⟩
          refine ⟨links', end', fun rest follow on => (eq on).trans ?_⟩
          rw [← passes rest follow on, List.append_assoc]
        · rintro ⟨fault, strands⟩
          refine ⟨fault, fun rest follow on => (eq on).trans ?_⟩
          rw [← strands rest follow on, List.append_assoc]

lemma passes_of_resolveFrom {names : List String} {links : Nat}
    (leads : resolveFrom top true links location names = .ok (location', node)) :
    ∃ links', Passes top links location names links' location' ∧
      top.get? location'.reverse = some node := by
  rcases passes_or_strands top links location names with ⟨links', end', passes⟩ | ⟨fault, strands⟩
  · have whole := passes [] true (.inr rfl)
    rw [List.append_nil, leads, resolveFrom_nil] at whole
    split at whole
    · next there =>
      cases whole
      exact ⟨links', passes, there⟩
    · cases whole
  · have whole := strands [] true (.inr rfl)
    rw [List.append_nil, leads] at whole
    cases whole

/-- A path to a directory leads there also without the point that a separator at its end stands
for. -/
lemma resolveFrom_of_point {names : List String} {links : Nat}
    (leads : resolveFrom top true links location (names ++ ["."]) = .ok (location', node)) :
    resolveFrom top true links location names = .ok (location', node) := by
  rcases passes_or_strands top links location names with ⟨links', end', passes⟩ | ⟨fault, strands⟩
  · have front := passes [] true (.inr rfl)
    rw [List.append_nil] at front
    rw [passes ["."] true (.inr rfl)] at leads
    by_cases directory : ∃ es, top.get? end'.reverse = some (.directory es)
    · obtain ⟨es', here⟩ := directory
      rwa [resolveFrom_point here, ← front] at leads
    · obtain ⟨fault, stuck⟩ := resolveFrom_astray links' fun es here =>
        directory ⟨es, here⟩
      rw [stuck] at leads
      cases leads
  · rw [strands ["."] true (.inr rfl)] at leads
    cases leads

/-- Whether a link at the end is followed matters only if there is a link at the end. -/
lemma resolveFrom_unfollowed (top : Node) (links : Nat) (location : Location)
    (names : List String) :
    (∃ location' target,
        resolveFrom top false links location names = .ok (location', .link target)) ∨
      resolveFrom top false links location names = resolveFrom top true links location names := by
  rcases List.eq_nil_or_concat names with rfl | ⟨names, name, rfl⟩
  · exact .inr (by rw [resolveFrom_nil, resolveFrom_nil])
  · have on : [name] ≠ [] := List.cons_ne_nil name []
    rw [List.concat_eq_append]
    rcases passes_or_strands top links location names with ⟨links', end', passes⟩ | ⟨_, strands⟩
    · rw [passes [name] false (.inl on), passes [name] true (.inl on)]
      cases firstStep top links' end' name with
      | stuck _ eq => exact .inr (by rw [eq, eq])
      | goes _ _ eq => exact .inr (by rw [eq, eq, resolveFrom_nil, resolveFrom_nil])
      | link target _ eq _ => exact .inl ⟨_, target, eq⟩
    · exact .inr (by rw [strands [name] false (.inl on), strands [name] true (.inl on)])

/-- What is followed to its end is no link. -/
lemma noLink_of_resolveFrom {names : List String} {links : Nat}
    (leads : resolveFrom top true links location names = .ok (location', node))
    (own : names ≠ [] ∨ NoLink top location) :
    NoLink top location' := by
  induction links using Nat.strongRecOn generalizing location names with
  | _ links fewer =>
  induction names generalizing location with
  | nil =>
    rw [resolveFrom_nil] at leads
    split at leads
    · cases leads
      exact own.resolve_left fun full => full rfl
    · cases leads
  | cons name names ih =>
    cases firstStep top links location name with
    | stuck _ eq =>
      rw [eq] at leads
      cases leads
    | goes _ own' eq =>
      rw [eq] at leads
      exact ih leads (.inr own')
    | link target own' _ eq =>
      rw [eq true names (.inr rfl)] at leads
      cases links with
      | zero => cases leads
      | succ links => exact fewer links (Nat.lt_succ_self links) leads (.inr own')

/-! ### Paths with a name behind them -/

lemma get?_of_resolve (leads : t.resolve base true = .ok (location, node)) :
    t.top.get? location.reverse = some node := by
  rw [resolve] at leads
  split at leads
  · cases leads
  · exact (passes_of_resolveFrom leads).choose_spec.2

/-- A path that is not empty has steps. -/
lemma steps_ne_nil (full : base ≠ "") : steps base ≠ [] := by
  rw [steps_eq]
  split
  · exact List.append_ne_nil_of_right_ne_nil _ (List.cons_ne_nil "." [])
  · next last =>
    have full : base.toList ≠ [] := fun none => full (String.toList_inj.1 none)
    have other : base.toList.getLast full ≠ '/' := by
      rwa [List.getLast?_eq_some_getLast full, beq_iff_eq, Option.some_inj] at last
    obtain ⟨piece, piece_mem, mem⟩ := Text.mem_splitOnChar (List.getLast_mem full) other
    refine List.ne_nil_of_mem (List.mem_map_of_mem (List.mem_filter.2 ⟨piece_mem, ?_⟩))
    rw [Bool.not_eq_true', List.isEmpty_eq_false_iff]
    exact List.ne_nil_of_mem mem

theorem resolve_ne_link (leads : t.resolve base true = .ok (location, node)) :
    ∀ target, node ≠ .link target := by
  rintro target rfl
  have there := get?_of_resolve leads
  rw [resolve] at leads
  split at leads
  · cases leads
  · next full =>
    have full : base ≠ "" := fun empty => full (String.isEmpty_iff.2 empty)
    exact noLink_of_resolveFrom leads (.inl (steps_ne_nil full)) target there

theorem resolve_unfollowed (t : FileTree) (path : String) :
    (∃ location target, t.resolve path false = .ok (location, .link target)) ∨
      t.resolve path false = t.resolve path true := by
  rw [resolve, resolve]
  split
  · exact .inr rfl
  · exact resolveFrom_unfollowed ..

/-- A path with a name behind it leads where the name leads from the directory that the path leads
to. -/
theorem resolve_join (leads : t.resolve base true = .ok (location, .directory es))
    (proper : IsName name) :
    ∃ links, ∀ follow,
      t.resolve (Path.join base name) follow = resolveFrom t.top follow links location [name] := by
  rw [resolve] at leads
  split at leads
  · cases leads
  · next full =>
    have nonempty : base ≠ "" := fun empty => full (String.isEmpty_iff.2 empty)
    obtain ⟨names, behind, before⟩ := steps_join nonempty proper
    have front : resolveFrom t.top true maxLinks (start t.current base) names =
        .ok (location, .directory es) := by
      rcases before with eq | eq
      · rwa [eq] at leads
      · rw [eq] at leads
        exact resolveFrom_of_point leads
    obtain ⟨links, passes, -⟩ := passes_of_resolveFrom front
    refine ⟨links, fun follow => ?_⟩
    have full : ¬(Path.join base name).isEmpty = true := fun empty =>
      Path.join_ne_empty proper.nonempty (String.isEmpty_iff.1 empty)
    rw [resolve, if_neg full, start_join nonempty proper, behind]
    exact passes [name] follow (.inl (List.cons_ne_nil name []))

/-- The entry of a name, unless it is a link, is what the name leads to. -/
theorem resolve_entry (leads : t.resolve base true = .ok (location, .directory es))
    (proper : IsName name) (child : Node.child? name es = some node)
    (own : ∀ target, node ≠ .link target) :
    t.resolve (Path.join base name) follow = .ok (name :: location, node) := by
  obtain ⟨links, eq⟩ := resolve_join leads proper
  have here := get?_of_resolve leads
  rw [eq, resolveFrom_entry here proper.ne_here proper.ne_above child own, resolveFrom_nil,
    Node.get?_entry here, child]

theorem resolve_missing (leads : t.resolve base true = .ok (location, .directory es))
    (proper : IsName name) (none : Node.child? name es = none) :
    t.resolve (Path.join base name) follow = .error .notFound := by
  obtain ⟨links, eq⟩ := resolve_join leads proper
  rw [eq, resolveFrom_missing (get?_of_resolve leads) proper.ne_here proper.ne_above none]

/-- The separator alone leads to the top of a tree. -/
lemma resolve_top (top : t.top = .directory es) : t.resolve "/" true = .ok ([], .directory es) := by
  simp [resolve, resolveFrom, steps, Text.splitOnChar, start, Path.isAbsolute, Node.get?, top]

lemma exists_of_resolve (leads : t.resolve base true = .ok (location, node)) :
    t.exists? base = true := by
  rw [exists?, find?, leads]
  rfl

end Multipass.FileTree
