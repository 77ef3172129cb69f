import Mathlib.Data.List.Induction
import Mathlib.Data.List.Nodup
import Multipass.Proofs.Store.Request

/-!
# The order of results

Results stand in the order in which they were kept, and completed passes in the order of their
completion. The two orders part where a result that was kept earlier is completed later: its pass is
completed while the result of a pass that is completed already stands behind its own. Nothing else
parts them, and nothing brings them together again.

Main statements: `Shelf.Turn.inOrder_iff` for what one request does to one record, and
`Cabinets.inOrder_iff` for everything that was ever requested of a store.
-/

namespace Multipass

/-- The passes of the results of a record, and its completed passes, each in their order. -/
structure Shelf where
  results : List String := []
  completed : List String := []

namespace Shelf

/-- Holds when the results of completed passes stand in the order of completion. -/
def InOrder (shelf : Shelf) : Prop :=
  (shelf.results.filter fun pass => pass ∈ shelf.completed).Sublist shelf.completed

/-- Holds of a pass whose result stands before the result of a completed one. -/
def Overtakes (shelf : Shelf) (pass : String) : Prop :=
  ∃ front back, shelf.results = front ++ pass :: back ∧ ∃ other ∈ back, other ∈ shelf.completed

/-- What one request can do to the results and the completed passes of a record that stays, with the
pass that is completed without a new result, if there is one. -/
inductive Turn (shelf : Shelf) : Option String → Shelf → Prop where
  | stay : Turn shelf none shelf
  | keep {pass} :
    pass ∉ shelf.completed →
    Turn shelf none { shelf with results := shelf.results ++ [pass] }
  | commit {pass} :
    pass ∉ shelf.completed →
    Turn shelf none
      ⟨(shelf.results.filter fun other => other ≠ pass) ++ [pass], shelf.completed ++ [pass]⟩
  | advance {pass} :
    pass ∉ shelf.completed →
    Turn shelf (some pass) { shelf with completed := shelf.completed ++ [pass] }

variable {shelf shelf' : Shelf} {pass : String} {advanced : Option String}

lemma inOrder_empty : InOrder {} :=
  List.Sublist.refl _

/-- A pass that is not among some others does not matter for the order among them. -/
lemma filter_mem_concat {names completed : List String} (free : pass ∉ names) :
    (names.filter fun other => other ∈ completed ++ [pass]) =
      names.filter fun other => other ∈ completed := by
  refine List.filter_congr fun other mem => ?_
  have ne : other ≠ pass := fun eq => free (eq ▸ mem)
  simp [ne]

lemma sublist_concat_iff {names completed : List String} (free : pass ∉ names) :
    names.Sublist (completed ++ [pass]) ↔ names.Sublist completed := by
  refine ⟨fun sub => ?_, fun sub => sub.trans (List.sublist_append_left _ _)⟩
  obtain ⟨front, back, rfl, front_sub, back_sub⟩ := List.sublist_append_iff.1 sub
  obtain rfl | rfl := List.sublist_singleton.1 back_sub
  · rw [List.append_nil]
    exact front_sub
  · exact absurd (List.mem_append_right _ (List.mem_singleton_self _)) free

/-- Where the result of a pass stands among others decides whether it may be completed last. -/
lemma concat_sublist_concat_iff {front back completed : List String} (free : pass ∉ completed)
    (before : pass ∉ front) (behind : pass ∉ back) :
    (front ++ pass :: back).Sublist (completed ++ [pass]) ↔
      (front ++ back).Sublist completed ∧ back = [] := by
  refine ⟨fun sub => ?_, ?_⟩
  · obtain ⟨left, right, eq, left_sub, right_sub⟩ := List.sublist_append_iff.1 sub
    obtain rfl | rfl := List.sublist_singleton.1 right_sub
    · rw [List.append_nil] at eq
      exact absurd (left_sub.subset (eq ▸ List.mem_append_right _ List.mem_cons_self)) free
    · obtain ⟨rfl, -, rfl⟩ := (List.append_cons_inj_of_notMem before behind).1 eq
      rw [List.append_nil]
      exact ⟨left_sub, rfl⟩
  · rintro ⟨sub, rfl⟩
    rw [List.append_nil] at sub
    exact sub.append (List.Sublist.refl _)

/-- A pass is completed whose result was kept before: the order stays unless the result stands
before that of a completed pass. -/
lemma inOrder_advance_iff (nodup : shelf.results.Nodup) (free : pass ∉ shelf.completed) :
    InOrder { shelf with completed := shelf.completed ++ [pass] } ↔
      shelf.InOrder ∧ ¬shelf.Overtakes pass := by
  simp only [InOrder]
  by_cases kept : pass ∈ shelf.results
  · obtain ⟨front, back, eq⟩ := List.append_of_mem kept
    rw [eq] at nodup
    obtain ⟨-, tail, apart⟩ := List.nodup_append'.1 nodup
    have before : pass ∉ front := fun mem => apart mem List.mem_cons_self
    have behind : pass ∉ back := (List.nodup_cons.1 tail).1
    have overtakes : shelf.Overtakes pass ↔ ∃ other ∈ back, other ∈ shelf.completed := by
      refine ⟨?_, fun some => ⟨front, back, eq, some⟩⟩
      rintro ⟨front', back', eq', some⟩
      obtain ⟨-, -, rfl⟩ :=
        (List.append_cons_inj_of_notMem before behind).1 (eq.symm.trans eq')
      exact some
    rw [eq, List.filter_append, List.filter_append, List.filter_cons_of_pos (by simp),
      List.filter_cons_of_neg (by simpa using free), filter_mem_concat before,
      filter_mem_concat behind, concat_sublist_concat_iff free
        (fun mem => before (List.mem_of_mem_filter mem))
        (fun mem => behind (List.mem_of_mem_filter mem)), overtakes, List.filter_eq_nil_iff]
    simp
  · have overtakes : ¬shelf.Overtakes pass := by
      rintro ⟨front, back, eq, -⟩
      exact kept (eq ▸ List.mem_append_right _ List.mem_cons_self)
    rw [filter_mem_concat kept, sublist_concat_iff fun mem => kept (List.mem_of_mem_filter mem),
      and_iff_left overtakes]

/-- The order is lost exactly where a pass is completed that overtakes another one; and once lost it
stays so. -/
theorem Turn.inOrder_iff (turn : shelf.Turn advanced shelf') (nodup : shelf.results.Nodup) :
    shelf'.InOrder ↔ shelf.InOrder ∧ ∀ pass ∈ advanced, ¬shelf.Overtakes pass := by
  cases turn with
  | stay => simp
  | @keep pass free =>
    have alone : ([pass].filter fun other => other ∈ shelf.completed) = [] := by simp [free]
    simp only [InOrder, List.filter_append, alone, List.append_nil]
    simp
  | @commit pass free =>
    have others : ((shelf.results.filter fun other => other ≠ pass).filter fun other =>
        other ∈ shelf.completed ++ [pass]) =
        shelf.results.filter fun other => other ∈ shelf.completed := by
      rw [List.filter_filter]
      refine List.filter_congr fun other _ => ?_
      by_cases eq : other = pass
      · simp [eq, free]
      · simp [eq]
    have last : ([pass].filter fun other => other ∈ shelf.completed ++ [pass]) = [pass] := by simp
    simp only [InOrder, List.filter_append, others, last, List.append_sublist_append_right]
    simp
  | advance free =>
    rw [inOrder_advance_iff nodup free]
    simp

end Shelf

/-! ### Everything that was requested -/

/-- The record and the pass that a request completes without a new result, by what was answered. -/
def Request.advanced : Request Record RecordId → Response → Option (RecordId × String)
  | .advance record pass, .ok _ => some (record.id, pass)
  | _, _ => none

/-- What matters of a store for the order of results: the number for the next record, the completed
passes of the records, and the record and the pass of each result. -/
@[ext]
structure Cabinet where
  next : RecordId
  completed? : RecordId → Option (List String)
  keys : List (RecordId × String)

namespace Cabinet

/-- The passes of the results of a record. -/
def passesOf (keys : List (RecordId × String)) (id : RecordId) : List String :=
  (keys.filter fun k => k.1 = id).map Prod.snd

/-- The shelf of a record. -/
def shelf? (c : Cabinet) (id : RecordId) : Option Shelf :=
  (c.completed? id).map fun completed => ⟨passesOf c.keys id, completed⟩

/-- Holds of a cabinet whose records have given numbers, with results of such records only, and with
one result of a pass at most. -/
structure WellFormed (c : Cabinet) : Prop where
  given : ∀ id, (c.completed? id).isSome → id < c.next
  owned : ∀ k ∈ c.keys, (c.completed? k.1).isSome
  unique : c.keys.Nodup

/-- What one request can do, with the pass that is completed without a new result. -/
inductive Step (c : Cabinet) : Option (RecordId × String) → Cabinet → Prop where
  | put {next completed?} :
    c.next ≤ next →
    (∀ id names, c.completed? id = some names → completed? id = some names) →
    (∀ id names, c.completed? id = none → completed? id = some names → c.next ≤ id ∧ names = []) →
    Step c none ⟨next, completed?, c.keys⟩
  | keep {id pass names} :
    c.completed? id = some names → pass ∉ names →
    Step c none { c with keys := c.keys ++ [(id, pass)] }
  | complete {id pass names} :
    c.completed? id = some names → pass ∉ names →
    Step c (some (id, pass))
      { c with completed? := Function.update c.completed? id (some (names ++ [pass])) }
  | commit {id pass names} :
    c.completed? id = some names → pass ∉ names →
    Step c none { c with
      completed? := Function.update c.completed? id (some (names ++ [pass]))
      keys := (c.keys.filter fun k => k ≠ (id, pass)) ++ [(id, pass)] }
  | delete (id : RecordId) :
    Step c none { c with
      completed? := Function.update c.completed? id none
      keys := c.keys.filter fun k => k.1 ≠ id }

variable {c c' : Cabinet} {advanced : Option (RecordId × String)} {id other : RecordId}
  {keys : List (RecordId × String)} {shelf shelf' : Shelf}

lemma nodup_passesOf (nodup : keys.Nodup) (id : RecordId) : (passesOf keys id).Nodup := by
  refine (nodup.filter _).map_on ?_
  intro k mem k' mem' eq
  have own := List.of_mem_filter mem
  have own' := List.of_mem_filter mem'
  simp only [decide_eq_true_eq] at own own'
  exact Prod.ext (own.trans own'.symm) eq

lemma passesOf_concat (keys : List (RecordId × String)) (id : RecordId) (pass : String) :
    passesOf (keys ++ [(id, pass)]) id = passesOf keys id ++ [pass] := by
  simp [passesOf]

lemma passesOf_concat_of_ne (ne : other ≠ id) (pass : String) :
    passesOf (keys ++ [(id, pass)]) other = passesOf keys other := by
  simp [passesOf, ne.symm]

lemma passesOf_dropped (keys : List (RecordId × String)) (id : RecordId) (pass : String) :
    passesOf (keys.filter fun k => k ≠ (id, pass)) id =
      (passesOf keys id).filter fun name => name ≠ pass := by
  simp only [passesOf, List.filter_map, List.filter_filter]
  congr 1
  refine List.filter_congr fun k _ => ?_
  rw [Bool.eq_iff_iff]
  simp only [Function.comp, Bool.and_eq_true, decide_eq_true_eq, ne_eq, Prod.ext_iff, not_and]
  exact ⟨fun h => ⟨h.2 h.1, h.1⟩, fun h => ⟨h.2, fun _ => h.1⟩⟩

lemma passesOf_dropped_of_ne (ne : other ≠ id) (pass : String) :
    passesOf (keys.filter fun k => k ≠ (id, pass)) other = passesOf keys other := by
  simp only [passesOf, List.filter_filter]
  congr 1
  refine List.filter_congr fun k _ => ?_
  rw [Bool.eq_iff_iff]
  simp only [Bool.and_eq_true, decide_eq_true_eq, and_iff_left_iff_imp]
  rintro rfl eq
  exact ne (congrArg Prod.fst eq)

lemma passesOf_removed_of_ne (ne : other ≠ id) :
    passesOf (keys.filter fun k => k.1 ≠ id) other = passesOf keys other := by
  simp only [passesOf, List.filter_filter]
  congr 1
  refine List.filter_congr fun k _ => ?_
  rw [Bool.eq_iff_iff]
  simp +contextual [ne]

lemma shelf?_eq_some (h : c.shelf? id = some shelf) :
    ∃ names, c.completed? id = some names ∧ shelf = ⟨passesOf c.keys id, names⟩ := by
  obtain ⟨names, found, rfl⟩ := Option.map_eq_some_iff.1 h
  exact ⟨names, found, rfl⟩

lemma shelf?_eq_none : c.shelf? id = none ↔ c.completed? id = none :=
  Option.map_eq_none_iff

lemma WellFormed.nodup (wf : c.WellFormed) (h : c.shelf? id = some shelf) :
    shelf.results.Nodup := by
  obtain ⟨names, -, rfl⟩ := shelf?_eq_some h
  exact nodup_passesOf wf.unique id

/-- A record that is not there has no results. -/
lemma WellFormed.passesOf_eq_nil (wf : c.WellFormed) (none : c.completed? id = none) :
    passesOf c.keys id = [] := by
  rw [passesOf, List.map_eq_nil_iff, List.filter_eq_nil_iff]
  intro k mem own
  have there := wf.owned k mem
  rw [decide_eq_true_eq] at own
  rw [own, none] at there
  cases there

lemma Step.same (c : Cabinet) : c.Step none c := by
  refine .put (Int.le_refl _) (fun _ _ found => found) fun id names none found => ?_
  cases none.symm.trans found

lemma Step.next_le (step : c.Step advanced c') : c.next ≤ c'.next := by
  cases step with
  | put le _ _ => exact le
  | _ => exact Int.le_refl _

/-- The shelf of a record that stays. -/
lemma Step.turn (step : c.Step advanced c') (before : c.shelf? id = some shelf)
    (behind : c'.shelf? id = some shelf') :
    shelf.Turn ((advanced.filter fun k => k.1 = id).map Prod.snd) shelf' := by
  obtain ⟨names, found, rfl⟩ := shelf?_eq_some before
  obtain ⟨names', found', rfl⟩ := shelf?_eq_some behind
  cases step with
  | put _ same _ =>
    cases (same id names found).symm.trans found'
    exact .stay
  | @keep key pass listed there free =>
    cases found.symm.trans found'
    by_cases eq : id = key
    · subst eq
      cases found.symm.trans there
      rw [passesOf_concat]
      exact .keep free
    · rw [passesOf_concat_of_ne eq]
      exact .stay
  | @complete key pass listed there free =>
    by_cases eq : id = key
    · subst eq
      cases found.symm.trans there
      simp only [Function.update_self] at found'
      cases found'
      simp only [Option.filter_some, decide_true, if_true, Option.map_some]
      exact .advance free
    · simp only [Function.update_of_ne eq] at found'
      cases found.symm.trans found'
      have none : decide (key = id) = false := by simp [Ne.symm eq]
      simp only [Option.filter_some, none, Bool.false_eq_true, if_false, Option.map_none]
      exact .stay
  | @commit key pass listed there free =>
    by_cases eq : id = key
    · subst eq
      cases found.symm.trans there
      simp only [Function.update_self] at found'
      cases found'
      rw [passesOf_concat, passesOf_dropped]
      exact .commit free
    · simp only [Function.update_of_ne eq] at found'
      cases found.symm.trans found'
      rw [passesOf_concat_of_ne eq, passesOf_dropped_of_ne eq]
      exact .stay
  | delete key =>
    by_cases eq : id = key
    · subst eq
      simp at found'
    · simp only [Function.update_of_ne eq] at found'
      cases found.symm.trans found'
      rw [passesOf_removed_of_ne eq]
      exact .stay

/-- A record that appears has the next number or a later one, and nothing on its shelf. -/
lemma Step.appear (step : c.Step advanced c') (wf : c.WellFormed) (before : c.shelf? id = none)
    (behind : c'.shelf? id = some shelf') : c.next ≤ id ∧ shelf' = {} := by
  rw [shelf?_eq_none] at before
  obtain ⟨names', found', rfl⟩ := shelf?_eq_some behind
  have absent {key : RecordId} {names : List String} (there : c.completed? key = some names) :
      id ≠ key := by
    rintro rfl
    cases before.symm.trans there
  cases step with
  | put _ _ new =>
    obtain ⟨le, rfl⟩ := new id names' before found'
    rw [wf.passesOf_eq_nil before]
    exact ⟨le, rfl⟩
  | keep there _ => cases before.symm.trans found'
  | complete there _ =>
    simp only [Function.update_of_ne (absent there)] at found'
    cases before.symm.trans found'
  | commit there _ =>
    simp only [Function.update_of_ne (absent there)] at found'
    cases before.symm.trans found'
  | delete key =>
    by_cases eq : id = key
    · subst eq
      simp at found'
    · simp only [Function.update_of_ne eq] at found'
      cases before.symm.trans found'

end Cabinet

variable {σ : Type} {store : ArtifactStore σ} {look : σ → Cabinet} {Inv : σ → Prop}

/-- Holds of a store that keeps something along all requests, and that then changes as said. -/
structure Cabinets (store : ArtifactStore σ) (look : σ → Cabinet) (Inv : σ → Prop) : Prop where
  wellFormed : ∀ s, Inv s → (look s).WellFormed
  step : ∀ s now request, Inv s → Inv (Request.perform store now request s).2 ∧
    (look s).Step (request.advanced (Request.perform store now request s).1)
      (look (Request.perform store now request s).2)

/-- Holds of a history in which a pass of a record was completed without a new result while the
result that it had stood before that of a completed pass. -/
def ArtifactStore.Overtaken (store : ArtifactStore σ) (shelf? : σ → RecordId → Option Shelf)
    (first : σ) (history : List (Timestamp × Request Record RecordId)) (id : RecordId) : Prop :=
  ∃ earlier now request shelf pass, earlier ++ [(now, request)] <+: history ∧
    shelf? (Request.performAll store earlier first) id = some shelf ∧
    request.advanced (Request.perform store now request (Request.performAll store earlier first)).1 =
      some (id, pass) ∧
    shelf.Overtakes pass

lemma Request.performAll_concat (store : ArtifactStore σ)
    (history : List (Timestamp × Request Record RecordId)) (now : Timestamp)
    (request : Request Record RecordId) (s : σ) :
    performAll store (history ++ [(now, request)]) s =
      (request.perform store now (performAll store history s)).2 := by
  rw [performAll, List.foldl_append]
  rfl

namespace Cabinets

variable {first : σ} {history : List (Timestamp × Request Record RecordId)} {now : Timestamp}
  {request : Request Record RecordId} {id : RecordId} {shelf : Shelf}

lemma performAll (cabinets : Cabinets store look Inv) {s : σ} (inv : Inv s)
    (history : List (Timestamp × Request Record RecordId)) :
    Inv (Request.performAll store history s) ∧
      (look s).next ≤ (look (Request.performAll store history s)).next := by
  induction history generalizing s with
  | nil => exact ⟨inv, Int.le_refl _⟩
  | cons r history ih =>
    obtain ⟨inv', step⟩ := cabinets.step s r.1 r.2 inv
    obtain ⟨inv'', le⟩ := ih inv'
    exact ⟨inv'', Int.le_trans step.next_le le⟩

/-- One request more overtakes something if it does so itself. -/
lemma overtaken_concat_iff {shelf? : σ → RecordId → Option Shelf} :
    store.Overtaken shelf? first (history ++ [(now, request)]) id ↔
      store.Overtaken shelf? first history id ∨
        ∃ shelf pass, shelf? (Request.performAll store history first) id = some shelf ∧
          request.advanced (request.perform store now (Request.performAll store history first)).1 =
            some (id, pass) ∧
          shelf.Overtakes pass := by
  constructor
  · rintro ⟨earlier, now', request', shelf, pass, prior, rest⟩
    obtain eq | prior := List.prefix_concat_iff.1 prior
    · obtain ⟨rfl, last⟩ := List.append_inj' eq rfl
      cases last
      exact .inr ⟨shelf, pass, rest⟩
    · exact .inl ⟨earlier, now', request', shelf, pass, prior, rest⟩
  · rintro (⟨earlier, now', request', shelf, pass, prior, rest⟩ | ⟨shelf, pass, rest⟩)
    · exact ⟨earlier, now', request', shelf, pass, prior.trans (List.prefix_append _ _), rest⟩
    · exact ⟨history, now, request, shelf, pass, List.prefix_rfl, rest⟩

/-- Nothing was overtaken of a record that was not there. -/
lemma not_overtaken (cabinets : Cabinets store look Inv) (inv : Inv first)
    (le : (look (Request.performAll store history first)).next ≤ id) :
    ¬store.Overtaken (fun s => (look s).shelf?) first history id := by
  rintro ⟨earlier, now, request, shelf, pass, ⟨later, rfl⟩, there, -⟩
  obtain ⟨inv', -⟩ := cabinets.performAll inv earlier
  have lt := (cabinets.wellFormed _ inv').given id (by
    obtain ⟨names, found, -⟩ := Cabinet.shelf?_eq_some there
    rw [found]
    rfl)
  obtain ⟨-, le'⟩ := cabinets.performAll inv' ((now, request) :: later)
  rw [List.append_assoc, Request.performAll, List.foldl_append] at le
  exact absurd (Int.lt_of_lt_of_le lt (Int.le_trans le' le)) (Int.lt_irrefl _)

/-- The results of a record that is there stand in the order of completion exactly when no pass of
it was ever completed without a new result while its result stood before that of a completed one. -/
theorem inOrder_iff (cabinets : Cabinets store look Inv) (inv : Inv first)
    (empty : ∀ id, (look first).shelf? id = none)
    (there : (look (Request.performAll store history first)).shelf? id = some shelf) :
    shelf.InOrder ↔ ¬store.Overtaken (fun s => (look s).shelf?) first history id := by
  induction history using List.reverseRecOn generalizing shelf with
  | nil => exact absurd there (by simp [Request.performAll, empty])
  | append_singleton history r ih =>
    obtain ⟨now, request⟩ := r
    rw [Request.performAll_concat] at there
    obtain ⟨inv', -⟩ := cabinets.performAll inv history
    obtain ⟨-, step⟩ := cabinets.step _ now request inv'
    rw [overtaken_concat_iff]
    cases before : (look (Request.performAll store history first)).shelf? id with
    | none =>
      -- The record has just appeared, without results.
      obtain ⟨le, rfl⟩ := step.appear (cabinets.wellFormed _ inv') before there
      have none := cabinets.not_overtaken inv le
      simp [none, Shelf.inOrder_empty]
    | some old =>
      have turn := step.turn before there
      rw [turn.inOrder_iff ((cabinets.wellFormed _ inv').nodup before), ih before, not_or]
      simp

end Cabinets

end Multipass
