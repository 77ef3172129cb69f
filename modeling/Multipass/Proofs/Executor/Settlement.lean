import Multipass.Proofs.Executor.Abreast
import Multipass.Proofs.Executor.Fate
import Multipass.Proofs.Executor.Passage

/-!
# What a run settles

A worker that is alone with its store and has its record as it is stored takes the record through
every pass that it lacks. Placeholders are passed over, a result that was kept is recovered, and a
backend is asked for each result that is not there. Behind the run the record has gained the passes
that are reported as completed, each of which has one result, and it lacks the others.

A run is a tour in legs, one for each pass. What comes of a leg depends on the results of its own
pass, so it can be told from the store as it was before the run.

Main statements: `Execution.tour_run`, `Tour.settles`, and `runMissing_settles` for a whole run.
-/

namespace Multipass

open MemoryStore (isResultOf)

/-- Holds of a pass that can be run. -/
def PassRegistry.canRun (registry : PassRegistry) (pass : String) : Bool :=
  match registry.definition pass with
  | .ok d => d.backend.isRunnable
  | .error _ => false

lemma PassRegistry.canRun_of {registry : PassRegistry} {pass : String} {d : PassDefinition}
    (hd : registry.definition pass = .ok d) : registry.canRun pass = d.backend.isRunnable := by
  rw [canRun, hd]

/-- The pass for which a backend was invoked. -/
def Invocation.pass (i : Invocation) : String :=
  i.definition.name

/-- The record with more completed passes, the last of them at a time. -/
def Record.gain (r : Record) (names : List String) (now : Timestamp) : Record :=
  { r with
    completed := r.completed ++ names
    passIndex := r.passIndex + names.length
    updatedAt := if names = [] then r.updatedAt else now }

lemma Record.gain_nil (r : Record) (now : Timestamp) : r.gain [] now = r := by
  simp [gain]

lemma Record.gain_complete (r : Record) (pass : String) (names : List String)
    (now later : Timestamp) :
    (r.complete pass now).gain names later =
      r.gain (pass :: names) (if names = [] then now else later) := by
  simp only [gain, complete, List.append_assoc, List.singleton_append, List.length_cons,
    Int.natCast_add, Int.natCast_one, reduceCtorEq, if_false, Int.add_assoc,
    Int.add_comm 1 (names.length : Int)]

/-! ### Results by their passes -/

namespace MemoryStore

variable {s : MemoryStore} {id : RecordId} {pass : String} {result : PassResult}

lemma mem_of_latest? (latest : s.latest? id pass = some result) :
    (id, result) ∈ s.results ∧ result.pass = pass := by
  obtain ⟨⟨owner, result⟩, found, rfl⟩ := Option.map_eq_some_iff.1 latest
  obtain ⟨rfl, named⟩ := Prod.mk.inj (isResultOf_iff.1 (List.find?_some found))
  exact ⟨List.mem_reverse.1 (List.mem_of_find?_eq_some found), named⟩

lemma latest?_eq_none : s.latest? id pass = none ↔ (id, pass) ∉ s.keys := by
  rw [← latest?_isSome, Option.not_isSome_iff_eq_none]

lemma WellFormed.filter_isResultOf (wf : s.WellFormed) (mem : (id, result) ∈ s.results) :
    s.results.filter (isResultOf id result.pass) = [(id, result)] := by
  have unique : (s.results.map key).Nodup := wf.unique
  generalize s.results = entries at mem unique
  induction entries with
  | nil => cases mem
  | cons entry entries ih =>
    rw [List.map_cons, List.nodup_cons] at unique
    obtain ⟨new, unique⟩ := unique
    obtain rfl | mem := List.mem_cons.1 mem
    · have none : entries.filter (isResultOf id result.pass) = [] := by
        refine List.filter_eq_nil_iff.2 fun other there same => new ?_
        exact List.mem_map.2 ⟨other, there, isResultOf_iff.1 same⟩
      have own : isResultOf id result.pass (id, result) = true := isResultOf_iff.2 rfl
      rw [List.filter_cons_of_pos own, none]
    · have other : ¬isResultOf id result.pass entry = true := fun same =>
        new ((isResultOf_iff.1 same).symm ▸ List.mem_map_of_mem mem)
      rw [List.filter_cons_of_neg other]
      exact ih mem unique

end MemoryStore

/-! ### One leg -/

section

variable {registry : PassRegistry} {leg : Leg} {x y : Station}

namespace Passes

variable {r r' : Record} {s s' : MemoryStore}

/-- What comes of a pass depends on its own results. -/
lemma of_same (passes : Passes registry r' s' leg) (id : r'.id = r.id) (path : r'.path = r.path)
    (latest : s'.latest? r.id leg.pass = s.latest? r.id leg.pass) : Passes registry r s leg := by
  cases passes with
  | placeholder hd none => exact .placeholder hd none
  | recover hd runnable kept => exact .recover hd runnable (latest.symm.trans (id ▸ kept))
  | commit hd runnable missing at_path holds =>
    exact .commit hd runnable (latest.symm.trans (id ▸ missing)) (at_path.trans path) holds
  | fail error hd runnable missing at_path =>
    exact .fail error hd runnable (latest.symm.trans (id ▸ missing)) (at_path.trans path)

lemma noBackend_iff (passes : Passes registry r s leg) :
    leg.outcome = .skipped .noBackend ↔ registry.canRun leg.pass = false := by
  cases passes with
  | placeholder hd none => simp [PassRegistry.canRun_of hd, none]
  | recover hd runnable _ => simp [PassRegistry.canRun_of hd, runnable]
  | commit hd runnable _ _ _ => simp [PassRegistry.canRun_of hd, runnable]
  | fail _ hd runnable _ _ => simp [PassRegistry.canRun_of hd, runnable]

lemma completed_or_failed (passes : Passes registry r s leg)
    (runnable : registry.canRun leg.pass = true) :
    leg.outcome = .completed ∨ ∃ reason, leg.outcome = .failed reason := by
  cases passes with
  | placeholder hd none =>
    rw [PassRegistry.canRun_of hd, none] at runnable
    cases runnable
  | recover _ _ _ => exact .inl rfl
  | commit _ _ _ _ _ => exact .inl rfl
  | fail error _ _ _ _ => exact .inr ⟨_, rfl⟩

/-- A backend is invoked for a pass that can be run and has no result. -/
lemma map_pass_log (passes : Passes registry r s leg) :
    leg.log.map Invocation.pass =
      [leg.pass].filter fun pass => registry.canRun pass && (s.latest? r.id pass).isNone := by
  cases passes with
  | placeholder hd none => simp [PassRegistry.canRun_of hd, none]
  | recover _ _ kept => simp [kept]
  | commit hd runnable missing _ _ =>
    obtain ⟨-, rfl⟩ := PassRegistry.mem_of_definition hd
    simp [PassRegistry.canRun_of hd, runnable, missing, Invocation.pass]
  | fail _ hd runnable missing _ =>
    obtain ⟨-, rfl⟩ := PassRegistry.mem_of_definition hd
    simp [PassRegistry.canRun_of hd, runnable, missing, Invocation.pass]

lemma definition_of_log (passes : Passes registry r s leg) {i : Invocation} (mem : i ∈ leg.log) :
    registry.definition i.pass = .ok i.definition ∧ i.ctx.path = r.path := by
  cases passes with
  | placeholder _ _ => cases mem
  | recover _ _ _ => cases mem
  | commit hd _ _ path _ =>
    obtain rfl := List.mem_singleton.1 mem
    obtain ⟨-, rfl⟩ := PassRegistry.mem_of_definition hd
    exact ⟨hd, path⟩
  | fail error hd _ _ path =>
    obtain rfl := List.mem_singleton.1 mem
    obtain ⟨-, rfl⟩ := PassRegistry.mem_of_definition hd
    exact ⟨hd, path⟩

lemma of_fresh (passes : Passes registry r s leg) {result : PassResult}
    (mem : result ∈ leg.fresh) :
    result.pass = leg.pass ∧ leg.outcome = .completed ∧ s.latest? r.id leg.pass = none := by
  cases passes with
  | placeholder _ _ => cases mem
  | recover _ _ _ => cases mem
  | commit _ _ missing _ holds =>
    obtain rfl := List.mem_singleton.1 mem
    exact ⟨holds.pass, rfl, missing⟩
  | fail _ _ _ _ _ => cases mem

end Passes

namespace Station

/-- A leg leaves the results of the other passes alone. -/
lemma Moves.latest? (moves : Moves leg x y) (passes : Passes registry x.current x.store leg)
    {pass : String} (ne : pass ≠ leg.pass) :
    y.store.latest? x.current.id pass = x.store.latest? x.current.id pass := by
  cases moves with
  | stay _ _ => rfl
  | settle now scores _ =>
    have none : ∀ entry ∈ (leg.fresh.map (x.current.id, ·)).reverse,
        ¬isResultOf x.current.id pass entry = true := by
      intro entry mem same
      obtain ⟨result, fresh, rfl⟩ := List.mem_map.1 (List.mem_reverse.1 mem)
      have named := (Prod.mk.inj (MemoryStore.isResultOf_iff.1 same)).2
      exact ne (named.symm.trans (passes.of_fresh fresh).1)
    rw [Station.settle]
    simp only [MemoryStore.latest?, List.reverse_append, List.find?_append,
      List.find?_eq_none.2 none, Option.none_or]

/-- The record is stored behind a leg as its worker knows it then. -/
lemma UpToDate.moves (upToDate : x.UpToDate) (passes : Passes registry x.current x.store leg)
    (moves : Moves leg x y) (free : leg.pass ∉ x.current.completed) : y.UpToDate := by
  obtain ⟨wf, stored⟩ := upToDate
  cases moves with
  | stay _ _ => exact ⟨wf, stored⟩
  | settle now scores _ =>
    obtain ⟨mem, -⟩ := MemoryStore.record?_eq_some stored
    let advanced := x.store.completed x.current.id leg.pass now
    have advances : advanced.WellFormed := wf.completed now mem free
    have stored' : advanced.record? x.current.id = some (x.current.complete leg.pass now) := by
      rw [MemoryStore.record?_completed, stored]
      rfl
    refine ⟨?_, stored'⟩
    have quiet (none : leg.fresh = []) :
        (x.settle leg.pass now leg.fresh scores).store.WellFormed := by
      rw [settle, none, List.map_nil, List.append_nil]
      exact { advances with }
    cases passes with
    | placeholder _ _ => exact quiet rfl
    | recover _ _ _ => exact quiet rfl
    | fail _ _ _ _ _ => exact quiet rfl
    | @commit pass d ctx output result _ _ missing _ holds =>
      have own : x.current.id ∈ advanced.ids := by
        rw [MemoryStore.ids_completed]
        exact MemoryStore.mem_ids mem
      have new : (x.current.id, result.pass) ∉ advanced.keys :=
        holds.pass ▸ MemoryStore.latest?_eq_none.1 missing
      exact { advances.kept own new with }

end Station

end

/-! ### Pass after pass -/

namespace Station

/-- How a record and the store come through some legs. -/
inductive Travels : List Leg → Station → Station → Prop where
  | done (x : Station) : Travels [] x x
  | next {leg legs x y z} : Moves leg x y → Travels legs y z → Travels (leg :: legs) x z

variable {leg : Leg} {legs : List Leg} {x y z : Station}

lemma Moves.own (moves : Moves leg x y) :
    y.current.id = x.current.id ∧ y.current.path = x.current.path := by
  cases moves <;> exact ⟨rfl, rfl⟩

lemma Moves.not_mem_completed (moves : Moves leg x y) {pass : String}
    (free : pass ∉ x.current.completed) (ne : pass ≠ leg.pass) : pass ∉ y.current.completed := by
  cases moves with
  | stay _ _ => exact free
  | settle _ _ _ =>
    intro mem
    obtain mem | same := List.mem_append.1 mem
    · exact free mem
    · exact ne (List.mem_singleton.1 same)

/-- The record gains the passes that are completed, and no other record changes. -/
lemma Travels.gains (travels : Travels legs x z) :
    let names := passed (legs.map Leg.report)
    ∃ now, z.current = x.current.gain names now ∧
      z.store.records =
        x.store.records.map fun r => if r.id = x.current.id then r.gain names now else r := by
  induction travels with
  | done x =>
    refine ⟨0, (Record.gain_nil _ _).symm, ?_⟩
    simp [passed, Record.gain_nil]
  | @next leg legs x y z moves _ ih =>
    obtain ⟨later, current, records⟩ := ih
    cases moves with
    | stay none _ =>
      have names : passed ((leg :: legs).map Leg.report) = passed (legs.map Leg.report) := by
        simp [passed, Leg.report, none]
      exact ⟨later, names ▸ current, names ▸ records⟩
    | settle now scores done =>
      have names : passed ((leg :: legs).map Leg.report) =
          leg.pass :: passed (legs.map Leg.report) := by
        simp [passed, Leg.report, done]
      -- the last completion sets the time, and it is this one if none follows
      refine ⟨if passed (legs.map Leg.report) = [] then now else later, ?_, ?_⟩
      · rw [names, ← Record.gain_complete]
        exact current
      · have own : (x.settle leg.pass now leg.fresh scores).current.id = x.current.id := rfl
        have advanced : (x.settle leg.pass now leg.fresh scores).store.records =
            x.store.records.map fun r =>
              if r.id = x.current.id then r.complete leg.pass now else r := rfl
        rw [records, own, advanced, names, List.map_map]
        refine List.map_congr_left fun r _ => ?_
        by_cases same : r.id = x.current.id
        · have same' : (r.complete leg.pass now).id = x.current.id := same
          simp only [Function.comp_apply, same, if_true, same', Record.gain_complete]
        · simp only [Function.comp_apply, same, if_false]

lemma Travels.results (travels : Travels legs x z) :
    z.store.results = x.store.results ++ (legs.flatMap Leg.fresh).map (x.current.id, ·) := by
  induction travels with
  | done x => exact (List.append_nil _).symm
  | @next leg legs x y z moves _ ih =>
    rw [ih, moves.own.1, List.flatMap_cons, List.map_append, ← List.append_assoc]
    cases moves with
    | stay _ none => rw [none, List.map_nil, List.append_nil]
    | settle _ _ _ => rfl

end Station

/-- A tour through some passes of a record, in legs. -/
structure Tour (registry : PassRegistry) (names : List String) (legs : List Leg)
    (x z : Station) : Prop where
  asked : legs.map Leg.pass = names
  passes : ∀ leg ∈ legs, Passes registry x.current x.store leg
  travels : Station.Travels legs x z
  upToDate : z.UpToDate

section

variable {registry : PassRegistry} {names : List String} {leg : Leg} {legs : List Leg}
  {x y z : Station}

/-- What comes of the legs behind the first one does not depend on it. -/
lemma Tour.next (passes : Passes registry x.current x.store leg) (moves : Station.Moves leg x y)
    (tour : Tour registry names legs y z) (new : leg.pass ∉ names) :
    Tour registry (leg.pass :: names) (leg :: legs) x z where
  asked := congrArg (leg.pass :: ·) tour.asked
  passes := by
    refine List.forall_mem_cons.2 ⟨passes, fun other mem => ?_⟩
    have ne : other.pass ≠ leg.pass := fun same =>
      new (tour.asked ▸ same ▸ List.mem_map_of_mem mem)
    obtain ⟨id, path⟩ := moves.own
    exact (tour.passes other mem).of_same id path (moves.latest? passes ne)
  travels := .next moves tour.travels
  upToDate := tour.upToDate

/-- A run that stands before some passes goes through them. -/
theorem Execution.tour_run {β : Type} {o : Outfit β} {job : Job} (real : job.dryRun = false)
    (calm : ∀ w, o.isCancelled w = false)
    (sound : o.Answers fun _ _ reply => ∀ text, reply ≠ .panic text) {e : Execution}
    {w : World (β × List Invocation)} (hr : e.remaining = names) (hp : e.phase = .deciding)
    (upToDate : Station.UpToDate ⟨e.current, w.store⟩) (nodup : names.Nodup)
    (free : ∀ pass ∈ names, pass ∉ e.current.completed)
    (defined : ∀ pass ∈ names, ∃ d, job.registry.definition pass = .ok d) :
    ∃ legs z run after, Tour job.registry names legs ⟨e.current, w.store⟩ z ∧
      run.outcomes = e.report.outcomes ++ legs.map Leg.report ∧
      run.completed = z.current.completed ∧
      e.run o.logged.environment job w = (.finished run,
        { store := z.store, claimed := w.claimed,
          rest := (after, w.rest.2 ++ legs.flatMap Leg.log) }) := by
  induction names generalizing e w with
  | nil =>
    let run := { e.report with completed := e.current.completed }
    have ends : e.step o.logged.environment job w = (.finished run, w) := by
      simp only [step, hr, run]
    have tour : Tour job.registry [] [] ⟨e.current, w.store⟩ ⟨e.current, w.store⟩ :=
      ⟨rfl, List.forall_mem_nil _, .done _, upToDate⟩
    refine ⟨[], _, run, w.rest.1, tour, (List.append_nil _).symm, rfl, ?_⟩
    rw [run_ended ends fun _ goesOn => WorkerState.noConfusion goesOn, List.flatMap_nil,
      List.append_nil]
  | cons pass names ih =>
    obtain ⟨new, nodup'⟩ := List.nodup_cons.1 nodup
    have unfinished := free pass List.mem_cons_self
    obtain ⟨d, hd⟩ := defined pass List.mem_cons_self
    obtain ⟨leg, ⟨current, store⟩, rfl, passes, moves, e', after, stands, runs⟩ :=
      passes_run hr hp upToDate unfinished hd calm real sound
    have upToDate' := upToDate.moves passes moves unfinished
    have free' : ∀ other ∈ names, other ∉ current.completed := by
      intro other mem
      have ne : other ≠ leg.pass := fun same => new (same ▸ mem)
      exact moves.not_mem_completed (free other (List.mem_cons_of_mem _ mem)) ne
    -- the legs that follow are told from the store behind this one, and `Tour.next` tells them
    -- from the store before it
    obtain ⟨phase, remaining, rfl, reported⟩ := stands
    obtain ⟨legs, z, run, later, tour, outcomes, told, ends⟩ := ih
      (w := ⟨store, w.claimed, after, w.rest.2 ++ leg.log⟩) remaining phase upToDate' nodup' free'
      fun pass mem => defined pass (List.mem_cons_of_mem _ mem)
    refine ⟨leg :: legs, z, run, later, tour.next passes moves new, ?_, told, ?_⟩
    · rw [outcomes, reported, List.append_assoc]
      rfl
    · rw [runs, ends, List.flatMap_cons, List.append_assoc]

/-! ### What is settled -/

lemma mem_passed {outcomes : List PassReport} {pass : String} :
    pass ∈ passed outcomes ↔ ⟨pass, .completed⟩ ∈ outcomes := by
  rw [passed, List.mem_map]
  constructor
  · rintro ⟨⟨pass, outcome⟩, mem, rfl⟩
    obtain ⟨mem, done⟩ := List.mem_filter.1 mem
    cases outcome with
    | completed => exact mem
    | failed _ => cases done
    | skipped _ => cases done
  · exact fun mem => ⟨_, List.mem_filter.2 ⟨mem, rfl⟩, rfl⟩

/-- Where each pass is reported once, those that are not completed are left of all. -/
lemma filter_not_passed {outcomes : List PassReport}
    (nodup : (outcomes.map PassReport.pass).Nodup) :
    (outcomes.map PassReport.pass).filter (fun pass => !(passed outcomes).contains pass) =
      (outcomes.filter fun o => !o.outcome.isCompleted).map PassReport.pass := by
  rw [List.filter_map]
  refine congrArg (List.map PassReport.pass) (List.filter_congr fun o mem => ?_)
  have agree : (passed outcomes).contains o.pass = o.outcome.isCompleted := by
    rw [Bool.eq_iff_iff, List.contains_iff_mem]
    constructor
    · intro done
      have same := List.inj_on_of_nodup_map nodup (mem_passed.1 done) mem rfl
      exact same ▸ rfl
    · exact fun done => List.mem_map.2 ⟨o, List.mem_filter.2 ⟨mem, done⟩, rfl⟩
  rw [Function.comp_apply, agree]

lemma Record.missing_gain (r : Record) (names order : List String) (now : Timestamp) :
    (r.gain names now).missing order =
      (r.missing order).filter fun pass => !names.contains pass := by
  simp only [missing, List.filter_filter]
  refine List.filter_congr fun pass _ => ?_
  simp [hasCompleted, gain, Bool.and_comm]

/-- What a run does with a record, which is another one afterwards, and with its store, which is
another one too, what it reports, and which backends it invokes. -/
structure Settlement (registry : PassRegistry) (r r' : Record) (s t : MemoryStore) (run : RecordRun)
    (log : List Invocation) : Prop where
  /-- The outcomes are those of the passes that were missing, in order. -/
  asked : run.outcomes.map PassReport.pass = r.missing registry.order
  placeholders : ∀ o ∈ run.outcomes,
    o.outcome = .skipped .noBackend ↔ registry.canRun o.pass = false
  others : ∀ o ∈ run.outcomes, registry.canRun o.pass = true →
    o.outcome = .completed ∨ ∃ reason, o.outcome = .failed reason
  gained : ∃ now, r' = r.gain (passed run.outcomes) now
  told : run.completed = r'.completed
  records : t.records = s.records.map fun row => if row.id = r.id then r' else row
  /-- A backend is invoked for each missing pass that can be run and has no result, once and in
  order. -/
  invoked : log.map Invocation.pass = (r.missing registry.order).filter fun pass =>
    registry.canRun pass && (s.latest? r.id pass).isNone
  called : ∀ i ∈ log, registry.definition i.pass = .ok i.definition ∧ i.ctx.path = r.path
  results : ∃ fresh : List PassResult, t.results = s.results ++ fresh.map (r.id, ·) ∧
    ∀ result ∈ fresh, ⟨result.pass, .completed⟩ ∈ run.outcomes ∧
      s.latest? r.id result.pass = none
  /-- A completed pass has one result, which is the one that was kept already, or else what its
  backend put out. -/
  completed : ∀ pass, ⟨pass, .completed⟩ ∈ run.outcomes →
    ∃ result, t.results.filter (isResultOf r.id pass) = [(r.id, result)] ∧
      (s.latest? r.id pass = some result ∨
        s.latest? r.id pass = none ∧ ∃ i ∈ log, i.pass = pass ∧
          ∃ output, i.reply = .output output ∧ result.Holds pass output)
  /-- A failed pass has no result, and its backend said why. -/
  failed : ∀ pass reason, ⟨pass, .failed reason⟩ ∈ run.outcomes →
    t.results.filter (isResultOf r.id pass) = [] ∧
      ∃ i ∈ log, i.pass = pass ∧ ∃ error, i.reply = .error error ∧ reason = error.message
  /-- The record still lacks the passes that are not reported as completed. -/
  missing : r'.missing registry.order =
    (run.outcomes.filter fun o => !o.outcome.isCompleted).map PassReport.pass

namespace Tour

lemma map_pass_log (tour : Tour registry names legs x z) :
    (legs.flatMap Leg.log).map Invocation.pass = names.filter fun pass =>
      registry.canRun pass && (x.store.latest? x.current.id pass).isNone := by
  obtain ⟨rfl, passes, -, -⟩ := tour
  clear * - passes
  induction legs with
  | nil => rfl
  | cons leg legs ih =>
    obtain ⟨first, passes⟩ := List.forall_mem_cons.1 passes
    rw [List.flatMap_cons, List.map_append, first.map_pass_log, ih passes, ← List.filter_append]
    rfl

lemma exists_leg (tour : Tour registry names legs x z) {o : PassReport}
    (mem : o ∈ legs.map Leg.report) :
    ∃ leg ∈ legs, leg.report = o ∧ Passes registry x.current x.store leg := by
  obtain ⟨leg, there, rfl⟩ := List.mem_map.1 mem
  exact ⟨leg, there, rfl, tour.passes leg there⟩

lemma mem_results (tour : Tour registry names legs x z) {leg : Leg} (mem : leg ∈ legs)
    {result : PassResult} (fresh : result ∈ leg.fresh) :
    (x.current.id, result) ∈ z.store.results := by
  rw [tour.travels.results]
  refine List.mem_append_right _ (List.mem_map_of_mem ?_)
  exact List.mem_flatMap_of_mem mem fresh

/-- Without a result before, and without a new one, there is none behind the tour. -/
lemma filter_results (tour : Tour registry names legs x z) (nodup : names.Nodup) {leg : Leg}
    (mem : leg ∈ legs) (missing : x.store.latest? x.current.id leg.pass = none)
    (none : leg.fresh = []) :
    z.store.results.filter (isResultOf x.current.id leg.pass) = [] := by
  rw [tour.travels.results, List.filter_append, List.append_eq_nil_iff, List.filter_eq_nil_iff,
    List.filter_eq_nil_iff]
  constructor
  · intro entry there same
    refine MemoryStore.latest?_eq_none.1 missing ?_
    exact List.mem_map.2 ⟨entry, there, MemoryStore.isResultOf_iff.1 same⟩
  · intro entry there same
    obtain ⟨result, added, rfl⟩ := List.mem_map.1 there
    obtain ⟨other, mem', fresh⟩ := List.mem_flatMap.1 added
    have named := (Prod.mk.inj (MemoryStore.isResultOf_iff.1 same)).2
    have same : other.pass = leg.pass :=
      ((tour.passes other mem').of_fresh fresh).1.symm.trans named
    -- no pass is gone through twice, so the new result is one of this leg
    obtain rfl := List.inj_on_of_nodup_map (tour.asked ▸ nodup) mem' mem same
    rw [none] at fresh
    cases fresh

/-- A completed pass has one result, which was kept already, or else is what its backend put out. -/
lemma result_of_completed (tour : Tour registry names legs x z) {pass : String}
    (mem : ⟨pass, .completed⟩ ∈ legs.map Leg.report) :
    ∃ result, z.store.results.filter (isResultOf x.current.id pass) = [(x.current.id, result)] ∧
      (x.store.latest? x.current.id pass = some result ∨
        x.store.latest? x.current.id pass = none ∧ ∃ i ∈ legs.flatMap Leg.log, i.pass = pass ∧
          ∃ output, i.reply = .output output ∧ result.Holds pass output) := by
  obtain ⟨leg, there, same, passes⟩ := tour.exists_leg mem
  cases passes with
  | placeholder _ _ => cases same
  | fail _ _ _ _ _ => cases same
  | @recover pass d result _ _ kept =>
    cases same
    obtain ⟨old, named⟩ := MemoryStore.mem_of_latest? kept
    have stays : (x.current.id, result) ∈ z.store.results := by
      rw [tour.travels.results]
      exact List.mem_append_left _ old
    exact ⟨result, named ▸ tour.upToDate.wellFormed.filter_isResultOf stays, .inl kept⟩
  | @commit pass d ctx output result hd _ missing _ holds =>
    cases same
    have fresh := tour.mem_results there (List.mem_singleton_self result)
    have logged := List.mem_flatMap_of_mem (f := Leg.log) there (List.mem_singleton_self _)
    refine ⟨result, holds.pass ▸ tour.upToDate.wellFormed.filter_isResultOf fresh, .inr ?_⟩
    exact ⟨missing, _, logged, (PassRegistry.mem_of_definition hd).2, output, rfl, holds⟩

/-- A failed pass has no result, and its backend said why. -/
lemma result_of_failed (tour : Tour registry names legs x z) (nodup : names.Nodup)
    {pass reason : String} (mem : ⟨pass, .failed reason⟩ ∈ legs.map Leg.report) :
    z.store.results.filter (isResultOf x.current.id pass) = [] ∧
      ∃ i ∈ legs.flatMap Leg.log, i.pass = pass ∧
        ∃ error, i.reply = .error error ∧ reason = error.message := by
  obtain ⟨leg, there, same, passes⟩ := tour.exists_leg mem
  cases passes with
  | placeholder _ _ => cases same
  | recover _ _ _ => cases same
  | commit _ _ _ _ _ => cases same
  | @fail pass d ctx error hd _ missing _ =>
    cases same
    have logged := List.mem_flatMap_of_mem (f := Leg.log) there (List.mem_singleton_self _)
    refine ⟨tour.filter_results nodup there missing rfl, ?_⟩
    exact ⟨_, logged, (PassRegistry.mem_of_definition hd).2, error, rfl, rfl⟩

lemma of_fresh (tour : Tour registry names legs x z) {result : PassResult}
    (mem : result ∈ legs.flatMap Leg.fresh) :
    ⟨result.pass, .completed⟩ ∈ legs.map Leg.report ∧
      x.store.latest? x.current.id result.pass = none := by
  obtain ⟨leg, there, fresh⟩ := List.mem_flatMap.1 mem
  obtain ⟨named, done, missing⟩ := (tour.passes leg there).of_fresh fresh
  refine ⟨List.mem_map.2 ⟨leg, there, ?_⟩, named.symm ▸ missing⟩
  rw [Leg.report, named, done]

theorem settles (tour : Tour registry (x.current.missing registry.order) legs x z)
    (nodup : registry.order.Nodup) (upToDate : x.UpToDate) {run : RecordRun}
    (outcomes : run.outcomes = legs.map Leg.report)
    (told : run.completed = z.current.completed) :
    Settlement registry x.current z.current x.store z.store run (legs.flatMap Leg.log) := by
  obtain ⟨now, gained, records⟩ := tour.travels.gains
  rw [← outcomes] at gained records
  have nodup' : (x.current.missing registry.order).Nodup := nodup.filter _
  have asked : run.outcomes.map PassReport.pass = x.current.missing registry.order := by
    rw [outcomes, List.map_map]
    exact tour.asked
  refine {
    asked, told
    placeholders := fun o mem => ?_
    others := fun o mem => ?_
    gained := ⟨now, gained⟩
    records := ?_
    invoked := tour.map_pass_log
    called := fun i mem => ?_
    results := ⟨_, tour.travels.results, fun result mem => outcomes ▸ tour.of_fresh mem⟩
    completed := fun pass mem => tour.result_of_completed (outcomes ▸ mem)
    failed := fun pass reason mem => tour.result_of_failed nodup' (outcomes ▸ mem)
    missing := ?_ }
  · obtain ⟨leg, -, rfl, passes⟩ := tour.exists_leg (outcomes ▸ mem)
    exact passes.noBackend_iff
  · obtain ⟨leg, -, rfl, passes⟩ := tour.exists_leg (outcomes ▸ mem)
    exact passes.completed_or_failed
  · obtain ⟨wf, stored⟩ := upToDate
    obtain ⟨there, -⟩ := MemoryStore.record?_eq_some stored
    rw [records]
    refine List.map_congr_left fun row mem => ?_
    split
    · next same => rw [gained, wf.eq_of_id mem there same]
    · rfl
  · obtain ⟨leg, there, mem⟩ := List.mem_flatMap.1 mem
    exact (tour.passes leg there).definition_of_log mem
  · rw [gained, Record.missing_gain, ← asked]
    exact filter_not_passed (asked ▸ nodup')

end Tour

/-- A worker is handed a live record as it is stored and goes through what the record lacks of an
accepted pipeline, while nobody else writes to the store, nobody asks the worker to stop, and no
backend breaks down. The worker is through at some time, and has settled all of it. -/
theorem runMissing_settles {β : Type} {cfg : Config} {job : Job}
    (accepted : PassRegistry.ofConfig cfg = .ok job.registry) (real : job.dryRun = false)
    (history : List (Timestamp × Request Record RecordId)) {r : Record}
    (live : r ∈ (Request.performAll MemoryStore.operations history {}).records) {o : Outfit β}
    (calm : ∀ w, o.isCancelled w = false)
    (sound : o.Answers fun _ _ reply => ∀ text, reply ≠ .panic text) (claimed : List RecordId)
    (rest : β) :
    let s := Request.performAll MemoryStore.operations history {}
    ∃ run r' t after log,
      runMissing o.environment job r ⟨s, claimed, rest⟩ = (.finished run, ⟨t, claimed, after⟩) ∧
      runMissing o.logged.environment job r ⟨s, claimed, (rest, [])⟩ =
        (.finished run, ⟨t, claimed, (after, log)⟩) ∧
      Settlement job.registry r r' s t run log := by
  intro s
  obtain ⟨wf, -⟩ := MemoryStore.performAll_wellFormed MemoryStore.wellFormed_empty history
  have nodup := PassRegistry.nodup_of_ofConfig accepted
  have upToDate : Station.UpToDate ⟨r, s⟩ := ⟨wf, wf.record?_of_mem live⟩
  have lacking {pass : String} (mem : pass ∈ r.missing job.registry.order) :
      pass ∈ job.registry.order ∧ pass ∉ r.completed := by
    obtain ⟨mem, free⟩ := List.mem_filter.1 mem
    exact ⟨mem, by simpa [Record.hasCompleted] using free⟩
  have defined : ∀ pass ∈ r.missing job.registry.order,
      ∃ d, job.registry.definition pass = .ok d := by
    intro pass mem
    obtain ⟨d, there, rfl⟩ := List.mem_map.1 (lacking mem).1
    exact ⟨d, PassRegistry.definition_of_mem nodup there⟩
  obtain ⟨legs, z, run, after, tour, outcomes, told, ends⟩ := Execution.tour_run real calm sound
    (e := .start r job.registry.order) (w := ⟨s, claimed, (rest, [])⟩) rfl rfl upToDate
    (nodup.filter _) (fun _ mem => (lacking mem).2) defined
  have bare := Execution.run_logged o job (.start r job.registry.order) ⟨s, claimed, (rest, [])⟩
  rw [ends] at bare
  refine ⟨run, z.current, z.store, after, legs.flatMap Leg.log, bare, ends, ?_⟩
  exact tour.settles nodup upToDate outcomes told

/-- Behind a placeholder a result is recovered that was kept, the next backend yields one, and the
last one fails. -/
theorem runMissing_settles_of_four :
    let tool : PassConfig := { backend := .staticTool, command := some "tool" }
    let cfg : Config :=
      { db := ⟨""⟩
        pipeline := { order := ["manual", "doc", "style", "lint"] }
        passes := [("manual", { backend := .none }), ("doc", tool), ("style", tool), ("lint", tool)] }
    let works (name : String) (position : Nat) : PassDefinition :=
      ⟨name, position, .staticTool ⟨"tool", [], .json, 120000, [0]⟩, .raw, none⟩
    let registry : PassRegistry :=
      { definitions :=
          [⟨"manual", 0, .none, .raw, none⟩, works "doc" 1, works "style" 2, works "lint" 3]
        scoringPass := none
        scoreFields := defaultScoreFields }
    let job : Job := ⟨registry, "", "run", false⟩
    let new : NewRecord := ⟨"a", none, "", "", .null⟩
    let r := Record.ofNew 1 new 0
    let history : List (Timestamp × Request Record RecordId) :=
      [(0, .upsert new), (0, .recordResult r ⟨"doc", "", .text "kept", none, 0, 0⟩)]
    let s := Request.performAll MemoryStore.operations history {}
    let o := Outfit.replying fun d _ =>
      if d.name = "lint" then .error (.unavailable "lint" "gone")
      else .output ⟨"", .text "clean", none⟩
    PassRegistry.ofConfig cfg = .ok job.registry ∧ job.dryRun = false ∧ r ∈ s.records ∧
      (∀ w, o.isCancelled w = false) ∧
      o.Answers (fun _ _ reply => ∀ text, reply ≠ .panic text) ∧
      ∃ run r' t log, runMissing o.environment job r ⟨s, [], ()⟩ = (.finished run, ⟨t, [], ()⟩) ∧
        Settlement job.registry r r' s t run log ∧
        run.outcomes = [⟨"manual", .skipped .noBackend⟩, ⟨"doc", .completed⟩,
          ⟨"style", .completed⟩, ⟨"lint", .failed "lint backend unavailable: gone"⟩] ∧
        log.map Invocation.pass = ["style", "lint"] ∧ r'.completed = ["doc", "style"] ∧
        r'.missing registry.order = ["manual", "lint"] := by
  intro tool cfg works registry job new r history s o
  have accepted : PassRegistry.ofConfig cfg = .ok job.registry := by rfl
  have live : r ∈ s.records := List.mem_singleton_self _
  have sound : o.Answers fun _ _ reply => ∀ text, reply ≠ .panic text := by
    intro d ctx w reply mem text panics
    have eq := Outfit.answers_replying _ d ctx w reply mem
    rw [panics] at eq
    split at eq <;> cases eq
  obtain ⟨run, r', t, ⟨⟩, log, ends, -, settles⟩ :=
    runMissing_settles accepted rfl history live (fun _ => rfl) sound [] ()
  obtain ⟨run', ended, outcomes⟩ : ∃ run',
      ((WorkerState.running (.start r job.registry.order)).follow o job ⟨s, [], ()⟩
        (List.replicate 20 ())).1 = .finished run' ∧
      run'.outcomes = [⟨"manual", .skipped .noBackend⟩, ⟨"doc", .completed⟩,
        ⟨"style", .completed⟩, ⟨"lint", .failed "lint backend unavailable: gone"⟩] :=
    ⟨_, rfl, rfl⟩
  have runs := congrArg Prod.fst ((Execution.run_of_follow 20 ended).symm.trans ends)
  obtain rfl : run = run' := WorkerState.finished.inj (runs.symm.trans ended)
  obtain ⟨now, gained⟩ := settles.gained
  refine ⟨accepted, rfl, live, fun _ => rfl, sound, run, r', t, log, ends, settles, outcomes,
    ?_, ?_, ?_⟩
  · rw [settles.invoked]
    decide +kernel
  · rw [gained, outcomes]
    rfl
  · rw [settles.missing, outcomes]
    rfl

end

end Multipass
