import Multipass.Proofs.Batch.Company
import Multipass.Proofs.Executor.Cancellation
import Multipass.Proofs.Executor.Honesty
import Multipass.Proofs.Executor.InStep

/-!
# Shutdown

A batch that is asked to stop at some moment, while others use the store. Each worker that was past
its check starts one invocation more at most, and nobody else starts any. What a worker has not come
to is reported as cancelled, behind all that it has done; what is reported as completed is there with
its result; and what is reported as cancelled was not added.

Main statements: `calls_late`, `Accountable.run`, and `shutdown_settles`.
-/

namespace Multipass.Batch

variable {β : Type} {o : Outfit β} {job : Job} {options : RunOptions} {b b' : Batch}
  {w w' : World β} {stop : Bool} {move : Move}

/-- The workers that end with what happens. -/
def endings (o : Outfit β) (job : Job) (options : RunOptions) (scene : Batch × World β) :
    Happening β → List Finished
  | .move move => (meet o job options scene (.move move)).1.ended.drop scene.1.ended.length
  | _ => []

/-- The passes that a worker adds to records with what happens. -/
def added (o : Outfit β) (job : Job) (options : RunOptions) (scene : Batch × World β) :
    Happening β → List (RecordId × String)
  | .move move => scene.2.store.additions (meet o job options scene (.move move)).2.store
  | _ => []

/-- The workers that end along all that happens. -/
def endedAlong (o : Outfit β) (job : Job) (options : RunOptions) (scene : Batch × World β)
    (happenings : List (Happening β)) : List Finished :=
  along o job options (endings o job options) scene happenings

/-- The passes that workers add to records along all that happens. -/
def addedAlong (o : Outfit β) (job : Job) (options : RunOptions) (scene : Batch × World β)
    (happenings : List (Happening β)) : List (RecordId × String) :=
  along o job options (added o job options) scene happenings

/-! ### Workers by number -/

/-- Holds when workers have different numbers, below those that are free. -/
structure Numbered (b : Batch) : Prop where
  nodup : (b.working.map Worker.number).Nodup
  below : ∀ worker ∈ b.working, worker.number < b.nextWorker

lemma numbered_called (options : RunOptions) (w : World β) :
    (called job options w).1.Numbered :=
  ⟨List.nodup_nil, fun _ mem => absurd mem List.not_mem_nil⟩

lemma Numbered.goes (numbered : b.Numbered) (goes : Goes o job b w move b' w') : b'.Numbered := by
  cases goes with
  | coordinate working next _ _ =>
    refine ⟨working ▸ numbered.nodup, ?_⟩
    rw [working, next]
    exact numbered.below
  | @hire record rest _ =>
    have below : ∀ worker ∈ b.working, worker.number < b.nextWorker + 1 := fun worker mem =>
      Nat.lt_succ_of_lt (numbered.below worker mem)
    refine ⟨?_, ?_⟩
    · show ((b.working ++ [_]).map Worker.number).Nodup
      rw [List.map_append, List.map_singleton, ← List.concat_eq_append]
      refine numbered.nodup.concat ?_
      intro mem
      obtain ⟨worker, mem, eq⟩ := List.mem_map.1 mem
      exact Nat.ne_of_lt (numbered.below worker mem) eq
    · intro worker mem
      obtain mem | mem := List.mem_append.1 mem
      · exact below worker mem
      · rw [List.mem_singleton.1 mem]
        exact Nat.lt_succ_self _
  | @proceed place worker e' hw step =>
    -- The worker keeps its number.
    have before := perm_working hw
    have after := perm_proceed hw e'
    refine ⟨?_, fun other mem => ?_⟩
    · rw [(after.map Worker.number).nodup_iff]
      exact (before.map Worker.number).nodup_iff.1 numbered.nodup
    · obtain rfl | mem := List.mem_cons.1 (after.mem_iff.1 mem)
      · exact numbered.below worker (before.mem_iff.2 List.mem_cons_self)
      · exact numbered.below other (before.mem_iff.2 (List.mem_cons_of_mem _ mem))
  | @dismiss place worker ending hw step =>
    have sub := List.eraseIdx_sublist b.working place
    exact ⟨numbered.nodup.sublist (sub.map _), fun other mem => numbered.below other (sub.subset mem)⟩

lemma Numbered.meet (numbered : b.Numbered) (happening : Happening β) :
    (meet o job options (b, w) happening).1.Numbered := by
  cases happening with
  | move move =>
    simp only [Batch.meet]
    cases h : b.step o.workshop job options w move with
    | none => exact numbered
    | some next => exact numbered.goes (goes_step h)
  | _ => exact numbered

lemma Numbered.amid (numbered : b.Numbered) (happenings : List (Happening β)) :
    (amid o job options (b, w) happenings).1.Numbered := by
  induction happenings generalizing b w with
  | nil => exact numbered
  | cons happening happenings ih => exact ih (numbered.meet happening)

/-! ### Calls behind the request to stop -/

/-- Holds of a worker that is about to start an invocation: it is past its check of the pass. -/
structure Stands (call : Nat × RecordId × String) (worker : Worker) : Prop where
  number : worker.number = call.1
  checked : worker.execution.phase.isChecked = true
  pass : worker.execution.remaining.head? = some call.2.2
  record : worker.execution.current.id = call.2.1

/-- Who starts an invocation stands before it. -/
lemma stands_of_calls {happening : Happening β} {call : Nat × RecordId × String}
    (mem : call ∈ calls (b, w) happening) : ∃ worker ∈ b.working, Stands call worker := by
  cases happening with
  | move move =>
    cases move with
    | coordinator => cases mem
    | worker place =>
      simp only [calls] at mem
      split at mem
      · next worker hw =>
        obtain ⟨k, memk, rfl⟩ := List.mem_map.1 mem
        obtain ⟨checked, pass, record⟩ := Execution.of_starts memk
        exact ⟨worker, List.mem_of_getElem? hw, rfl, checked, pass, record⟩
      · cases mem
  | _ => cases mem

lemma calls_eq {place : Nat} {worker : Worker} (hw : b.working[place]? = some worker) :
    calls (b, w) (.move (.worker place)) =
      worker.execution.starts.map fun k => (worker.number, k) := by
  simp only [calls, hw]

lemma calls_of_stuck (stuck : b.step o.workshop job options w move = none) :
    calls (b, w) (.move move) = [] := by
  cases move with
  | coordinator => rfl
  | worker place =>
    simp only [step] at stuck
    split at stuck
    · cases stuck
    · next hw => simp only [calls, hw]

lemma Numbered.ne (numbered : b.Numbered) {place : Nat} {worker other : Worker}
    (hw : b.working[place]? = some worker) (mem : other ∈ b.working.eraseIdx place) :
    other.number ≠ worker.number := by
  have nodup := ((perm_working hw).map Worker.number).nodup_iff.1 numbered.nodup
  intro eq
  exact (List.nodup_cons.1 nodup).1 (eq ▸ List.mem_map_of_mem mem)

/-- What a step of a worker does that is asked to stop and stands before an invocation behind it. -/
lemma checked_of_step (asked : ∀ w, o.isCancelled w = true) (ordered : w.store.ScoresOrdered)
    {e e' : Execution} (step : (e.step o.environment job w).1 = .running e')
    (checked : e'.phase.isChecked = true) :
    e.phase.isChecked = true ∧ e.starts = [] ∧ e'.remaining = e.remaining ∧
      e'.current.id = e.current.id := by
  have answers : o.Answers fun _ _ _ => True := fun _ _ _ _ _ => trivial
  have rule := Execution.rule_step answers job e ordered
  rw [asked w, step] at rule
  have back := Execution.checked_step rule (by
    rw [Execution.phase_plain, Phase.isChecked_plain]
    exact checked)
  rwa [Execution.phase_plain, Phase.isChecked_plain, Execution.starts_plain] at back

/-- A worker of a batch that is asked to stop stands before an invocation only if it did so before,
and did not start it. -/
lemma stands_goes (asked : ∀ w, o.isCancelled w = true) (numbered : b.Numbered)
    (ordered : w.store.ScoresOrdered) (goes : Goes o job b w move b' w')
    {call : Nat × RecordId × String} {worker' : Worker} (mem : worker' ∈ b'.working)
    (stands : Stands call worker') :
    (∃ worker ∈ b.working, Stands call worker) ∧
      call.1 ∉ (calls (b, w) (.move move)).map Prod.fst := by
  -- A worker that does not move stays, and the number of the call is not its own.
  have stays {place : Nat} {worker : Worker} (hw : b.working[place]? = some worker)
      (mem : worker' ∈ b.working.eraseIdx place) :
      (∃ worker ∈ b.working, Stands call worker) ∧
        call.1 ∉ (calls (b, w) (.move (.worker place))).map Prod.fst := by
    refine ⟨⟨worker', (perm_working hw).mem_iff.2 (List.mem_cons_of_mem _ mem), stands⟩, ?_⟩
    rw [calls_eq hw, List.map_map]
    intro called
    obtain ⟨k, -, eq⟩ := List.mem_map.1 called
    exact numbered.ne hw mem (stands.number.trans eq.symm)
  cases goes with
  | coordinate working _ _ _ => exact ⟨⟨worker', working ▸ mem, stands⟩, List.not_mem_nil⟩
  | hire _ =>
    refine ⟨?_, List.not_mem_nil⟩
    obtain mem | mem := List.mem_append.1 mem
    · exact ⟨worker', mem, stands⟩
    · have checked := stands.checked
      rw [List.mem_singleton.1 mem] at checked
      cases checked
  | @proceed place worker e' hw step =>
    obtain rfl | mem := List.mem_cons.1 ((perm_proceed hw e').mem_iff.1 mem)
    · obtain ⟨checked, idle, same, id⟩ := checked_of_step asked ordered step stands.checked
      refine ⟨⟨worker, List.mem_of_getElem? hw, ?_⟩, ?_⟩
      · exact ⟨stands.number, checked, same ▸ stands.pass, id ▸ stands.record⟩
      · rw [calls_eq hw, idle]
        exact List.not_mem_nil
    · exact stays hw mem
  | dismiss hw step => exact stays hw mem

lemma stands_meet (asked : ∀ w, o.isCancelled w = true) (numbered : b.Numbered)
    (ordered : w.store.ScoresOrdered) (happening : Happening β) {call : Nat × RecordId × String}
    {worker' : Worker} (mem : worker' ∈ (meet o job options (b, w) happening).1.working)
    (stands : Stands call worker') :
    (∃ worker ∈ b.working, Stands call worker) ∧
      call.1 ∉ (calls (b, w) happening).map Prod.fst := by
  cases happening with
  | move move =>
    simp only [meet] at mem
    cases h : b.step o.workshop job options w move with
    | none =>
      rw [h] at mem
      refine ⟨⟨worker', mem, stands⟩, ?_⟩
      rw [calls_of_stuck h]
      exact List.not_mem_nil
    | some next =>
      rw [h] at mem
      exact stands_goes asked numbered ordered (goes_step h) mem stands
  | _ => exact ⟨⟨worker', mem, stands⟩, List.not_mem_nil⟩

lemma calls_nodup (scene : Batch × World β) (happening : Happening β) :
    ((calls scene happening).map Prod.fst).Nodup := by
  obtain ⟨b, w⟩ := scene
  cases happening with
  | move move =>
    cases move with
    | coordinator => exact List.nodup_nil
    | worker place =>
      simp only [calls]
      split
      · next worker _ =>
        have le := worker.execution.starts_length_le
        match worker.execution.starts, le with
        | [], _ => exact List.nodup_nil
        | [k], _ => exact List.nodup_singleton _
      · exact List.nodup_nil
  | _ => exact List.nodup_nil

lemma scoresOrdered_meet (ordered : w.store.ScoresOrdered) (happening : Happening β) :
    (meet o job options (b, w) happening).2.store.ScoresOrdered := by
  cases happening with
  | move move =>
    simp only [meet]
    cases h : b.step o.workshop job options w move with
    | none => exact ordered
    | some next => exact (goes_step h).scoresOrdered ordered
  | request now request => exact ordered.perform now request
  | _ => exact ordered

/-- Once a batch is asked to stop, each worker that stands before an invocation starts it once at
most, and nobody else starts any. -/
theorem calls_late (asked : ∀ w, o.isCancelled w = true) (numbered : b.Numbered)
    (ordered : w.store.ScoresOrdered) (happenings : List (Happening β)) :
    ((callsAlong o job options (b, w) happenings).map Prod.fst).Nodup ∧
      ∀ call ∈ callsAlong o job options (b, w) happenings, ∃ worker ∈ b.working, Stands call worker := by
  induction happenings generalizing b w with
  | nil => exact ⟨List.nodup_nil, nofun⟩
  | cons happening happenings ih =>
    obtain ⟨nodup, later⟩ := ih (b := (meet o job options (b, w) happening).1)
      (numbered.meet happening) (scoresOrdered_meet ordered happening)
    -- Who stands before a later call stood before it already, and did not start it.
    have before : ∀ call ∈ callsAlong o job options (meet o job options (b, w) happening) happenings,
        (∃ worker ∈ b.working, Stands call worker) ∧
          call.1 ∉ (calls (b, w) happening).map Prod.fst := by
      intro call mem
      obtain ⟨worker', mem', stands⟩ := later call mem
      exact stands_meet asked numbered ordered happening mem' stands
    refine ⟨?_, ?_⟩
    · show ((calls (b, w) happening ++ callsAlong o job options _ happenings).map Prod.fst).Nodup
      rw [List.map_append]
      refine (calls_nodup (b, w) happening).append nodup ?_
      intro n mem mem'
      obtain ⟨call, memCall, rfl⟩ := List.mem_map.1 mem'
      exact (before call memCall).2 mem
    · intro call mem
      obtain mem | mem := List.mem_append.1 mem
      · exact stands_of_calls mem
      · exact (before call mem).1

/-! ### Affairs of a batch in company -/

/-- What holds of a record that a batch took, with its worker as it stands. -/
structure Settled (stop : Bool) (added : List (RecordId × String)) (s : MemoryStore)
    (x : Record × WorkerState) : Prop where
  label : (x.1.id, x.1.path) ∈ s.labels
  on : x.2.IsOn x.1.id x.1.path
  honest : x.2.Honest x.1.id added s
  orderly : x.2.plain.Orderly stop

/-- What holds of the affairs of a batch whose workers have added some passes. -/
structure Accountable (stop : Bool) (added : List (RecordId × String)) (s : MemoryStore)
    (xs : List (Record × WorkerState)) : Prop where
  wellFormed : s.WellFormed
  ordered : s.ScoresOrdered
  nodup : (xs.map fun x => x.1.id).Nodup
  each : ∀ x ∈ xs, Settled stop added s x

section

variable {more : List (RecordId × String)} {s s' : MemoryStore} {c : MemoryStore.Gain}
  {xs ys : List (Record × WorkerState)} {gone : List Finished}
  {sofar : List (RecordId × String)}

lemma Accountable.of_subperm (accountable : Accountable stop sofar s xs) (sub : ys.Subperm xs) :
    Accountable stop sofar s ys :=
  { accountable with
    nodup := by
      obtain ⟨zs, perm, sub⟩ := sub
      exact (perm.map _).nodup_iff.1 (accountable.nodup.sublist (sub.map _))
    each := fun x mem => accountable.each x (sub.subset mem) }

/-- The flag may be set at any time. -/
lemma Accountable.asked (accountable : Accountable false sofar s xs) (stop : Bool) :
    Accountable stop sofar s xs :=
  { accountable with
    each := fun x mem =>
      let settled := accountable.each x mem
      { settled with orderly := settled.orderly.asked stop } }

/-- What others do leaves the affairs in order. -/
lemma Accountable.change (accountable : Accountable stop sofar s xs)
    (change : MemoryStore.Change s c s') (labels : s.labels ⊆ s'.labels)
    (ordered : s'.ScoresOrdered) : Accountable stop sofar s' xs where
  wellFormed := change.wellFormed accountable.wellFormed
  ordered := ordered
  nodup := accountable.nodup
  each := fun x mem =>
    let settled := accountable.each x mem
    { settled with
      label := labels settled.label
      honest := settled.honest.change change accountable.wellFormed labels }

/-- A step of a worker leaves the affairs in order. -/
lemma Accountable.work {r : Record} {e : Execution} (flag : ∀ w, o.isCancelled w = stop)
    (accountable : Accountable stop sofar w.store ((r, .running e) :: xs)) {state : WorkerState}
    (step : (e.step o.environment job w).1 = state) :
    Accountable stop (sofar ++ w.store.additions (e.step o.environment job w).2.store)
      (e.step o.environment job w).2.store ((r, state) :: xs) := by
  subst step
  have wf := accountable.wellFormed
  have settled := accountable.each (r, .running e) List.mem_cons_self
  obtain ⟨own, path⟩ : e.current.id = r.id ∧ e.report.path = r.path := settled.on
  obtain ⟨-, write⟩ := e.write_step o job w
  have t := Execution.transition_step o job e w
  obtain ⟨c, change, only, honest⟩ := t.honest own settled.honest wf
  have labels : w.store.labels ⊆ (e.step o.environment job w).2.store.labels := by
    rw [write.labels]
    exact List.Subset.refl _
  have answers : o.Answers fun _ _ _ => True := fun _ _ _ _ _ => trivial
  have rule := Execution.rule_step answers job e accountable.ordered
  rw [flag w] at rule
  rw [change.additions_eq wf]
  exact {
    wellFormed := write.wellFormed wf
    ordered := write.scoresOrdered accountable.ordered
    nodup := accountable.nodup
    each := by
      refine List.forall_mem_cons.2 ⟨⟨labels settled.label, ?_, honest, ?_⟩, fun x mem => ?_⟩
      · have on := t.isOn
        rwa [own, path] at on
      · exact Execution.orderly_step settled.orderly rule
      · -- The other records are other ones.
        have ne : x.1.id ≠ r.id := fun eq =>
          (List.nodup_cons.1 accountable.nodup).1 (List.mem_map.2 ⟨x, mem, eq⟩)
        have other := accountable.each x (List.mem_cons_of_mem _ mem)
        refine ⟨labels other.label, other.on, ?_, other.orderly⟩
        refine (other.honest.change change wf labels).others fun k memk eq => ne ?_
        rw [← eq]
        exact only k (Option.mem_toList.1 memk) }

/-- A step of a batch leaves its affairs in order. -/
lemma Accountable.goes (flag : ∀ w, o.isCancelled w = stop)
    (accountable : Accountable stop sofar w.store
      (affairs job.registry.order b.queue b.working gone))
    (goes : Goes o job b w move b' w') :
    Accountable stop (sofar ++ w.store.additions w'.store) w'.store
      (affairs job.registry.order b'.queue b'.working
        (gone ++ b'.ended.drop b.ended.length)) := by
  have same : w.store.additions w.store = [] :=
    MemoryStore.Change.same.additions_eq accountable.wellFormed
  cases goes with
  | coordinate working _ queue ended =>
    rw [same, List.append_nil, List.drop_eq_nil_of_le ended, List.append_nil, working]
    refine accountable.of_subperm (List.Sublist.subperm ?_)
    exact (queue.map _).append (.refl _)
  | @hire record rest hq =>
    have none : (b.hire record job.registry.order).ended.drop b.ended.length = [] :=
      List.drop_length
    rw [same, none, List.append_nil, List.append_nil]
    refine accountable.of_subperm (List.Perm.subperm ?_)
    show (affairs _ b.queue.tail (b.working ++ [_]) gone).Perm _
    rw [hq]
    exact affairs_working (List.perm_append_singleton _ _)
  | @proceed place worker e' hw step =>
    have none : (b.proceed place worker e').ended.drop b.ended.length = [] := List.drop_length
    rw [none, List.append_nil]
    have next :=
      (accountable.of_subperm (affairs_working (perm_working hw)).symm.subperm).work flag step
    exact next.of_subperm (affairs_working (perm_proceed hw e')).subperm
  | @dismiss place worker ending hw step =>
    have one : (b.ended ++ [Finished.mk worker.number worker.record ending]).drop b.ended.length =
        [⟨worker.number, worker.record, ending⟩] := List.drop_left
    have next :=
      (accountable.of_subperm (affairs_working (perm_working hw)).symm.subperm).work flag step
    show Accountable _ _ _ (affairs _ _ _ (gone ++ (b.ended ++ [_]).drop _))
    rw [one]
    refine next.of_subperm (List.Perm.subperm ?_)
    exact affairs_done (List.perm_append_singleton _ _)

lemma Accountable.meet (options : RunOptions) (flag : ∀ w, o.isCancelled w = stop)
    (accountable : Accountable stop sofar w.store
      (affairs job.registry.order b.queue b.working gone)) (happening : Happening β)
    (spared : ∀ r ∈ requests [happening], r.2.deletes = false) :
    let next := meet o job options (b, w) happening
    Accountable stop (sofar ++ added o job options (b, w) happening) next.2.store
      (affairs job.registry.order next.1.queue next.1.working
        (gone ++ endings o job options (b, w) happening)) := by
  cases happening with
  | move move =>
    simp only [added, endings, Batch.meet]
    cases h : b.step o.workshop job options w move with
    | none =>
      rw [Option.getD_none, MemoryStore.Change.same.additions_eq accountable.wellFormed,
        List.drop_length, Option.toList_none, List.append_nil, List.append_nil]
      exact accountable
    | some next => exact accountable.goes flag (goes_step h)
  | request now request =>
    obtain ⟨c, change, -⟩ := MemoryStore.change_perform w.store now request
    have labels := MemoryStore.labels_perform w.store now
      (spared (now, request) List.mem_cons_self)
    simp only [added, endings, List.append_nil]
    exact accountable.change change labels (accountable.ordered.perform now request)
  | claims claimed =>
    simp only [added, endings, List.append_nil]
    exact accountable
  | elsewhere rest =>
    simp only [added, endings, List.append_nil]
    exact accountable

/-- The affairs of a batch stay in order along all that happens, as long as no record is deleted. -/
theorem Accountable.run (options : RunOptions) (flag : ∀ w, o.isCancelled w = stop)
    (accountable : Accountable stop sofar w.store
      (affairs job.registry.order b.queue b.working gone)) (happenings : List (Happening β))
    (spared : ∀ r ∈ requests happenings, r.2.deletes = false) :
    let last := amid o job options (b, w) happenings
    Accountable stop (sofar ++ addedAlong o job options (b, w) happenings) last.2.store
      (affairs job.registry.order last.1.queue last.1.working
        (gone ++ endedAlong o job options (b, w) happenings)) := by
  induction happenings generalizing b w gone sofar with
  | nil =>
    simp only [addedAlong, endedAlong, along, List.append_nil]
    exact accountable
  | cons happening happenings ih =>
    have each : ∀ r ∈ requests [happening] ++ requests happenings, r.2.deletes = false := by
      have same : requests (happening :: happenings) = requests [happening] ++ requests happenings :=
        List.filterMap_append (l := [happening])
      exact same ▸ spared
    have next := ih
      (accountable.meet options flag happening fun r mem =>
        each r (List.mem_append_left _ mem))
      fun r mem => each r (List.mem_append_right _ mem)
    simp only [List.append_assoc] at next
    exact next

lemma accountable_start (nodup : job.registry.order.Nodup) (options : RunOptions)
    (wf : w.store.WellFormed) (ordered : w.store.ScoresOrdered) :
    Accountable stop [] w.store
      (affairs job.registry.order (taken job options w.store) [] []) := by
  simp only [affairs, List.map_nil, List.append_nil]
  refine ⟨wf, ordered, ?_, List.forall_mem_map.2 fun r mem => ?_⟩
  · rw [List.map_map]
    exact nodup_taken wf job options
  · have mem := (taken_sublist job options w.store).subset mem
    exact {
      label := List.mem_map_of_mem mem
      on := ⟨rfl, rfl⟩
      honest := Execution.honest_start r _ _ fun _ none => absurd none List.not_mem_nil
      orderly := Execution.orderly_start (r := r.timeless) nodup }

/-- What a worker that is through vouches for: what it has completed is in the store with a result,
under the path that it reports. -/
lemma Settled.completed {f : Finished} {run : RecordRun}
    (settled : Settled stop sofar s (f.record, f.ending.state)) (wf : s.WellFormed)
    (ending : f.ending = .finished run) {o : PassReport} (mem : o ∈ run.outcomes)
    (done : o.outcome = .completed) :
    ∃ r ∈ s.records, r.id = f.record.id ∧ r.path = run.path ∧ o.pass ∈ r.completed ∧
      ∃ result, MemoryStore.operations.latest r.id o.pass s = .ok (some result) ∧
        result.pass = o.pass := by
  obtain ⟨label, on, honest, -⟩ := settled
  rw [ending] at on honest
  have path : run.path = f.record.path := on
  have vouched : Vouched f.record.id sofar s run.outcomes := honest
  obtain ⟨⟨r, memr, id, listed⟩, kept⟩ := vouched.holds o mem (by rw [done]; rfl)
  obtain ⟨r', memr', eq⟩ := List.mem_map.1 label
  obtain ⟨id', path'⟩ := Prod.mk.inj eq
  obtain rfl := wf.eq_of_id memr memr' (id.trans id'.symm)
  obtain ⟨result, latest, pass⟩ := MemoryStore.exists_latest kept
  refine ⟨r, memr, id, path'.trans path.symm, listed, result, ?_, pass⟩
  rw [id]
  exact congrArg Except.ok latest

/-- What a worker that is through reports as cancelled was not added. -/
lemma Settled.not_added {f : Finished} {run : RecordRun}
    (settled : Settled stop sofar s (f.record, f.ending.state))
    (ending : f.ending = .finished run) {o : PassReport} (mem : o ∈ run.outcomes)
    (cancelled : o.outcome = .skipped .cancelled) : (f.record.id, o.pass) ∉ sofar := by
  obtain ⟨-, -, honest, orderly⟩ := settled
  rw [ending] at honest orderly
  have vouched : Vouched f.record.id sofar s run.outcomes := honest
  obtain ⟨names, -⟩ : (run.outcomes.map PassReport.pass).Nodup ∧ CutOff run.outcomes := orderly
  intro memAdded
  -- The pass would be reported twice.
  have told := vouched.told _ memAdded rfl
  have same := List.inj_on_of_nodup_map names mem told rfl
  rw [same] at cancelled
  cases cancelled

end

/-- A batch that is asked to stop at some moment, and others who put any requests but deletions.
Workers have numbers of their own, and a worker that starts an invocation from that moment on stood
between check and call then, and starts one only. In each finished run the cancelled passes come
last; what is completed is in the store with its result, under the path of the run; and no worker of
the batch has added what is cancelled. -/
theorem shutdown_settles {cfg : Config} (accepted : PassRegistry.ofConfig cfg = .ok job.registry)
    (history : List (Timestamp × Request Record RecordId)) (o : Outfit β) (options : RunOptions)
    (claimed : List RecordId) (rest : β) (before after : List (Happening β))
    (spared : ∀ r ∈ requests (before ++ after), r.2.deletes = false) :
    let store := Request.performAll MemoryStore.operations history {}
    let scene := called job options { store, claimed, rest }
    let first := amid (o.flagged false) job options scene before
    let last := amid (o.flagged true) job options first after
    let calls := callsAlong (o.flagged true) job options first after
    let ended := endedAlong (o.flagged false) job options scene before ++
      endedAlong (o.flagged true) job options first after
    let added := addedAlong (o.flagged false) job options scene before ++
      addedAlong (o.flagged true) job options first after
    ((first.1.working.map Worker.number).Nodup ∧ (calls.map Prod.fst).Nodup ∧
      ∀ call ∈ calls, ∃ worker ∈ first.1.working, Stands call worker) ∧
    ∀ f ∈ ended, ∀ run, f.ending = .finished run →
      CutOff run.outcomes ∧
      ∀ o ∈ run.outcomes,
        (o.outcome = .completed → ∃ r ∈ last.2.store.records, r.id = f.record.id ∧
          r.path = run.path ∧ o.pass ∈ r.completed ∧
          ∃ result, MemoryStore.operations.latest r.id o.pass last.2.store = .ok (some result) ∧
            result.pass = o.pass) ∧
        (o.outcome = .skipped .cancelled → (f.record.id, o.pass) ∉ added) := by
  intro store scene first last calls ended added
  obtain ⟨wf, -⟩ := MemoryStore.performAll_wellFormed MemoryStore.wellFormed_empty history
  have ordered : store.ScoresOrdered :=
    MemoryStore.performAll_scoresOrdered MemoryStore.scoresOrdered_empty history
  have nodup := PassRegistry.nodup_of_ofConfig accepted
  have each : ∀ r ∈ requests before ++ requests after, r.2.deletes = false := by
    rw [requests, List.filterMap_append] at spared
    exact spared
  have accountableFirst := (accountable_start nodup options wf ordered).run (o := o.flagged false)
    (b := scene.1) (w := scene.2) options (fun _ => rfl) before
    fun r mem => each r (List.mem_append_left _ mem)
  have accountable := (accountableFirst.asked true).run (o := o.flagged true)
    (b := first.1) (w := first.2) options (fun _ => rfl) after
    fun r mem => each r (List.mem_append_right _ mem)
  have numbered : first.1.Numbered := (numbered_called options _).amid before
  refine ⟨⟨numbered.nodup, ?_⟩, fun f mem run ending => ?_⟩
  · exact calls_late (fun _ => rfl) numbered accountableFirst.ordered after
  · have settled : Settled true added last.2.store (f.record, f.ending.state) := by
      refine accountable.each _ ?_
      refine List.mem_append_right _ (List.mem_append_right _ ?_)
      exact List.mem_map_of_mem (f := fun f : Finished => (f.record, f.ending.state)) mem
    refine ⟨?_, fun o memo => ⟨?_, ?_⟩⟩
    · have orderly := settled.orderly
      rw [ending] at orderly
      exact orderly.2
    · exact settled.completed accountable.wellFormed ending memo
    · exact settled.not_added ending memo

/-- One of two workers is between check and call of its second pass when the batch is asked to stop,
and the other one has not begun: the first makes its call, and the second cancels its passes. -/
theorem shutdown_settles_of_two :
    let lint : PassConfig := { backend := .staticTool, command := some "lint" }
    let cfg : Config :=
      { db := ⟨""⟩
        pipeline := { order := ["lint", "style"] }
        passes := [("lint", lint), ("style", lint)] }
    let tool : BackendSpec := .staticTool ⟨"lint", [], .json, 120000, [0]⟩
    let registry : PassRegistry :=
      { definitions := [⟨"lint", 0, tool, .raw, none⟩, ⟨"style", 1, tool, .raw, none⟩]
        scoringPass := none
        scoreFields := defaultScoreFields }
    let job : Job := ⟨registry, "", "run", false⟩
    let history : List (Timestamp × Request Record RecordId) :=
      [(0, .upsert ⟨"a", none, "", "", .null⟩), (0, .upsert ⟨"b", none, "", "", .null⟩)]
    let o : Outfit Unit := .constant (.output ⟨"", .text "clean", none⟩)
    let options : RunOptions := { concurrency := 2 }
    let first : List (Happening Unit) :=
      List.replicate 10 (.move .coordinator) ++ List.replicate 6 (.move (.worker 0))
    let second : List (Happening Unit) :=
      .request 0 (.upsert ⟨"c", none, "", "", .null⟩) ::
        List.replicate 3 (.move (.worker 1)) ++ List.replicate 5 (.move (.worker 0))
    PassRegistry.ofConfig cfg = .ok registry ∧
      (∀ r ∈ requests (first ++ second), r.2.deletes = false) ∧
      ∃ scene middle last,
        called job options
          { store := Request.performAll MemoryStore.operations history {}, claimed := [], rest := () } =
            scene ∧
        amid (o.flagged false) job options scene first = middle ∧
        amid (o.flagged true) job options middle second = last ∧
        callsAlong (o.flagged true) job options middle second = [(0, 1, "style")] ∧
        (endedAlong (o.flagged true) job options middle second).map (fun f => f.ending.state.outcomes) =
          [[⟨"lint", .skipped .cancelled⟩, ⟨"style", .skipped .cancelled⟩],
            [⟨"lint", .completed⟩, ⟨"style", .completed⟩]] ∧
        ∀ f ∈ endedAlong (o.flagged true) job options middle second, ∀ run,
          f.ending = .finished run → CutOff run.outcomes := by
  intro lint cfg tool registry job history o options first second
  have accepted : PassRegistry.ofConfig cfg = .ok job.registry := by rfl
  have spared : ∀ r ∈ requests (first ++ second), r.2.deletes = false := by
    intro r mem
    rw [List.mem_singleton.1 mem]
    rfl
  obtain ⟨-, settled⟩ := shutdown_settles accepted history o options [] () first second spared
  refine ⟨accepted, spared, _, _, _, rfl, rfl, rfl, by decide +kernel, by decide +kernel, ?_⟩
  intro f mem run ending
  exact (settled f (List.mem_append_right _ mem) run ending).1

end Multipass.Batch
