import Multipass.Proofs.Batch.Inversion
import Multipass.Proofs.Executor.Keeping

/-!
# Courses of a batch

A batch that is alone with its store, from its call on. Whoever is to move makes one step, the
coordinator or a worker, and outside the store the world may change at any time. The batch is never
asked to stop.

Each record that was taken is an affair of its own: the record as it was selected, with its worker
as it stands. What the worker of a record keeps on the rows of the record holds along every course,
and when the batch is closed it holds of each ending.

Main statements: `Batch.rule_step`, which finds the rule behind each step, `OnCourse.turn` for the
invariant, `OnCourse.closed` for what is left at the end, and `exists_closing`, by which every course
can be brought to its end.
-/

namespace Multipass

@[simp] lemma Ending.plain_state (ending : Ending) : ending.state.plain = ending.state := by
  cases ending <;> rfl

namespace Batch

variable {β : Type}

/-- What happens next in a course. -/
inductive Turn (β : Type) where
  | move (move : Move)
  /-- The world changes outside the store. -/
  | elsewhere (rest : β)

/-- A batch and its world behind a turn; a move that cannot be made changes nothing. -/
def turn (o : Outfit β) (job : Job) (options : RunOptions) :
    Batch × World β → Turn β → Batch × World β
  | (b, w), .move move => (b.step o.workshop job options w move).getD (b, w)
  | (b, w), .elsewhere rest => (b, { w with rest })

/-- The records that a batch takes from a store. -/
def taken (job : Job) (options : RunOptions) (s : MemoryStore) : List Record :=
  select options (s.records.filter fun r => r.isPending job.registry.order options.pendingCheck)

/-- A batch over the pending records of a world and its world, behind some turns. -/
def course (o : Outfit β) (job : Job) (options : RunOptions) (w : World β) (turns : List (Turn β)) :
    Batch × World β :=
  turns.foldl (turn o job options) (.start job.runId options (taken job options w.store), w)

lemma taken_sublist (job : Job) (options : RunOptions) (s : MemoryStore) :
    (taken job options s).Sublist s.records := by
  simp only [taken, select]
  split
  · exact (List.take_sublist ..).trans List.filter_sublist
  · exact List.filter_sublist

lemma nodup_taken {s : MemoryStore} (wf : s.WellFormed) (job : Job) (options : RunOptions) :
    ((taken job options s).map Record.id).Nodup :=
  (wf.ascending.imp Int.ne_of_lt).sublist ((taken_sublist job options s).map Record.id)

lemma nodup_paths_taken {s : MemoryStore} (wf : s.WellFormed) (job : Job) (options : RunOptions) :
    ((taken job options s).map Record.path).Nodup :=
  wf.paths.sublist ((taken_sublist job options s).map Record.path)

/-! ### Rules -/

/-- What one step of a batch can do that is not asked to stop. -/
inductive Rule (o : Outfit β) (job : Job) (options : RunOptions) (b : Batch) (w : World β) :
    Batch → World β → Prop where
  /-- The coordinator goes on towards the next record. -/
  | enter {stage} :
    1 < b.stage.rank → 2 < Stage.rank stage →
    Rule o job options b w (b.enter stage) w
  | drain :
    1 < b.stage.rank →
    b.queue = [] →
    Rule o job options b w (b.enter .draining) w
  | busy {record rest} :
    1 < b.stage.rank →
    b.queue = record :: rest →
    record.id ∈ w.claimed →
    Rule o job options b w (b.skipBusy record) w
  | hire {record rest} :
    1 < b.stage.rank →
    b.queue = record :: rest →
    Rule o job options b w (b.hire record job.registry.order)
      { w with claimed := record.id :: w.claimed }
  | collect {f rest} :
    1 < b.stage.rank →
    b.ended = f :: rest →
    Rule o job options b w (collect job.registry b f rest) w
  | finish :
    b.stage = .draining → b.ended = [] → b.working = [] →
    Rule o job options b w (b.enter .closing) w
  | close :
    b.stage = .closing →
    Rule o job options b w { b with stage := .closed, report := b.report.sorted } w
  | proceed {place worker e'} :
    b.working[place]? = some worker →
    (worker.execution.step o.environment job w).1 = .running e' →
    Rule o job options b w (b.proceed place worker e')
      (worker.execution.step o.environment job w).2
  /-- A worker has ended, in whatever way. -/
  | dismiss {place worker ending} :
    b.working[place]? = some worker →
    (worker.execution.step o.environment job w).1 = Ending.state ending →
    Rule o job options b w
      (b.dismiss o.workshop place worker ending (worker.execution.step o.environment job w).2).1
      (b.dismiss o.workshop place worker ending (worker.execution.step o.environment job w).2).2

section

variable {o : Outfit β} {job : Job} {options : RunOptions} {b b' : Batch} {w w' : World β}

/-- Each step follows one of the rules. -/
theorem rule_step (calm : ∀ w, o.isCancelled w = false) {move : Move}
    (h : step o.workshop job options b w move = some (b', w')) : Rule o job options b w b' w' := by
  have calm (w : World β) : o.workshop.environment.isCancelled w = false := calm w
  have early {stage : Stage} (hs : b.stage = stage) (late : 1 < Stage.rank stage) :
      1 < b.stage.rank := hs ▸ late
  cases step_inv h with
  | wait hs _ _ => exact .enter (early hs (by decide)) (by decide)
  | permit hs _ => exact .enter (early hs (by decide)) (by decide)
  | claim hs _ => exact .enter (early hs (by decide)) (by decide)
  | drain hs none =>
    obtain hs | hs := hs
    · exact .drain (early hs (by decide)) none
    · exact .drain (early hs (by decide)) none
  | cancel _ asked =>
    rw [calm] at asked
    cases asked
  | busy hs hq held => exact .busy (early hs (by decide)) hq held
  | hire hs hq _ => exact .hire (early hs (by decide)) hq
  | collect hs he =>
    obtain hs | hs := hs
    · exact .collect (early hs (by decide)) he
    · exact .collect (early hs (by decide)) he
  | resume hs _ => exact .enter (early hs (by decide)) (by decide)
  | finish hs none idle => exact .finish hs none idle
  | close hs eq =>
    rw [calm, Bool.or_false] at eq
    subst eq
    exact .close hs
  | @proceed place worker e' _ hw hs =>
    have hs : worker.execution.step o.environment job w = (.running e', w') := hs
    have rule : Rule o job options b w (b.proceed place worker e') _ :=
      .proceed hw (congrArg Prod.fst hs)
    rwa [hs] at rule
  | @dismiss place worker ending w'' hw hs =>
    have hs : worker.execution.step o.environment job w = (ending.state, w'') := hs
    have rule : Rule o job options b w
        (b.dismiss o.workshop place worker ending (worker.execution.step o.environment job w).2).1 _ :=
      .dismiss hw (congrArg Prod.fst hs)
    rwa [hs] at rule

end

/-! ### Affairs -/

/-- The records that a batch took, each with its worker as it stands: those that wait, those that
are worked on, and those that are done. -/
def affairs (order : List String) (queue : List Record) (working : List Worker)
    (done : List Finished) : List (Record × WorkerState) :=
  queue.map (fun r => (r, .running (.start r order))) ++
    (working.map (fun worker => (worker.record, .running worker.execution)) ++
      done.map fun f => (f.record, f.ending.state))

section

variable {order : List String} {queue : List Record} {working others : List Worker}
  {done rest : List Finished}

/-- One of the workers at work stands for an affair beside all others. -/
lemma affairs_working {worker : Worker} (perm : working.Perm (worker :: others)) :
    (affairs order queue working done).Perm
      ((worker.record, .running worker.execution) :: affairs order queue others done) := by
  refine .trans (.append_left _ (.append_right _ (perm.map _))) ?_
  exact List.perm_middle

/-- One of those that are done stands for an affair beside all others. -/
lemma affairs_done {f : Finished} (perm : done.Perm (f :: rest)) :
    (affairs order queue working done).Perm
      ((f.record, f.ending.state) :: affairs order queue working rest) := by
  refine .trans (.append_left _ (.append_left _ (perm.map _))) ?_
  refine .trans (.append_left _ ?_) List.perm_middle
  exact List.perm_middle

end

/-- What holds of the affairs of a batch that began with one store and has come to another one: they
are those of the records that were taken, each has what its worker keeps, and nothing else changed. -/
structure Fair (P : Record → WorkerState → MemoryStore → Prop) (s : MemoryStore)
    (taken : List Record) (affairs : List (Record × WorkerState)) (t : MemoryStore) : Prop where
  wellFormed : t.WellFormed
  ordered : t.ScoresOrdered
  labels : t.labels = s.labels
  records : (affairs.map Prod.fst).Perm taken
  on : ∀ x ∈ affairs, x.2.IsOn x.1.id x.1.path
  holds : ∀ x ∈ affairs, P x.1 x.2.plain (t.rowsOf x.1.id)
  others : ∀ id, (∀ r ∈ taken, r.id ≠ id) → t.rowsOf id = s.rowsOf id

variable {P : Record → WorkerState → MemoryStore → Prop} {s t : MemoryStore} {records : List Record}
  {xs ys : List (Record × WorkerState)} {o : Outfit β} {job : Job}

/-- The affairs of records that wait, in the store from which they were taken. -/
lemma fair_start {order : List String} (wf : s.WellFormed) (ordered : s.ScoresOrdered)
    (starts : ∀ r ∈ records, P r (WorkerState.running (.start r order)).plain (s.rowsOf r.id)) :
    Fair P s records (affairs order records [] []) s := by
  simp only [affairs, List.append_nil, List.map_nil]
  exact {
    wellFormed := wf
    ordered := ordered
    labels := rfl
    records := by
      rw [List.map_map]
      exact .of_eq (List.map_id _)
    on := List.forall_mem_map.2 fun _ _ => ⟨rfl, rfl⟩
    holds := List.forall_mem_map.2 starts
    others := fun _ _ => rfl }

/-- The order of the affairs does not matter. -/
lemma Fair.of_perm (fair : Fair P s records xs t) (perm : ys.Perm xs) : Fair P s records ys t :=
  { fair with
    records := (perm.map _).trans fair.records
    on := fun x mem => fair.on x (perm.mem_iff.1 mem)
    holds := fun x mem => fair.holds x (perm.mem_iff.1 mem) }

/-- A step of a worker is a step in one affair. -/
lemma Fair.step {w : World β} {r : Record} {e : Execution}
    (fair : Fair P s records ((r, .running e) :: xs) w.store) (keeps : Keeps o job r.id (P r))
    (nodup : (records.map Record.id).Nodup) :
    Fair P s records ((r, (e.step o.environment job w).1) :: xs)
      (e.step o.environment job w).2.store := by
  obtain ⟨own, path⟩ : e.current.id = r.id ∧ e.report.path = r.path :=
    fair.on (r, .running e) List.mem_cons_self
  obtain ⟨-, write⟩ := e.write_step o job w
  have mem : r ∈ records := fair.records.mem_iff.1 List.mem_cons_self
  have foreign : ∀ x ∈ xs, r.id ≠ x.1.id := by
    have nodup := (fair.records.map Record.id).nodup_iff.2 nodup
    rw [List.map_cons, List.map_cons, List.nodup_cons] at nodup
    intro x mem eq
    refine nodup.1 (eq ▸ ?_)
    exact List.mem_map_of_mem (List.mem_map_of_mem mem)
  exact {
    wellFormed := write.wellFormed fair.wellFormed
    ordered := write.scoresOrdered fair.ordered
    labels := write.labels.trans fair.labels
    records := fair.records
    on := by
      refine List.forall_mem_cons.2 ⟨?_, fun x mem => fair.on x (List.mem_cons_of_mem _ mem)⟩
      have on := (Execution.transition_step o job e w).isOn
      rwa [own, path] at on
    holds := by
      refine List.forall_mem_cons.2 ⟨?_, fun x mem => ?_⟩
      · exact keeps e w own fair.ordered (fair.holds (r, .running e) List.mem_cons_self)
      · rw [write.rowsOf (own ▸ foreign x mem)]
        exact fair.holds x (List.mem_cons_of_mem _ mem)
    others := by
      intro id ne
      rw [write.rowsOf (own ▸ ne r mem)]
      exact fair.others id ne }

/-! ### The invariant -/

/-- The report of a batch that took some records and has collected workers in this order. -/
def told (job : Job) (options : RunOptions) (pending : Nat) (gone : List Finished) : Report :=
  (gone.map fun f => (summaryOf job.registry f).1).foldl Report.push
    { runId := job.runId, dryRun := options.dryRun, pending }

/-- What holds of a batch on its course from a store, with the workers that it has collected. -/
structure OnCourse (P : Record → WorkerState → MemoryStore → Prop) (job : Job) (options : RunOptions)
    (s : MemoryStore) (gone : List Finished) (b : Batch) (w : World β) : Prop where
  fair : Fair P s (taken job options s)
    (affairs job.registry.order b.queue b.working (b.ended ++ gone)) w.store
  claimed : ∀ id ∈ w.claimed, ∃ worker ∈ b.working, worker.record.id = id
  drained : b.stage.rank ≤ 2 → b.queue = []
  idle : b.stage.rank ≤ 1 → b.working = [] ∧ b.ended = []
  report : b.stage ≠ .closed → b.report = told job options (taken job options s).length gone
  closed :
    b.stage = .closed → b.report = (told job options (taken job options s).length gone).sorted

variable {b b' : Batch} {gone : List Finished} {options : RunOptions} {w w' : World β}

lemma told_append (pending : Nat) (gone : List Finished) (f : Finished) :
    told job options pending (gone ++ [f]) =
      (told job options pending gone).push (summaryOf job.registry f).1 := by
  simp [told]

lemma onCourse_start (w : World β) (wf : w.store.WellFormed) (ordered : w.store.ScoresOrdered)
    (unclaimed : w.claimed = [])
    (starts : ∀ r ∈ taken job options w.store,
      P r (WorkerState.running (.start r job.registry.order)).plain (w.store.rowsOf r.id)) :
    OnCourse P job options w.store [] (.start job.runId options (taken job options w.store)) w where
  fair := fair_start wf ordered starts
  claimed := by simp [unclaimed]
  drained := by simp [start, Stage.rank]
  idle := by simp [start, Stage.rank]
  report := fun _ => rfl
  closed := nofun

/-- A record that waits is not claimed. -/
lemma OnCourse.unclaimed (on : OnCourse P job options s gone b w)
    (nodup : ((taken job options s).map Record.id).Nodup) {record : Record} {rest : List Record}
    (hq : b.queue = record :: rest) : record.id ∉ w.claimed := by
  intro mem
  obtain ⟨worker, mem, eq⟩ := on.claimed _ mem
  have ids := (on.fair.records.map Record.id).nodup_iff.2 nodup
  rw [hq] at ids
  refine (List.nodup_cons.1 ids).1 (eq ▸ ?_)
  refine List.mem_map_of_mem (List.mem_map_of_mem (f := Prod.fst)
    (a := (worker.record, WorkerState.running worker.execution)) ?_)
  exact List.mem_append_right _ (List.mem_append_left _ (List.mem_map_of_mem mem))

/-- A worker is at work only while the batch is not closing. -/
lemma OnCourse.early (on : OnCourse P job options s gone b w) {place : Nat} {worker : Worker}
    (hw : b.working[place]? = some worker) : 1 < b.stage.rank := by
  refine Nat.lt_of_not_le fun late => ?_
  rw [(on.idle late).1] at hw
  cases hw

lemma OnCourse.report_early (on : OnCourse P job options s gone b w) (early : 1 < b.stage.rank) :
    b.report = told job options (taken job options s).length gone :=
  on.report fun closed => by simp [closed, Stage.rank] at early

lemma OnCourse.hire (on : OnCourse P job options s gone b w) (early : 1 < b.stage.rank)
    {record : Record} {rest : List Record} (hq : b.queue = record :: rest) :
    OnCourse P job options s gone (b.hire record job.registry.order)
      { w with claimed := record.id :: w.claimed } where
  fair := by
    refine on.fair.of_perm ?_
    show (affairs _ b.queue.tail (b.working ++ [_]) (b.ended ++ gone)).Perm _
    rw [hq]
    exact affairs_working (List.perm_append_singleton _ _)
  claimed := by
    refine List.forall_mem_cons.2 ⟨⟨_, List.mem_append_right _ (List.mem_singleton_self _), rfl⟩, ?_⟩
    intro id mem
    obtain ⟨worker, mem, eq⟩ := on.claimed id mem
    exact ⟨worker, List.mem_append_left _ mem, eq⟩
  drained := by simp [Batch.hire, Stage.rank]
  idle := by simp [Batch.hire, Stage.rank]
  report := fun _ => on.report_early early
  closed := nofun

lemma OnCourse.collect (on : OnCourse P job options s gone b w) (early : 1 < b.stage.rank)
    {f : Finished} {rest : List Finished} (he : b.ended = f :: rest) :
    OnCourse P job options s (gone ++ [f]) (Batch.collect job.registry b f rest) w where
  fair := by
    refine on.fair.of_perm ?_
    rw [he]
    refine .trans (affairs_done ?_) (affairs_done (.refl _)).symm
    rw [← List.append_assoc]
    exact List.perm_append_singleton f (rest ++ gone)
  claimed := on.claimed
  drained := on.drained
  idle := fun idle => absurd idle (Nat.not_le_of_gt early)
  report := by
    intro _
    rw [told_append, ← on.report_early early]
    rfl
  closed := fun closed => absurd (show b.stage = .closed from closed) fun closed => by
    simp [closed, Stage.rank] at early

/-- The affairs of a batch behind a step of a worker, with the one of that worker first. -/
lemma OnCourse.work (on : OnCourse P job options s gone b w)
    (nodup : ((taken job options s).map Record.id).Nodup)
    (keeps : ∀ r ∈ taken job options s, Keeps o job r.id (P r)) {place : Nat} {worker : Worker}
    (hw : b.working[place]? = some worker) :
    Fair P s (taken job options s)
      ((worker.record, (worker.execution.step o.environment job w).1) ::
        affairs job.registry.order b.queue (b.working.eraseIdx place) (b.ended ++ gone))
      (worker.execution.step o.environment job w).2.store := by
  have fair := on.fair.of_perm (affairs_working (perm_working hw)).symm
  exact fair.step (keeps _ (fair.records.mem_iff.1 List.mem_cons_self)) nodup

/-- The worker behind a claim is the one in a place, or another one. -/
lemma OnCourse.claimed_elsewhere (on : OnCourse P job options s gone b w) {place : Nat}
    {worker : Worker} (hw : b.working[place]? = some worker) {id : RecordId} (mem : id ∈ w.claimed) :
    worker.record.id = id ∨ ∃ other ∈ b.working.eraseIdx place, other.record.id = id := by
  obtain ⟨other, mem, eq⟩ := on.claimed id mem
  obtain rfl | mem := List.mem_cons.1 ((perm_working hw).mem_iff.1 mem)
  · exact .inl eq
  · exact .inr ⟨other, mem, eq⟩

lemma OnCourse.proceed (on : OnCourse P job options s gone b w)
    (nodup : ((taken job options s).map Record.id).Nodup)
    (keeps : ∀ r ∈ taken job options s, Keeps o job r.id (P r)) {place : Nat} {worker : Worker}
    (hw : b.working[place]? = some worker) {e' : Execution}
    (step : (worker.execution.step o.environment job w).1 = .running e') :
    OnCourse P job options s gone (b.proceed place worker e')
      (worker.execution.step o.environment job w).2 := by
  have perm := perm_proceed hw e'
  exact {
    fair := by
      have fair := on.work nodup keeps hw
      rw [step] at fair
      exact fair.of_perm (affairs_working perm)
    claimed := by
      rw [(worker.execution.write_step o job w).1]
      intro id mem
      obtain eq | ⟨other, mem, eq⟩ := on.claimed_elsewhere hw mem
      · exact ⟨_, perm.mem_iff.2 List.mem_cons_self, eq⟩
      · exact ⟨other, perm.mem_iff.2 (List.mem_cons_of_mem _ mem), eq⟩
    drained := on.drained
    idle := fun idle => absurd idle (Nat.not_le_of_gt (on.early hw))
    report := on.report
    closed := on.closed }

lemma OnCourse.dismiss (on : OnCourse P job options s gone b w)
    (nodup : ((taken job options s).map Record.id).Nodup)
    (keeps : ∀ r ∈ taken job options s, Keeps o job r.id (P r)) {place : Nat} {worker : Worker}
    (hw : b.working[place]? = some worker) {ending : Ending}
    (step : (worker.execution.step o.environment job w).1 = ending.state) :
    let ended := b.dismiss o.workshop place worker ending
      (worker.execution.step o.environment job w).2
    OnCourse P job options s gone ended.1 ended.2 where
  fair := by
    have fair := on.work nodup keeps hw
    rw [step] at fair
    refine fair.of_perm (affairs_done (f := ⟨worker.number, worker.record, ending⟩) ?_)
    exact (List.perm_append_singleton _ _).append_right gone
  claimed := by
    intro id mem
    obtain ⟨mem, ne⟩ := List.mem_filter.1 mem
    replace mem : id ∈ (worker.execution.step o.environment job w).2.claimed := mem
    rw [(worker.execution.write_step o job w).1] at mem
    obtain eq | other := on.claimed_elsewhere hw mem
    · simp [eq] at ne
    · exact other
  drained := on.drained
  idle := fun idle => absurd idle (Nat.not_le_of_gt (on.early hw))
  report := on.report
  closed := on.closed

/-- A batch stays on its course. -/
lemma OnCourse.step (on : OnCourse P job options s gone b w)
    (nodup : ((taken job options s).map Record.id).Nodup)
    (keeps : ∀ r ∈ taken job options s, Keeps o job r.id (P r))
    (rule : Rule o job options b w b' w') : ∃ gone', OnCourse P job options s gone' b' w' := by
  cases rule with
  | @enter stage early late =>
    have open' : stage ≠ .closed := fun closed => by simp [closed, Stage.rank] at late
    exact ⟨gone, {
      fair := on.fair
      claimed := on.claimed
      drained := fun drained => absurd drained (Nat.not_le_of_gt late)
      idle := fun idle => absurd idle (Nat.not_le_of_gt (Nat.lt_of_succ_lt late))
      report := fun _ => on.report_early early
      closed := fun closed => absurd closed open' }⟩
  | drain early none =>
    exact ⟨gone, {
      fair := on.fair
      claimed := on.claimed
      drained := fun _ => none
      idle := by simp [enter, Stage.rank]
      report := fun _ => on.report_early early
      closed := by simp [enter] }⟩
  | busy _ hq claimed => exact absurd claimed (on.unclaimed nodup hq)
  | hire early hq => exact ⟨gone, on.hire early hq⟩
  | collect early he => exact ⟨_, on.collect early he⟩
  | finish hs he hw =>
    exact ⟨gone, {
      fair := on.fair
      claimed := on.claimed
      drained := fun _ => on.drained (by simp [hs, Stage.rank])
      idle := fun _ => ⟨hw, he⟩
      report := fun _ => on.report (by simp [hs])
      closed := by simp [enter] }⟩
  | close hs =>
    exact ⟨gone, {
      fair := on.fair
      claimed := on.claimed
      drained := fun _ => on.drained (by simp [hs, Stage.rank])
      idle := fun _ => on.idle (by simp [hs, Stage.rank])
      report := fun late => absurd rfl late
      closed := fun _ => congrArg Report.sorted (on.report (by simp [hs])) }⟩
  | proceed hw step => exact ⟨gone, on.proceed nodup keeps hw step⟩
  | dismiss hw step => exact ⟨gone, on.dismiss nodup keeps hw step⟩

/-- A batch stays on its course, whoever is to move. -/
theorem OnCourse.turn (on : OnCourse P job options s gone b w) (calm : ∀ w, o.isCancelled w = false)
    (nodup : ((taken job options s).map Record.id).Nodup)
    (keeps : ∀ r ∈ taken job options s, Keeps o job r.id (P r)) (turn : Turn β) :
    ∃ gone', OnCourse P job options s gone' (Batch.turn o job options (b, w) turn).1
      (Batch.turn o job options (b, w) turn).2 := by
  cases turn with
  | elsewhere rest => exact ⟨gone, { on with }⟩
  | move move =>
    simp only [Batch.turn]
    cases h : b.step o.workshop job options w move with
    | none => exact ⟨gone, on⟩
    | some next => exact on.step nodup keeps (rule_step calm h)

/-- A batch stays on its course along any turns. -/
theorem OnCourse.turns (on : OnCourse P job options s gone b w)
    (calm : ∀ w, o.isCancelled w = false) (nodup : ((taken job options s).map Record.id).Nodup)
    (keeps : ∀ r ∈ taken job options s, Keeps o job r.id (P r)) (turns : List (Turn β)) :
    ∃ gone', OnCourse P job options s gone' (turns.foldl (Batch.turn o job options) (b, w)).1
      (turns.foldl (Batch.turn o job options) (b, w)).2 := by
  induction turns generalizing b w gone with
  | nil => exact ⟨gone, on⟩
  | cons turn turns ih =>
    obtain ⟨gone', on'⟩ := on.turn calm nodup keeps turn
    exact ih on'

/-! ### Whole courses -/

/-- What workers keep that a batch sets on the pending records of a store holds along every course of
the batch. -/
theorem onCourse_course (calm : ∀ w, o.isCancelled w = false)
    (keeps : ∀ r ∈ taken job options w.store, Keeps o job r.id (P r)) (wf : w.store.WellFormed)
    (ordered : w.store.ScoresOrdered) (unclaimed : w.claimed = [])
    (starts : ∀ r ∈ taken job options w.store,
      P r (WorkerState.running (.start r job.registry.order)).plain (w.store.rowsOf r.id))
    (turns : List (Turn β)) :
    ∃ gone, OnCourse P job options w.store gone (course o job options w turns).1
      (course o job options w turns).2 :=
  (onCourse_start w wf ordered unclaimed starts).turns calm (nodup_taken wf job options) keeps turns

/-- When a batch is closed, each record that it took has an ending. -/
theorem OnCourse.ended (on : OnCourse P job options s gone b w) (closed : b.stage = .closed) :
    (gone.map Finished.record).Perm (taken job options s) ∧
      ∀ f ∈ gone, f.ending.state.IsOn f.record.id f.record.path ∧
        P f.record f.ending.state (w.store.rowsOf f.record.id) := by
  have queue : b.queue = [] := on.drained (by simp [closed, Stage.rank])
  obtain ⟨working, ended⟩ := on.idle (by simp [closed, Stage.rank])
  have records := on.fair.records
  have ons := on.fair.on
  have holds := on.fair.holds
  simp only [affairs, queue, working, ended, List.map_nil, List.nil_append, List.map_map,
    List.forall_mem_map, Ending.plain_state] at records ons holds
  exact ⟨records, fun f mem => ⟨ons f mem, holds f mem⟩⟩

/-! ### The end of a course -/

/-- Whatever happened so far, a batch can be brought to its end, and it is when it is run. -/
theorem exists_closing (o : Outfit β) (job : Job) (options : RunOptions) (b : Batch) (w : World β) :
    (b.run o.workshop job options w).1.stage = .closed ∧
      ∃ turns : List (Turn β),
        turns.foldl (turn o job options) (b, w) = b.run o.workshop job options w := by
  obtain ⟨closed, moves, eq⟩ := exists_moves o.workshop job options b w
  refine ⟨closed, moves.map .move, ?_⟩
  rw [List.foldl_map]
  exact eq

lemma exists_closing_course (o : Outfit β) (job : Job) (options : RunOptions) (w : World β)
    (turns : List (Turn β)) :
    ∃ more, (course o job options w (turns ++ more)).1.stage = .closed := by
  let ended := course o job options w turns
  obtain ⟨closed, more, eq⟩ := exists_closing o job options ended.1 ended.2
  refine ⟨more, ?_⟩
  rw [course, List.foldl_append]
  exact (congrArg (fun ended => ended.1.stage) eq).trans closed

/-- To run all pending records is one of the courses. -/
theorem exists_course_runAll (o : Outfit β) (job : Job) (options : RunOptions) (w : World β) :
    ∃ turns, (course o job options w turns).1.stage = .closed ∧
      runAll o.workshop job options w =
        (.ok ⟨(course o job options w turns).1.report, (course o job options w turns).1.events⟩,
          (course o job options w turns).2) := by
  obtain ⟨closed, turns, eq⟩ :=
    exists_closing o job options (.start job.runId options (taken job options w.store)) w
  refine ⟨turns, ?_⟩
  rw [course, eq]
  exact ⟨closed, rfl⟩

end Batch

end Multipass
