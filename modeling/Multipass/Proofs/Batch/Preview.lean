import Multipass.Proofs.Batch.Company
import Multipass.Proofs.Batch.Isolation
import Multipass.Proofs.Executor.Keeping
import Multipass.Proofs.Executor.Steady
import Multipass.Proofs.Pointwise

/-!
# Dry runs

A dry run looks at what is there and does nothing: its workers call no backend and put nothing into
the store, whoever else is about. What it reports is what a real run of the same records would go
through, as both give an account of the same passes.

Main statements: `keeps_accounted` for one worker, `amid_dry` for what a dry run leaves,
`accounted_course` for what one run reports, and `dry_run_previews` for a dry run beside a real one.
-/

namespace Multipass

/-!
### Accounts of passes

A worker that nobody disturbs and that is not asked to stop gives an account of each pass that its
record lacks, in the order of the pipeline. Which outcomes a pass can have depends on the pass and on
whether the run is dry, and not on what is stored.
-/

section

/-- What can be reported of a pass of a pipeline: a placeholder is skipped, and any other pass is
skipped in a dry run and completed or failed in a real one. -/
inductive Accounts (registry : PassRegistry) (dryRun : Bool) (pass : String) : PassReport → Prop where
  | placeholder {d} :
    registry.definition pass = .ok d →
    d.backend.isRunnable = false →
    Accounts registry dryRun pass ⟨pass, .skipped .noBackend⟩
  | dry {d} :
    registry.definition pass = .ok d →
    d.backend.isRunnable = true →
    dryRun = true →
    Accounts registry dryRun pass ⟨pass, .skipped .dryRun⟩
  | completed {d} :
    registry.definition pass = .ok d →
    d.backend.isRunnable = true →
    dryRun = false →
    Accounts registry dryRun pass ⟨pass, .completed⟩
  | failed {d reason} :
    registry.definition pass = .ok d →
    d.backend.isRunnable = true →
    dryRun = false →
    Accounts registry dryRun pass ⟨pass, .failed reason⟩

/-- What holds of a worker that gives an account of some passes: so far it has done so for those that
are no longer ahead of it. -/
def Accounted (given : PassDefinition → InvocationContext → Reply → Prop) (job : Job)
    (names : List String) : WorkerState → MemoryStore → Prop
  | .running e, s =>
    e.Level given job s ∧ ∃ gone, names = gone ++ e.ahead ∧
      List.Forall₂ (Accounts job.registry job.dryRun) gone e.report.outcomes
  | .finished run, _ => List.Forall₂ (Accounts job.registry job.dryRun) names run.outcomes
  | _, _ => False

variable {given : PassDefinition → InvocationContext → Reply → Prop} {job : Job}
  {names : List String} {s s' : MemoryStore} {e : Execution}

lemma accounted_start {r : Record} (stored : s.record? r.id = some r) :
    Accounted given job (r.missing job.registry.order)
      (.running (.start r job.registry.order)) s :=
  ⟨Execution.level_start stored, [], rfl, .nil⟩

/-- One more pass is accounted for. -/
lemma accounted_push {e' : Execution} {pass : String} {rest gone : List String}
    {outcome : PassOutcome} (cons : e.ahead = pass :: rest) (ahead : e'.ahead = rest)
    (outcomes : e'.report.outcomes = e.report.outcomes ++ [⟨pass, outcome⟩])
    (level : e'.Level given job s) (all : names = gone ++ e.ahead)
    (accounts : List.Forall₂ (Accounts job.registry job.dryRun) gone e.report.outcomes)
    (account : Accounts job.registry job.dryRun pass ⟨pass, outcome⟩) :
    Accounted given job names (.running e') s := by
  refine ⟨level, gone ++ [pass], ?_, ?_⟩
  · rw [all, cons, ahead, List.append_assoc]
    rfl
  · rw [outcomes]
    exact forall₂_append accounts (.cons account .nil)

/-- A step of a worker that gives an account. -/
theorem accounted_step (nodup : job.registry.order.Nodup)
    (sound : job.dryRun = true ∨ ∀ d ctx text, ¬given d ctx (.panic text)) {state : WorkerState}
    (accounted : Accounted given job names (.running e) s)
    (rule : Execution.Rule given false job e s state s') : Accounted given job names state s' := by
  obtain ⟨before, gone, all, accounts⟩ := accounted
  cases before.step nodup rule with
  | finished none =>
    rw [none, List.append_nil] at all
    exact all ▸ accounts
  | panicked owed text =>
    obtain dry | sound := sound
    · simp [owed.real] at dry
    · exact sound _ _ _ text
  | goesOn _ ahead outcomes level => exact ⟨level, gone, ahead ▸ all, outcomes ▸ accounts⟩
  | @leaves pass rest outcome cons ahead leaves level =>
    refine accounted_push cons ahead rfl level all accounts ?_
    cases leaves with
    | cancelled asked => cases asked
    | unknown unknown =>
      -- Every pass of the order has a definition.
      have mem : pass ∈ job.registry.order := by
        refine before.ahead.subset ?_
        rw [cons]
        exact List.mem_cons_self
      obtain ⟨d, memd, rfl⟩ := List.mem_map.1 mem
      rw [PassRegistry.definition_of_mem nodup memd] at unknown
      cases unknown
    | placeholder definition placeholder => exact .placeholder definition placeholder
    | dry definition runnable dry => exact .dry definition runnable dry
    | failed owed _ => exact .failed owed.definition owed.runnable owed.real
  | settles cons settles _ ahead outcomes level =>
    refine accounted_push cons ahead outcomes level all accounts ?_
    cases settles with
    | recover owed _ => exact .completed owed.definition owed.runnable owed.real
    | commit owed _ _ => exact .completed owed.definition owed.runnable owed.real

/-- Workers that are not asked to stop give an account, in a dry run or if their backends do not
break down. -/
theorem keeps_accounted {β : Type} {o : Outfit β} {id : RecordId} (nodup : job.registry.order.Nodup)
    (answers : o.Answers given) (calm : ∀ w, o.isCancelled w = false)
    (sound : job.dryRun = true ∨ ∀ d ctx text, ¬given d ctx (.panic text)) :
    Keeps o job id (Accounted given job.plain names) := by
  have nodup' : job.plain.registry.order.Nodup := nodup
  exact keeps_of_rules answers calm fun _ _ _ _ _ accounted rule =>
    accounted_step nodup' sound accounted rule

end

/-! ### A dry run leaves everything as it is -/

/-- Holds of the phases before anything is done about a pass. -/
def Phase.isLooking : Phase → Bool
  | .deciding => true
  | .gathering _ => true
  | _ => false

namespace Execution

variable {ω : Type} {env : Environment ω} {job : Job} {e : Execution} {pass : String}
  {rest : List String}

lemma looking_prepared (dry : job.dryRun = true) (d : PassDefinition) (prior : List PassResult) :
    (e.prepared job d prior).phase.isLooking = true := by
  simp only [prepared, dry, if_true]
  rfl

lemma looking_choose (dry : job.dryRun = true) (w : ω) :
    (e.choose env job pass w).phase.isLooking = true := by
  simp only [choose]
  split
  · rfl
  · split
    · rfl
    · split
      · rfl
      · split
        · rfl
        · exact looking_prepared dry _ _

/-- A worker in a dry run only looks. -/
theorem looking_step (env : Environment ω) (dry : job.dryRun = true) (looking : e.phase.isLooking = true) (w : ω) :
    (e.step env job w).2 = w ∧
      ∀ e', (e.step env job w).1 = .running e' → e'.phase.isLooking = true := by
  cases hr : e.remaining with
  | nil =>
    simp only [step, hr]
    exact ⟨trivial, fun _ h => WorkerState.noConfusion h⟩
  | cons pass rest =>
    cases hp : e.phase with
    | deciding =>
      simp only [step, hr, stepPass, hp]
      refine ⟨trivial, ?_⟩
      rintro e' ⟨⟩
      exact looking_choose dry w
    | gathering d =>
      simp only [step, hr, stepPass, hp]
      split
      · refine ⟨rfl, ?_⟩
        rintro e' ⟨⟩
        exact looking_prepared dry _ _
      · exact ⟨rfl, fun _ h => WorkerState.noConfusion h⟩
    | _ => simp [hp, Phase.isLooking] at looking

lemma starts_of_looking (looking : e.phase.isLooking = true) : e.starts = [] := by
  simp only [starts]
  split
  · next hp _ => simp [hp, Phase.isLooking] at looking
  · rfl

end Execution

namespace Batch

variable {β γ : Type} {o : Outfit β} {job : Job} {options : RunOptions} {b b' : Batch}
  {w w' : World β}

/-- Holds when all workers only look. -/
def Looking (b : Batch) : Prop :=
  ∀ worker ∈ b.working, worker.execution.phase.isLooking = true

lemma Looking.calls (looking : b.Looking) (happening : Happening β) :
    Batch.calls (b, w) happening = [] := by
  cases happening with
  | move move =>
    cases move with
    | coordinator => rfl
    | worker place =>
      simp only [Batch.calls]
      split
      · next worker hw =>
        rw [Execution.starts_of_looking (looking worker (List.mem_of_getElem? hw)), List.map_nil]
      · rfl
  | _ => rfl

/-- A step of a batch whose workers only look leaves the store as it is. -/
lemma Looking.goes (looking : b.Looking) (dry : job.dryRun = true) {move : Move}
    (goes : Goes o job b w move b' w') :
    b'.Looking ∧ w'.store = w.store := by
  cases goes with
  | coordinate working _ _ _ =>
    refine ⟨fun worker mem => ?_, rfl⟩
    rw [working] at mem
    exact looking worker mem
  | hire _ =>
    refine ⟨fun worker mem => ?_, rfl⟩
    obtain mem | mem := List.mem_append.1 mem
    · exact looking worker mem
    · rw [List.mem_singleton.1 mem]
      rfl
  | proceed hw step =>
    obtain ⟨same, looks⟩ :=
      Execution.looking_step o.environment dry (looking _ (List.mem_of_getElem? hw)) w
    refine ⟨fun worker mem => ?_, by rw [same]⟩
    obtain mem | rfl := List.mem_or_eq_of_mem_set mem
    · exact looking worker mem
    · exact looks _ step
  | dismiss hw step =>
    obtain ⟨same, -⟩ :=
      Execution.looking_step o.environment dry (looking _ (List.mem_of_getElem? hw)) w
    refine ⟨fun worker mem => looking worker (List.mem_of_mem_eraseIdx mem), ?_⟩
    show (Execution.step o.environment job _ w).2.store = _
    rw [same]

/-- A dry run calls no backend, and the store is what others make of it. -/
theorem amid_dry (dry : job.dryRun = true) (looking : b.Looking) (happenings : List (Happening β)) :
    callsAlong o job options (b, w) happenings = [] ∧
      (amid o job options (b, w) happenings).2.store =
        Request.performAll MemoryStore.operations (requests happenings) w.store := by
  induction happenings generalizing b w with
  | nil => exact ⟨rfl, rfl⟩
  | cons happening happenings ih =>
    rw [callsAlong, along, looking.calls, List.nil_append]
    cases happening with
    | move move =>
      simp only [amid, List.foldl_cons, meet]
      cases h : b.step o.workshop job options w move with
      | none => exact ih looking
      | some next =>
        obtain ⟨looking', same⟩ := looking.goes dry (goes_step h)
        obtain ⟨quiet, store⟩ := ih looking'
        refine ⟨quiet, store.trans ?_⟩
        rw [same]
        rfl
    | request now request => exact ih looking
    | claims claimed => exact ih looking
    | elsewhere rest => exact ih looking

/-! ### What a run reports -/

/-- A batch that is never asked to stop, once it is closed, gives an account of the passes that each
record lacks, if it is dry or its backends do not break down. -/
theorem accounted_course (job : Job) (nodup : job.registry.order.Nodup)
    (calm : ∀ w, o.isCancelled w = false)
    (sound : job.dryRun = true ∨ o.Answers fun _ _ reply => ∀ text, reply ≠ .panic text)
    (wf : w.store.WellFormed) (ordered : w.store.ScoresOrdered) (unclaimed : w.claimed = [])
    {turns : List (Turn β)} (closed : (course o job options w turns).1.stage = .closed) :
    let report := (course o job options w turns).1.report
    report.pending = (taken job options w.store).length ∧
      List.Forall₂
        (fun r a => a.path = r.path ∧ List.Forall₂ (Accounts job.registry job.dryRun)
          (r.missing job.registry.order) a.outcomes)
        ((taken job options w.store).mergeSort (byPath Record.path)) report.records := by
  intro report
  -- In a dry run any replies will do.
  obtain ⟨given, answers, sound⟩ : ∃ given : PassDefinition → InvocationContext → Reply → Prop,
      o.Answers given ∧ (job.dryRun = true ∨ ∀ d ctx text, ¬given d ctx (.panic text)) := by
    obtain dry | answers := sound
    · exact ⟨fun _ _ _ => True, fun _ _ _ _ _ => trivial, .inl dry⟩
    · exact ⟨_, answers, .inr fun _ _ text replies => replies text rfl⟩
  let P (r : Record) := Accounted given job.plain (r.missing job.registry.order)
  have keeps : ∀ r ∈ taken job options w.store, Keeps o job r.id (P r) := fun r _ =>
    keeps_accounted nodup answers calm sound
  have starts : ∀ r ∈ taken job options w.store,
      P r (WorkerState.running (.start r job.registry.order)).plain (w.store.rowsOf r.id) := by
    intro r mem
    have mem := (taken_sublist job options w.store).subset mem
    refine accounted_start (r := r.timeless) ?_
    rw [Record.id_timeless, MemoryStore.record?_rowsOf, wf.record?_of_mem mem]
    rfl
  obtain ⟨gone, on⟩ := onCourse_course calm keeps wf ordered unclaimed starts turns
  obtain ⟨pending, records⟩ := on.summaries wf closed
  refine ⟨pending, records.imp ?_⟩
  rintro r a ⟨path, f, -, rfl, accounted⟩
  refine ⟨path, ?_⟩
  obtain ⟨number, record, ending⟩ := f
  cases ending with
  | finished run => exact accounted
  | aborted error => exact accounted.elim
  | panicked text => exact accounted.elim

end Batch

/-! ### A dry run beside a real one -/

/-- Holds of an outcome in a dry run and the one in a real run that it stands for. -/
structure PassReport.Foretells (o o' : PassReport) : Prop where
  pass : o.pass = o'.pass
  noBackend : o.outcome = .skipped .noBackend ↔ o'.outcome = .skipped .noBackend
  dryRun : o.outcome = .skipped .dryRun ↔
    o'.outcome.isCompleted = true ∨ o'.outcome.isFailed = true

/-- Holds of the summary of a record in a dry run and the one in a real run that it stands for. -/
structure RecordSummary.Foretells (a b : RecordSummary) : Prop where
  path : a.path = b.path
  outcomes : List.Forall₂ PassReport.Foretells a.outcomes b.outcomes

section

variable {registry : PassRegistry} {dryRun runnable : Bool} {pass : String} {o o' : PassReport}

/-- Holds of a pass that a pipeline defines, with or without a backend that can be run. -/
def PassRegistry.Defines (registry : PassRegistry) (pass : String) (runnable : Bool) : Prop :=
  ∃ d, registry.definition pass = .ok d ∧ d.backend.isRunnable = runnable

lemma PassRegistry.Defines.not (defines : registry.Defines pass runnable) :
    ¬registry.Defines pass !runnable := by
  rintro ⟨d', definition', eq'⟩
  obtain ⟨d, definition, eq⟩ := defines
  obtain rfl : d = d' := Except.ok.inj (definition.symm.trans definition')
  rw [eq] at eq'
  cases runnable <;> cases eq'

lemma Accounts.pass_eq (accounts : Accounts registry dryRun pass o) : o.pass = pass := by
  cases accounts <;> rfl

/-- What is skipped without a backend is a placeholder, in both kinds of runs. -/
lemma Accounts.noBackend_iff (accounts : Accounts registry dryRun pass o) :
    o.outcome = .skipped .noBackend ↔ registry.Defines pass false := by
  cases accounts with
  | placeholder definition placeholder => exact iff_of_true rfl ⟨_, definition, placeholder⟩
  | dry definition runnable _ =>
    exact iff_of_false nofun (PassRegistry.Defines.not ⟨_, definition, runnable⟩)
  | completed definition runnable _ =>
    exact iff_of_false nofun (PassRegistry.Defines.not ⟨_, definition, runnable⟩)
  | failed definition runnable _ =>
    exact iff_of_false nofun (PassRegistry.Defines.not ⟨_, definition, runnable⟩)

/-- What is skipped as the run is dry can be run. -/
lemma Accounts.dryRun_iff (accounts : Accounts registry true pass o) :
    o.outcome = .skipped .dryRun ↔ registry.Defines pass true := by
  cases accounts with
  | placeholder definition placeholder =>
    exact iff_of_false nofun (PassRegistry.Defines.not ⟨_, definition, placeholder⟩)
  | dry definition runnable _ => exact iff_of_true rfl ⟨_, definition, runnable⟩
  | completed _ _ real => cases real
  | failed _ _ real => cases real

/-- What is completed or failed in a real run can be run. -/
lemma Accounts.ran_iff (accounts : Accounts registry false pass o) :
    (o.outcome.isCompleted = true ∨ o.outcome.isFailed = true) ↔ registry.Defines pass true := by
  cases accounts with
  | placeholder definition placeholder =>
    refine iff_of_false ?_ (PassRegistry.Defines.not ⟨_, definition, placeholder⟩)
    rintro (completed | failed)
    · cases completed
    · cases failed
  | dry _ _ dry => cases dry
  | completed definition runnable _ => exact iff_of_true (.inl rfl) ⟨_, definition, runnable⟩
  | failed definition runnable _ => exact iff_of_true (.inr rfl) ⟨_, definition, runnable⟩

/-- The account of a pass in a dry run stands for each that there can be in a real run. -/
lemma Accounts.foretells (dry : Accounts registry true pass o)
    (real : Accounts registry false pass o') : o.Foretells o' where
  pass := dry.pass_eq.trans real.pass_eq.symm
  noBackend := dry.noBackend_iff.trans real.noBackend_iff.symm
  dryRun := dry.dryRun_iff.trans real.ran_iff.symm

end

namespace Batch

variable {β γ : Type}

/-- A dry run starts no invocation and leaves the store as it is, whatever others do beside it. Alone
with its store, and not asked to stop, it can be brought to its end, and so can a real run over the
same store whose backends do not break down. The reports then list as many pending records, the same
paths, and for each the same passes in the same order; the placeholders are the same, and the passes
that a dry run skips for being dry are those that the real run completed or that failed. -/
theorem dry_run_previews (cfg : Config) (registry : PassRegistry)
    (accepted : PassRegistry.ofConfig cfg = .ok registry) (root runId runId' : String)
    (history : List (Timestamp × Request Record RecordId)) (o : Outfit β) (o' : Outfit γ)
    (options : RunOptions) (rest : β) (rest' : γ) :
    let store := Request.performAll MemoryStore.operations history {}
    let dry : Job := ⟨registry, root, runId, true⟩
    let real : Job := ⟨registry, root, runId', false⟩
    let looking := { options with dryRun := true }
    let running := { options with dryRun := false }
    (∀ claimed happenings,
      let scene := called dry looking { store, claimed, rest }
      callsAlong o dry looking scene happenings = [] ∧
        (amid o dry looking scene happenings).2.store =
          Request.performAll MemoryStore.operations (requests happenings) store) ∧
    ((∀ w, o.isCancelled w = false) → (∀ w, o'.isCancelled w = false) →
      (o'.Answers fun _ _ reply => ∀ text, reply ≠ .panic text) → ∀ turns turns',
        let ended := (course o dry looking { store, rest } turns).1
        let ended' := (course o' real running { store, rest := rest' } turns').1
        (∃ more,
          (course o dry looking { store, rest } (turns ++ more)).1.stage = .closed) ∧
        (∃ more,
          (course o' real running { store, rest := rest' } (turns' ++ more)).1.stage = .closed) ∧
        (ended.stage = .closed → ended'.stage = .closed →
          ended.report.pending = ended'.report.pending ∧
          List.Forall₂ RecordSummary.Foretells ended.report.records ended'.report.records)) := by
  intro store dry real looking running
  obtain ⟨wf, -⟩ := MemoryStore.performAll_wellFormed MemoryStore.wellFormed_empty history
  have ordered : store.ScoresOrdered :=
    MemoryStore.performAll_scoresOrdered MemoryStore.scoresOrdered_empty history
  have nodup := PassRegistry.nodup_of_ofConfig accepted
  refine ⟨fun claimed happenings => ?_, fun calm calm' answers turns turns' => ?_⟩
  · exact amid_dry rfl (fun _ mem => absurd mem List.not_mem_nil) happenings
  · refine ⟨exists_closing_course o dry looking { store, rest } turns,
      exists_closing_course o' real running { store, rest := rest' } turns', ?_⟩
    intro closed closed'
    obtain ⟨pending, records⟩ :=
      accounted_course dry nodup calm (.inl rfl) wf ordered rfl closed
    obtain ⟨pending', records'⟩ :=
      accounted_course real nodup calm' (.inr answers) wf ordered rfl closed'
    refine ⟨pending.trans pending'.symm, ?_⟩
    refine forall₂_join records records' fun r a b account account' => ?_
    refine ⟨account.1.trans account'.1.symm, ?_⟩
    exact forall₂_join account.2 account'.2 fun _ _ _ => Accounts.foretells

/-- A pass fails on one of two records, and behind it stands a placeholder. The dry run makes no
progress, the real one completes what can be run of the other record, and they list the same. -/
theorem dry_run_previews_of_failure :
    let lint : PassConfig := { backend := .staticTool, command := some "lint" }
    let cfg : Config :=
      { db := ⟨""⟩
        pipeline := { order := ["lint", "manual"] }
        passes := [("lint", lint), ("manual", { backend := .none })] }
    let registry : PassRegistry :=
      { definitions :=
          [⟨"lint", 0, .staticTool ⟨"lint", [], .json, 120000, [0]⟩, .raw, none⟩,
            ⟨"manual", 1, .none, .raw, none⟩]
        scoringPass := none
        scoreFields := defaultScoreFields }
    let history : List (Timestamp × Request Record RecordId) :=
      [(0, .upsert ⟨"a", none, "", "", .null⟩), (0, .upsert ⟨"b", none, "", "", .null⟩)]
    let options : RunOptions := { concurrency := 2 }
    let reply := fun _ (ctx : InvocationContext) =>
      if ctx.path = "a" then Reply.error (.unavailable "lint" "gone") else .output ⟨"", .text "clean", none⟩
    let turns := (List.replicate 40 [Turn.move .coordinator, .move (.worker 0)]).flatten
    PassRegistry.ofConfig cfg = .ok registry ∧ ∃ ended ended',
      course (.replying reply) ⟨registry, "", "dry", true⟩
        { options with dryRun := true }
        { store := Request.performAll MemoryStore.operations history {}, rest := () } turns = ended ∧
      course (.replying reply) ⟨registry, "", "real", false⟩
        { options with dryRun := false }
        { store := Request.performAll MemoryStore.operations history {}, rest := () } turns = ended' ∧
      ended.1.report.noProgress = 2 ∧ ended'.1.report.fullyCompleted = 1 ∧
      ended'.1.report.noProgress = 1 ∧
      List.Forall₂ RecordSummary.Foretells ended.1.report.records ended'.1.report.records := by
  intro lint cfg registry history options reply turns
  have accepted : PassRegistry.ofConfig cfg = .ok registry := by rfl
  obtain ⟨-, previews⟩ := dry_run_previews cfg registry accepted "" "dry" "real" history
    (.replying reply) (.replying reply) options () ()
  have replies : (Outfit.replying reply).Answers fun _ _ reply => ∀ text, reply ≠ .panic text := by
    intro d ctx w actual mem
    have eq := Outfit.answers_replying reply d ctx w actual mem
    rw [eq]
    intro text panics
    simp only [reply] at panics
    split at panics <;> cases panics
  obtain ⟨-, -, foretells⟩ := previews (fun _ => rfl) (fun _ => rfl) replies turns turns
  have closed := foretells (by decide +kernel) (by decide +kernel)
  refine ⟨accepted, _, _, rfl, rfl, by decide +kernel, by decide +kernel, by decide +kernel, ?_⟩
  exact closed.2

end Batch

end Multipass
