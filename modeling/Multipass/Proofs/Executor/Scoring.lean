import Multipass.Proofs.Executor.Keeping

/-!
# Scores behind interruptions

The scores of a record are saved behind the completion of the scoring pass, and a completed pass is
not taken up again. A worker that is cut off between the two leaves scores that nobody saves any
more; as long as none is, the scores of a completed scoring pass are those in its latest result.

Main statement: `Attempt.scored_of_paid`. That the condition is needed is shown by
`Attempt.scores_lost`.
-/

namespace Multipass

open MemoryStore (ScoresOrdered)

/-! ### Scores in a payload -/

namespace Score

variable {fields : List (String × Json)} {metrics : List String} {scores : List Score}

lemma metric_of_read {metric : String} {score : Score} (h : read fields metric = .ok score) :
    score.metric = metric := by
  simp only [read] at h
  split at h
  · cases h
  · split at h <;> cases h
    rfl

/-- Each score is what is read under its metric. -/
lemma read_of_mem_readAll (h : readAll fields metrics = .ok scores) :
    ∀ score ∈ scores, read fields score.metric = .ok score := by
  induction metrics generalizing scores with
  | nil =>
    cases h
    exact nofun
  | cons metric metrics ih =>
    simp only [readAll] at h
    split at h
    · cases h
    · next first hf =>
      split at h
      · cases h
      · next rest hr =>
        cases h
        refine List.forall_mem_cons.2 ⟨?_, ih hr⟩
        rw [metric_of_read hf]
        exact hf

/-- No score contradicts another. -/
lemma consistent_of_readAll (h : readAll fields metrics = .ok scores) :
    ∀ a ∈ scores, ∀ b ∈ scores, a.metric = b.metric → a = b := by
  intro a ha b hb eq
  have ra := read_of_mem_readAll h a ha
  rw [eq, read_of_mem_readAll h b hb] at ra
  exact (Except.ok.inj ra).symm

lemma consistent_of_ofLatest {s : MemoryStore} {id : RecordId} {pass : String}
    (h : ofLatest MemoryStore.operations id pass metrics s = .ok scores) :
    ∀ a ∈ scores, ∀ b ∈ scores, a.metric = b.metric → a = b := by
  simp only [ofLatest] at h
  split at h
  · cases h
  · cases h
  · split at h
    · cases h
    · simp only [ofPayload] at h
      split at h
      · exact consistent_of_readAll h
      · cases h

lemma ofLatest_congr {s s' : MemoryStore} {id : RecordId} {pass : String}
    (same : s'.latest? id pass = s.latest? id pass) (metrics : List String) :
    ofLatest MemoryStore.operations id pass metrics s' =
      ofLatest MemoryStore.operations id pass metrics s := by
  simp only [ofLatest, MemoryStore.operations, same]

end Score

/-! ### Scores of a completed scoring pass -/

/-- Holds when a record, once a pass is completed, has the scores in the latest result of the pass,
each metric with its value and no other. -/
def Scored (metrics : List String) (id : RecordId) (pass : String) (s : MemoryStore) : Prop :=
  ∀ r, s.record? id = some r → pass ∈ r.completed →
    ∀ scores, Score.ofLatest MemoryStore.operations id pass metrics s = .ok scores →
      ∀ score ∈ scores,
        ((s.scoresOf id).filter fun other => other.metric = score.metric) = [score]

variable {metrics : List String} {id : RecordId} {pass other : String} {s s' : MemoryStore}

lemma Scored.completed (scored : Scored metrics id pass s) (ne : other ≠ pass) (now : Timestamp) :
    Scored metrics id pass (s.completed id other now) := by
  intro r' stored done
  rw [MemoryStore.record?_completed, Option.map_eq_some_iff] at stored
  obtain ⟨r, stored, rfl⟩ := stored
  obtain done | eq := List.mem_append.1 done
  · exact scored r stored done
  · exact absurd (List.mem_singleton.1 eq).symm ne

lemma latest?_committed (result : PassResult) (ne : result.pass ≠ pass) (now : Timestamp) :
    (s.committed id result now).latest? id pass = s.latest? id pass := by
  have others (entry : RecordId × PassResult) :
      (!MemoryStore.isResultOf id result.pass entry && MemoryStore.isResultOf id pass entry) =
        MemoryStore.isResultOf id pass entry := by
    rw [Bool.eq_iff_iff]
    simp only [Bool.and_eq_true, Bool.not_eq_true', and_iff_right_iff_imp]
    intro own
    rw [Bool.eq_false_iff, Ne, MemoryStore.isResultOf_iff]
    rw [MemoryStore.isResultOf_iff] at own
    exact fun eq => ne (congrArg Prod.snd (eq.symm.trans own))
  have last : MemoryStore.isResultOf id pass (id, result) = false := by
    simp [MemoryStore.isResultOf, ne]
  simp only [MemoryStore.latest?, MemoryStore.committed, MemoryStore.kept, MemoryStore.dropped,
    List.reverse_append, List.reverse_singleton, List.singleton_append, List.find?_cons, last,
    ← List.filter_reverse, List.find?_filter, Bool.decide_and, Bool.decide_eq_true, others]
  rfl

lemma Scored.committed (scored : Scored metrics id pass s) (result : PassResult)
    (ne : result.pass ≠ pass) (now : Timestamp) :
    Scored metrics id pass (s.committed id result now) := by
  intro r stored done scores read
  rw [Score.ofLatest_congr (latest?_committed result ne now)] at read
  exact scored.completed ne now r stored done scores read

/-- A record has the scores in the latest result once they are saved. -/
lemma scored_saveScores (ordered : s.ScoresOrdered) {scores : List Score}
    (read : Score.ofLatest MemoryStore.operations id pass metrics s = .ok scores) :
    Scored metrics id pass (MemoryStore.saveScores id scores s).2 := by
  intro r _ _ again reread score mem
  have same : scores = again := Except.ok.inj (read.symm.trans reread)
  exact MemoryStore.filter_saveScores ordered (Score.consistent_of_ofLatest read) (same ▸ mem)

/-! ### The invariant -/

/-- How a worker stands to the scores of its record: they are not missing, or it is about to read
them, or about to save them. -/
inductive Standing (metrics : List String) (id : RecordId) (pass : String) (e : Execution)
    (s : MemoryStore) : Prop where
  | quiet :
    e.phase.isScoring = false →
    Scored metrics id pass s →
    Standing metrics id pass e s
  | scoring :
    e.phase = .scoring →
    e.remaining.head? = some pass →
    Standing metrics id pass e s
  | saving {scores} :
    e.phase = .saving scores →
    e.remaining.head? = some pass →
    Score.ofLatest MemoryStore.operations id pass metrics s = .ok scores →
    Standing metrics id pass e s

lemma Standing.scored {e : Execution} (standing : Standing metrics id pass e s)
    (quiet : e.phase.isScoring = false) : Scored metrics id pass s := by
  cases standing with
  | quiet _ scored => exact scored
  | scoring hp _ => simp [hp, Phase.isScoring] at quiet
  | saving hp _ _ => simp [hp, Phase.isScoring] at quiet

/-- What holds of a worker and the scores of its record. A result that is about to be committed is
one of the pass at hand. -/
def Pays (metrics : List String) (id : RecordId) (pass : String) : WorkerState → MemoryStore → Prop
  | .running e, s =>
    s.ScoresOrdered ∧ Standing metrics id pass e s ∧
      ∀ result ∈ e.phase.result?, e.remaining.head? = some result.pass
  | _, s => s.ScoresOrdered ∧ Scored metrics id pass s

section

variable {given : PassDefinition → InvocationContext → Reply → Prop} {stop : Bool} {job : Job}
  {e : Execution} {rest : List String}

lemma pays_quiet {e' : Execution} (ordered : s.ScoresOrdered) (scored : Scored metrics id pass s)
    (quiet : e'.phase.isScoring = false) (idle : e'.phase.result? = none) :
    Pays metrics id pass (.running e') s :=
  ⟨ordered, .quiet quiet scored, fun result mem => by simp [idle] at mem⟩

lemma pays_prepared (ordered : s.ScoresOrdered) (scored : Scored metrics id pass s)
    (d : PassDefinition) (prior : List PassResult) :
    Pays metrics id pass (.running (e.prepared job d prior)) s := by
  simp only [Execution.prepared]
  split
  · exact pays_quiet ordered scored rfl rfl
  · exact pays_quiet ordered scored rfl rfl

/-- Behind the completion of the scoring pass its scores are about to be read. -/
lemma pays_completed (scoring : job.registry.scoringPass = some pass)
    (hr : e.remaining = other :: rest) (ordered : s.ScoresOrdered) (updated : Record)
    (next : other ≠ pass → Scored metrics id pass s') (same : s'.scores = s.scores) :
    Pays metrics id pass (.running (e.completed job other updated)) s' := by
  replace ordered : s'.ScoresOrdered := by
    rw [MemoryStore.ScoresOrdered, same]
    exact ordered
  by_cases eq : other = pass
  · subst eq
    have own : job.registry.isScoringPass other = true := by
      simp [PassRegistry.isScoringPass, scoring]
    simp only [Execution.completed, own, if_true]
    refine ⟨ordered, .scoring rfl ?_, fun _ mem => by simp [Execution.enter, Phase.result?] at mem⟩
    show e.remaining.head? = some other
    rw [hr, List.head?_cons]
  · have foreign : job.registry.isScoringPass other = false := by
      simp [PassRegistry.isScoringPass, scoring, Ne.symm eq]
    simp only [Execution.completed, foreign]
    exact pays_quiet ordered (next eq) rfl rfl

end

/-- A step of a worker leaves no scores behind. -/
theorem pays_step {given : PassDefinition → InvocationContext → Reply → Prop} {stop : Bool}
    {job : Job} {e : Execution} {state : WorkerState}
    (scoring : job.registry.scoringPass = some pass) (own : e.current.id = id)
    (pays : Pays job.registry.scoreFields id pass (.running e) s)
    (rule : Execution.Rule given stop job e s state s') :
    Pays job.registry.scoreFields id pass state s' := by
  subst own
  obtain ⟨ordered, standing, committing⟩ := pays
  have scored {phase : Phase} (hp : e.phase = phase) (quiet : phase.isScoring = false) :
      Scored job.registry.scoreFields e.current.id pass s := standing.scored (hp ▸ quiet)
  cases rule with
  | finish hr =>
    cases standing with
    | quiet _ scored => exact ⟨ordered, scored⟩
    | scoring _ head => simp [hr] at head
    | saving _ head _ => simp [hr] at head
  | cancel _ hp _ => exact pays_quiet ordered (scored hp rfl) rfl rfl
  | reject _ hp _ _ => exact pays_quiet ordered (scored hp rfl) rfl rfl
  | skip _ hp _ _ _ => exact pays_quiet ordered (scored hp rfl) rfl rfl
  | gather _ hp _ _ _ _ => exact pays_quiet ordered (scored hp rfl) rfl rfl
  | prepare _ hp _ _ _ _ => exact pays_prepared ordered (scored hp rfl) _ _
  | read _ hp => exact pays_prepared ordered (scored hp rfl) _ _
  | find _ hp _ => exact pays_quiet ordered (scored hp rfl) rfl rfl
  | miss _ hp _ => exact pays_quiet ordered (scored hp rfl) rfl rfl
  | call _ hp => exact pays_quiet ordered (scored hp rfl) rfl rfl
  | abandon _ hp _ => exact pays_quiet ordered (scored hp rfl) rfl rfl
  | receive hr hp _ =>
    refine ⟨ordered, .quiet rfl (scored hp rfl), fun result mem => ?_⟩
    obtain rfl := Option.some.inj mem
    show e.remaining.head? = some _
    rw [hr, List.head?_cons]
    rfl
  | fail _ hp _ => exact pays_quiet ordered (scored hp rfl) rfl rfl
  | panic _ hp _ => exact ⟨ordered, scored hp rfl⟩
  | @recover other _ _ _ hr hp _ _ =>
    have next (ne : other ≠ pass) := (scored hp rfl).completed ne 0
    exact pays_completed scoring hr ordered _ next rfl
  | recoverLate _ hp _ _ => exact pays_quiet ordered (scored hp rfl) rfl rfl
  | recoverGone _ hp _ => exact ⟨ordered, scored hp rfl⟩
  | @commit other _ _ result _ hr hp _ _ =>
    have head := committing result (by rw [hp]; rfl)
    rw [hr, List.head?_cons, Option.some.injEq] at head
    have next (ne : other ≠ pass) := (scored hp rfl).committed result (head ▸ ne) 0
    exact pays_completed scoring hr ordered _ next rfl
  | commitLate _ hp _ _ => exact pays_quiet ordered (scored hp rfl) rfl rfl
  | commitGone _ hp _ => exact ⟨ordered, scored hp rfl⟩
  | score hr hp read =>
    cases standing with
    | quiet quiet _ => simp [hp, Phase.isScoring] at quiet
    | scoring _ head =>
      have eq := head
      rw [hr, List.head?_cons, Option.some.injEq] at eq
      refine ⟨ordered, .saving rfl head (eq ▸ read), fun _ mem => ?_⟩
      simp [Execution.enter, Phase.result?] at mem
    | saving hp' _ _ => cases hp.symm.trans hp'
  | refuse hr hp refused =>
    cases standing with
    | quiet quiet _ => simp [hp, Phase.isScoring] at quiet
    | scoring _ head =>
      rw [hr, List.head?_cons, Option.some.injEq] at head
      have scored : Scored job.registry.scoreFields e.current.id pass s := by
        intro _ _ _ scores read
        rw [← head, refused] at read
        cases read
      exact pays_quiet ordered scored rfl rfl
    | saving hp' _ _ => cases hp.symm.trans hp'
  | save hr hp =>
    cases standing with
    | quiet quiet _ => simp [hp, Phase.isScoring] at quiet
    | scoring hp' _ => cases hp.symm.trans hp'
    | saving hp' _ read =>
      cases hp.symm.trans hp'
      exact pays_quiet (ordered.saveScores _ _) (scored_saveScores ordered read) rfl rfl

/-! ### Attempts one after the other -/

/-- Holds of a worker that is between the completion of the scoring pass and its scores. -/
def WorkerState.owesScores : WorkerState → Bool
  | .running e => e.phase.isScoring
  | _ => false

lemma Phase.isScoring_plain (phase : Phase) : phase.plain.isScoring = phase.isScoring := by
  cases phase <;> rfl

lemma WorkerState.owesScores_plain (state : WorkerState) :
    state.plain.owesScores = state.owesScores := by
  cases state with
  | running e => exact e.phase.isScoring_plain
  | _ => rfl

lemma Pays.scored {state : WorkerState} (pays : Pays metrics id pass state s)
    (paid : state.owesScores = false) : Scored metrics id pass s := by
  cases state with
  | running e => exact pays.2.1.scored paid
  | _ => exact pays.2

/-- The rows of a record say whether it has its scores. -/
lemma scored_rowsOf {β : Type} (w : World β) :
    Scored metrics id pass (w.store.rowsOf id) ↔
      ∀ r, w.store.record? id = some r → pass ∈ r.completed →
        ∀ scores, Score.ofLatest World.operations id pass metrics w = .ok scores →
          ∀ score ∈ scores,
            ((w.store.scoresOf id).filter fun other => other.metric = score.metric) = [score] := by
  simp only [Scored, MemoryStore.record?_rowsOf, MemoryStore.scoresOf_rowsOf,
    Execution.ofLatest_rowsOf, Option.map_eq_some_iff]
  constructor
  · exact fun scored r stored => scored r.timeless ⟨r, stored, rfl⟩
  · rintro scored _ ⟨r, stored, rfl⟩
    exact scored r stored

namespace Attempt

variable {β : Type} {job : Job}

/-- How the workers of some attempts, one after the other, end or are cut off, and the world behind
them. Each has the record as it was at some time. -/
def ends (job : Job) : World β → List (Record × Attempt β) → List WorkerState × World β
  | w, [] => ([], w)
  | w, (r, a) :: attempts =>
    let (state, w) := a.run job r w
    let (states, w) := ends job w attempts
    (state :: states, w)

/-- An attempt that leaves no scores behind leaves the record with its scores. -/
lemma scored_run (scoring : job.registry.scoringPass = some pass) (a : Attempt β) {r : Record}
    (own : r.id = id) {w : World β} (wf : w.store.WellFormed) (ordered : w.store.ScoresOrdered)
    (scored : Scored job.registry.scoreFields id pass (w.store.rowsOf id)) :
    (a.run job r w).2.store.WellFormed ∧ (a.run job r w).2.store.ScoresOrdered ∧
      ((a.run job r w).1.owesScores = false →
        Scored job.registry.scoreFields id pass ((a.run job r w).2.store.rowsOf id)) := by
  have keeps (stop : Bool) : Keeps (a.outfit.flagged stop) (a.job job) id
      (Pays (a.job job).plain.registry.scoreFields id pass) := by
    have answers : (a.outfit.flagged stop).Answers fun _ _ _ => True := fun _ _ _ _ _ => trivial
    have scoring' : (a.job job).plain.registry.scoringPass = some pass := scoring
    exact keeps_of_rules answers (fun _ => rfl) fun _ _ _ _ own pays rule =>
      pays_step scoring' own pays rule
  have upheld : Upheld id (Pays job.registry.scoreFields id pass)
      (.running (.start r job.registry.order)) w := by
    refine ⟨wf, ordered, ?_, pays_quiet (ordered.filter _) scored rfl rfl⟩
    rintro _ ⟨⟩
    exact own
  have left := upheld.attempt (keeps false) (keeps true) fun _ _ pays => pays
  refine ⟨left.wellFormed, left.ordered, fun paid => left.holds.scored ?_⟩
  rw [WorkerState.owesScores_plain]
  exact paid

/-- Attempts that leave no scores behind leave the record with its scores. -/
lemma scored_ends (scoring : job.registry.scoringPass = some pass)
    {attempts : List (Record × Attempt β)} (own : ∀ attempt ∈ attempts, attempt.1.id = id)
    {w : World β} (wf : w.store.WellFormed) (ordered : w.store.ScoresOrdered)
    (scored : Scored job.registry.scoreFields id pass (w.store.rowsOf id))
    (paid : ∀ state ∈ (ends job w attempts).1, state.owesScores = false) :
    Scored job.registry.scoreFields id pass ((ends job w attempts).2.store.rowsOf id) := by
  induction attempts generalizing w with
  | nil => exact scored
  | cons attempt attempts ih =>
    obtain ⟨r, a⟩ := attempt
    obtain ⟨ownHead, ownTail⟩ := List.forall_mem_cons.1 own
    obtain ⟨paidHead, paidTail⟩ := List.forall_mem_cons.1 paid
    obtain ⟨wf', ordered', scored'⟩ := a.scored_run scoring ownHead wf ordered scored
    exact ih ownTail wf' ordered' (scored' paidHead) paidTail

/-- Scores are not lost as long as no worker is cut off between the completion of the scoring pass
and its scores: once that pass is completed, and its latest result has a number for each score, the
record has these scores and no others of their metrics. -/
theorem scored_of_paid (scoring : job.registry.scoringPass = some pass)
    (history : List (Timestamp × Request Record RecordId)) (id : RecordId)
    (attempts : List (Record × Attempt β)) (own : ∀ attempt ∈ attempts, attempt.1.id = id)
    (rest : β) :
    let store := Request.performAll MemoryStore.operations history {}
    let ended := ends job { store, rest } attempts
    (∀ r, store.record? id = some r → pass ∉ r.completed) →
    (∀ state ∈ ended.1, state.owesScores = false) →
    ∀ r, ended.2.store.record? id = some r → pass ∈ r.completed →
      ∀ scores,
        Score.ofLatest World.operations id pass job.registry.scoreFields ended.2 = .ok scores →
        ∀ score ∈ scores,
          ((ended.2.store.scoresOf id).filter fun other => other.metric = score.metric) =
            [score] := by
  intro store ended free paid
  rw [← scored_rowsOf]
  obtain ⟨wf, -⟩ := MemoryStore.performAll_wellFormed MemoryStore.wellFormed_empty history
  have ordered : store.ScoresOrdered :=
    MemoryStore.performAll_scoresOrdered MemoryStore.scoresOrdered_empty history
  have scored : Scored job.registry.scoreFields id pass (store.rowsOf id) :=
    (scored_rowsOf { store, rest }).2 fun r stored done => absurd done (free r stored)
  exact scored_ends scoring own wf ordered scored paid

/-- A first worker is cut off before it commits the scoring pass, and the second one completes it and
saves its scores. -/
theorem scored_of_paid_of_cut :
    let registry := { (Job.single "score").registry with
      scoringPass := some "score", scoreFields := ["overall_score"] }
    let job := { Job.single "score" with registry }
    let new : NewRecord := ⟨"a", none, "", "", .null⟩
    let record := Record.ofNew 1 new 0
    let store := Request.performAll MemoryStore.operations [(0, .upsert new)] {}
    let works := Outfit.constant (.output ⟨"", .findings (.obj [("overall_score", .nat 70)]), none⟩)
    let cut : Attempt Unit := ⟨works, "1", List.replicate 4 (), []⟩
    let last : Attempt Unit := ⟨works, "2", List.replicate 8 (), []⟩
    let ended := ends job { store, rest := () } [(record, cut), (record, last)]
    (∀ state ∈ ended.1, state.owesScores = false) ∧
      (ended.2.store.record? record.id).map Record.completed = some ["score"] ∧
      (ended.2.store.scoresOf record.id).filter (fun other => other.metric = "overall_score") =
        [⟨"overall_score", Number.Double.ofNat 70⟩] := by
  intro registry job new record store works cut last ended
  have free : ∀ r, store.record? record.id = some r → "score" ∉ r.completed := by
    intro r stored
    obtain rfl : record = r := Option.some.inj stored
    exact nofun
  have own : ∀ attempt ∈ [(record, cut), (record, last)], attempt.1.id = record.id := by
    rintro _ (_ | ⟨_, _ | ⟨_, ⟨⟩⟩⟩) <;> rfl
  have paid : ∀ state ∈ ended.1, state.owesScores = false := by decide +kernel
  have completed : (ended.2.store.record? record.id).map Record.completed = some ["score"] := by
    decide +kernel
  have read : Score.ofLatest World.operations record.id "score" ["overall_score"] ended.2 =
      .ok [⟨"overall_score", Number.Double.ofNat 70⟩] := by
    decide +kernel
  obtain ⟨r, stored, eq⟩ := Option.map_eq_some_iff.1 completed
  have done : "score" ∈ r.completed := eq ▸ List.mem_cons_self
  have scoring : job.registry.scoringPass = some "score" := rfl
  have scored := scored_of_paid scoring [(0, .upsert new)] record.id
    [(record, cut), (record, last)] own () free paid r stored done _ read _ List.mem_cons_self
  exact ⟨paid, completed, scored⟩

/-- A worker is cut off between the completion of the scoring pass and its scores. The next one finds
nothing left to do and ends; the record has no scores, whatever its result holds. -/
theorem scores_lost :
    let score : PassConfig := { backend := .staticTool, command := some "score" }
    let cfg : Config :=
      { db := ⟨""⟩
        pipeline := { order := ["score"], scoringPass := some "score", scoreFields := ["overall_score"] }
        passes := [("score", score)] }
    let registry : PassRegistry :=
      { definitions := [⟨"score", 0, .staticTool ⟨"score", [], .json, 120000, [0]⟩, .raw, none⟩]
        scoringPass := some "score"
        scoreFields := ["overall_score"] }
    let job : Job := ⟨registry, "", "run", false⟩
    let new : NewRecord := ⟨"a", none, "", "", .null⟩
    let record := Record.ofNew 1 new 0
    let store := Request.performAll MemoryStore.operations [(0, .upsert new)] {}
    let works := Outfit.constant (.output ⟨"", .findings (.obj [("overall_score", .nat 70)]), none⟩)
    let cut : Attempt Unit := ⟨works, "1", List.replicate 5 (), []⟩
    let between := (cut.run job record { store, rest := () }).2
    PassRegistry.ofConfig cfg = .ok registry ∧
      (store.record? record.id).map Record.completed = some [] ∧
      ∃ again, between.store.recordAt? record.path = some again ∧
        let last := runMissing works.environment job again between
        (∃ run, last.1 = .finished run) ∧
        (last.2.store.record? record.id).map Record.completed = some ["score"] ∧
        Score.ofLatest World.operations record.id "score" registry.scoreFields last.2 =
          .ok [⟨"overall_score", Number.Double.ofNat 70⟩] ∧
        last.2.store.scoresOf record.id = [] := by
  intro score cfg registry job new record store works cut between
  have found : (between.store.recordAt? record.path).isSome = true := by decide +kernel
  obtain ⟨again, found⟩ := Option.isSome_iff_exists.1 found
  have missing : (between.store.recordAt? record.path).map (fun again => again.missing ["score"]) =
      some [] := by
    decide +kernel
  rw [found, Option.map_some, Option.some.injEq] at missing
  -- Nothing is left to do, so the last worker ends with its first step.
  have none : (Execution.start again job.registry.order).remaining = [] := missing
  have last : runMissing works.environment job again between =
      (.finished { path := again.path, completed := again.completed }, between) := by
    have step : (Execution.start again job.registry.order).step works.environment job between =
        (.finished { path := again.path, completed := again.completed }, between) := by
      simp only [Execution.step, none]
      rfl
    rw [runMissing, Execution.run]
    split
    · next h => cases step.symm.trans h
    · exact step
  refine ⟨by rfl, by decide +kernel, again, found, ?_⟩
  simp only [last]
  exact ⟨⟨_, rfl⟩, by decide +kernel, by decide +kernel, by decide +kernel⟩

end Attempt

end Multipass
