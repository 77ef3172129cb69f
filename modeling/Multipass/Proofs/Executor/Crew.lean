import Multipass.Proofs.Executor.InStep

/-!
# Crews

Any number of workers on one store in memory, each with a record as it was once seen, a pipeline,
and an outfit of its own. Whoever is to move makes one step; between the steps records are ingested
and deleted, and the rest of the world changes as it likes.

Main statement: `Crew.run_keeps_in_step`, for a crew that starts from a store in step.
-/

namespace Multipass

/-- A worker of a crew. -/
structure Member (β : Type) where
  outfit : Outfit β
  job : Job
  /-- The record as it was once seen. -/
  record : Record
  state : WorkerState

namespace Member

variable {β : Type}

/-- A worker that has not begun with a record. -/
def start (outfit : Outfit β) (job : Job) (record : Record) : Member β where
  outfit := outfit
  job := job
  record := record
  state := .running (.start record job.registry.order)

/-- A step of a worker, as long as it is under way. -/
def step (m : Member β) (w : World β) : Member β × World β :=
  match m.state with
  | .running e =>
    let (state, w) := e.step m.outfit.environment m.job w
    ({ m with state }, w)
  | _ => (m, w)

end Member

/-- Workers in a world. -/
structure Crew (β : Type) where
  world : World β
  members : List (Member β)

namespace Crew

open MemoryStore (Change Gain Spent WellFormed)

variable {β : Type}

/-- What happens next. -/
inductive Move (β : Type) where
  /-- The worker in a place makes a step. -/
  | work (place : Nat)
  | upsert (new : NewRecord) (now : Timestamp)
  | delete (path : String)
  /-- The world changes outside the store. -/
  | elsewhere (rest : β)

/-- A crew that has not begun, with a record for each worker. -/
def start (w : World β) (hands : List (Outfit β × Job × Record)) : Crew β where
  world := w
  members := hands.map fun (outfit, job, record) => .start outfit job record

/-- The crew behind a move; to move a worker that is not there changes nothing. -/
def step (crew : Crew β) : Move β → Crew β
  | .work place =>
    match crew.members[place]? with
    | some m =>
      let (m, w) := m.step crew.world
      { world := w, members := crew.members.set place m }
    | none => crew
  | .upsert new now => { crew with world := (World.operations.upsert new now crew.world).2 }
  | .delete path => { crew with world := (World.operations.delete path crew.world).2 }
  | .elsewhere rest => { crew with world := { crew.world with rest } }

/-- The crew behind a sequence of moves. -/
def run (crew : Crew β) (moves : List (Move β)) : Crew β :=
  moves.foldl step crew

/-- The outcomes `completed` that are reported with a move: by the worker in which place, for which
record, and for which pass. -/
def reported (crew : Crew β) : Move β → List (Nat × RecordId × String)
  | .work place =>
    match crew.members[place]? with
    | some m =>
      (m.state.completedSince (m.step crew.world).1.state).map fun pass => (place, m.record.id, pass)
    | none => []
  | _ => []

/-- The outcomes `completed` that are reported along a sequence of moves. -/
def reportedAlong (crew : Crew β) : List (Move β) → List (Nat × RecordId × String)
  | [] => []
  | move :: moves => crew.reported move ++ (crew.step move).reportedAlong moves

/-- The passes that are added to records along a sequence of moves. -/
def addedAlong (crew : Crew β) : List (Move β) → List (RecordId × String)
  | [] => []
  | move :: moves =>
    crew.world.store.additions (crew.step move).world.store ++ (crew.step move).addedAlong moves

/-! ### One move -/

/-- A worker that is to move makes a step if it is there and under way; otherwise nothing changes. -/
lemma step_work (crew : Crew β) (place : Nat) :
    (crew.step (.work place) = crew ∧ crew.reported (.work place) = []) ∨
      ∃ m e, crew.members[place]? = some m ∧ m.state = .running e ∧
        let after := e.step m.outfit.environment m.job crew.world
        crew.step (.work place) =
          { world := after.2, members := crew.members.set place { m with state := after.1 } } ∧
        crew.reported (.work place) =
          (WorkerState.completedSince (.running e) after.1).map fun pass =>
            (place, m.record.id, pass) := by
  cases hm : crew.members[place]? with
  | none => exact .inl (by simp [step, reported, hm])
  | some m =>
    -- Once it is over, a worker makes no more steps.
    have ended (h : m.step crew.world = (m, crew.world)) :
        crew.step (.work place) = crew ∧ crew.reported (.work place) = [] := by
      obtain ⟨lt, rfl⟩ := List.getElem?_eq_some_iff.1 hm
      simp [step, reported, hm, h]
    cases hs : m.state with
    | running e =>
      exact .inr ⟨m, e, rfl, hs, by simp [step, hm, Member.step, hs],
        by simp [reported, hm, Member.step, hs]⟩
    | finished run => exact .inl (ended (by simp [Member.step, hs]))
    | aborted error => exact .inl (ended (by simp [Member.step, hs]))
    | panicked text => exact .inl (ended (by simp [Member.step, hs]))

/-- What holds of a crew on a store in step. -/
structure Sound (crew : Crew β) : Prop where
  wellFormed : crew.world.store.WellFormed
  inStep : crew.world.store.InStep
  members : ∀ m ∈ crew.members, m.state.Sound m.record.id crew.world.store

lemma sound_start {w : World β} (wf : w.store.WellFormed) (inStep : w.store.InStep)
    (hands : List (Outfit β × Job × Record)) : (start w hands).Sound where
  wellFormed := wf
  inStep := inStep
  members := by
    intro m mem
    obtain ⟨⟨outfit, job, record⟩, -, rfl⟩ := List.mem_map.1 mem
    exact Execution.sound_start record job.registry.order w.store

/-- Workers stay sound when others change the store. -/
lemma Sound.others {crew : Crew β} {s' : MemoryStore} {c : Gain} (sound : crew.Sound)
    (change : Change crew.world.store c s') : ∀ m ∈ crew.members, m.state.Sound m.record.id s' :=
  fun m mem => (sound.members m mem).change change sound.wellFormed

/-- A step of a worker keeps a crew sound. -/
lemma Sound.work {crew : Crew β} (sound : crew.Sound) (place : Nat) :
    (crew.step (.work place)).Sound ∧
      ∃ c, Change crew.world.store c (crew.step (.work place)).world.store ∧
        (crew.reported (.work place)).map Prod.snd = c.toList := by
  obtain ⟨same, quiet⟩ | ⟨m, e, hm, hs, next, report⟩ := crew.step_work place
  · rw [same, quiet]
    exact ⟨sound, none, .same, rfl⟩
  · have soundm := sound.members m (List.mem_of_getElem? hm)
    rw [hs] at soundm
    obtain ⟨c, change, inStep, stays, eq⟩ :=
      (Execution.transition_step m.outfit m.job e crew.world).keeps soundm sound.wellFormed
        sound.inStep
    rw [next, report, List.map_map]
    refine ⟨⟨change.wellFormed sound.wellFormed, inStep, fun m' mem' => ?_⟩, c, change, eq⟩
    obtain mem' | rfl := List.mem_or_eq_of_mem_set mem'
    · exact sound.others change m' mem'
    · exact stays

/-- A move keeps a crew sound. It makes one change of the store, and what is reported as completed
is exactly what the change completes. -/
theorem Sound.step {crew : Crew β} (sound : crew.Sound) (move : Move β) :
    (crew.step move).Sound ∧ ∃ c, Change crew.world.store c (crew.step move).world.store ∧
      (crew.reported move).map Prod.snd = c.toList := by
  cases move with
  | work place => exact sound.work place
  | upsert new now =>
    have change := MemoryStore.change_upsert crew.world.store new now
    exact ⟨⟨change.wellFormed sound.wellFormed, sound.inStep.upsert sound.wellFormed new now,
      sound.others change⟩, none, change, rfl⟩
  | delete path =>
    have change := MemoryStore.change_delete crew.world.store path
    exact ⟨⟨change.wellFormed sound.wellFormed, sound.inStep.delete path, sound.others change⟩,
      none, change, rfl⟩
  | elsewhere rest => exact ⟨⟨sound.wellFormed, sound.inStep, sound.members⟩, none, .same, rfl⟩

/-! ### Sequences of moves -/

/-- A crew stays sound, on a store that goes on from the one it began with. -/
theorem Sound.run {crew : Crew β} (sound : crew.Sound) (moves : List (Move β)) :
    (crew.run moves).Sound ∧ crew.world.store.Continues (crew.run moves).world.store := by
  induction moves generalizing crew with
  | nil => exact ⟨sound, .refl _⟩
  | cons move moves ih =>
    obtain ⟨sound', c, change, -⟩ := sound.step move
    obtain ⟨sound'', continues⟩ := ih sound'
    exact ⟨sound'', (change.continues sound.wellFormed).trans continues⟩

/-- What is reported as completed along a sequence of moves is what is added along it. -/
theorem Sound.reportedAlong_eq {crew : Crew β} (sound : crew.Sound) (moves : List (Move β)) :
    (crew.reportedAlong moves).map Prod.snd = crew.addedAlong moves := by
  induction moves generalizing crew with
  | nil => rfl
  | cons move moves ih =>
    obtain ⟨sound', c, change, eq⟩ := sound.step move
    rw [reportedAlong, addedAlong, List.map_append, eq, change.additions_eq sound.wellFormed,
      ih sound']

/-- Nothing is added twice along a sequence of moves, and nothing that was spent before. -/
theorem Sound.addedAlong_nodup {crew : Crew β} (sound : crew.Sound) (moves : List (Move β)) :
    (crew.addedAlong moves).Nodup ∧ ∀ k ∈ crew.addedAlong moves, ¬ crew.world.store.Spent k := by
  induction moves generalizing crew with
  | nil => exact ⟨List.nodup_nil, nofun⟩
  | cons move moves ih =>
    obtain ⟨sound', c, change, -⟩ := sound.step move
    obtain ⟨nodup, fresh⟩ := ih sound'
    have later : ∀ k ∈ (crew.step move).addedAlong moves, ¬ crew.world.store.Spent k :=
      fun k mem spent => fresh k mem (spent.change change sound.wellFormed)
    rw [addedAlong, change.additions_eq sound.wellFormed]
    cases c with
    | none => exact ⟨nodup, later⟩
    | some k =>
      refine ⟨List.nodup_cons.2 ⟨fun mem => fresh k mem (change.spent sound.wellFormed), nodup⟩, ?_⟩
      intro k' mem
      obtain rfl | mem := List.mem_cons.1 mem
      · exact change.not_spent
      · exact later k' mem

/-- In every state of a crew that starts from any store in step, with records as they may have been
at any time: the lists of completed passes are those of the results, without repetition and with
their lengths as indices; no list loses what was on it before; and the outcomes `completed` that the
workers report are the passes that are added, each record and pass once. -/
theorem run_keeps_in_step (history : List (Timestamp × Request Record RecordId)) (rest : β)
    (hands : List (Outfit β × Job × Record)) (earlier later : List (Move β))
    (inStep : (Request.performAll MemoryStore.operations history {}).InStep) :
    let crew := start { store := Request.performAll MemoryStore.operations history {}, rest } hands
    let moves := earlier ++ later
    let before := (crew.run earlier).world.store
    let s := (crew.run moves).world.store
    (∀ r ∈ s.records, r.completed.Nodup ∧ r.passIndex = r.completed.length ∧
      ∃ results, MemoryStore.operations.results r.id s = .ok results ∧
        results.map PassResult.pass = r.completed) ∧
      (∀ r ∈ before.records, ∀ r' ∈ s.records, r'.id = r.id → r.completed <+: r'.completed) ∧
      (crew.reportedAlong moves).map Prod.snd = crew.addedAlong moves ∧
      ((crew.reportedAlong moves).map Prod.snd).Nodup := by
  intro crew moves before s
  obtain ⟨wf, -⟩ := MemoryStore.performAll_wellFormed MemoryStore.wellFormed_empty history
  have sound : crew.Sound := sound_start wf inStep hands
  obtain ⟨soundBefore, -⟩ := sound.run earlier
  obtain ⟨soundAfter, -⟩ := sound.run moves
  have continues : before.Continues s := by
    have runs : crew.run moves = (crew.run earlier).run later := List.foldl_append
    show before.Continues (crew.run moves).world.store
    rw [runs]
    exact (soundBefore.run later).2
  refine ⟨fun r mem => ?_, fun r mem r' mem' eq => ?_, sound.reportedAlong_eq moves, ?_⟩
  · obtain ⟨nodup, index⟩ := soundAfter.wellFormed.counted r mem
    exact ⟨nodup, index, _, rfl, soundAfter.inStep r mem⟩
  · have given : r'.id < before.nextId := eq ▸ soundBefore.wellFormed.below_of_mem mem
    obtain ⟨old, memOld, eqOld, -, -, pre⟩ := continues.origin r' mem' given
    rw [soundBefore.wellFormed.eq_of_id memOld mem (eqOld.trans eq)] at pre
    exact pre
  · rw [sound.reportedAlong_eq moves]
    exact (sound.addedAlong_nodup moves).1

/-- Two workers with the same outdated record both call the backend, and one of them reports that it
completed the pass. -/
theorem run_keeps_in_step_of_race :
    let new : NewRecord := ⟨"a", none, "", "", .null⟩
    let record := Record.ofNew 1 new 0
    let history : List (Timestamp × Request Record RecordId) :=
      [(0, .upsert new), (0, .commit record ⟨"facts", "", .text "", none, 0, 0⟩)]
    let store := Request.performAll MemoryStore.operations history {}
    let hand := (Outfit.constant (.output ⟨"", .text "clean", none⟩), Job.single "lint", record)
    let crew := start { store, rest := () } [hand, hand]
    let moves := [0, 1, 0, 1, 0, 1, 0, 1, 1, 0, 1, 0].map Move.work
    store.InStep ∧ crew.reportedAlong moves = [(1, 1, "lint")] ∧
      (crew.run moves).world.store.passesKept 1 = ["facts", "lint"] ∧
      ((crew.reportedAlong moves).map Prod.snd).Nodup := by
  intro new record history store hand crew moves
  have inStep : store.InStep := by decide
  obtain ⟨-, -, -, nodup⟩ := run_keeps_in_step history () [hand, hand] [] moves inStep
  exact ⟨inStep, by decide, by decide, nodup⟩

end Crew

end Multipass
