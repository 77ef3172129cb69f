import Mathlib.Data.List.Nodup
import Multipass.Proofs.Batch.Inversion

/-!
# The roll of a batch

A coordinator that keeps the records of its workers by their numbers looks up the record of a worker
that it collects. Where it finds none it counts the worker without a summary. Since no number is
given twice, it always finds the record that the worker was set on: the batch goes on as if each
worker brought its record along.

Main statement: `throughBy_eq`, for a batch over any shared state, whatever becomes of that state
between its steps.
-/

namespace Multipass.Batch

variable {ω : Type}

/-- What happens next to a batch. -/
inductive Incident (ω : Type) where
  | move (move : Move)
  /-- The shared state becomes another one. -/
  | change (w : ω)

/-- A batch and its state behind what happens; a move that cannot be made changes nothing. -/
def befall (shop : Workshop ω) (job : Job) (options : RunOptions) :
    Batch × ω → Incident ω → Batch × ω
  | (b, w), .move move => (b.step shop job options w move).getD (b, w)
  | (b, _), .change w => (b, w)

/-- A batch and its state behind all that happens. -/
def through (shop : Workshop ω) (job : Job) (options : RunOptions) (scene : Batch × ω)
    (incidents : List (Incident ω)) : Batch × ω :=
  incidents.foldl (befall shop job options) scene

/-! ### Looking up records -/

/-- The records that workers were set on which are not collected, by the numbers of the workers. -/
abbrev Roll := List (Nat × Record)

namespace Roll

/-- The record of a worker. -/
def find? (roll : Roll) (number : Nat) : Option Record :=
  (List.find? (fun x => x.1 == number) roll).map Prod.snd

def erase (roll : Roll) (number : Nat) : Roll :=
  roll.filter fun x => x.1 != number

/-- The roll with the workers that one batch has beyond another one. -/
def enter (roll : Roll) (b b' : Batch) : Roll :=
  roll ++ (b'.working.drop b.working.length).map fun worker => (worker.number, worker.record)

end Roll

/-- The batch with a worker counted whose record is not known. -/
def countUnknown (b : Batch) (rest : List Finished) : Batch :=
  { b with
    ended := rest
    collected := b.collected + 1
    report := { b.report with errored := b.report.errored + 1 }
    events := b.events ++ [.finished "<unknown>" (b.collected + 1) b.report.pending 0 0] }

/-- The batch with a worker collected whose record stands in a roll. A run that is through tells
its path itself. -/
def collectBy (registry : PassRegistry) (roll : Roll) (b : Batch) (f : Finished)
    (rest : List Finished) : Batch :=
  match f.ending, roll.find? f.number with
  | .finished _, _ => collect registry b f rest
  | _, some record => collect registry b { f with record } rest
  | _, none => b.countUnknown rest

/-- A step of the coordinator that keeps a roll. -/
def coordinateBy (shop : Workshop ω) (job : Job) (options : RunOptions) (b : Batch) (roll : Roll)
    (w : ω) : Option ((Batch × Roll) × ω) :=
  match b.stage, b.ended with
  | .collecting, f :: rest | .draining, f :: rest =>
    some ((collectBy job.registry roll b f rest, roll.erase f.number), w)
  | _, _ => (coordinate shop job options b w).map fun next => ((next.1, roll.enter b next.1), next.2)

/-- A step of a batch whose coordinator keeps a roll. -/
def stepBy (shop : Workshop ω) (job : Job) (options : RunOptions) (b : Batch) (roll : Roll) (w : ω) :
    Move → Option ((Batch × Roll) × ω)
  | .coordinator => coordinateBy shop job options b roll w
  | .worker place =>
    (b.step shop job options w (.worker place)).map fun next => ((next.1, roll), next.2)

/-- A batch, its roll, and its state behind what happens. -/
def befallBy (shop : Workshop ω) (job : Job) (options : RunOptions) :
    (Batch × Roll) × ω → Incident ω → (Batch × Roll) × ω
  | ((b, roll), w), .move move => (b.stepBy shop job options roll w move).getD ((b, roll), w)
  | (rolled, _), .change w => (rolled, w)

/-- A batch, its roll, and its state behind all that happens. -/
def throughBy (shop : Workshop ω) (job : Job) (options : RunOptions) (scene : (Batch × Roll) × ω)
    (incidents : List (Incident ω)) : (Batch × Roll) × ω :=
  incidents.foldl (befallBy shop job options) scene

/-! ### Workers that are not collected -/

/-- The workers that are not collected, by their numbers. -/
def underWay (b : Batch) : Roll :=
  (b.working.map fun worker => (worker.number, worker.record)) ++
    b.ended.map fun f => (f.number, f.record)

/-- What holds of a roll: it has the workers that are not collected, and no number was given twice. -/
structure Enrolled (b : Batch) (roll : Roll) : Prop where
  perm : roll.Perm b.underWay
  nodup : (roll.map Prod.fst).Nodup
  below : ∀ x ∈ roll, x.1 < b.nextWorker

variable {shop : Workshop ω} {job : Job} {options : RunOptions} {b b' : Batch} {roll : Roll}
  {w w' : ω}

lemma enrolled_start (runId : String) (options : RunOptions) (selected : List Record) :
    Enrolled (start runId options selected) [] :=
  ⟨.refl _, List.nodup_nil, nofun⟩

/-- Nothing changes for the roll while the workers under way stay. -/
lemma Enrolled.stays (enrolled : Enrolled b roll) (same : b'.underWay.Perm b.underWay)
    (next : b'.nextWorker = b.nextWorker) : Enrolled b' roll where
  perm := enrolled.perm.trans same.symm
  nodup := enrolled.nodup
  below := by
    rw [next]
    exact enrolled.below

lemma Enrolled.find? (enrolled : Enrolled b roll) {f : Finished} (mem : f ∈ b.ended) :
    roll.find? f.number = some f.record := by
  have listed : (f.number, f.record) ∈ roll := by
    refine enrolled.perm.mem_iff.2 (List.mem_append_right _ ?_)
    exact List.mem_map_of_mem (f := fun f : Finished => (f.number, f.record)) mem
  have found : (List.find? (fun x => x.1 == f.number) roll).isSome = true :=
    List.find?_isSome.2 ⟨_, listed, beq_self_eq_true _⟩
  obtain ⟨x, h⟩ := Option.isSome_iff_exists.1 found
  have number : x.1 = f.number := by
    have number := List.find?_some h
    exact beq_iff_eq.1 number
  have same : x = (f.number, f.record) :=
    List.inj_on_of_nodup_map enrolled.nodup (List.mem_of_find?_eq_some h) listed number
  rw [Roll.find?, h, same]
  rfl

lemma enter_of_working (roll : Roll) (same : b'.working = b.working) : roll.enter b b' = roll := by
  rw [Roll.enter, same, List.drop_length]
  exact List.append_nil _

lemma Enrolled.hire (enrolled : Enrolled b roll) (record : Record) (order : List String) :
    Enrolled (b.hire record order) (roll.enter b (b.hire record order)) := by
  have entered : roll.enter b (b.hire record order) = roll ++ [(b.nextWorker, record)] := by
    simp only [Roll.enter, Batch.hire, List.drop_left, List.map_cons, List.map_nil]
  rw [entered]
  refine ⟨?_, ?_, ?_⟩
  · simp only [underWay, Batch.hire, List.map_append, List.map_cons, List.map_nil]
    refine (List.perm_append_singleton _ _).trans ?_
    rw [List.append_assoc]
    exact (enrolled.perm.cons _).trans List.perm_middle.symm
  · rw [List.map_append, List.map_singleton, ← List.concat_eq_append]
    refine enrolled.nodup.concat fun mem => ?_
    obtain ⟨x, mem, eq⟩ := List.mem_map.1 mem
    exact absurd eq (Nat.ne_of_lt (enrolled.below x mem))
  · intro x mem
    obtain mem | mem := List.mem_append.1 mem
    · exact Nat.lt_succ_of_lt (enrolled.below x mem)
    · rw [List.mem_singleton.1 mem]
      exact Nat.lt_succ_self _

lemma Enrolled.collect (enrolled : Enrolled b roll) {f : Finished} {rest : List Finished}
    (he : b.ended = f :: rest) :
    Enrolled (Batch.collect job.registry b f rest) (roll.erase f.number) := by
  have perm : roll.Perm ((f.number, f.record) :: (Batch.collect job.registry b f rest).underWay) := by
    refine enrolled.perm.trans ?_
    simp only [underWay, he, List.map_cons]
    exact List.perm_middle
  have fresh := ((perm.map Prod.fst).nodup_iff.1 enrolled.nodup)
  rw [List.map_cons, List.nodup_cons] at fresh
  refine ⟨?_, enrolled.nodup.sublist (List.filter_sublist.map _), ?_⟩
  · refine (perm.filter _).trans ?_
    rw [List.filter_cons_of_neg (by simp), List.filter_eq_self.2]
    intro x mem
    rw [bne_iff_ne]
    intro eq
    refine fresh.1 ?_
    show f.number ∈ _
    rw [← eq]
    exact List.mem_map_of_mem mem
  · exact fun x mem => enrolled.below x (List.mem_of_mem_filter mem)

lemma Enrolled.proceed (enrolled : Enrolled b roll) {place : Nat} {worker : Worker}
    (hw : b.working[place]? = some worker) (e' : Execution) :
    Enrolled (b.proceed place worker e') roll := by
  refine enrolled.stays (.append_right _ ?_) rfl
  refine ((perm_proceed hw e').map _).trans ?_
  exact ((perm_working hw).map fun worker => (worker.number, worker.record)).symm

lemma Enrolled.dismiss (enrolled : Enrolled b roll) {place : Nat} {worker : Worker}
    (hw : b.working[place]? = some worker) (ending : Ending) (w : ω) :
    Enrolled (b.dismiss shop place worker ending w).1 roll := by
  refine enrolled.stays ?_ rfl
  simp only [underWay, Batch.dismiss, List.map_append, List.map_cons, List.map_nil]
  rw [← List.append_assoc]
  refine (List.perm_append_singleton _ _).trans ?_
  have perm := (perm_working hw).map fun worker => (worker.number, worker.record)
  exact perm.symm.append_right _

/-! ### Steps -/

/-- With the roll in order, a worker is collected as if it brought its record along. -/
lemma Enrolled.collectBy_eq (enrolled : Enrolled b roll) {f : Finished} {rest : List Finished}
    (he : b.ended = f :: rest) :
    collectBy job.registry roll b f rest = Batch.collect job.registry b f rest := by
  have found := enrolled.find? (f := f) (by rw [he]; exact List.mem_cons_self)
  obtain ⟨number, record, ending⟩ := f
  cases ending with
  | finished run => rfl
  | aborted error => simp only [collectBy, found]
  | panicked text => simp only [collectBy, found]

/-- The coordinator looks at its roll only to collect. -/
lemma coordinateBy_eq (other : b.ended = [] ∨ b.stage ≠ .collecting ∧ b.stage ≠ .draining) :
    coordinateBy shop job options b roll w =
      (coordinate shop job options b w).map fun next => ((next.1, roll.enter b next.1), next.2) := by
  simp only [coordinateBy]
  split
  · next hs he =>
    obtain none | ⟨late, -⟩ := other
    · rw [he] at none
      cases none
    · exact absurd hs late
  · next hs he =>
    obtain none | ⟨-, late⟩ := other
    · rw [he] at none
      cases none
    · exact absurd hs late
  · rfl

/-- Most steps of the coordinator leave the roll as it is. -/
lemma Enrolled.keep (enrolled : Enrolled b roll)
    (h : coordinate shop job options b w = some (b', w'))
    (other : b.ended = [] ∨ b.stage ≠ .collecting ∧ b.stage ≠ .draining)
    (working : b'.working = b.working) (ended : b'.ended = b.ended)
    (next : b'.nextWorker = b.nextWorker) :
    ∃ roll', Enrolled b' roll' ∧ coordinateBy shop job options b roll w = some ((b', roll'), w') := by
  have same : b'.underWay = b.underWay := by rw [underWay, working, ended, underWay]
  refine ⟨roll, enrolled.stays (.of_eq same) next, ?_⟩
  rw [coordinateBy_eq other, h, Option.map_some, enter_of_working roll working]

lemma Enrolled.coordinate (enrolled : Enrolled b roll)
    (h : coordinate shop job options b w = some (b', w')) :
    ∃ roll', Enrolled b' roll' ∧ coordinateBy shop job options b roll w = some ((b', roll'), w') := by
  cases coordinate_inv h with
  | wait hs _ _ => exact enrolled.keep h (.inr (by rw [hs]; decide)) rfl rfl rfl
  | permit hs _ => exact enrolled.keep h (.inr (by rw [hs]; decide)) rfl rfl rfl
  | claim hs _ => exact enrolled.keep h (.inr (by rw [hs]; decide)) rfl rfl rfl
  | drain hs _ =>
    refine enrolled.keep h (.inr ?_) rfl rfl rfl
    obtain hs | hs := hs <;> rw [hs] <;> decide
  | cancel hs _ =>
    refine enrolled.keep h (.inr ?_) rfl rfl rfl
    obtain hs | hs := hs <;> rw [hs] <;> decide
  | busy hs _ _ => exact enrolled.keep h (.inr (by rw [hs]; decide)) rfl rfl rfl
  | @hire record _ hs _ _ =>
    refine ⟨_, enrolled.hire record job.registry.order, ?_⟩
    rw [coordinateBy_eq (.inr (by rw [hs]; decide)), h]
    rfl
  | @collect f rest hs he =>
    refine ⟨_, enrolled.collect he, ?_⟩
    obtain hs | hs := hs
    · simp only [coordinateBy, hs, he, enrolled.collectBy_eq he]
    · simp only [coordinateBy, hs, he, enrolled.collectBy_eq he]
  | resume _ none => exact enrolled.keep h (.inl none) rfl rfl rfl
  | finish _ none _ => exact enrolled.keep h (.inl none) rfl rfl rfl
  | close hs _ => exact enrolled.keep h (.inr (by rw [hs]; decide)) rfl rfl rfl

/-- The coordinator with a roll has to wait when the one without has to. -/
lemma coordinateBy_none (h : coordinate shop job options b w = none) :
    coordinateBy shop job options b roll w = none := by
  simp only [coordinateBy]
  split
  · next hs he => simp only [coordinate, hs, he, reduceCtorEq] at h
  · next hs he => simp only [coordinate, hs, he, reduceCtorEq] at h
  · rw [h]
    rfl

/-- With its roll in order, a batch goes on as it does without, and the roll stays in order. -/
theorem Enrolled.befall (enrolled : Enrolled b roll) (shop : Workshop ω) (job : Job)
    (options : RunOptions) (w : ω) (incident : Incident ω) :
    ∃ roll', Enrolled (Batch.befall shop job options (b, w) incident).1 roll' ∧
      befallBy shop job options ((b, roll), w) incident =
        (((Batch.befall shop job options (b, w) incident).1, roll'),
          (Batch.befall shop job options (b, w) incident).2) := by
  cases incident with
  | change w' => exact ⟨roll, enrolled, rfl⟩
  | move move =>
    simp only [Batch.befall, befallBy]
    cases h : b.step shop job options w move with
    | none =>
      refine ⟨roll, enrolled, ?_⟩
      cases move with
      | coordinator =>
        rw [stepBy, coordinateBy_none h]
        rfl
      | worker place =>
        rw [stepBy, h]
        rfl
    | some next =>
      obtain ⟨b', w'⟩ := next
      cases move with
      | coordinator =>
        obtain ⟨roll', enrolled', eq⟩ := enrolled.coordinate h
        refine ⟨roll', enrolled', ?_⟩
        rw [stepBy, eq]
        rfl
      | worker place =>
        refine ⟨roll, ?_, by rw [stepBy, h]; rfl⟩
        cases step_inv h with
        | proceed hw _ => exact enrolled.proceed hw _
        | dismiss hw _ => exact enrolled.dismiss hw _ _

/-- A batch whose coordinator keeps a roll goes on as it does without, whatever happens. -/
theorem throughBy_eq (shop : Workshop ω) (job : Job) (options : RunOptions)
    (enrolled : Enrolled b roll) (w : ω) (incidents : List (Incident ω)) :
    ∃ roll', throughBy shop job options ((b, roll), w) incidents =
      (((through shop job options (b, w) incidents).1, roll'),
        (through shop job options (b, w) incidents).2) := by
  induction incidents generalizing b roll w with
  | nil => exact ⟨roll, rfl⟩
  | cons incident incidents ih =>
    obtain ⟨roll', enrolled', eq⟩ := enrolled.befall shop job options w incident
    rw [throughBy, through, List.foldl_cons, List.foldl_cons, eq]
    exact ih enrolled' _

end Multipass.Batch
