import Multipass.Proofs.Executor.Crew
import Multipass.Proofs.Executor.Exclusive
import Multipass.Proofs.Registry
import Multipass.Proofs.Store.Scores

/-!
# Ownership

Results and scores belong to records. A result is kept only under a record that is there, and goes
with it. Scores are saved without a look at the record, some time after they were read from a result
of it: if the record is deleted between the two, they are left behind without an owner.

Main statement: `Crew.run_owns`, by which this is the only way in which scores lose their record.
That it happens is shown by `Crew.scores_left_behind`.
-/

namespace Multipass

open MemoryStore (Change Gain WellFormed saveScores)

/-! ### The numbers under which a store keeps something -/

namespace MemoryStore

/-- Holds of the number of a record that was deleted. -/
structure Gone (s : MemoryStore) (id : RecordId) : Prop where
  given : id < s.nextId
  absent : id ∉ s.ids

/-- A number is not given again. -/
lemma Gone.change {s s' : MemoryStore} {id : RecordId} {c : Gain} (gone : s.Gone id)
    (change : Change s c s') (wf : s.WellFormed) : s'.Gone id where
  given := Int.lt_of_lt_of_le gone.given change.nextId_le
  absent := by
    intro mem'
    obtain ⟨r', memr, rfl⟩ := List.mem_map.1 mem'
    obtain ⟨r, mem, eq, -⟩ := (change.continues wf).origin r' memr gone.given
    exact gone.absent (eq ▸ mem_ids mem)

/-- The numbers of the records to which the scores belong. -/
def scored (s : MemoryStore) : List RecordId :=
  s.scores.map Prod.fst

lemma mem_scored_saveScores {s : MemoryStore} {id id' : RecordId} {scores : List Score}
    (mem : id' ∈ (saveScores id scores s).2.scored) : id' = id ∨ id' ∈ s.scored := by
  simp only [saveScores, scored] at mem ⊢
  induction scores generalizing s with
  | nil => exact .inr mem
  | cons score scores ih =>
    obtain eq | mem := ih (s := { s with scores := setScore id score s.scores }) mem
    · exact .inl eq
    · obtain ⟨entry, set, rfl⟩ := List.mem_map.1 mem
      obtain rfl | old := mem_setScore set
      · exact .inl rfl
      · exact .inr (List.mem_map_of_mem old)

lemma scored_upsert (s : MemoryStore) (new : NewRecord) (now : Timestamp) :
    (upsert new now s).2.scored = s.scored := by
  simp only [upsert]
  split
  · split <;> rfl
  · rfl

/-- Deleting removes the record of a path, if there is one, and nothing of another record. -/
lemma delete_cases (s : MemoryStore) (path : String) :
    (∃ r ∈ s.records, s.recordAt? path = some r ∧ (delete path s).2 = s.removed r.id) ∨
      s.recordAt? path = none ∧ (delete path s).2 = s := by
  simp only [delete]
  split
  · next none => exact .inr ⟨none, rfl⟩
  · next r found => exact .inl ⟨r, (recordAt?_eq_some found).1, found, rfl⟩

lemma mem_scored_removed {s : MemoryStore} {id id' : RecordId} :
    id' ∈ (s.removed id).scored ↔ id' ∈ s.scored ∧ id' ≠ id := by
  simp only [scored, removed, List.mem_map, List.mem_filter]
  constructor
  · rintro ⟨entry, ⟨mem, other⟩, rfl⟩
    exact ⟨⟨entry, mem, rfl⟩, by simpa using other⟩
  · rintro ⟨⟨entry, mem, rfl⟩, other⟩
    exact ⟨entry, ⟨mem, by simpa using other⟩, rfl⟩

lemma gone_removed {s : MemoryStore} (wf : s.WellFormed) {r : Record} (mem : r ∈ s.records) :
    (s.removed r.id).Gone r.id where
  given := wf.below_of_mem mem
  absent := by simp

/-- A number that was given to no record that is there has no results. -/
lemma WellFormed.resultsOf_eq_nil {s : MemoryStore} (wf : s.WellFormed) {id : RecordId}
    (absent : id ∉ s.ids) : s.resultsOf id = [] := by
  rw [resultsOf, List.map_eq_nil_iff, List.filter_eq_nil_iff]
  intro entry mem own
  exact absent (eq_of_beq own ▸ wf.owned _ (List.mem_map_of_mem mem))

lemma scoresOf_eq_nil {s : MemoryStore} {id : RecordId} (none : id ∉ s.scored) :
    s.scoresOf id = [] := by
  rw [scoresOf, List.map_eq_nil_iff, List.filter_eq_nil_iff]
  intro entry mem own
  exact none (eq_of_beq own ▸ List.mem_map_of_mem mem)

end MemoryStore

/-- Scores are read from a result. -/
lemma Score.mem_keys_of_ofLatest {s : MemoryStore} {id : RecordId} {pass : String}
    {metrics : List String} {scores : List Score}
    (read : ofLatest MemoryStore.operations id pass metrics s = .ok scores) : (id, pass) ∈ s.keys := by
  simp only [ofLatest, MemoryStore.operations] at read
  rw [← MemoryStore.latest?_isSome]
  cases found : s.latest? id pass with
  | none =>
    rw [found] at read
    cases read
  | some result => rfl

/-! ### Workers that are about to save scores -/

/-- The number of the record whose scores a worker is about to save. -/
def WorkerState.saves? : WorkerState → Option RecordId
  | .running e =>
    match e.phase with
    | .saving _ => some e.current.id
    | _ => none
  | _ => none

namespace Execution

variable {β : Type}

/-- A step changes the scores of the record alone whose scores it is about to save. -/
lemma scored_step (o : Outfit β) (job : Job) (e : Execution) (w : World β) {id : RecordId}
    (mem : id ∈ (e.step o.environment job w).2.store.scored) :
    id ∈ w.store.scored ∨ (WorkerState.running e).saves? = some id := by
  by_cases saving : ∃ scores, e.phase = .saving scores
  · obtain ⟨scores, hp⟩ := saving
    cases hr : e.remaining with
    | nil =>
      simp only [step, hr] at mem
      exact .inl mem
    | cons pass rest =>
      simp only [step, hr, stepPass, hp] at mem
      obtain rfl | mem := MemoryStore.mem_scored_saveScores mem
      · exact .inr (by simp [WorkerState.saves?, hp])
      · exact .inl mem
  · -- No other rule touches the scores.
    have t := transition_step o job e w
    generalize (e.step o.environment job w).1 = state at t
    generalize (e.step o.environment job w).2 = w' at t mem
    cases t with
    | save _ hp => exact absurd ⟨_, hp⟩ saving
    | _ => exact .inl mem

/-- A worker that comes to save scores has read them from a result of its record. -/
lemma saves?_step (o : Outfit β) (job : Job) (e : Execution) (w : World β) {id : RecordId}
    (saves : (e.step o.environment job w).1.saves? = some id) : ∃ pass, (id, pass) ∈ w.store.keys := by
  by_cases hp : e.phase = .scoring
  · cases hr : e.remaining with
    | nil =>
      simp only [step, hr] at saves
      cases saves
    | cons pass rest =>
      simp only [step, hr, stepPass, hp] at saves
      split at saves
      · next scores read =>
        cases saves
        exact ⟨pass, Score.mem_keys_of_ofLatest (s := w.store) read⟩
      · cases saves
  · -- Only scores that were read are about to be saved.
    have t := transition_step o job e w
    generalize (e.step o.environment job w).1 = state at t saves
    generalize (e.step o.environment job w).2 = w' at t
    cases t with
    | score _ hp' => exact absurd hp' hp
    | recover _ _ _ _ _ =>
      simp only [completed] at saves
      split at saves <;> cases saves
    | commit _ _ _ _ _ =>
      simp only [completed] at saves
      split at saves <;> cases saves
    | _ => cases saves

end Execution

namespace Crew

variable {β : Type}

/-- The records whose scores some worker is about to save. -/
def saving (crew : Crew β) : List RecordId :=
  crew.members.filterMap fun m => m.state.saves?

/-- The record that a move deletes while some worker is about to save scores for it. -/
def severed (crew : Crew β) : Move β → List RecordId
  | .delete path =>
    ((crew.world.store.recordAt? path).toList.map Record.id).filter fun id => id ∈ crew.saving
  | .work _ | .upsert .. | .elsewhere _ => []

/-- The records that are deleted along a sequence of moves while some worker is about to save
scores for them. -/
def severedAlong (crew : Crew β) : List (Move β) → List RecordId
  | [] => []
  | move :: moves => crew.severed move ++ (crew.step move).severedAlong moves

/-- What is about to be saved behind a move was so before, or is for a record with a result. -/
lemma saving_step (crew : Crew β) (move : Move β) {id : RecordId}
    (mem : id ∈ (crew.step move).saving) :
    id ∈ crew.saving ∨ ∃ pass, (id, pass) ∈ crew.world.store.keys := by
  cases move with
  | work place =>
    obtain ⟨same, -⟩ | ⟨m, e, -, -, next, -⟩ := crew.step_work place
    · exact .inl (same ▸ mem)
    · rw [next] at mem
      obtain ⟨m', mem', saves⟩ := List.mem_filterMap.1 mem
      obtain mem' | rfl := List.mem_or_eq_of_mem_set mem'
      · exact .inl (List.mem_filterMap.2 ⟨m', mem', saves⟩)
      · exact .inr (e.saves?_step m.outfit m.job crew.world saves)
  | upsert new now => exact .inl mem
  | delete path => exact .inl mem
  | elsewhere rest => exact .inl mem

/-- What is scored behind a step of a worker was so before, or the worker was about to save it. -/
lemma scored_work (crew : Crew β) (place : Nat) {id : RecordId}
    (mem : id ∈ (crew.step (.work place)).world.store.scored) :
    id ∈ crew.world.store.scored ∨ id ∈ crew.saving := by
  obtain ⟨same, -⟩ | ⟨m, e, hm, hs, next, -⟩ := crew.step_work place
  · exact .inl (same ▸ mem)
  · rw [next] at mem
    refine (e.scored_step m.outfit m.job crew.world mem).imp_right fun saves => ?_
    exact List.mem_filterMap.2 ⟨m, List.mem_of_getElem? hm, hs ▸ saves⟩

/-- No worker removes a record. -/
lemma ids_work (crew : Crew β) (place : Nat) :
    crew.world.store.ids ⊆ (crew.step (.work place)).world.store.ids := by
  obtain ⟨same, -⟩ | ⟨m, e, -, -, next, -⟩ := crew.step_work place
  · rw [same]
    exact List.Subset.refl _
  · rw [next]
    exact (e.transition_step m.outfit m.job crew.world).effect.ids

/-- Every move makes a change of the store. -/
lemma change_step (crew : Crew β) (move : Move β) :
    ∃ c, Change crew.world.store c (crew.step move).world.store := by
  cases move with
  | work place =>
    obtain ⟨same, -⟩ | ⟨m, e, -, -, next, -⟩ := crew.step_work place
    · rw [same]
      exact ⟨none, .same⟩
    · rw [next]
      obtain ⟨c, change, -⟩ := (e.transition_step m.outfit m.job crew.world).change
      exact ⟨c, change⟩
  | upsert new now => exact ⟨none, MemoryStore.change_upsert crew.world.store new now⟩
  | delete path => exact ⟨none, MemoryStore.change_delete crew.world.store path⟩
  | elsewhere rest => exact ⟨none, .same⟩

/-! ### Scores with an owner -/

/-- What holds of a crew: results belong to records, and so does what is scored or about to be,
unless the record is among those that were severed. -/
structure Owned (crew : Crew β) (lost : List RecordId) : Prop where
  wellFormed : crew.world.store.WellFormed
  scored : ∀ id ∈ crew.world.store.scored, id ∈ crew.world.store.ids ∨ id ∈ lost
  saving : ∀ id ∈ crew.saving, id ∈ crew.world.store.ids ∨ id ∈ lost

lemma owned_start (rest : β) (hands : List (Outfit β × Job × Record)) :
    (start { store := {}, rest } hands).Owned [] where
  wellFormed := MemoryStore.wellFormed_empty
  scored := nofun
  saving := by
    intro id mem
    obtain ⟨m, mem, saves⟩ := List.mem_filterMap.1 mem
    obtain ⟨hand, -, rfl⟩ := List.mem_map.1 mem
    cases saves

/-- A move that keeps the records keeps what is scored owned. -/
lemma Owned.of_ids {crew : Crew β} {lost : List RecordId} {move : Move β}
    (owned : crew.Owned lost) (ids : crew.world.store.ids ⊆ (crew.step move).world.store.ids)
    (scored : ∀ id ∈ (crew.step move).world.store.scored,
      id ∈ crew.world.store.scored ∨ id ∈ crew.saving) : (crew.step move).Owned lost where
  wellFormed := by
    obtain ⟨c, change⟩ := crew.change_step move
    exact change.wellFormed owned.wellFormed
  scored := by
    intro id mem
    obtain mem | mem := scored id mem
    · exact (owned.scored id mem).imp_left fun live => ids live
    · exact (owned.saving id mem).imp_left fun live => ids live
  saving := by
    intro id mem
    obtain mem | ⟨pass, kept⟩ := crew.saving_step move mem
    · exact (owned.saving id mem).imp_left fun live => ids live
    · exact .inl (ids (owned.wellFormed.owned _ kept))

/-- A deletion severs the record that it removes, if its scores are about to be saved. -/
lemma Owned.delete {crew : Crew β} {lost : List RecordId} (owned : crew.Owned lost)
    (path : String) : (crew.step (.delete path)).Owned (lost ++ crew.severed (.delete path)) := by
  show Owned { crew with world := { crew.world with store := _ } } _
  obtain ⟨r, mem, found, eq⟩ | ⟨none, eq⟩ := MemoryStore.delete_cases crew.world.store path
  · -- Of the records that were there, only this one is gone.
    have stays {id : RecordId} (ne : id ≠ r.id) (h : id ∈ crew.world.store.ids ∨ id ∈ lost) :
        id ∈ (crew.world.store.removed r.id).ids ∨ id ∈ lost ++ crew.severed (.delete path) := by
      obtain live | gone := h
      · exact .inl (by simpa using ⟨live, ne⟩)
      · exact .inr (List.mem_append_left _ gone)
    refine ⟨?_, fun id memId => ?_, fun id memId => ?_⟩
    · show WellFormed (MemoryStore.delete path crew.world.store).2
      rw [eq]
      exact owned.wellFormed.removed r.id
    · change id ∈ (MemoryStore.delete path crew.world.store).2.scored at memId
      show id ∈ (MemoryStore.delete path crew.world.store).2.ids ∨ _
      rw [eq] at memId ⊢
      obtain ⟨memId, ne⟩ := MemoryStore.mem_scored_removed.1 memId
      exact stays ne (owned.scored id memId)
    · show id ∈ (MemoryStore.delete path crew.world.store).2.ids ∨ _
      rw [eq]
      by_cases own : id = r.id
      · refine .inr (List.mem_append_right _ ?_)
        change id ∈ crew.saving at memId
        simp [severed, found, own ▸ memId, own]
      · exact stays own (owned.saving id memId)
  · have same : crew.severed (.delete path) = [] := by simp [severed, none]
    rw [same, List.append_nil]
    show Owned { crew with world := { crew.world with store := (MemoryStore.delete path _).2 } } _
    rw [eq]
    exact owned

/-- A move leaves no other record severed than one that it deletes. -/
lemma Owned.step {crew : Crew β} {lost : List RecordId} (owned : crew.Owned lost)
    (move : Move β) : (crew.step move).Owned (lost ++ crew.severed move) := by
  cases move with
  | work place =>
    rw [severed, List.append_nil]
    exact owned.of_ids (crew.ids_work place) fun id mem => crew.scored_work place mem
  | upsert new now =>
    rw [severed, List.append_nil]
    have same := MemoryStore.scored_upsert crew.world.store new now
    refine owned.of_ids (MemoryStore.upsert_keeps crew.world.store new now).1 fun id mem => ?_
    exact .inl (same ▸ mem)
  | delete path => exact owned.delete path
  | elsewhere rest =>
    rw [severed, List.append_nil]
    exact owned.of_ids (List.Subset.refl _) fun id mem => .inl mem

theorem Owned.run {crew : Crew β} {lost : List RecordId} (owned : crew.Owned lost)
    (moves : List (Move β)) : (crew.run moves).Owned (lost ++ crew.severedAlong moves) := by
  induction moves generalizing crew lost with
  | nil => simpa [Crew.run, severedAlong] using owned
  | cons move moves ih =>
    have owned' := ih (owned.step move)
    rwa [List.append_assoc] at owned'

/-! ### Records that are gone -/

/-- Holds of the number of a deleted record of which nothing is left, and nothing is about to be
saved. -/
structure Buried (crew : Crew β) (id : RecordId) : Prop where
  gone : crew.world.store.Gone id
  unscored : id ∉ crew.world.store.scored
  unsaved : id ∉ crew.saving

lemma Buried.step {crew : Crew β} {id : RecordId} (buried : crew.Buried id)
    (wf : crew.world.store.WellFormed) (move : Move β) : (crew.step move).Buried id where
  gone := by
    obtain ⟨c, change⟩ := crew.change_step move
    exact buried.gone.change change wf
  unscored := by
    intro mem
    cases move with
    | work place =>
      obtain mem | mem := crew.scored_work place mem
      · exact buried.unscored mem
      · exact buried.unsaved mem
    | upsert new now =>
      exact buried.unscored (MemoryStore.scored_upsert crew.world.store new now ▸ mem)
    | delete path =>
      change id ∈ (MemoryStore.delete path crew.world.store).2.scored at mem
      obtain ⟨r, -, -, eq⟩ | ⟨-, eq⟩ := MemoryStore.delete_cases crew.world.store path
      · rw [eq] at mem
        exact buried.unscored (MemoryStore.mem_scored_removed.1 mem).1
      · exact buried.unscored (eq ▸ mem)
    | elsewhere rest => exact buried.unscored mem
  unsaved := by
    intro mem
    obtain mem | ⟨pass, kept⟩ := crew.saving_step move mem
    · exact buried.unsaved mem
    · exact buried.gone.absent (wf.owned _ kept)

/-- What is gone stays so. -/
lemma gone_run {crew : Crew β} {id : RecordId} (wf : crew.world.store.WellFormed)
    (gone : crew.world.store.Gone id) (moves : List (Move β)) :
    (crew.run moves).world.store.WellFormed ∧ (crew.run moves).world.store.Gone id := by
  induction moves generalizing crew with
  | nil => exact ⟨wf, gone⟩
  | cons move moves ih =>
    obtain ⟨c, change⟩ := crew.change_step move
    exact ih (change.wellFormed wf) (gone.change change wf)

lemma Buried.run {crew : Crew β} {id : RecordId} (buried : crew.Buried id)
    (wf : crew.world.store.WellFormed) (moves : List (Move β)) : (crew.run moves).Buried id := by
  induction moves generalizing crew with
  | nil => exact buried
  | cons move moves ih =>
    obtain ⟨c, change⟩ := crew.change_step move
    exact ih (buried.step wf move) (change.wellFormed wf)

/-- What a deletion makes of a record: it is gone, and buried unless its scores were about to be
saved. -/
lemma gone_delete {crew : Crew β} (wf : crew.world.store.WellFormed) {path : String} {r : Record}
    (found : crew.world.store.recordAt? path = some r) :
    (crew.step (.delete path)).world.store.Gone r.id ∧
      (r.id ∉ crew.severed (.delete path) → (crew.step (.delete path)).Buried r.id) := by
  have mem := (MemoryStore.recordAt?_eq_some found).1
  obtain ⟨r', -, found', eq⟩ | ⟨none, -⟩ := MemoryStore.delete_cases crew.world.store path
  · obtain rfl := Option.some.inj (found.symm.trans found')
    have gone : (crew.step (.delete path)).world.store.Gone r.id := by
      show (MemoryStore.delete path crew.world.store).2.Gone r.id
      rw [eq]
      exact MemoryStore.gone_removed wf mem
    refine ⟨gone, fun whole => ⟨gone, ?_, fun saving => whole ?_⟩⟩
    · show r.id ∉ (MemoryStore.delete path crew.world.store).2.scored
      rw [eq]
      exact fun scored => (MemoryStore.mem_scored_removed.1 scored).2 rfl
    · change r.id ∈ crew.saving at saving
      simp [severed, found, saving]
  · rw [none] at found
    cases found

/-- In every state of a crew that starts from an empty store, all results belong to records that are
there, and so do all scores but those of records that were deleted while some worker was about to
save them. Once a record is deleted its number is never used again, and nothing is kept for it:
no results, and no scores unless they were about to be saved at that moment. -/
theorem run_owns (rest : β) (hands : List (Outfit β × Job × Record)) (moves : List (Move β)) :
    let first := start { store := {}, rest } hands
    let crew := first.run moves
    let s := crew.world.store
    (∀ entry ∈ s.results, entry.1 ∈ s.ids) ∧
      (∀ entry ∈ s.scores, entry.1 ∈ s.ids ∨ entry.1 ∈ first.severedAlong moves) ∧
      ∀ path r, s.recordAt? path = some r → ∀ later,
        let s' := ((crew.step (.delete path)).run later).world.store
        r.id ∉ s'.ids ∧ MemoryStore.operations.results r.id s' = .ok [] ∧
          (r.id ∉ crew.severed (.delete path) → MemoryStore.operations.scores r.id s' = .ok []) := by
  intro first crew s
  have owned : crew.Owned (first.severedAlong moves) := (owned_start rest hands).run moves
  refine ⟨fun entry mem => owned.wellFormed.owned _ (List.mem_map_of_mem mem),
    fun entry mem => owned.scored _ (List.mem_map_of_mem mem), ?_⟩
  intro path r found later s'
  obtain ⟨gone, buried⟩ := gone_delete owned.wellFormed found
  have wf' := (owned.step (.delete path)).wellFormed
  obtain ⟨wf'', gone'⟩ := gone_run wf' gone later
  refine ⟨gone'.absent, congrArg Except.ok (wf''.resultsOf_eq_nil gone'.absent), fun whole => ?_⟩
  exact congrArg Except.ok
    (MemoryStore.scoresOf_eq_nil ((buried whole).run wf' later).unscored)

/-- A record is deleted between the moment when a worker has read its scores and the one when it
saves them. The record and its results are gone, and the scores are there. -/
theorem scores_left_behind :
    let score : PassConfig := { backend := .staticTool, command := some "score" }
    let cfg : Config :=
      { db := ⟨""⟩
        pipeline := { order := ["score"], scoringPass := some "score", scoreFields := ["overall_score"] }
        passes := [("score", score)] }
    let registry : PassRegistry :=
      { definitions := [⟨"score", 0, .staticTool ⟨"score", [], .json, 120000, [0]⟩, .raw, none⟩]
        scoringPass := some "score"
        scoreFields := ["overall_score"] }
    let job : Job := ⟨registry, "", "run", false⟩
    let new : NewRecord := ⟨"a", none, "", "", .null⟩
    let works := Outfit.constant (.output ⟨"", .findings (.obj [("overall_score", .nat 70)]), none⟩)
    let crew := start { store := {}, rest := () } [(works, job, Record.ofNew 1 new 0)]
    let moves : List (Move Unit) := .upsert new 0 :: List.replicate 6 (.work 0)
    let s := (crew.run (moves ++ [.delete "a", .work 0])).world.store
    PassRegistry.ofConfig cfg = .ok registry ∧
      (crew.run moves).world.store.ids = [1] ∧
      s.ids = [] ∧ s.resultsOf 1 = [] ∧
      MemoryStore.operations.scores 1 s = .ok [⟨"overall_score", Number.Double.ofNat 70⟩] ∧
      ¬∀ entry ∈ s.scores, entry.1 ∈ s.ids := by
  intro score cfg registry job new works crew moves s
  exact ⟨by rfl, by decide +kernel, by decide +kernel, by decide +kernel, by decide +kernel,
    by decide +kernel⟩

end Crew

end Multipass
