import Mathlib.Data.List.Induction
import Mathlib.Data.String.Basic
import Multipass.Proofs.Store.Change

/-!
# Scores of a store in memory

Scores stand in ascending order by record and metric, so that a metric of a record has at most one
value. To set a score changes what is kept for its record, and there for its metric alone.

Main statements: `performAll_scoresOrdered`, by which every store keeps its scores in order,
`filter_setScore` and `filter_setScore_of_apart`, and `filter_saveScores` for the values that are
read back.
-/

namespace Multipass

namespace MemoryStore

/-- Holds when one score stands before another: by the record, then by the metric. -/
def ScoreBefore (a b : RecordId × Score) : Prop :=
  a.1 < b.1 ∨ a.1 = b.1 ∧ a.2.metric < b.2.metric

/-- Holds when the scores stand in order. -/
def ScoresOrdered (s : MemoryStore) : Prop :=
  s.scores.Pairwise ScoreBefore

variable {id : RecordId} {score : Score} {entries : List (RecordId × Score)}

lemma ScoreBefore.trans {a b c : RecordId × Score} (h : ScoreBefore a b) (h' : ScoreBefore b c) :
    ScoreBefore a c := by
  obtain lt | ⟨eq, lt⟩ := h
  · obtain lt' | ⟨eq', -⟩ := h'
    · exact .inl (Int.lt_trans lt lt')
    · exact .inl (eq' ▸ lt)
  · obtain lt' | ⟨eq', lt'⟩ := h'
    · exact .inl (eq ▸ lt')
    · exact .inr ⟨eq.trans eq', lt.trans lt'⟩

/-- Of two scores for one metric of a record, none stands before the other. -/
lemma ScoreBefore.ne {a b : RecordId × Score} (h : ScoreBefore a b) (eq : a.1 = b.1) :
    a.2.metric ≠ b.2.metric := by
  obtain lt | ⟨-, lt⟩ := h
  · exact absurd eq (Int.ne_of_lt lt)
  · exact ne_of_lt lt

/-- A score that is neither before another nor for the same metric of the same record is behind
it. -/
lemma scoreBefore_of_not {other : RecordId × Score}
    (before : ¬(id < other.1 ∨ id = other.1 ∧ score.metric < other.2.metric))
    (same : ¬(id = other.1 ∧ score.metric = other.2.metric)) : ScoreBefore other (id, score) := by
  obtain lt | eq | lt := lt_trichotomy id other.1
  · exact absurd (.inl lt) before
  · obtain lt | eq' | lt := lt_trichotomy score.metric other.2.metric
    · exact absurd (.inr ⟨eq, lt⟩) before
    · exact absurd ⟨eq, eq'⟩ same
    · exact .inr ⟨eq.symm, lt⟩
  · exact .inl lt

lemma mem_setScore {entry : RecordId × Score} (mem : entry ∈ setScore id score entries) :
    entry = (id, score) ∨ entry ∈ entries := by
  induction entries with
  | nil => exact .inl (List.mem_singleton.1 mem)
  | cons head entries ih =>
    simp only [setScore] at mem
    split at mem
    · exact List.mem_cons.1 mem
    · split at mem
      · exact (List.mem_cons.1 mem).imp_right (List.mem_cons_of_mem _)
      · obtain rfl | mem := List.mem_cons.1 mem
        · exact .inr List.mem_cons_self
        · exact (ih mem).imp_right (List.mem_cons_of_mem _)

lemma pairwise_setScore (ordered : entries.Pairwise ScoreBefore) :
    (setScore id score entries).Pairwise ScoreBefore := by
  induction entries with
  | nil => exact List.pairwise_singleton _ _
  | cons head entries ih =>
    obtain ⟨first, rest⟩ := List.pairwise_cons.1 ordered
    simp only [setScore]
    split
    · next before =>
      refine List.pairwise_cons.2 ⟨fun entry mem => ?_, ordered⟩
      obtain rfl | mem := List.mem_cons.1 mem
      · exact before
      · exact ScoreBefore.trans before (first entry mem)
    · split
      · next same =>
        refine List.pairwise_cons.2 ⟨fun entry mem => ?_, rest⟩
        have := first entry mem
        rwa [ScoreBefore, ← same.1, ← same.2] at this
      · next before same =>
        refine List.pairwise_cons.2 ⟨fun entry mem => ?_, ih rest⟩
        obtain rfl | mem := mem_setScore mem
        · exact scoreBefore_of_not before same
        · exact first entry mem

/-! ### The scores of one record -/

/-- To set a score leaves alone what is selected for other keys. -/
lemma filter_setScore_of_apart {p : RecordId × Score → Bool}
    (apart : ∀ entry, entry.1 = id → entry.2.metric = score.metric → p entry = false) :
    (setScore id score entries).filter p = entries.filter p := by
  have own : p (id, score) = false := apart _ rfl rfl
  induction entries with
  | nil => simp [setScore, own]
  | cons head entries ih =>
    simp only [setScore]
    split
    · simp [own]
    · split
      · next same => simp [own, apart head same.1.symm same.2.symm]
      · simp only [List.filter_cons, ih]

/-- To set a score among all is to set it among those of its record. -/
lemma filter_setScore (ordered : entries.Pairwise ScoreBefore) :
    ((setScore id score entries).filter fun entry => entry.1 = id) =
      setScore id score (entries.filter fun entry => entry.1 = id) := by
  induction entries with
  | nil => simp [setScore]
  | cons head entries ih =>
    obtain ⟨first, rest⟩ := List.pairwise_cons.1 ordered
    by_cases own : head.1 = id
    · have kept : ((head :: entries).filter fun entry => entry.1 = id) =
          head :: entries.filter fun entry => entry.1 = id := by simp [own]
      rw [kept]
      simp only [setScore]
      split
      · simp [own]
      · split
        · simp
        · simp [own, ih rest]
    · have dropped : ((head :: entries).filter fun entry => entry.1 = id) =
          entries.filter fun entry => entry.1 = id := by simp [own]
      rw [dropped]
      simp only [setScore]
      split
      · next before =>
        -- Behind a record with a greater number there is none with this one.
        have lt : id < head.1 := before.resolve_right fun h => own h.1.symm
        have none : (entries.filter fun entry => entry.1 = id) = [] := by
          rw [List.filter_eq_nil_iff]
          intro entry mem eq
          obtain lt' | ⟨eq', -⟩ := first entry mem
          · exact absurd (of_decide_eq_true eq) (Int.ne_of_gt (Int.lt_trans lt lt'))
          · exact own (eq'.trans (of_decide_eq_true eq))
        simp [own, none, setScore]
      · rw [if_neg fun same => own same.1.symm]
        simp [own, ih rest]

/-- The scores for one metric of a record once a score is set. -/
lemma filter_key_setScore (ordered : entries.Pairwise ScoreBefore) (metric : String) :
    ((setScore id score entries).filter fun entry => entry.1 = id ∧ entry.2.metric = metric) =
      if score.metric = metric then [(id, score)]
      else entries.filter fun entry => entry.1 = id ∧ entry.2.metric = metric := by
  -- What stands behind a score is for another metric or another record.
  have behind {a : RecordId × Score} {rest : List (RecordId × Score)}
      (first : ∀ b ∈ rest, ScoreBefore a b) :
      (rest.filter fun entry => entry.1 = a.1 ∧ entry.2.metric = a.2.metric) = [] := by
    rw [List.filter_eq_nil_iff]
    intro b mem same
    obtain ⟨eq, eq'⟩ := of_decide_eq_true same
    exact (first b mem).ne eq.symm eq'.symm
  induction entries with
  | nil => simp [setScore, List.filter_cons]
  | cons head entries ih =>
    obtain ⟨first, rest⟩ := List.pairwise_cons.1 ordered
    simp only [setScore]
    split
    · next before =>
      have after : ∀ b ∈ head :: entries, ScoreBefore (id, score) b := by
        intro b mem
        obtain rfl | mem := List.mem_cons.1 mem
        · exact before
        · exact ScoreBefore.trans before (first b mem)
      rw [List.filter_cons]
      split
      · next eq =>
        obtain ⟨-, rfl⟩ := of_decide_eq_true eq
        rw [if_pos rfl, behind after]
      · next ne => rw [if_neg fun eq => ne (by simp [eq])]
    · split
      · next same =>
        have after : ∀ b ∈ entries, ScoreBefore (id, score) b := fun b mem => by
          have := first b mem
          rwa [ScoreBefore, ← same.1, ← same.2] at this
        rw [List.filter_cons]
        split
        · next eq =>
          obtain ⟨-, rfl⟩ := of_decide_eq_true eq
          rw [if_pos rfl, behind after]
        · next ne =>
          rw [if_neg fun eq => ne (by simp [eq]), List.filter_cons_of_neg]
          simpa [← same.1, ← same.2] using ne
      · next before same =>
        by_cases eq : score.metric = metric
        · have skip : ¬(head.1 = id ∧ head.2.metric = metric) := fun h =>
            same ⟨h.1.symm, eq.trans h.2.symm⟩
          rw [List.filter_cons_of_neg (by simpa using skip), ih rest, if_pos eq, if_pos eq]
        · rw [List.filter_cons, ih rest, if_neg eq, if_neg eq, List.filter_cons]

/-! ### Scores that are saved -/

lemma pairwise_setScores (ordered : entries.Pairwise ScoreBefore) (scores : List Score) :
    (scores.foldl (fun acc score => setScore id score acc) entries).Pairwise ScoreBefore := by
  induction scores generalizing entries with
  | nil => exact ordered
  | cons score scores ih => exact ih (pairwise_setScore ordered)

lemma ScoresOrdered.saveScores {s : MemoryStore} (ordered : s.ScoresOrdered) (id : RecordId)
    (scores : List Score) : (MemoryStore.saveScores id scores s).2.ScoresOrdered :=
  pairwise_setScores ordered scores

lemma filter_setScores_of_apart {p : RecordId × Score → Bool} {scores : List Score}
    (apart : ∀ score ∈ scores, ∀ entry, entry.1 = id → entry.2.metric = score.metric →
      p entry = false) :
    (scores.foldl (fun acc score => setScore id score acc) entries).filter p = entries.filter p := by
  induction scores generalizing entries with
  | nil => rfl
  | cons score scores ih =>
    obtain ⟨head, tail⟩ := List.forall_mem_cons.1 apart
    rw [List.foldl_cons, ih tail, filter_setScore_of_apart head]

/-- Scores that are set leave the scores of other records alone. -/
lemma filter_setScores_of_ne {other : RecordId} (ne : id ≠ other) (scores : List Score) :
    ((scores.foldl (fun acc score => setScore id score acc) entries).filter
        fun entry => entry.1 = other) =
      entries.filter fun entry => entry.1 = other :=
  filter_setScores_of_apart fun _ _ _ own _ => decide_eq_false (own ▸ ne)

lemma filter_setScores (ordered : entries.Pairwise ScoreBefore) (scores : List Score) :
    ((scores.foldl (fun acc score => setScore id score acc) entries).filter
        fun entry => entry.1 = id) =
      scores.foldl (fun acc score => setScore id score acc)
        (entries.filter fun entry => entry.1 = id) := by
  induction scores generalizing entries with
  | nil => rfl
  | cons score scores ih =>
    rw [List.foldl_cons, List.foldl_cons, ih (pairwise_setScore ordered), filter_setScore ordered]

/-- Of scores of which none contradicts another, each is the one that is kept for its metric. -/
lemma filter_key_setScores (ordered : entries.Pairwise ScoreBefore) {scores : List Score}
    (consistent : ∀ a ∈ scores, ∀ b ∈ scores, a.metric = b.metric → a = b) (mem : score ∈ scores) :
    ((scores.foldl (fun acc score => setScore id score acc) entries).filter
      fun entry => entry.1 = id ∧ entry.2.metric = score.metric) = [(id, score)] := by
  -- By the last score that is set: it is this one, or it is for another metric.
  induction scores using List.reverseRecOn with
  | nil => cases mem
  | append_singleton scores last ih =>
    rw [List.foldl_append, List.foldl_cons, List.foldl_nil,
      filter_key_setScore (pairwise_setScores ordered scores)]
    split
    · next eq =>
      rw [consistent last (List.mem_append_right _ List.mem_cons_self) score mem eq]
    · next ne =>
      obtain mem | rfl := by simpa using mem
      · exact ih (fun a ha b hb => consistent a (List.mem_append_left _ ha) b
          (List.mem_append_left _ hb)) mem
      · exact absurd rfl ne

/-- What is selected from the scores of a record is selected from all scores. -/
lemma filter_scoresOf (s : MemoryStore) (id : RecordId) (p : Score → Bool) :
    (s.scoresOf id).filter p =
      (s.scores.filter fun entry => entry.1 = id ∧ p entry.2 = true).map Prod.snd := by
  simp only [scoresOf, List.filter_map, List.filter_filter]
  congr 2
  funext entry
  rw [Bool.eq_iff_iff]
  simp [and_comm]

/-- Scores of which none contradicts another are read back as they were saved. -/
lemma filter_saveScores {s : MemoryStore} (ordered : s.ScoresOrdered) {scores : List Score}
    (consistent : ∀ a ∈ scores, ∀ b ∈ scores, a.metric = b.metric → a = b) {score : Score}
    (mem : score ∈ scores) :
    (((MemoryStore.saveScores id scores s).2.scoresOf id).filter
      fun other => other.metric = score.metric) = [score] := by
  rw [filter_scoresOf]
  simp only [decide_eq_true_eq, MemoryStore.saveScores, filter_key_setScores ordered consistent mem,
    List.map_cons, List.map_nil]

/-- Scores that are saved leave the other metrics of the record alone. -/
lemma filter_saveScores_of_apart (s : MemoryStore) (id : RecordId) {scores : List Score}
    {p : Score → Bool} (apart : ∀ score ∈ scores, ∀ other : Score, other.metric = score.metric →
      p other = false) :
    ((MemoryStore.saveScores id scores s).2.scoresOf id).filter p = (s.scoresOf id).filter p := by
  rw [filter_scoresOf, filter_scoresOf]
  refine congrArg (List.map Prod.snd) (filter_setScores_of_apart fun score mem entry _ same => ?_)
  simp [apart score mem entry.2 same]

/-- Scores that are saved leave other records alone. -/
lemma scoresOf_saveScores_of_ne (s : MemoryStore) {other : RecordId} (ne : id ≠ other)
    (scores : List Score) : (MemoryStore.saveScores id scores s).2.scoresOf other =
      s.scoresOf other :=
  congrArg (List.map Prod.snd) (filter_setScores_of_ne ne scores)

/-! ### Every store -/

lemma ScoresOrdered.advance {s : MemoryStore} (ordered : s.ScoresOrdered) (record : Record)
    (pass : String) (now : Timestamp) : (MemoryStore.advance record pass now s).2.ScoresOrdered := by
  obtain ⟨_, _, _, _, h⟩ | ⟨_, _, _, _, h⟩ | ⟨_, h⟩ := advance_cases s record pass now <;>
    rw [h] <;> exact ordered

lemma ScoresOrdered.commit {s : MemoryStore} (ordered : s.ScoresOrdered) (record : Record)
    (result : PassResult) (now : Timestamp) :
    (MemoryStore.commit record result now s).2.ScoresOrdered := by
  obtain ⟨_, _, _, _, h⟩ | ⟨_, _, _, _, h⟩ | ⟨_, h⟩ := commit_cases s record result now <;>
    rw [h] <;> exact ordered

/-- Every request keeps the scores in order. -/
lemma ScoresOrdered.perform {s : MemoryStore} (ordered : s.ScoresOrdered) (now : Timestamp)
    (request : Request Record RecordId) : (request.perform operations now s).2.ScoresOrdered := by
  cases request with
  | upsert new =>
    simp only [Request.perform, Request.answering, operations, upsert]
    split
    · split <;> exact ordered
    · exact ordered
  | recordResult record result =>
    simp only [Request.perform, Request.answering, operations, recordResult]
    split
    · exact ordered
    · split <;> exact ordered
  | advance record pass => exact ordered.advance record pass now
  | commit record result => exact ordered.commit record result now
  | saveScores id scores => exact ordered.saveScores id scores
  | delete path =>
    simp only [Request.perform, Request.answering, operations, delete]
    split
    · exact ordered
    · exact ordered.filter _
  | get path => exact ordered
  | list => exact ordered
  | pending order check => exact ordered
  | results id => exact ordered
  | latest id pass => exact ordered
  | scores id => exact ordered

lemma scoresOrdered_empty : ScoresOrdered {} :=
  List.Pairwise.nil

/-- Every store that a sequence of requests leads to keeps its scores in order. -/
theorem performAll_scoresOrdered {s : MemoryStore} (ordered : s.ScoresOrdered)
    (requests : List (Timestamp × Request Record RecordId)) :
    (Request.performAll operations requests s).ScoresOrdered := by
  induction requests generalizing s with
  | nil => exact ordered
  | cons r requests ih => exact ih (ordered.perform r.1 r.2)

end MemoryStore

/-! ### Stores that keep scores -/

/-- A score with its value as a column keeps it. -/
def Score.through (column : Number.Double → Number.Double) (score : Score) : Score :=
  ⟨score.metric, column score.value⟩

/-- Holds of a store that has, in some state, the scores of a store in memory, and that saves those
of a record as that one does, if it takes their values, and changes nothing but scores. -/
structure ArtifactStore.KeepsScores {σ : Type} (store : ArtifactStore σ)
    (takes : Number.Double → Prop) (column : Number.Double → Number.Double) (unscored : σ → σ)
    (id : RecordId) (s : σ) (shown : MemoryStore) : Prop where
  ordered : shown.ScoresOrdered
  scores (other : RecordId) : store.scores other s = .ok (shown.scoresOf other)
  saves (scores : List Score) (taken : ∀ score ∈ scores, takes score.value) :
    ∃ s', store.saveScores id scores s = (.ok (), s') ∧ unscored s' = unscored s ∧
    ∀ other, store.scores other s' =
      .ok ((MemoryStore.saveScores id (scores.map (·.through column)) shown).2.scoresOf other)

/-- The store without scores. -/
def MemoryStore.unscored (s : MemoryStore) : MemoryStore :=
  { s with scores := [] }

lemma MemoryStore.ScoresOrdered.keepsScores {s : MemoryStore} (ordered : s.ScoresOrdered)
    (id : RecordId) :
    operations.KeepsScores (fun _ => True) (fun value => value) MemoryStore.unscored id s s where
  ordered := ordered
  scores _ := rfl
  saves scores _ := by
    have whole : scores.map (·.through fun value => value) = scores := List.map_id' scores
    exact ⟨_, rfl, rfl, fun other => by rw [whole]; rfl⟩

end Multipass
