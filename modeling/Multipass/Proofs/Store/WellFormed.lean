import Mathlib.Data.List.Pairwise
import Multipass.Proofs.Store.Change

/-!
# Well-formed stores in memory

The invariant of a store in memory: records stand by ascending number under numbers that were given
to them alone, paths tell records apart, each list of completed passes is free of repetitions and is
counted by the pass index, and there is at most one result of a pass of a record, which exists.

Beside it stands how a store goes on from another: numbers are never given again, and the list of a
record that stays only grows at its end.

Main statements: `Change.wellFormed` and `Change.continues` for one change, and
`performAll_wellFormed` for every sequence of requests.
-/

namespace Multipass

namespace MemoryStore

/-- What holds of every store in memory. -/
structure WellFormed (s : MemoryStore) : Prop where
  ascending : s.ids.Pairwise (· < ·)
  below : ∀ id ∈ s.ids, id < s.nextId
  paths : s.paths.Nodup
  counted : ∀ r ∈ s.records, r.completed.Nodup ∧ r.passIndex = r.completed.length
  unique : s.keys.Nodup
  owned : ∀ k ∈ s.keys, k.1 ∈ s.ids

/-- A store goes on from another: a number below those that are free was given before, to the
record that has it still, and completed passes are kept. -/
structure Continues (s s' : MemoryStore) : Prop where
  nextId_le : s.nextId ≤ s'.nextId
  origin : ∀ r' ∈ s'.records, r'.id < s.nextId →
    ∃ r ∈ s.records, r.id = r'.id ∧ r.path = r'.path ∧ r.createdAt = r'.createdAt ∧
      r.completed <+: r'.completed

/-! ### Views of changed stores -/

lemma mem_modifyRecord {s : MemoryStore} {id : RecordId} {f : Record → Record} {r' : Record} :
    r' ∈ (s.modifyRecord id f).records ↔ ∃ r ∈ s.records, r' = if r.id = id then f r else r := by
  simp [modifyRecord, eq_comm]

lemma ids_modifyRecord {s : MemoryStore} {id : RecordId} {f : Record → Record}
    (h : ∀ r, (f r).id = r.id) : (s.modifyRecord id f).ids = s.ids := by
  simp only [ids, modifyRecord, List.map_map]
  refine List.map_congr_left fun r _ => ?_
  simp only [Function.comp]
  split
  · exact h r
  · rfl

lemma paths_modifyRecord {s : MemoryStore} {id : RecordId} {f : Record → Record}
    (h : ∀ r, (f r).path = r.path) : (s.modifyRecord id f).paths = s.paths := by
  simp only [paths, modifyRecord, List.map_map]
  refine List.map_congr_left fun r _ => ?_
  simp only [Function.comp]
  split
  · exact h r
  · rfl

@[simp] lemma ids_refreshed (s : MemoryStore) (id : RecordId) (new : NewRecord)
    (now : Timestamp) : (s.refreshed id new now).ids = s.ids :=
  ids_modifyRecord fun _ => rfl

@[simp] lemma ids_completed (s : MemoryStore) (id : RecordId) (pass : String) (now : Timestamp) :
    (s.completed id pass now).ids = s.ids :=
  ids_modifyRecord fun _ => rfl

@[simp] lemma ids_inserted (s : MemoryStore) (new : NewRecord) (now : Timestamp) :
    (s.inserted new now).ids = s.ids ++ [s.nextId] := by
  simp [ids, inserted, Record.ofNew]

@[simp] lemma paths_inserted (s : MemoryStore) (new : NewRecord) (now : Timestamp) :
    (s.inserted new now).paths = s.paths ++ [new.path] := by
  simp [paths, inserted, Record.ofNew]

@[simp] lemma keys_kept (s : MemoryStore) (id : RecordId) (result : PassResult) :
    (s.kept id result).keys = s.keys ++ [(id, result.pass)] := by
  simp [keys, kept, key]

@[simp] lemma keys_dropped (s : MemoryStore) (id : RecordId) (pass : String) :
    (s.dropped id pass).keys = s.keys.filter fun k => k ≠ (id, pass) := by
  simp only [keys, dropped, List.filter_map]
  congr 1
  refine List.filter_congr fun entry _ => ?_
  rw [Bool.eq_iff_iff]
  simp [← isResultOf_iff]

lemma keys_subset_committed (s : MemoryStore) (id : RecordId) (result : PassResult)
    (now : Timestamp) :
    s.keys ⊆ (((s.completed id result.pass now).dropped id result.pass).kept id result).keys := by
  intro k mem
  rw [keys_kept, keys_dropped, List.mem_append, List.mem_filter]
  by_cases h : k = (id, result.pass)
  · exact .inr (by simp [h])
  · exact .inl ⟨mem, by simpa using h⟩

@[simp] lemma keys_removed (s : MemoryStore) (id : RecordId) :
    (s.removed id).keys = s.keys.filter fun k => k.1 ≠ id := by
  simp only [keys, removed, List.filter_map]
  congr 1
  refine List.filter_congr fun entry _ => ?_
  by_cases h : entry.1 = id <;> simp [key, h]

@[simp] lemma ids_removed (s : MemoryStore) (id : RecordId) :
    (s.removed id).ids = s.ids.filter fun other => other ≠ id := by
  simp only [ids, removed, List.filter_map]
  congr 1
  refine List.filter_congr fun r _ => ?_
  rw [Bool.eq_iff_iff]
  simp

lemma mem_ids {s : MemoryStore} {r : Record} (h : r ∈ s.records) : r.id ∈ s.ids :=
  List.mem_map_of_mem h

/-! ### Records by their numbers -/

/-- Two records with one number are one record. -/
lemma WellFormed.eq_of_id {s : MemoryStore} (wf : s.WellFormed) {r r' : Record}
    (mem : r ∈ s.records) (mem' : r' ∈ s.records) (eq : r.id = r'.id) : r = r' :=
  List.inj_on_of_nodup_map (wf.ascending.imp Int.ne_of_lt) mem mem' eq

/-- Each record is stored under its own number. -/
lemma WellFormed.record?_of_mem {s : MemoryStore} (wf : s.WellFormed) {r : Record}
    (mem : r ∈ s.records) : s.record? r.id = some r := by
  cases h : s.record? r.id with
  | none => exact absurd (mem_ids mem) (record?_eq_none.1 h)
  | some r' =>
    obtain ⟨mem', eq⟩ := record?_eq_some h
    rw [wf.eq_of_id mem' mem eq]

/-- The number of a record was given. -/
lemma WellFormed.below_of_mem {s : MemoryStore} (wf : s.WellFormed) {r : Record}
    (mem : r ∈ s.records) : r.id < s.nextId :=
  wf.below r.id (mem_ids mem)

/-- What a change within records makes of a record that stays. -/
lemma WellFormed.eq_of_mem_modifyRecord {s : MemoryStore} (wf : s.WellFormed) {id : RecordId}
    {f : Record → Record} (same_id : ∀ r, (f r).id = r.id) {r r' : Record} (mem : r ∈ s.records)
    (mem' : r' ∈ (s.modifyRecord id f).records) (eq : r'.id = r.id) :
    r' = if r.id = id then f r else r := by
  obtain ⟨r₀, mem₀, rfl⟩ := mem_modifyRecord.1 mem'
  have same : r₀.id = r.id := by
    rw [← eq]
    split
    · exact (same_id r₀).symm
    · rfl
  rw [wf.eq_of_id mem₀ mem same]

/-! ### The invariant -/

/-- A change within one record that keeps its number, its path, and the count of its passes. -/
lemma WellFormed.modifyRecord {s : MemoryStore} (wf : s.WellFormed) {id : RecordId}
    {f : Record → Record} (same_id : ∀ r, (f r).id = r.id) (same_path : ∀ r, (f r).path = r.path)
    (counted : ∀ r ∈ s.records, r.id = id →
      (f r).completed.Nodup ∧ (f r).passIndex = (f r).completed.length) :
    (s.modifyRecord id f).WellFormed where
  ascending := by rw [ids_modifyRecord same_id]; exact wf.ascending
  below := by rw [ids_modifyRecord same_id]; exact wf.below
  paths := by rw [paths_modifyRecord same_path]; exact wf.paths
  counted := by
    intro r' mem
    obtain ⟨r, memr, rfl⟩ := mem_modifyRecord.1 mem
    split
    · next eq => exact counted r memr eq
    · exact wf.counted r memr
  unique := wf.unique
  owned := by rw [ids_modifyRecord same_id]; exact wf.owned

lemma WellFormed.completed {s : MemoryStore} (wf : s.WellFormed) {stored : Record} {pass : String}
    (now : Timestamp) (mem : stored ∈ s.records) (free : pass ∉ stored.completed) :
    (s.completed stored.id pass now).WellFormed := by
  refine wf.modifyRecord (fun _ => rfl) (fun _ => rfl) fun r memr eq => ?_
  obtain rfl := wf.eq_of_id memr mem eq
  obtain ⟨nodup, index⟩ := wf.counted r memr
  refine ⟨?_, ?_⟩
  · simpa [Record.complete, List.nodup_append] using ⟨nodup, fun p h e => free (e ▸ h)⟩
  · simp [Record.complete, index]

lemma WellFormed.dropped {s : MemoryStore} (wf : s.WellFormed) (id : RecordId) (pass : String) :
    (s.dropped id pass).WellFormed :=
  { wf with
    unique := by rw [keys_dropped]; exact wf.unique.filter _
    owned := fun k mem => by
      rw [keys_dropped] at mem
      exact wf.owned k (List.mem_of_mem_filter mem) }

lemma WellFormed.kept {s : MemoryStore} (wf : s.WellFormed) {id : RecordId} {result : PassResult}
    (mem : id ∈ s.ids) (free : (id, result.pass) ∉ s.keys) : (s.kept id result).WellFormed :=
  { wf with
    unique := by
      rw [keys_kept]
      exact wf.unique.append (List.nodup_singleton _) (by simpa using free)
    owned := fun k memk => by
      rw [keys_kept, List.mem_append, List.mem_singleton] at memk
      obtain memk | rfl := memk
      · exact wf.owned k memk
      · exact mem }

lemma WellFormed.inserted {s : MemoryStore} (wf : s.WellFormed) {new : NewRecord} (now : Timestamp)
    (free : new.path ∉ s.paths) : (s.inserted new now).WellFormed where
  ascending := by
    rw [ids_inserted, List.pairwise_append]
    refine ⟨wf.ascending, List.pairwise_singleton _ _, fun id mem next eq => ?_⟩
    rw [List.mem_singleton.1 eq]
    exact wf.below id mem
  below := by
    intro id mem
    rw [ids_inserted, List.mem_append, List.mem_singleton] at mem
    obtain mem | rfl := mem
    · exact Int.lt_add_one_of_le (Int.le_of_lt (wf.below id mem))
    · exact Int.lt_succ _
  paths := by
    rw [paths_inserted]
    exact wf.paths.append (List.nodup_singleton _) (by simpa using free)
  counted := by
    intro r mem
    obtain mem | rfl := by simpa [MemoryStore.inserted] using mem
    · exact wf.counted r mem
    · simp [Record.ofNew]
  unique := wf.unique
  owned := fun k mem => by
    rw [ids_inserted]
    exact List.mem_append_left _ (wf.owned k mem)

lemma WellFormed.removed {s : MemoryStore} (wf : s.WellFormed) (id : RecordId) :
    (s.removed id).WellFormed where
  ascending := by rw [ids_removed]; exact wf.ascending.filter _
  below := by
    intro other mem
    rw [ids_removed] at mem
    exact wf.below other (List.mem_of_mem_filter mem)
  paths := wf.paths.sublist (List.filter_sublist.map _)
  counted := fun r mem => wf.counted r (List.mem_of_mem_filter mem)
  unique := by rw [keys_removed]; exact wf.unique.filter _
  owned := by
    intro k mem
    rw [keys_removed, List.mem_filter] at mem
    rw [ids_removed, List.mem_filter]
    exact ⟨wf.owned k mem.1, mem.2⟩

/-- Every change keeps a store well-formed. -/
theorem Change.wellFormed {s s' : MemoryStore} {c : Gain} (change : Change s c s')
    (wf : s.WellFormed) : s'.WellFormed := by
  cases change with
  | same => exact wf
  | insert free => exact wf.inserted _ (recordAt?_eq_none.1 free)
  | refresh mem => exact wf.modifyRecord (fun _ => rfl) (fun _ => rfl) fun r memr _ => wf.counted r memr
  | keep mem _ free => exact wf.kept (mem_ids mem) free
  | complete mem free => exact wf.completed _ mem free
  | @commit stored result now mem free =>
    refine ((wf.completed now mem free).dropped _ _).kept ?_ ?_
    · exact (ids_completed s stored.id result.pass now).symm ▸ mem_ids mem
    · simp
  | score => exact { wf with }
  | delete mem => exact wf.removed _

/-! ### How a store goes on -/

/-- What a change makes of a record that stays: the pass that is completed is appended, and the
rest of what it was given stays. -/
theorem Change.of_stays {s s' : MemoryStore} {c : Gain} (change : Change s c s')
    (wf : s.WellFormed) {r r' : Record} (mem : r ∈ s.records) (mem' : r' ∈ s'.records)
    (eq : r'.id = r.id) :
    r'.path = r.path ∧ r'.createdAt = r.createdAt ∧
      r'.completed = r.completed ++ c.passesOf r.id := by
  cases change with
  | same =>
    obtain rfl := wf.eq_of_id mem' mem eq
    simp [Gain.passesOf]
  | insert free =>
    obtain mem' | rfl := by simpa [MemoryStore.inserted] using mem'
    · obtain rfl := wf.eq_of_id mem' mem eq
      simp [Gain.passesOf]
    · exact absurd (wf.below_of_mem mem) (by simp [← eq, Record.ofNew])
  | @refresh old new now _ =>
    rw [wf.eq_of_mem_modifyRecord (f := fun r => r.refresh new now) (fun _ => rfl) mem mem' eq]
    split <;> simp [Record.refresh, Gain.passesOf]
  | keep _ _ _ =>
    obtain rfl := wf.eq_of_id mem' mem eq
    simp [Gain.passesOf]
  | @complete stored pass now _ _ =>
    rw [wf.eq_of_mem_modifyRecord (f := fun r => r.complete pass now) (fun _ => rfl) mem mem' eq]
    by_cases h : r.id = stored.id <;> simp [h, Record.complete, Gain.passesOf, eq_comm]
  | @commit stored result now _ _ =>
    -- The results that were dropped and kept leave the records as the completion left them.
    rw [wf.eq_of_mem_modifyRecord (f := fun r => r.complete result.pass now) (fun _ => rfl) mem
      mem' eq]
    by_cases h : r.id = stored.id <;> simp [h, Record.complete, Gain.passesOf, eq_comm]
  | score =>
    obtain rfl := wf.eq_of_id mem' mem eq
    simp [Gain.passesOf]
  | delete _ =>
    obtain rfl := wf.eq_of_id (List.mem_of_mem_filter mem') mem eq
    simp [Gain.passesOf]

/-- A number that appears with a change is the next one that was free, and its record has completed
nothing. -/
theorem Change.of_appears {s s' : MemoryStore} {c : Gain} (change : Change s c s')
    {r' : Record} (mem' : r' ∈ s'.records) (new : r'.id ∉ s.ids) :
    r'.id = s.nextId ∧ s'.nextId = s.nextId + 1 ∧ r'.completed = [] := by
  cases change with
  | same => exact absurd (mem_ids mem') new
  | insert free =>
    obtain mem' | rfl := by simpa [MemoryStore.inserted] using mem'
    · exact absurd (mem_ids mem') new
    · simp [Record.ofNew, MemoryStore.inserted]
  | refresh _ => exact absurd (ids_refreshed .. ▸ mem_ids mem') new
  | keep _ _ _ => exact absurd (mem_ids mem') new
  | complete _ _ => exact absurd (ids_completed .. ▸ mem_ids mem') new
  | commit _ _ => exact absurd (ids_completed .. ▸ mem_ids mem') new
  | score => exact absurd (mem_ids mem') new
  | delete _ => exact absurd (mem_ids (List.mem_of_mem_filter mem')) new

lemma Change.nextId_le {s s' : MemoryStore} {c : Gain} (change : Change s c s') :
    s.nextId ≤ s'.nextId := by
  cases change with
  | insert _ => exact Int.le_of_lt (Int.lt_succ _)
  | _ => exact Int.le_refl _

/-- A store goes on from the one before a change. -/
theorem Change.continues {s s' : MemoryStore} {c : Gain} (change : Change s c s')
    (wf : s.WellFormed) : s.Continues s' where
  nextId_le := change.nextId_le
  origin := by
    intro r' mem' lt
    by_cases old : r'.id ∈ s.ids
    · obtain ⟨r, mem, eq⟩ := List.mem_map.1 old
      obtain ⟨path, created, completed⟩ := change.of_stays wf mem mem' eq.symm
      exact ⟨r, mem, eq, path.symm, created.symm, completed ▸ List.prefix_append _ _⟩
    · obtain ⟨eq, -⟩ := change.of_appears mem' old
      exact absurd lt (by rw [eq]; exact Int.lt_irrefl _)

lemma Continues.refl (s : MemoryStore) : s.Continues s where
  nextId_le := Int.le_refl _
  origin := fun r mem _ => ⟨r, mem, rfl, rfl, rfl, List.prefix_rfl⟩

lemma Continues.trans {s s' s'' : MemoryStore} (h : s.Continues s') (h' : s'.Continues s'') :
    s.Continues s'' where
  nextId_le := Int.le_trans h.nextId_le h'.nextId_le
  origin := by
    intro r'' mem'' lt
    obtain ⟨r', mem', id', path', created', pre'⟩ :=
      h'.origin r'' mem'' (Int.lt_of_lt_of_le lt h.nextId_le)
    obtain ⟨r, mem, id, path, created, pre⟩ := h.origin r' mem' (id' ▸ lt)
    exact ⟨r, mem, id.trans id', path.trans path', created.trans created', pre.trans pre'⟩

/-- A store without contents is well-formed. -/
lemma wellFormed_empty : WellFormed {} where
  ascending := List.Pairwise.nil
  below := nofun
  paths := List.nodup_nil
  counted := nofun
  unique := List.nodup_nil
  owned := nofun

/-- Every sequence of requests keeps a store well-formed, and leads to one that goes on from it. -/
theorem performAll_wellFormed {s : MemoryStore} (wf : s.WellFormed)
    (requests : List (Timestamp × Request Record RecordId)) :
    (Request.performAll operations requests s).WellFormed ∧
      s.Continues (Request.performAll operations requests s) := by
  induction requests generalizing s with
  | nil => exact ⟨wf, .refl s⟩
  | cons r requests ih =>
    obtain ⟨c, change, -⟩ := change_perform s r.1 r.2
    obtain ⟨wf', continues⟩ := ih (change.wellFormed wf)
    exact ⟨wf', (change.continues wf).trans continues⟩

/-- What one record gains: nothing, or one pass. -/
lemma Gain.passesOf_cases (c : Gain) (id : RecordId) :
    c.passesOf id = [] ∨ ∃ pass, c = some (id, pass) ∧ c.passesOf id = [pass] := by
  cases c with
  | none => exact .inl rfl
  | some k =>
    by_cases h : k.1 = id
    · subst h
      exact .inr ⟨k.2, rfl, by simp [Gain.passesOf]⟩
    · exact .inl (by simp [Gain.passesOf, h])

/-- Every store that any sequence of requests leads to is well-formed, with each record under its
own number. It goes on from every store before it, so that no number is given to a second record.
With one more request only the next free number can appear, and the completed passes of a record
that stays are the same, or one pass more if the request asks to complete it. -/
theorem performAll_keeps_records (earlier later : List (Timestamp × Request Record RecordId))
    (now : Timestamp) (request : Request Record RecordId) :
    let before := Request.performAll operations earlier {}
    let s := Request.performAll operations later before
    let s' := (request.perform operations now s).2
    s.WellFormed ∧ (∀ r ∈ s.records, s.record? r.id = some r) ∧ before.Continues s ∧
      (∀ r' ∈ s'.records, r'.id ∉ s.ids → r'.id = s.nextId ∧ s'.nextId = s.nextId + 1) ∧
      (∀ r ∈ s.records, ∀ r' ∈ s'.records, r'.id = r.id →
        r'.path = r.path ∧
          ((r'.completed = r.completed ∧ r'.passIndex = r.passIndex) ∨
            ∃ pass, r'.completed = r.completed ++ [pass] ∧ request.Completes r.id pass)) ∧
      (∀ new, request = .upsert new → s'.results = s.results ∧
        ∀ r ∈ s.records, ∀ r' ∈ s'.records, r'.id = r.id →
          r'.completed = r.completed ∧ r'.passIndex = r.passIndex) := by
  intro before s s'
  obtain ⟨wf₀, -⟩ := performAll_wellFormed wellFormed_empty earlier
  obtain ⟨wf, continues⟩ := performAll_wellFormed wf₀ later
  obtain ⟨c, change, only⟩ := change_perform s now request
  have wf' := change.wellFormed wf
  have grows : ∀ r ∈ s.records, ∀ r' ∈ s'.records, r'.id = r.id →
      r'.path = r.path ∧
        ((r'.completed = r.completed ∧ r'.passIndex = r.passIndex) ∨
          ∃ pass, r'.completed = r.completed ++ [pass] ∧ request.Completes r.id pass) := by
    intro r mem r' mem' eq
    obtain ⟨path, -, completed⟩ := change.of_stays wf mem mem' eq
    refine ⟨path, ?_⟩
    obtain none | ⟨pass, rfl, one⟩ := c.passesOf_cases r.id
    · rw [none, List.append_nil] at completed
      exact .inl ⟨completed, by rw [(wf'.counted r' mem').2, (wf.counted r mem).2, completed]⟩
    · exact .inr ⟨pass, one ▸ completed, only (r.id, pass) rfl⟩
  refine ⟨wf, fun r mem => wf.record?_of_mem mem, continues, fun r' mem' new => ?_, grows, ?_⟩
  · obtain ⟨eq, next, -⟩ := change.of_appears mem' new
    exact ⟨eq, next⟩
  · rintro new rfl
    refine ⟨?_, fun r mem r' mem' eq => ?_⟩
    · show (upsert new now s).2.results = s.results
      simp only [upsert]
      split
      · split <;> rfl
      · rfl
    · obtain ⟨-, same | ⟨pass, -, asked⟩⟩ := grows r mem r' mem' eq
      · exact same
      · exact asked.elim

end MemoryStore

end Multipass
