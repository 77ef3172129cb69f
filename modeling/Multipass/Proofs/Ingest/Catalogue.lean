import Mathlib.Data.List.Nodup
import Multipass.Ingest.Summary

/-!
# Catalogues of artifacts

A store lists artifacts in rows, with one row to a path. To put an artifact is to leave its row as it
is if hash and parsed representation are those of the artifact, to refresh the row if they are not,
and to add a row if there is none. What follows for a list of artifacts is said here of rows of any
kind, and holds of every store that keeps such rows.

Main statement: `Catalogue.Keeps.ingest`.
-/

namespace Multipass

/-- How rows list artifacts: what stands in a row, how one is made and how it is refreshed. -/
structure Catalogue (ρ π : Type) where
  id : ρ → RecordId
  path : ρ → String
  source : ρ → String
  hash : ρ → String
  /-- What there is about passes and their times, which artifacts say nothing about. -/
  passes : ρ → π
  /-- Holds of a row with a value as the parsed representation. -/
  gives : ρ → Json → Bool
  make : RecordId → NewRecord → Timestamp → ρ
  refresh : ρ → NewRecord → Timestamp → ρ
  /-- Holds of the values that a row has once they were written. -/
  Fits : Json → Prop
  id_make : ∀ next new now, id (make next new now) = next := by intros; rfl
  path_make : ∀ next new now, path (make next new now) = new.path := by intros; rfl
  source_make : ∀ next new now, source (make next new now) = new.source := by intros; rfl
  hash_make : ∀ next new now, hash (make next new now) = new.hash := by intros; rfl
  gives_make : ∀ next new now, Fits new.parsed → gives (make next new now) new.parsed = true
  id_refresh : ∀ row new now, id (refresh row new now) = id row := by intros; rfl
  path_refresh : ∀ row new now, path (refresh row new now) = path row := by intros; rfl
  passes_refresh : ∀ row new now, passes (refresh row new now) = passes row := by intros; rfl
  source_refresh : ∀ row new now, source (refresh row new now) = new.source := by intros; rfl
  hash_refresh : ∀ row new now, hash (refresh row new now) = new.hash := by intros; rfl
  gives_refresh : ∀ row new now, Fits new.parsed → gives (refresh row new now) new.parsed = true

namespace Catalogue

attribute [simp] id_make path_make source_make hash_make id_refresh path_refresh passes_refresh
  source_refresh hash_refresh

variable {ρ π σ : Type}

section

variable (c : Catalogue ρ π)

/-- Holds of a row that an artifact does not change. -/
def holds (new : NewRecord) (row : ρ) : Bool :=
  c.hash row == new.hash && c.gives row new.parsed

/-- What holds of rows and the number for a new one. -/
structure Keyed (next : RecordId) (rows : List ρ) : Prop where
  ids : (rows.map c.id).Nodup
  below : ∀ row ∈ rows, c.id row < next
  paths : (rows.map c.path).Nodup

/-- What putting an artifact can come to, from the number for a new row and the rows to those
behind. -/
inductive Puts (new : NewRecord) (now : Timestamp) :
    RecordId → List ρ → UpsertOutcome → RecordId → List ρ → Prop where
  | unchanged {next rows row} :
    row ∈ rows →
    c.path row = new.path →
    c.holds new row = true →
    Puts new now next rows .unchanged next rows
  | updated {next next' front row back} :
    next ≤ next' →
    c.path row = new.path →
    c.holds new row = false →
    Puts new now next (front ++ row :: back) .updated next' (front ++ c.refresh row new now :: back)
  | inserted {next rows} :
    new.path ∉ rows.map c.path →
    Puts new now next rows .inserted (next + 1) (rows ++ [c.make next new now])

/-- What putting artifacts one after the other can come to. -/
inductive Fills (now : Timestamp) :
    RecordId → List ρ → List NewRecord → List UpsertOutcome → RecordId → List ρ → Prop where
  | nil {next rows} :
    Fills now next rows [] [] next rows
  | cons {next rows new outcome next' rows' news outcomes next'' rows''} :
    c.Puts new now next rows outcome next' rows' →
    Fills now next' rows' news outcomes next'' rows'' →
    Fills now next rows (new :: news) (outcome :: outcomes) next'' rows''

/-- What becomes of a row when some artifacts are put: the row of any other path stays as it is. -/
structure Stays (news : List NewRecord) (row row' : ρ) : Prop where
  id : c.id row' = c.id row
  path : c.path row' = c.path row
  passes : c.passes row' = c.passes row
  same : c.path row ∉ news.map NewRecord.path → row' = row

/-- What ingesting comes to, from rows to those behind, with the function that hashes were made with.
The source in a row is that of its artifact as long as earlier hashes came from that function too. -/
structure Ingested (digest : String → String) (news : List NewRecord) (now : Timestamp)
    (rows : List ρ) (summary : IngestSummary) (rows' : List ρ) : Prop where
  scanned : summary.scanned = news.length
  sum : summary.scanned = summary.inserted + summary.updated + summary.unchanged
  inserted : summary.inserted = (news.filter fun new => new.path ∉ rows.map c.path).length
  stored : ∀ new ∈ news, ∃ row ∈ rows', c.path row = new.path ∧ c.hash row = new.hash ∧
    c.gives row new.parsed = true ∧
    ((∀ old ∈ rows, c.hash old = digest (c.source old)) → c.source row = new.source)
  kept : ∀ row ∈ rows, ∃ row' ∈ rows', c.Stays news row row'
  origin : ∀ row' ∈ rows', (∃ row ∈ rows, c.Stays news row row') ∨
    ∃ new ∈ news, new.path ∉ rows.map c.path ∧ ∃ next, row' = c.make next new now

/-- Holds of a store that keeps rows, in states that are made of them. -/
def Keeps (store : ArtifactStore σ) (state : RecordId → List ρ → σ) : Prop :=
  ∀ new now next rows, c.Keyed next rows → ∃ outcome next' rows',
    store.upsert new now (state next rows) = (.ok outcome, state next' rows') ∧
    c.Puts new now next rows outcome next' rows'

end

variable {c : Catalogue ρ π} {new : NewRecord} {news : List NewRecord} {now : Timestamp}
  {next next' : RecordId} {rows rows' : List ρ} {row row' : ρ} {outcome : UpsertOutcome}
  {outcomes : List UpsertOutcome}

lemma holds_iff : c.holds new row = true ↔ c.hash row = new.hash ∧ c.gives row new.parsed = true := by
  rw [holds, Bool.and_eq_true, beq_iff_eq]

lemma holds_make (fits : c.Fits new.parsed) (next : RecordId) (now : Timestamp) :
    c.holds new (c.make next new now) = true :=
  holds_iff.2 ⟨c.hash_make next new now, c.gives_make next new now fits⟩

lemma holds_refresh (fits : c.Fits new.parsed) (row : ρ) (now : Timestamp) :
    c.holds new (c.refresh row new now) = true :=
  holds_iff.2 ⟨c.hash_refresh row new now, c.gives_refresh row new now fits⟩

/-! ### Rows that stay -/

lemma Stays.refl (news : List NewRecord) (row : ρ) : c.Stays news row row where
  id := rfl
  path := rfl
  passes := rfl
  same _ := rfl

lemma stays_refresh (eq : c.path row = new.path) (now : Timestamp) :
    c.Stays [new] row (c.refresh row new now) where
  id := c.id_refresh row new now
  path := c.path_refresh row new now
  passes := c.passes_refresh row new now
  same other := absurd (List.mem_singleton.2 eq) other

lemma Stays.trans {row'' : ρ} (stays : c.Stays [new] row row') (stays' : c.Stays news row' row'') :
    c.Stays (new :: news) row row'' where
  id := stays'.id.trans stays.id
  path := stays'.path.trans stays.path
  passes := stays'.passes.trans stays.passes
  same other := by
    rw [List.map_cons, List.mem_cons, not_or] at other
    have same : row' = row := stays.same (mt List.mem_singleton.1 other.1)
    rw [stays'.same (same ▸ other.2), same]

/-! ### One artifact -/

lemma Keyed.eq_of_path (keyed : c.Keyed next rows) (mem : row ∈ rows) (mem' : row' ∈ rows)
    (eq : c.path row = c.path row') : row = row' :=
  List.inj_on_of_nodup_map keyed.paths mem mem' eq

/-- A row that is found by its number is refreshed in its place. -/
lemma Keyed.updated (keyed : c.Keyed next rows) (mem : row ∈ rows) (eq : c.path row = new.path)
    (stale : c.holds new row = false) (le : next ≤ next') :
    c.Puts new now next rows .updated next'
      (rows.map fun r => if c.id r = c.id row then c.refresh r new now else r) := by
  obtain ⟨front, back, rfl⟩ := List.append_of_mem mem
  have ids := keyed.ids
  rw [List.map_append, List.map_cons, List.nodup_middle, List.nodup_cons, List.mem_append,
    not_or] at ids
  have others {side : List ρ} (free : c.id row ∉ side.map c.id) :
      side.map (fun r => if c.id r = c.id row then c.refresh r new now else r) = side := by
    refine (List.map_congr_left fun r mem => if_neg ?_).trans (List.map_id side)
    exact fun eq => free (eq ▸ List.mem_map_of_mem mem)
  rw [List.map_append, List.map_cons, others ids.1.1, others ids.1.2, if_pos rfl]
  exact .updated le eq stale

lemma Puts.keyed (puts : c.Puts new now next rows outcome next' rows') (keyed : c.Keyed next rows) :
    c.Keyed next' rows' := by
  cases puts with
  | unchanged => exact keyed
  | @updated _ front row back le =>
    have ids : (front ++ c.refresh row new now :: back).map c.id = (front ++ row :: back).map c.id := by
      simp
    have paths :
        (front ++ c.refresh row new now :: back).map c.path = (front ++ row :: back).map c.path := by
      simp
    refine ⟨ids ▸ keyed.ids, fun r mem => ?_, paths ▸ keyed.paths⟩
    obtain ⟨old, mem', eq⟩ := List.mem_map.1 (ids ▸ List.mem_map_of_mem (f := c.id) mem)
    exact eq ▸ Int.lt_of_lt_of_le (keyed.below old mem') le
  | inserted free =>
    refine ⟨?_, fun r mem => ?_, ?_⟩
    · rw [List.map_append, List.map_singleton, c.id_make, ← List.concat_eq_append]
      refine keyed.ids.concat fun mem => ?_
      obtain ⟨old, mem, eq⟩ := List.mem_map.1 mem
      exact Int.lt_irrefl _ (eq ▸ keyed.below old mem)
    · obtain mem | mem := List.mem_append.1 mem
      · exact Int.lt_trans (keyed.below r mem) (Int.lt_succ next)
      · rw [List.mem_singleton.1 mem, c.id_make]
        exact Int.lt_succ next
    · rw [List.map_append, List.map_singleton, c.path_make, ← List.concat_eq_append]
      exact keyed.paths.concat free

lemma Puts.mem_paths (puts : c.Puts new now next rows outcome next' rows') (path : String) :
    path ∈ rows'.map c.path ↔ path ∈ rows.map c.path ∨ path = new.path := by
  cases puts with
  | unchanged mem eq =>
    refine ⟨.inl, ?_⟩
    rintro (mem | rfl)
    · exact mem
    · exact eq ▸ List.mem_map_of_mem mem
  | updated _ eq =>
    simp only [List.map_append, List.map_cons, c.path_refresh, eq, List.mem_append, List.mem_cons]
    tauto
  | inserted => simp

lemma Puts.inserted_iff (puts : c.Puts new now next rows outcome next' rows') :
    outcome = .inserted ↔ new.path ∉ rows.map c.path := by
  cases puts with
  | unchanged mem eq => exact iff_of_false nofun (not_not_intro (eq ▸ List.mem_map_of_mem mem))
  | updated _ eq => exact iff_of_false nofun (by simp [eq])
  | inserted free => exact iff_of_true rfl free

/-- Behind an artifact there is a row that holds it: one that did so before, or one with its
source. -/
lemma Puts.stored (puts : c.Puts new now next rows outcome next' rows') (fits : c.Fits new.parsed) :
    ∃ row ∈ rows', c.path row = new.path ∧ c.holds new row = true ∧
      (row ∈ rows ∨ c.source row = new.source) := by
  cases puts with
  | @unchanged _ row mem eq held => exact ⟨row, mem, eq, held, .inl mem⟩
  | @updated _ front row back _ eq =>
    exact ⟨_, List.mem_append_right _ List.mem_cons_self, (c.path_refresh row new now).trans eq,
      holds_refresh fits row now, .inr (c.source_refresh row new now)⟩
  | inserted =>
    exact ⟨_, List.mem_append_right _ List.mem_cons_self, c.path_make next new now,
      holds_make fits next now, .inr (c.source_make next new now)⟩

lemma Puts.kept (puts : c.Puts new now next rows outcome next' rows') (mem : row ∈ rows) :
    ∃ row' ∈ rows', c.Stays [new] row row' := by
  cases puts with
  | unchanged => exact ⟨row, mem, .refl _ row⟩
  | updated _ eq =>
    simp only [List.mem_append, List.mem_cons] at mem ⊢
    obtain mem | rfl | mem := mem
    · exact ⟨row, .inl mem, .refl _ row⟩
    · exact ⟨_, .inr (.inl rfl), stays_refresh eq now⟩
    · exact ⟨row, .inr (.inr mem), .refl _ row⟩
  | inserted => exact ⟨row, List.mem_append_left _ mem, .refl _ row⟩

lemma Puts.origin (puts : c.Puts new now next rows outcome next' rows') (mem : row' ∈ rows') :
    (∃ row ∈ rows, c.Stays [new] row row') ∨
      (new.path ∉ rows.map c.path ∧ row' = c.make next new now) := by
  cases puts with
  | unchanged => exact .inl ⟨row', mem, .refl _ row'⟩
  | @updated _ front row back _ eq =>
    simp only [List.mem_append, List.mem_cons] at mem ⊢
    obtain mem | rfl | mem := mem
    · exact .inl ⟨row', .inl mem, .refl _ row'⟩
    · exact .inl ⟨row, .inr (.inl rfl), stays_refresh eq now⟩
    · exact .inl ⟨row', .inr (.inr mem), .refl _ row'⟩
  | inserted free =>
    obtain mem | mem := List.mem_append.1 mem
    · exact .inl ⟨row', mem, .refl _ row'⟩
    · exact .inr ⟨free, List.mem_singleton.1 mem⟩

/-- An artifact that a row holds changes nothing. -/
lemma Puts.eq_of_holds (puts : c.Puts new now next rows outcome next' rows')
    (keyed : c.Keyed next rows) (mem : row ∈ rows) (eq : c.path row = new.path)
    (held : c.holds new row = true) : outcome = .unchanged ∧ next' = next ∧ rows' = rows := by
  cases puts with
  | unchanged => exact ⟨rfl, rfl, rfl⟩
  | @updated _ front old back _ eq' stale =>
    have same : row = old :=
      keyed.eq_of_path mem (List.mem_append_right _ List.mem_cons_self) (eq.trans eq'.symm)
    rw [same, stale] at held
    cases held
  | inserted free => exact absurd (eq ▸ List.mem_map_of_mem mem) free

/-! ### Artifacts one after the other -/

lemma Fills.keyed (fills : c.Fills now next rows news outcomes next' rows')
    (keyed : c.Keyed next rows) : c.Keyed next' rows' := by
  induction fills with
  | nil => exact keyed
  | cons puts _ ih => exact ih (puts.keyed keyed)

lemma Fills.length (fills : c.Fills now next rows news outcomes next' rows') :
    outcomes.length = news.length := by
  induction fills with
  | nil => rfl
  | cons _ _ ih => rw [List.length_cons, List.length_cons, ih]

lemma Fills.count_inserted (fills : c.Fills now next rows news outcomes next' rows')
    (distinct : (news.map NewRecord.path).Nodup) :
    outcomes.count .inserted = (news.filter fun new => new.path ∉ rows.map c.path).length := by
  induction fills with
  | nil => rfl
  | @cons next rows new outcome next' rows' news outcomes _ _ puts _ ih =>
    rw [List.map_cons, List.nodup_cons] at distinct
    -- The paths of the other artifacts were stored before this one exactly if they are behind it.
    have others : (news.filter fun other => other.path ∉ rows'.map c.path) =
        news.filter fun other => other.path ∉ rows.map c.path := by
      refine List.filter_congr fun other mem => ?_
      have ne : other.path ≠ new.path := fun eq => distinct.1 (eq ▸ List.mem_map_of_mem mem)
      rw [decide_eq_decide, puts.mem_paths]
      simp [ne]
    rw [List.count_cons, ih distinct.2, others, List.filter_cons]
    simp only [beq_iff_eq, puts.inserted_iff, decide_eq_true_eq]
    split <;> rfl

lemma Fills.kept (fills : c.Fills now next rows news outcomes next' rows') (mem : row ∈ rows) :
    ∃ row' ∈ rows', c.Stays news row row' := by
  induction fills generalizing row with
  | nil => exact ⟨row, mem, .refl _ row⟩
  | cons puts _ ih =>
    obtain ⟨row₁, mem₁, stays⟩ := puts.kept mem
    obtain ⟨row', mem', stays'⟩ := ih mem₁
    exact ⟨row', mem', stays.trans stays'⟩

lemma Fills.origin (fills : c.Fills now next rows news outcomes next' rows')
    (distinct : (news.map NewRecord.path).Nodup) (mem : row' ∈ rows') :
    (∃ row ∈ rows, c.Stays news row row') ∨
      ∃ new ∈ news, new.path ∉ rows.map c.path ∧ ∃ next, row' = c.make next new now := by
  induction fills with
  | nil => exact .inl ⟨row', mem, .refl _ row'⟩
  | @cons next _ new _ _ _ _ _ _ _ puts _ ih =>
    rw [List.map_cons, List.nodup_cons] at distinct
    obtain ⟨row₁, mem₁, stays'⟩ | ⟨other, mem', free, made⟩ := ih distinct.2 mem
    · obtain ⟨row, mem₀, stays⟩ | ⟨free, made⟩ := puts.origin mem₁
      · exact .inl ⟨row, mem₀, stays.trans stays'⟩
      · have same : row' = row₁ := stays'.same (by rw [made, c.path_make]; exact distinct.1)
        exact .inr ⟨new, List.mem_cons_self, free, next, same.trans made⟩
    · rw [puts.mem_paths, not_or] at free
      exact .inr ⟨other, List.mem_cons_of_mem _ mem', free.1, made⟩

lemma Fills.stored (fills : c.Fills now next rows news outcomes next' rows')
    (distinct : (news.map NewRecord.path).Nodup) (fits : ∀ new ∈ news, c.Fits new.parsed)
    (mem : new ∈ news) : ∃ row ∈ rows', c.path row = new.path ∧ c.holds new row = true ∧
      (row ∈ rows ∨ c.source row = new.source) := by
  induction fills with
  | nil => cases mem
  | @cons _ rows first _ _ _ news _ _ _ puts fills ih =>
    rw [List.map_cons, List.nodup_cons] at distinct
    obtain rfl | mem := List.mem_cons.1 mem
    · obtain ⟨row, mem₁, eq, held, either⟩ := puts.stored (fits _ List.mem_cons_self)
      obtain ⟨row', mem', stays⟩ := fills.kept mem₁
      have same : row' = row := stays.same (eq ▸ distinct.1)
      exact ⟨row, same ▸ mem', eq, held, either⟩
    · obtain ⟨row, mem', eq, held, before | wrote⟩ :=
        ih distinct.2 (fun new mem => fits new (List.mem_cons_of_mem _ mem)) mem
      · have ne : c.path row ≠ first.path := fun h =>
          distinct.1 (h ▸ eq ▸ List.mem_map_of_mem mem)
        -- A row of another path than the first artifact's was there before that one.
        have old : row ∈ rows := by
          obtain ⟨row₀, mem₀, stays⟩ | ⟨-, made⟩ := puts.origin before
          · have same := stays.same (mt List.mem_singleton.1 (stays.path ▸ ne))
            exact same ▸ mem₀
          · exact absurd (made ▸ c.path_make ..) ne
        exact ⟨row, mem', eq, held, .inl old⟩
      · exact ⟨row, mem', eq, held, .inr wrote⟩

/-! ### Summaries -/

lemma foldl_count (outcomes : List UpsertOutcome) (summary : IngestSummary) :
    outcomes.foldl Ingest.count summary = {
      scanned := summary.scanned
      inserted := summary.inserted + outcomes.count .inserted
      updated := summary.updated + outcomes.count .updated
      unchanged := summary.unchanged + outcomes.count .unchanged } := by
  induction outcomes generalizing summary with
  | nil => rfl
  | cons outcome outcomes ih =>
    rw [List.foldl_cons, ih]
    cases outcome <;> simp [Ingest.count] <;> omega

lemma length_eq_counts (outcomes : List UpsertOutcome) :
    outcomes.length =
      outcomes.count .inserted + outcomes.count .updated + outcomes.count .unchanged := by
  induction outcomes with
  | nil => rfl
  | cons outcome outcomes ih =>
    rw [List.length_cons, ih]
    cases outcome <;> simp <;> omega

/-! ### Stores -/

variable {store : ArtifactStore σ} {state : RecordId → List ρ → σ} {summary : IngestSummary}

lemma Keeps.putAll (keeps : c.Keeps store state) (keyed : c.Keyed next rows)
    (news : List NewRecord) (now : Timestamp) (summary : IngestSummary) :
    ∃ outcomes next' rows', Ingest.putAll store now summary news (state next rows) =
        (.ok (outcomes.foldl Ingest.count summary), state next' rows') ∧
      c.Fills now next rows news outcomes next' rows' := by
  induction news generalizing next rows summary with
  | nil => exact ⟨[], next, rows, rfl, .nil⟩
  | cons new news ih =>
    obtain ⟨outcome, next₁, rows₁, put, puts⟩ := keeps new now next rows keyed
    obtain ⟨outcomes, next', rows', rest, fills⟩ := ih (puts.keyed keyed) (Ingest.count summary outcome)
    refine ⟨outcome :: outcomes, next', rows', ?_, .cons puts fills⟩
    rw [Ingest.putAll, put]
    exact rest

/-- Artifacts that rows hold change nothing. -/
lemma Keeps.putAll_of_holds (keeps : c.Keeps store state) (keyed : c.Keyed next rows)
    (held : ∀ new ∈ news, ∃ row ∈ rows, c.path row = new.path ∧ c.holds new row = true)
    (now : Timestamp) (summary : IngestSummary) :
    Ingest.putAll store now summary news (state next rows) =
      (.ok { summary with unchanged := summary.unchanged + news.length }, state next rows) := by
  induction news generalizing summary with
  | nil => rfl
  | cons new news ih =>
    obtain ⟨outcome, next₁, rows₁, put, puts⟩ := keeps new now next rows keyed
    obtain ⟨row, mem, eq, holds⟩ := held new List.mem_cons_self
    obtain ⟨rfl, rfl, rfl⟩ := puts.eq_of_holds keyed mem eq holds
    rw [Ingest.putAll, put]
    refine (ih (fun new mem => held new (List.mem_cons_of_mem _ mem)) _).trans ?_
    simp only [Ingest.count, List.length_cons]
    rw [Nat.add_assoc, Nat.add_comm 1]

/-- Artifacts with different paths are ingested, and then nothing is left to be done for them. -/
theorem Keeps.ingest (keeps : c.Keeps store state) (keyed : c.Keyed next rows)
    {digest : String → String} (injective : Function.Injective digest)
    (distinct : (news.map NewRecord.path).Nodup)
    (hashed : ∀ new ∈ news, new.hash = digest new.source)
    (fits : ∀ new ∈ news, c.Fits new.parsed) (now : Timestamp) :
    ∃ summary next' rows',
      Ingest.ingest store now news (state next rows) = (.ok summary, state next' rows') ∧
      c.Ingested digest news now rows summary rows' ∧ c.Keyed next' rows' ∧
      ∀ later, Ingest.ingest store later news (state next' rows') =
        (.ok { scanned := news.length, unchanged := news.length }, state next' rows') := by
  obtain ⟨outcomes, next', rows', put, fills⟩ :=
    keeps.putAll keyed news now { scanned := news.length }
  have stored {new : NewRecord} (mem : new ∈ news) := fills.stored distinct fits mem
  rw [foldl_count] at put
  refine ⟨_, next', rows', put, ?_, fills.keyed keyed, fun later => ?_⟩
  · refine {
      scanned := rfl
      sum := ?_
      inserted := ?_
      stored := ?_
      kept := fun row mem => fills.kept mem
      origin := fun row' mem => fills.origin distinct mem }
    · simp only [Nat.zero_add]
      rw [← length_eq_counts, fills.length]
    · simp only [Nat.zero_add]
      exact fills.count_inserted distinct
    · intro new mem
      obtain ⟨row, mem', eq, held, old | wrote⟩ := stored mem
      · obtain ⟨hash, given⟩ := holds_iff.1 held
        refine ⟨row, mem', eq, hash, given, fun hashes => injective ?_⟩
        rw [← hashes row old, hash, hashed new mem]
      · obtain ⟨hash, given⟩ := holds_iff.1 held
        exact ⟨row, mem', eq, hash, given, fun _ => wrote⟩
  · have held : ∀ new ∈ news, ∃ row ∈ rows', c.path row = new.path ∧ c.holds new row = true := by
      intro new mem
      obtain ⟨row, mem', eq, held, -⟩ := stored mem
      exact ⟨row, mem', eq, held⟩
    refine (keeps.putAll_of_holds (fills.keyed keyed) held later _).trans ?_
    rw [Nat.zero_add]

end Catalogue

end Multipass
