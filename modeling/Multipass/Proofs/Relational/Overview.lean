import Mathlib.Algebra.BigOperators.Group.List.Lemmas
import Multipass.Config.Load
import Multipass.Proofs.Batch.Report
import Multipass.Proofs.Relational.Completion
import Multipass.Proofs.Relational.History
import Multipass.Proofs.Relational.Usages

/-!
# Overviews of what is stored

A database that was made and saw nothing but requests, whose results have counts of 64 bits. Its
overview ends in front of the table of passes exactly when the tokens of some pass do not fit in 64
bits with a sign, though each count does without one. Otherwise the table has a line for each name of
the order, each time that it stands there, and for each other name with a result; the first line of a
name shows all its results and tokens, and each further one none.

Main statements: `comes_overview`, `overview_tokens` and `overview_rows`.
-/

namespace Multipass

namespace Relational

/-! ### Stored results -/

/-- The results of all rows. -/
def Database.storedResults (db : Database) : Except StoreError (List PassResult) :=
  match db.results with
  | none => .error (.database (.noSuchTable resultsTable))
  | some results => readAll ResultRow.result results.rows

end Relational

/-- All tokens that a result took, none if it has no usage. -/
def PassResult.tokens (r : PassResult) : Nat :=
  r.usage.elim 0 Usage.totalTokens

/-- The results of a pass. -/
def PassResult.ofPass (stored : List PassResult) (pass : String) : List PassResult :=
  stored.filter fun r => r.pass == pass

/-- All tokens that the results of a pass took. -/
def PassResult.tokensOf (stored : List PassResult) (pass : String) : Nat :=
  ((ofPass stored pass).map tokens).sum

/-- Holds of a request that gives no counts beyond 64 bits. -/
def Request.Counts (request : Request Record RecordId) : Prop :=
  ∀ g ∈ request.given?, ∀ u ∈ g.2.usage, u.Fits

namespace Relational

open Aggregate

/-- The tokens of a result, as the database adds them up. -/
def Aggregate.Tokens.ofResult (r : PassResult) : Tokens :=
  r.usage.elim .absent fun u => .ofNat u.totalTokens

/-- Holds of a row that is read as a result, and in which the database finds the tokens of it. -/
structure ResultRow.Tallies (row : ResultRow) (r : PassResult) : Prop where
  reads : row.result = .ok r
  pass : row.pass = r.pass
  tokens : Aggregate.tokensOf row = .ok (.ofResult r)

/-- A row of a result with counts of 64 bits. -/
lemma exists_tallies {row : ResultRow} {usage : Option Usage} (fits : ∀ u ∈ usage, u.Fits)
    (h : row.usage = usage.map Usage.column) : ∃ r, row.Tallies r := by
  have read : row.result = .ok ⟨row.pass, row.input, PassOutput.ofColumns row.kind row.body, usage,
      row.duration.toNat, row.createdAt⟩ := by
    simp only [ResultRow.result, h, readUsage_column fits]
  exact ⟨_, read, rfl, tokensOf_usage h⟩

lemma readAll_of_tallies {rows : List ResultRow}
    (tallies : ∀ row ∈ rows, ∃ r, row.Tallies r) :
    ∃ stored, readAll ResultRow.result rows = .ok stored ∧
      List.Forall₂ ResultRow.Tallies rows stored := by
  induction rows with
  | nil => exact ⟨[], rfl, .nil⟩
  | cons row rows ih =>
    obtain ⟨r, head⟩ := tallies row List.mem_cons_self
    obtain ⟨stored, read, each⟩ := ih fun row mem => tallies row (List.mem_cons_of_mem _ mem)
    refine ⟨r :: stored, ?_, .cons head each⟩
    simp only [readAll, head.reads, read]

/-- What is stored behind requests that give counts of 64 bits. -/
structure Stored (db : Database) (records : Table RecordRow) (results : Table ResultRow)
    (scores : List ScoreRow) (stored : List PassResult) : Prop where
  tables : db = tables records results scores
  sound : Sound (fun _ => True) records results
  read : db.storedResults = .ok stored
  tallies : List.Forall₂ ResultRow.Tallies results.rows stored

lemma exists_stored {history : List (Timestamp × Request Record RecordId)}
    (counts : ∀ r ∈ history, r.2.Counts) :
    ∃ records results scores stored, Stored
      (Request.performAll Database.operations history (Database.migrate {})) records results scores
      stored := by
  obtain ⟨records, results, scores, eq, sound⟩ :=
    exists_tables history (fun _ => True) fun _ _ _ => trivial
  have kept : (Request.performAll Database.operations history (Database.migrate {})).ResultRows
      fun row => ∃ r, row.Tallies r := by
    refine .performAll ?_ ?_ fun r mem g gives => ?_
    · rintro row id ⟨r, tallies⟩
      exact ⟨r, tallies.reads, tallies.pass, tallies.tokens⟩
    · rintro _ ⟨⟩ _ ⟨⟩
    · exact exists_tallies (counts r mem g gives) rfl
  rw [eq] at kept ⊢
  obtain ⟨stored, read, tallies⟩ := readAll_of_tallies (kept results rfl)
  exact ⟨records, results, scores, stored, rfl, sound, read, tallies⟩

/-! ### Sums of tokens -/

namespace Aggregate

/-- What the tokens of some results come to on top of others: an integer while they fit in 64 bits
with a sign, unless some count does not fit by itself. -/
def TokenSum.ofResults (before : Nat) (rs : List PassResult) : TokenSum :=
  if ∀ r ∈ rs, r.tokens < 2 ^ 63 then
    if before + (rs.map PassResult.tokens).sum < 2 ^ 63 then
      .exact (before + (rs.map PassResult.tokens).sum : Nat)
    else .overflowed
  else .rounded

lemma TokenSum.add_of_large {r : PassResult} (large : ¬r.tokens < 2 ^ 63) (sum : TokenSum) :
    sum.add (.ofResult r) = .rounded := by
  cases usage : r.usage with
  | none =>
    simp only [PassResult.tokens, usage, Option.elim_none] at large
    exact absurd (by decide) large
  | some u =>
    simp only [PassResult.tokens, usage, Option.elim_some] at large
    simp only [Tokens.ofResult, usage, Option.elim_some, Tokens.ofNat, large, if_false, TokenSum.add]

lemma TokenSum.add_of_small {r : PassResult} (small : r.tokens < 2 ^ 63) :
    (∀ before : Nat, before < 2 ^ 63 → (TokenSum.exact before).add (.ofResult r) =
      if before + r.tokens < 2 ^ 63 then .exact (before + r.tokens : Nat) else .overflowed) ∧
    TokenSum.overflowed.add (.ofResult r) = .overflowed ∧
    TokenSum.rounded.add (.ofResult r) = .rounded := by
  cases usage : r.usage with
  | none =>
    simp only [PassResult.tokens, Tokens.ofResult, usage, Option.elim_none, Nat.add_zero]
    exact ⟨fun before fits => (if_pos fits).symm, rfl, rfl⟩
  | some u =>
    simp only [PassResult.tokens, usage, Option.elim_some] at small
    simp only [PassResult.tokens, Tokens.ofResult, usage, Option.elim_some, Tokens.ofNat, small, if_true]
    refine ⟨fun before fits => ?_, rfl, rfl⟩
    have same : Number.RunningSum.fits ((before : Int) + u.totalTokens) =
        decide (before + u.totalTokens < 2 ^ 63) := by
      rw [Bool.eq_iff_iff, Number.RunningSum.fits, Bool.and_eq_true, decide_eq_true_eq,
        decide_eq_true_eq, decide_eq_true_eq]
      omega
    simp only [TokenSum.add, same, decide_eq_true_eq, Nat.cast_add]

variable {rows : List ResultRow} {rs : List PassResult}

lemma tokenSum_rounded (tallies : List.Forall₂ ResultRow.Tallies rows rs) :
    tokenSum .rounded rows = .ok .rounded := by
  induction tallies with
  | nil => rfl
  | @cons row r rows rs head _ ih =>
    simp only [tokenSum, head.tokens]
    by_cases small : r.tokens < 2 ^ 63
    · rw [(TokenSum.add_of_small small).2.2]
      exact ih
    · rw [TokenSum.add_of_large small]
      exact ih

lemma tokenSum_overflowed (tallies : List.Forall₂ ResultRow.Tallies rows rs) :
    tokenSum .overflowed rows =
      .ok (if ∀ r ∈ rs, r.tokens < 2 ^ 63 then .overflowed else .rounded) := by
  induction tallies with
  | nil => rfl
  | @cons row r rows rs head tail ih =>
    simp only [tokenSum, head.tokens, List.forall_mem_cons]
    by_cases small : r.tokens < 2 ^ 63
    · rw [(TokenSum.add_of_small small).2.1, ih]
      simp only [small, true_and]
    · rw [TokenSum.add_of_large small, tokenSum_rounded tail]
      simp only [small, false_and, if_false]

/-- The sum of the tokens of some results, as the database finds it. -/
theorem tokenSum_exact {before : Nat} (tallies : List.Forall₂ ResultRow.Tallies rows rs)
    (fits : before < 2 ^ 63) :
    tokenSum (.exact before) rows = .ok (.ofResults before rs) := by
  induction tallies generalizing before with
  | nil =>
    have none : TokenSum.ofResults before [] = .exact before := by
      simp only [TokenSum.ofResults, List.not_mem_nil, false_imp_iff, implies_true, if_true,
        List.map_nil, List.sum_nil, Nat.add_zero, fits]
    rw [none]
    rfl
  | @cons row r rows rs head tail ih =>
    simp only [tokenSum, head.tokens, TokenSum.ofResults, List.forall_mem_cons, List.map_cons,
      List.sum_cons, ← Nat.add_assoc]
    by_cases small : r.tokens < 2 ^ 63
    · rw [(TokenSum.add_of_small small).1 before fits]
      by_cases more : before + r.tokens < 2 ^ 63
      · rw [if_pos more, ih more]
        simp only [small, true_and, TokenSum.ofResults]
      · have beyond : ¬before + r.tokens + (rs.map PassResult.tokens).sum < 2 ^ 63 := by omega
        rw [if_neg more, tokenSum_overflowed tail]
        simp only [small, true_and, beyond, if_false]
    · rw [TokenSum.add_of_large small, tokenSum_rounded tail]
      simp only [small, false_and, if_false]

/-! ### Totals of passes -/

/-- Holds of a pass whose tokens fit result by result, and not all together. -/
def Overflows (rs : List PassResult) (pass : String) : Prop :=
  2 ^ 63 ≤ PassResult.tokensOf rs pass ∧ ∀ r ∈ rs, r.pass = pass → r.tokens < 2 ^ 63

instance (rs : List PassResult) (pass : String) : Decidable (Overflows rs pass) :=
  inferInstanceAs (Decidable (_ ∧ _))

lemma mem_ofPass {pass : String} {r : PassResult} :
    r ∈ PassResult.ofPass rs pass ↔ r ∈ rs ∧ r.pass = pass := by
  simp [PassResult.ofPass]

lemma tokens_le {pass : String} {r : PassResult} (mem : r ∈ rs) (own : r.pass = pass) :
    r.tokens ≤ PassResult.tokensOf rs pass :=
  List.le_sum_of_mem (List.mem_map_of_mem (mem_ofPass.2 ⟨mem, own⟩))

lemma ofPass_tallies (tallies : List.Forall₂ ResultRow.Tallies rows rs) (pass : String) :
    List.Forall₂ ResultRow.Tallies (rows.filter fun row => row.pass == pass)
      (PassResult.ofPass rs pass) :=
  forall₂_filter tallies fun _ _ head => by rw [head.pass]

/-- The totals of a pass with their tokens, if these fit. -/
def totals? (rows : List ResultRow) (rs : List PassResult) (pass : String) : Option PassTotals :=
  if PassResult.tokensOf rs pass < 2 ^ 63 then
    some (totalsOf pass (rows.filter fun row => row.pass == pass) (PassResult.tokensOf rs pass))
  else none

lemma passTotals_eq (tallies : List.Forall₂ ResultRow.Tallies rows rs) (pass : String) :
    passTotals rows pass =
      if Overflows rs pass then .error .integerOverflow else .ok (totals? rows rs pass) := by
  have sum := tokenSum_exact (ofPass_tallies tallies pass) (by decide : 0 < 2 ^ 63)
  have each : (∀ r ∈ PassResult.ofPass rs pass, r.tokens < 2 ^ 63) ↔
      ∀ r ∈ rs, r.pass = pass → r.tokens < 2 ^ 63 := by
    simp only [mem_ofPass, and_imp]
  have total : ((PassResult.ofPass rs pass).map PassResult.tokens).sum =
      PassResult.tokensOf rs pass := rfl
  simp only [TokenSum.ofResults, each, Nat.zero_add, total] at sum
  by_cases small : ∀ r ∈ rs, r.pass = pass → r.tokens < 2 ^ 63
  · by_cases fits : PassResult.tokensOf rs pass < 2 ^ 63
    · have calm : ¬Overflows rs pass := fun excess => absurd fits (Nat.not_lt_of_le excess.1)
      have exact : tokenSum (.exact 0) (rows.filter fun row => row.pass == pass) =
          .ok (.exact (PassResult.tokensOf rs pass)) := by
        rw [if_pos small, if_pos fits] at sum
        exact sum
      rw [if_neg calm, totals?, if_pos fits]
      simp only [passTotals, exact]
    · have excess : Overflows rs pass := ⟨Nat.le_of_not_lt fits, small⟩
      have beyond : tokenSum (.exact 0) (rows.filter fun row => row.pass == pass) =
          .ok .overflowed := by
        rw [if_pos small, if_neg fits] at sum
        exact sum
      rw [if_pos excess]
      simp only [passTotals, beyond]
  · have calm : ¬Overflows rs pass := fun excess => small excess.2
    have large : ¬PassResult.tokensOf rs pass < 2 ^ 63 := by
      intro fits
      refine small fun r mem own => ?_
      exact Nat.lt_of_le_of_lt (tokens_le mem own) fits
    have rounded : tokenSum (.exact 0) (rows.filter fun row => row.pass == pass) = .ok .rounded := by
      rw [if_neg small] at sum
      exact sum
    rw [if_neg calm, totals?, if_neg large]
    simp only [passTotals, rounded]

/-- The totals of some passes: one that overflows is an error, whatever the others come to. -/
lemma allTotals_eq (tallies : List.Forall₂ ResultRow.Tallies rows rs) (names : List String) :
    allTotals rows names =
      if ∃ name ∈ names, Overflows rs name then .error .integerOverflow
      else .ok (names.map (totals? rows rs)) := by
  induction names with
  | nil => simp [allTotals]
  | cons name names ih =>
    simp only [allTotals, passTotals_eq tallies, ih, List.exists_mem_cons_iff]
    by_cases first : Overflows rs name
    · simp only [first, if_true, true_or]
    · by_cases later : ∃ name ∈ names, Overflows rs name
      · simp only [first, later, if_true, if_false, or_true]
      · simp only [first, later, if_false, or_self, List.map_cons]

/-! ### Pending records -/

lemma exists_countOf {ρ : Type} {condition : ρ → Except DatabaseFault Bool} {rows : List ρ}
    (each : ∀ row ∈ rows, ∃ holds, condition row = .ok holds) :
    ∃ n, countOf condition rows = .ok n := by
  induction rows with
  | nil => exact ⟨0, rfl⟩
  | cons row rows ih =>
    obtain ⟨holds, head⟩ := each row List.mem_cons_self
    obtain ⟨n, tail⟩ := ih fun row mem => each row (List.mem_cons_of_mem _ mem)
    exact ⟨if holds then n + 1 else n, by simp only [countOf, head, tail]⟩

/-- The database counts the names in a list. -/
lemma completedCount_eq {row : RecordRow} {names : List String}
    (listed : row.completed = writeNames names) : completedCount row = .ok names.length := by
  simp only [completedCount, listed, readJson_writeNames, LooseJson.arrayLength, List.length_map]

/-- Whether a record is pending is found out for each list of names. -/
lemma exists_isPending (order : List String) (check : PendingCheck) {row : RecordRow}
    {names : List String} (listed : row.completed = writeNames names) :
    ∃ holds, isPending order check row = .ok holds := by
  cases check with
  | count =>
    exact ⟨decide (names.length < order.length), by simp only [isPending, completedCount_eq listed]⟩
  | set => exact ⟨_, rfl⟩

/-! ### Names -/

lemma mem_sortedNames {names : List String} {name : String} :
    name ∈ sortedNames names ↔ name ∈ names :=
  (List.mergeSort_perm _ _).mem_iff.trans List.mem_eraseDups

lemma nodup_eraseDups (names : List String) : names.eraseDups.Nodup := by
  induction h : names.length using Nat.strongRecOn generalizing names with
  | ind n ih =>
    cases names with
    | nil => exact List.nodup_nil
    | cons name names =>
      rw [List.eraseDups_cons, List.nodup_cons]
      refine ⟨fun mem => ?_, ih _ ?_ _ rfl⟩
      · simpa using List.mem_eraseDups.1 mem
      · rw [← h, List.length_cons]
        exact Nat.lt_succ_of_le (List.length_filter_le _ _)

lemma nodup_sortedNames (names : List String) : (sortedNames names).Nodup :=
  (List.mergeSort_perm _ _).nodup_iff.2 (nodup_eraseDups names)

/-- The totals are there where all tokens fit. -/
lemma all_totals? {names : List String} :
    (names.map (totals? rows rs)).all Option.isSome = true ↔
      ∀ name ∈ names, PassResult.tokensOf rs name < 2 ^ 63 := by
  rw [List.all_map, List.all_eq_true]
  refine forall₂_congr fun name _ => ?_
  simp only [Function.comp, totals?]
  split
  · next fits => exact iff_of_true rfl fits
  · next big => exact iff_of_false Bool.false_ne_true big

lemma filterMap_totals? {names : List String}
    (fits : ∀ name ∈ names, PassResult.tokensOf rs name < 2 ^ 63) :
    (names.map (totals? rows rs)).filterMap id = names.map fun pass =>
      totalsOf pass (rows.filter fun row => row.pass == pass) (PassResult.tokensOf rs pass) := by
  rw [List.filterMap_map, ← List.filterMap_eq_map]
  refine List.filterMap_congr fun name mem => ?_
  exact if_pos (fits name mem)

/-- A pass with tokens has a result. -/
lemma mem_names_of_tokens {pass : String} (some : PassResult.tokensOf rs pass ≠ 0) :
    pass ∈ sortedNames (rs.map PassResult.pass) := by
  rw [mem_sortedNames, List.mem_map]
  by_contra none
  have empty : PassResult.ofPass rs pass = [] := by
    refine List.filter_eq_nil_iff.2 fun r mem => ?_
    rw [beq_iff_eq]
    exact fun own => none ⟨r, mem, own⟩
  rw [PassResult.tokensOf, empty] at some
  exact some rfl

/-- All tokens fit once those of the passes with a result do. -/
lemma fits_of_names :
    (∀ pass ∈ sortedNames (rs.map PassResult.pass), PassResult.tokensOf rs pass < 2 ^ 63) ↔
      ∀ pass, PassResult.tokensOf rs pass < 2 ^ 63 := by
  refine ⟨fun fits pass => ?_, fun fits pass _ => fits pass⟩
  by_contra big
  exact big (fits pass (mem_names_of_tokens (by omega)))

lemma Overflows.mem_names {pass : String} (excess : Overflows rs pass) :
    pass ∈ sortedNames (rs.map PassResult.pass) := by
  have large := excess.1
  exact mem_names_of_tokens (by omega)

/-- Where no pass overflows, a pass with too many tokens has a result with too many. -/
lemma fits_iff (calm : ∀ pass, ¬Overflows rs pass) :
    (∀ pass, PassResult.tokensOf rs pass < 2 ^ 63) ↔ ¬∃ r ∈ rs, 2 ^ 63 ≤ r.tokens := by
  constructor
  · rintro fits ⟨r, mem, large⟩
    have le := Nat.le_trans large (tokens_le mem rfl)
    exact Nat.not_le_of_lt (fits r.pass) le
  · intro small pass
    by_contra big
    refine calm pass ⟨Nat.le_of_not_lt big, fun r mem _ => ?_⟩
    exact Nat.lt_of_not_le fun large => small ⟨r, mem, large⟩

end Aggregate

/-! ### The overview -/

open Aggregate

/-- Holds of the totals of stored results, one for each pass with a result. -/
structure Sums (passes : List PassTotals) (stored : List PassResult) : Prop where
  names : passes.map PassTotals.pass = sortedNames (stored.map PassResult.pass)
  results : ∀ t ∈ passes, t.results = (PassResult.ofPass stored t.pass).length
  tokens : ∀ t ∈ passes, t.tokens = PassResult.tokensOf stored t.pass

/-- The counts of records that stand in front of an overview. -/
lemma exists_counts {Given : Json → Prop} {records : Table RecordRow} {results : Table ResultRow}
    (sound : Sound Given records results) (scores : List ScoreRow) (order : List String)
    (check : PendingCheck) :
    ∃ pending, countOf (isPending order check) records.rows = .ok pending ∧
      (tables records results scores).counts order check = .ok
        ⟨records.rows.length, pending, (scores.map ScoreRow.recordId).eraseDups.length⟩ := by
  obtain ⟨pending, counted⟩ : ∃ n, countOf (isPending order check) records.rows = .ok n := by
    refine exists_countOf fun row mem => ?_
    obtain ⟨names, listed, -⟩ := sound.listed row mem
    exact exists_isPending order check listed
  exact ⟨pending, counted, by simp only [Database.counts, tables, counted]⟩

/-- The totals of what is stored. -/
lemma totals_eq {db : Database} {records : Table RecordRow} {results : Table ResultRow}
    {scores : List ScoreRow} {stored : List PassResult}
    (st : Stored db records results scores stored) :
    db.totals =
      if ∃ name ∈ sortedNames (stored.map PassResult.pass), Overflows stored name then
        .error .integerOverflow
      else .ok ((sortedNames (stored.map PassResult.pass)).map (totals? results.rows stored)) := by
  have names : results.rows.map ResultRow.pass = stored.map PassResult.pass := by
    rw [← List.forall₂_eq_eq_eq, List.forall₂_map_left_iff, List.forall₂_map_right_iff]
    exact st.tallies.imp fun _ _ tallies => tallies.pass
  rw [st.tables]
  simp only [Database.totals, tables, names, allTotals_eq st.tallies]

/-- What an overview of stored results comes to, behind counts of records: it fails when a pass
overflows, or else when some count does not fit in 64 bits with a sign, or else at the first mean that
is undefined. -/
inductive Comes (stored : List PassResult) (counts : RecordCounts) (passes : List PassTotals)
    (means : List MetricMean) : Except OverviewFault Overview → Prop where
  | unsummed {pass} :
    Overflows stored pass →
    Comes stored counts passes means (.error (.unsummed counts .integerOverflow))
  | panicked {r} :
    (∀ pass, ¬Overflows stored pass) →
    r ∈ stored →
    2 ^ 63 ≤ r.tokens →
    Comes stored counts passes means (.error (.panicked counts))
  | unaveraged {m} :
    (∀ pass, PassResult.tokensOf stored pass < 2 ^ 63) →
    m ∈ means →
    m.mean = .nan →
    Comes stored counts passes means
      (.error (.unaveraged ⟨counts, passes, means.takeWhile MetricMean.isDefined⟩))
  | whole :
    (∀ pass, PassResult.tokensOf stored pass < 2 ^ 63) →
    (∀ m ∈ means, m.mean ≠ .nan) →
    Comes stored counts passes means (.ok ⟨counts, passes, means⟩)

theorem comes_overview {db : Database} {records : Table RecordRow} {results : Table ResultRow}
    {scores : List ScoreRow} {stored : List PassResult}
    (st : Stored db records results scores stored) (order : List String) (check : PendingCheck) :
    ∃ counts passes, db.counts order check = .ok counts ∧ Sums passes stored ∧
      Comes stored counts passes db.means (db.overview order check) := by
  let own (pass : String) := results.rows.filter fun row => row.pass == pass
  let totals (pass : String) := totalsOf pass (own pass) (PassResult.tokensOf stored pass)
  let all := sortedNames (stored.map PassResult.pass)
  have each : ∀ t ∈ all.map totals, ∃ pass, totals pass = t := fun t mem =>
    (List.mem_map.1 mem).imp fun _ => And.right
  obtain ⟨pending, -, counted⟩ := exists_counts st.sound scores order check
  rw [← st.tables] at counted
  refine ⟨_, all.map totals, counted, ⟨?_, ?_, ?_⟩, ?_⟩
  · rw [List.map_map]
    exact List.map_id _
  · intro t mem
    obtain ⟨pass, rfl⟩ := each t mem
    exact (ofPass_tallies st.tallies pass).length_eq
  · intro t mem
    obtain ⟨pass, rfl⟩ := each t mem
    rfl
  · simp only [Database.overview, counted, totals_eq st]
    by_cases excess : ∃ name ∈ sortedNames (stored.map PassResult.pass), Overflows stored name
    · rw [if_pos excess]
      obtain ⟨pass, -, here⟩ := excess
      exact .unsummed here
    · have calm (pass : String) : ¬Overflows stored pass := fun h => excess ⟨pass, h.mem_names, h⟩
      have present : ((sortedNames (stored.map PassResult.pass)).map
            (totals? results.rows stored)).all Option.isSome = true ↔
          ∀ pass, PassResult.tokensOf stored pass < 2 ^ 63 := all_totals?.trans fits_of_names
      rw [if_neg excess]
      dsimp only
      by_cases fits : ∀ pass, PassResult.tokensOf stored pass < 2 ^ 63
      · rw [if_pos (present.2 fits), filterMap_totals? fun pass _ => fits pass]
        by_cases defined : db.means.all MetricMean.isDefined = true
        · rw [if_pos defined]
          refine .whole fits fun m mem => ?_
          exact of_decide_eq_true (List.all_eq_true.1 defined m mem)
        · rw [if_neg defined]
          obtain ⟨m, mem, undefined⟩ : ∃ m ∈ db.means, m.mean = .nan := by
            simpa [MetricMean.isDefined] using defined
          exact .unaveraged fits mem undefined
      · rw [if_neg (mt present.1 fits)]
        rw [fits_iff calm, not_not] at fits
        obtain ⟨r, mem, large⟩ := fits
        exact .panicked calm mem large

end Relational

/-! ### The table of passes -/

namespace Overview

variable {order : List String} {totals : List PassTotals} {name : String}

/-- The totals of a name, without results where there are none. -/
def totalsFor (totals : List PassTotals) (name : String) : PassTotals :=
  (totals.find? fun t => t.pass == name).getD { pass := name }

lemma pass_totalsFor (totals : List PassTotals) (name : String) :
    (totalsFor totals name).pass = name := by
  cases found : totals.find? fun t => t.pass == name with
  | none => simp only [totalsFor, found, Option.getD_none]
  | some t =>
    have own := List.find?_some found
    simp only [totalsFor, found, Option.getD_some]
    exact beq_iff_eq.1 own

lemma totalsFor_of_mem (nodup : (totals.map PassTotals.pass).Nodup) {t : PassTotals}
    (mem : t ∈ totals) : totalsFor totals t.pass = t := by
  cases found : totals.find? fun other => other.pass == t.pass with
  | none => exact absurd (beq_self_eq_true t.pass) (List.find?_eq_none.1 found t mem)
  | some other =>
    have same := List.find?_some found
    have same : other.pass = t.pass := beq_iff_eq.1 same
    simp only [totalsFor, found, Option.getD_some]
    exact List.inj_on_of_nodup_map nodup (List.mem_of_find?_eq_some found) mem same

lemma totalsFor_of_notMem (absent : name ∉ totals.map PassTotals.pass) :
    totalsFor totals name = { pass := name } := by
  have missing : totals.find? (fun t => t.pass == name) = none := by
    refine List.find?_eq_none.2 fun t mem own => absent ?_
    exact beq_iff_eq.1 own ▸ List.mem_map_of_mem mem
  simp only [totalsFor, missing, Option.getD_none]

lemma totalsFor_filter {other : String} (ne : name ≠ other) :
    totalsFor (totals.filter fun t => t.pass != other) name = totalsFor totals name := by
  simp only [totalsFor, List.find?_filter]
  congr 2
  funext t
  by_cases own : t.pass = name
  · simp [own, ne]
  · simp [own]

lemma nodup_filter {p : PassTotals → Bool} (nodup : (totals.map PassTotals.pass).Nodup) :
    ((totals.filter p).map PassTotals.pass).Nodup :=
  nodup.sublist (List.filter_sublist.map _)

lemma rows_cons (pass : String) (order : List String) (totals : List PassTotals) :
    rows (pass :: order) totals =
      totalsFor totals pass :: rows order (totals.filter fun t => t.pass != pass) := rfl

/-- The table has the names of the order, and those that are left in ascending order. -/
lemma map_pass_rows (order : List String) (totals : List PassTotals)
    (nodup : (totals.map PassTotals.pass).Nodup) :
    ∃ removed : List String, (rows order totals).map PassTotals.pass = order ++ removed ∧
      removed.Pairwise (· < ·) ∧
      ∀ name, name ∈ removed ↔ name ∈ totals.map PassTotals.pass ∧ name ∉ order := by
  induction order generalizing totals with
  | nil =>
    have perm : (rows [] totals).Perm totals := List.mergeSort_perm _ _
    refine ⟨(rows [] totals).map PassTotals.pass, rfl, ?_, fun name => ?_⟩
    · have ordered : (rows [] totals).Pairwise fun a b => byPath PassTotals.pass a b = true :=
        pairwise_byPath totals
      have apart := (perm.map PassTotals.pass).nodup_iff.2 nodup
      have both := (List.pairwise_map.2 (ordered.imp byPath_iff.1)).and apart
      exact both.imp fun ⟨le, ne⟩ => Std.lt_of_le_of_ne le ne
    · rw [(perm.map PassTotals.pass).mem_iff]
      simp
  | cons pass order ih =>
    obtain ⟨removed, names, ascending, mem⟩ := ih _ (nodup_filter nodup)
    refine ⟨removed, ?_, ascending, fun name => ?_⟩
    · rw [rows_cons, List.map_cons, names, pass_totalsFor, List.cons_append]
    · rw [mem]
      simp only [List.mem_map, List.mem_filter, bne_iff_ne, List.mem_cons, not_or]
      constructor
      · rintro ⟨⟨t, ⟨here, ne⟩, rfl⟩, free⟩
        exact ⟨⟨t, here, rfl⟩, ne, free⟩
      · rintro ⟨⟨t, here, rfl⟩, ne, free⟩
        exact ⟨⟨t, ⟨here, ne⟩, rfl⟩, free⟩

/-- The first line of a name has its totals, and a further one has none. -/
lemma rows_getElem? (nodup : (totals.map PassTotals.pass).Nodup) {i : Nat} {row : PassTotals}
    (h : (rows order totals)[i]? = some row) :
    row = if row.pass ∈ order.take i then { pass := row.pass } else totalsFor totals row.pass := by
  induction order generalizing totals i with
  | nil =>
    have mem : row ∈ totals := (List.mergeSort_perm _ _).mem_iff.1 (List.mem_of_getElem? h)
    rw [List.take_nil, if_neg List.not_mem_nil, totalsFor_of_mem nodup mem]
  | cons pass order ih =>
    cases i with
    | zero =>
      have first : totalsFor totals pass = row := Option.some.inj h
      rw [← first, List.take_zero, if_neg List.not_mem_nil, pass_totalsFor]
    | succ i =>
      have later := ih (nodup_filter nodup) h
      rw [List.take_succ_cons]
      by_cases again : row.pass = pass
      · have gone : pass ∉ (totals.filter fun t => t.pass != pass).map PassTotals.pass := by
          simp
        rw [if_pos (again ▸ List.mem_cons_self), later]
        split
        · rfl
        · rw [again, totalsFor_of_notMem gone]
      · have front : row.pass ∈ pass :: order.take i ↔ row.pass ∈ order.take i := by
          simp [again]
        rw [totalsFor_filter again] at later
        simp only [front]
        exact later

lemma results_totalsFor (nodup : (totals.map PassTotals.pass).Nodup) (name : String) :
    (totalsFor totals name).results +
      ((totals.filter fun t => t.pass != name).map PassTotals.results).sum =
      (totals.map PassTotals.results).sum := by
  induction totals with
  | nil => rfl
  | cons t totals ih =>
    obtain ⟨new, nodup⟩ := List.nodup_cons.1 nodup
    by_cases own : t.pass = name
    · have others : totals.filter (fun t => t.pass != name) = totals := by
        refine List.filter_eq_self.2 fun other mem => bne_iff_ne.2 fun eq => new ?_
        rw [own, ← eq]
        exact List.mem_map_of_mem mem
      simp [totalsFor, own, others]
    · have later : totalsFor (t :: totals) name = totalsFor totals name := by
        simp [totalsFor, own]
      simp only [later, List.filter_cons, bne_iff_ne.2 own, if_true, List.map_cons, List.sum_cons]
      rw [← ih nodup]
      omega

/-- All lines together show all results. -/
lemma sum_rows (nodup : (totals.map PassTotals.pass).Nodup) :
    ((rows order totals).map PassTotals.results).sum = (totals.map PassTotals.results).sum := by
  induction order generalizing totals with
  | nil => exact ((List.mergeSort_perm totals _).map _).sum_eq
  | cons pass order ih =>
    rw [rows_cons, List.map_cons, List.sum_cons, ih (nodup_filter nodup),
      results_totalsFor nodup]

/-- The first line of a name. -/
lemma find?_rows (nodup : (totals.map PassTotals.pass).Nodup)
    (named : name ∈ order ∨ name ∈ totals.map PassTotals.pass) :
    (rows order totals).find? (fun t => t.pass == name) = some (totalsFor totals name) := by
  induction order generalizing totals with
  | nil =>
    have perm : (rows [] totals).Perm totals := List.mergeSort_perm _ _
    obtain ⟨t, mem, rfl⟩ := List.mem_map.1 (named.resolve_left List.not_mem_nil)
    cases found : (rows [] totals).find? fun other => other.pass == t.pass with
    | none => exact absurd (beq_self_eq_true t.pass) (List.find?_eq_none.1 found t (perm.mem_iff.2 mem))
    | some row =>
      have own := List.find?_some found
      have own : row.pass = t.pass := beq_iff_eq.1 own
      rw [← own, totalsFor_of_mem nodup (perm.mem_iff.1 (List.mem_of_find?_eq_some found))]
  | cons pass order ih =>
    rw [rows_cons, List.find?_cons, pass_totalsFor]
    by_cases first : pass = name
    · simp only [first, beq_self_eq_true]
    · have left : name ∈ order ∨ name ∈ (totals.filter fun t => t.pass != pass).map PassTotals.pass := by
        refine named.imp (fun mem => (List.mem_cons.1 mem).resolve_left (Ne.symm first)) fun mem => ?_
        obtain ⟨t, here, rfl⟩ := List.mem_map.1 mem
        exact List.mem_map_of_mem (List.mem_filter.2 ⟨here, bne_iff_ne.2 (Ne.symm first)⟩)
      simp only [beq_false_of_ne first]
      rw [ih (nodup_filter nodup) left, totalsFor_filter (Ne.symm first)]

end Overview

/-! ### What is shown -/

namespace Relational

open Aggregate

variable {passes : List PassTotals} {stored : List PassResult}

lemma Sums.nodup (sums : Sums passes stored) : (passes.map PassTotals.pass).Nodup := by
  rw [sums.names]
  exact nodup_sortedNames _

lemma Sums.mem_names (sums : Sums passes stored) {pass : String} :
    pass ∈ passes.map PassTotals.pass ↔ ∃ r ∈ stored, r.pass = pass := by
  rw [sums.names, mem_sortedNames, List.mem_map]

/-- What the totals of a name come to, with results or without. -/
lemma Sums.totalsFor (sums : Sums passes stored) (pass : String) :
    (Overview.totalsFor passes pass).results = (PassResult.ofPass stored pass).length ∧
      (Overview.totalsFor passes pass).tokens = PassResult.tokensOf stored pass := by
  by_cases some : pass ∈ passes.map PassTotals.pass
  · obtain ⟨t, mem, rfl⟩ := List.mem_map.1 some
    rw [Overview.totalsFor_of_mem sums.nodup mem]
    exact ⟨sums.results t mem, sums.tokens t mem⟩
  · have none : PassResult.ofPass stored pass = [] := by
      refine List.filter_eq_nil_iff.2 fun r mem own => some ?_
      exact sums.mem_names.2 ⟨r, mem, beq_iff_eq.1 own⟩
    rw [Overview.totalsFor_of_notMem some, PassResult.tokensOf, none]
    exact ⟨rfl, rfl⟩

/-- The results of all passes are all results. -/
lemma Sums.sum_results (sums : Sums passes stored) :
    (passes.map PassTotals.results).sum = stored.length := by
  have counts (pass : String) :
      (PassResult.ofPass stored pass).length = (stored.map PassResult.pass).count pass := by
    rw [List.count, List.countP_map, List.countP_eq_length_filter]
    rfl
  have each : passes.map PassTotals.results =
      (passes.map PassTotals.pass).map fun pass => (stored.map PassResult.pass).count pass := by
    rw [List.map_map]
    exact List.map_congr_left fun t mem => (sums.results t mem).trans (counts t.pass)
  have same : (sortedNames (stored.map PassResult.pass)).Perm (stored.map PassResult.pass).dedup := by
    refine (List.perm_ext_iff_of_nodup (nodup_sortedNames _) (List.nodup_dedup _)).2 fun pass => ?_
    rw [mem_sortedNames, List.mem_dedup]
  rw [each, sums.names, (same.map _).sum_eq, List.sum_map_count_dedup_eq_length, List.length_map]

/-- What stands in a place of different names does not stand before it. -/
lemma notMem_take {front back : List String} (nodup : (front ++ back).Nodup) {i : Nat} {name : String}
    (here : (front ++ back)[i]? = some name) : name ∉ front.take i := by
  intro before
  obtain ⟨j, lt, rfl⟩ := List.mem_take_iff_getElem.1 before
  have inside : j < front.length := Nat.lt_of_lt_of_le lt (Nat.min_le_right ..)
  have there : (front ++ back)[j]? = some front[j] := by
    rw [List.getElem?_append_left inside, List.getElem?_eq_getElem inside]
  have within : j < (front ++ back).length := by
    rw [List.length_append]
    exact Nat.lt_of_lt_of_le inside (Nat.le_add_right ..)
  have same : j = i := (List.getElem?_inj within nodup).1 (there.trans here.symm)
  exact absurd (Nat.lt_of_lt_of_le lt (Nat.min_le_left ..)) (same ▸ Nat.lt_irrefl j)

/-- The overview whose table of passes is shown: all of it, or what stands in front of a mean that is
undefined. -/
def shown? : Except OverviewFault Overview → Option Overview
  | .ok o => some o
  | .error (.unaveraged o) => some o
  | .error _ => none

lemma not_fits_of_overflows {pass : String} (excess : Overflows stored pass) :
    ¬∀ pass, PassResult.tokensOf stored pass < 2 ^ 63 :=
  fun fits => Nat.not_le_of_lt (fits pass) excess.1

lemma not_fits_of_large {r : PassResult} (mem : r ∈ stored) (large : 2 ^ 63 ≤ r.tokens) :
    ¬∀ pass, PassResult.tokensOf stored pass < 2 ^ 63 :=
  fun fits => Nat.not_le_of_lt (fits r.pass) (large.trans (tokens_le mem rfl))

/-- A table is shown exactly when all tokens fit, and it has the totals of what is stored. -/
lemma Comes.shown_iff {counts : RecordCounts} {means : List MetricMean}
    {overview : Except OverviewFault Overview} (comes : Comes stored counts passes means overview) :
    ((∃ o, shown? overview = some o) ↔ ∀ pass, PassResult.tokensOf stored pass < 2 ^ 63) ∧
      ∀ o, shown? overview = some o → o.passes = passes := by
  cases comes with
  | unsummed excess => exact ⟨iff_of_false nofun (not_fits_of_overflows excess), nofun⟩
  | panicked _ mem large => exact ⟨iff_of_false nofun (not_fits_of_large mem large), nofun⟩
  | unaveraged fits =>
    refine ⟨iff_of_true ⟨_, rfl⟩ fits, ?_⟩
    rintro _ ⟨⟩
    rfl
  | whole fits =>
    refine ⟨iff_of_true ⟨_, rfl⟩ fits, ?_⟩
    rintro _ ⟨⟩
    rfl

/-- A database was made, saw nothing but requests, and was given counts of 64 bits. The counts of
records are always there. The table of passes is shown behind them exactly when the tokens of each
pass fit in 64 bits with a sign, and the overview comes to its end if the means of all metrics are
defined, too. Otherwise there are the counts alone: where the tokens of a pass fit result by result
and not all together, their sum overflows, and the overview fails; where only single counts do not
fit, their rounded sum is no integer, and the program panics. A table that is shown has the sum of
all tokens of its results in the first line of each pass that is in the order or has a result. -/
theorem overview_tokens {history : List (Timestamp × Request Record RecordId)}
    (given : ∀ r ∈ history, r.2.Counts) (order : List String) (check : PendingCheck) :
    let db := Request.performAll Database.operations history (Database.migrate {})
    ∃ stored counts, db.storedResults = .ok stored ∧ db.counts order check = .ok counts ∧
      ((∃ o, db.overview order check = .ok o) ↔
        (∀ pass, PassResult.tokensOf stored pass < 2 ^ 63) ∧ ∀ m ∈ db.means, m.mean ≠ .nan) ∧
      ((∃ o, shown? (db.overview order check) = some o) ↔
        ∀ pass, PassResult.tokensOf stored pass < 2 ^ 63) ∧
      (db.overview order check = .error (.unsummed counts .integerOverflow) ↔
        ∃ pass, Overflows stored pass) ∧
      (db.overview order check = .error (.panicked counts) ↔
        (∀ pass, ¬Overflows stored pass) ∧ ∃ r ∈ stored, 2 ^ 63 ≤ r.tokens) ∧
      ∀ o, shown? (db.overview order check) = some o →
        ∀ pass, (pass ∈ order ∨ ∃ r ∈ stored, r.pass = pass) →
          ∃ row, (Overview.rows order o.passes).find? (fun t => t.pass == pass) = some row ∧
            row.tokens = PassResult.tokensOf stored pass := by
  intro db
  obtain ⟨records, results, scores, stored, st⟩ := exists_stored given
  obtain ⟨counts, passes, counted, sums, comes⟩ := comes_overview st order check
  obtain ⟨fits, same⟩ := comes.shown_iff
  refine ⟨stored, counts, st.read, counted, ?_, fits, ?_, ?_, fun o shown pass named => ?_⟩
  · show (∃ o, db.overview order check = .ok o) ↔ _
    generalize db.overview order check = overview at comes
    cases comes with
    | unsummed excess => exact iff_of_false nofun fun all => not_fits_of_overflows excess all.1
    | panicked _ mem large => exact iff_of_false nofun fun all => not_fits_of_large mem large all.1
    | unaveraged _ mem undefined => exact iff_of_false nofun fun all => all.2 _ mem undefined
    | whole fits defined => exact iff_of_true ⟨_, rfl⟩ ⟨fits, defined⟩
  · show db.overview order check = _ ↔ _
    generalize db.overview order check = overview at comes
    cases comes with
    | unsummed excess => exact iff_of_true rfl ⟨_, excess⟩
    | panicked calm => exact iff_of_false nofun fun ⟨pass, excess⟩ => calm pass excess
    | unaveraged fits => exact iff_of_false nofun fun ⟨_, excess⟩ => not_fits_of_overflows excess fits
    | whole fits => exact iff_of_false nofun fun ⟨_, excess⟩ => not_fits_of_overflows excess fits
  · show db.overview order check = _ ↔ _
    generalize db.overview order check = overview at comes
    cases comes with
    | unsummed excess => exact iff_of_false nofun fun all => all.1 _ excess
    | panicked calm mem large => exact iff_of_true rfl ⟨calm, _, mem, large⟩
    | unaveraged fits => exact iff_of_false nofun fun ⟨_, _, mem, large⟩ => not_fits_of_large mem large fits
    | whole fits => exact iff_of_false nofun fun ⟨_, _, mem, large⟩ => not_fits_of_large mem large fits
  · rw [same o shown]
    exact ⟨_, Overview.find?_rows sums.nodup (named.imp_right sums.mem_names.2),
      (sums.totalsFor pass).2⟩

/-- Two results of one pass whose tokens just fit. -/
theorem overview_tokens_of_two :
    let new (path : String) : NewRecord := ⟨path, none, "x", "", .null⟩
    let commit (id : RecordId) (path : String) (tokens : Nat) :
        Timestamp × Request Record RecordId :=
      (0, .commit (.ofNew id (new path) 0) ⟨"doc", "", .text "", some ⟨"m", 1, 1, tokens⟩, 5, 0⟩)
    let history : List (Timestamp × Request Record RecordId) :=
      [(0, .upsert (new "a.php")), (0, .upsert (new "b.php")),
        commit 1 "a.php" 9223372036854775806, commit 2 "b.php" 1]
    let db := Request.performAll Database.operations history (Database.migrate {})
    (∀ r ∈ history, r.2.Counts) ∧ ∃ stored o, db.storedResults = .ok stored ∧
      db.overview ["doc"] .count = .ok o ∧
      ∃ row, (Overview.rows ["doc"] o.passes).find? (fun t => t.pass == "doc") = some row ∧
        row.tokens = 9223372036854775807 := by
  intro new commit history db
  have counts : ∀ r ∈ history, r.2.Counts := by
    intro r mem g gives u used
    simp only [history, List.mem_cons, List.not_mem_nil, or_false] at mem
    obtain rfl | rfl | rfl | rfl := mem
    · cases gives
    · cases gives
    · cases gives
      cases used
      exact ⟨by decide, by decide, by decide⟩
    · cases gives
      cases used
      exact ⟨by decide, by decide, by decide⟩
  obtain ⟨stored, -, read, -, -, -, -, -, shows⟩ := overview_tokens counts ["doc"] .count
  have there : ((db.overview ["doc"] .count).toOption).isSome = true := by decide +kernel
  have tokens : (db.storedResults.map fun rs => PassResult.tokensOf rs "doc").toOption =
      some 9223372036854775807 := by decide +kernel
  rw [show db.storedResults = .ok stored from read] at tokens
  have tokens : PassResult.tokensOf stored "doc" = 9223372036854775807 := Option.some.inj tokens
  cases found : db.overview ["doc"] .count with
  | error fault =>
    rw [found] at there
    cases there
  | ok o =>
    have shown : shown? (db.overview ["doc"] .count) = some o := found ▸ rfl
    obtain ⟨row, first, sum⟩ := shows o shown "doc" (.inl List.mem_cons_self)
    exact ⟨counts, stored, o, read, rfl, row, first, by rw [sum, tokens]; rfl⟩

/-- Two results of one pass whose tokens fit one by one and not together: the records are counted, and
then the overview fails. -/
theorem overview_overflows :
    let new (path : String) : NewRecord := ⟨path, none, "x", "", .null⟩
    let commit (id : RecordId) (path : String) (tokens : Nat) :
        Timestamp × Request Record RecordId :=
      (0, .commit (.ofNew id (new path) 0) ⟨"doc", "", .text "", some ⟨"m", 1, 1, tokens⟩, 5, 0⟩)
    let history : List (Timestamp × Request Record RecordId) :=
      [(0, .upsert (new "a.php")), (0, .upsert (new "b.php")),
        commit 1 "a.php" 9223372036854775807, commit 2 "b.php" 1]
    let db := Request.performAll Database.operations history (Database.migrate {})
    (db.storedResults.map (List.map PassResult.tokens)).toOption = some [9223372036854775807, 1] ∧
      db.overview ["doc"] .count = .error (.unsummed ⟨2, 0, 0⟩ .integerOverflow) := by
  intro new commit history db
  exact ⟨by decide +kernel, by decide +kernel⟩

/-- A database was made, saw nothing but requests, and was given counts of 64 bits. Its table of passes
is shown exactly when the tokens of each pass fit in 64 bits with a sign, and then it has the names of
the order, as often as they stand there, and the other names with a result in ascending order. The
first line of a name shows the number of all its results, a further one shows none, and all lines
together show the number of all results. So the table has one line for each name, with all its
results, exactly when the order names no pass twice. -/
theorem overview_rows {history : List (Timestamp × Request Record RecordId)}
    (given : ∀ r ∈ history, r.2.Counts) (order : List String) (check : PendingCheck) :
    let db := Request.performAll Database.operations history (Database.migrate {})
    ∃ stored, db.storedResults = .ok stored ∧
      ((∃ o, shown? (db.overview order check) = some o) ↔
        ∀ pass, PassResult.tokensOf stored pass < 2 ^ 63) ∧
      ∀ o, shown? (db.overview order check) = some o →
        let rows := Overview.rows order o.passes
        (∃ removed, rows.map PassTotals.pass = order ++ removed ∧ removed.Pairwise (· < ·) ∧
          ∀ pass, pass ∈ removed ↔ (∃ r ∈ stored, r.pass = pass) ∧ pass ∉ order) ∧
        (∀ i row, rows[i]? = some row →
          row.results = if row.pass ∈ order.take i then 0
            else (PassResult.ofPass stored row.pass).length) ∧
        (rows.map PassTotals.results).sum = stored.length ∧
        ((rows.map PassTotals.pass).Nodup ∧
            (∀ row ∈ rows, row.results = (PassResult.ofPass stored row.pass).length) ↔
          order.Nodup) := by
  intro db
  obtain ⟨records, results, scores, stored, st⟩ := exists_stored given
  obtain ⟨counts, passes, -, sums, comes⟩ := comes_overview st order check
  obtain ⟨fits, same⟩ := comes.shown_iff
  refine ⟨stored, st.read, fits, fun o shown => ?_⟩
  rw [same o shown]
  obtain ⟨removed, names, ascending, mem⟩ := Overview.map_pass_rows order passes sums.nodup
  have shows (i : Nat) (row : PassTotals) (h : (Overview.rows order passes)[i]? = some row) :
      row.results = if row.pass ∈ order.take i then 0
        else (PassResult.ofPass stored row.pass).length := by
    have line := Overview.rows_getElem? sums.nodup h
    by_cases again : row.pass ∈ order.take i
    · rw [if_pos again] at line ⊢
      exact congrArg PassTotals.results line
    · rw [if_neg again] at line ⊢
      exact (congrArg PassTotals.results line).trans (sums.totalsFor row.pass).1
  refine ⟨⟨removed, names, ascending, fun pass => ?_⟩, shows, ?_, ?_⟩
  · rw [mem, sums.mem_names]
  · rw [Overview.sum_rows sums.nodup, sums.sum_results]
  · rw [names]
    refine ⟨fun once => (List.nodup_append.1 once.1).1, fun once => ?_⟩
    have apart : (order ++ removed).Nodup := by
      refine List.Nodup.append once (ascending.imp Std.ne_of_lt) fun pass here left => ?_
      exact ((mem pass).1 left).2 here
    refine ⟨apart, fun row here => ?_⟩
    obtain ⟨i, h⟩ := List.mem_iff_getElem?.1 here
    rw [shows i row h, if_neg]
    exact notMem_take apart (names ▸ by rw [List.getElem?_map, h]; rfl)

/-- The order names two passes without results, and a third one has a result. -/
theorem overview_rows_of_removed :
    let new : NewRecord := ⟨"a.php", none, "x", "", .null⟩
    let history : List (Timestamp × Request Record RecordId) :=
      [(0, .upsert new), (0, .commit (.ofNew 1 new 0) ⟨"old", "", .text "", none, 5, 0⟩)]
    let db := Request.performAll Database.operations history (Database.migrate {})
    (∀ r ∈ history, r.2.Counts) ∧ ∃ stored o, db.storedResults = .ok stored ∧ stored.length = 1 ∧
      db.overview ["lint", "doc"] .count = .ok o ∧
      (Overview.rows ["lint", "doc"] o.passes).map (fun t => (t.pass, t.results)) =
        [("lint", 0), ("doc", 0), ("old", 1)] ∧
      ((Overview.rows ["lint", "doc"] o.passes).map PassTotals.results).sum = stored.length := by
  intro new history db
  have counts : ∀ r ∈ history, r.2.Counts := by
    intro r mem g gives u used
    simp only [history, List.mem_cons, List.not_mem_nil, or_false] at mem
    obtain rfl | rfl := mem
    · cases gives
    · cases gives
      cases used
  obtain ⟨stored, read, -, shows⟩ := overview_rows counts ["lint", "doc"] .count
  have length : (db.storedResults.map List.length).toOption = some 1 := by decide +kernel
  rw [show db.storedResults = .ok stored from read] at length
  have lines : ((db.overview ["lint", "doc"] .count).map fun o =>
      (Overview.rows ["lint", "doc"] o.passes).map fun t => (t.pass, t.results)).toOption =
      some [("lint", 0), ("doc", 0), ("old", 1)] := by decide +kernel
  cases found : db.overview ["lint", "doc"] .count with
  | error fault =>
    rw [found] at lines
    cases lines
  | ok o =>
    rw [found] at lines
    have shown : shown? (db.overview ["lint", "doc"] .count) = some o := found ▸ rfl
    obtain ⟨-, -, sum, -⟩ := shows o shown
    exact ⟨counts, stored, o, read, Option.some.inj length, rfl, Option.some.inj lines, sum⟩

/-- The order names one pass twice, as a configuration may that is accepted. Its result is shown in
the first of two lines, and the second one has none. -/
theorem overview_rows_of_twice :
    let cfg : Config := { db := ⟨"passes.db"⟩, pipeline := { order := ["doc", "doc"] } }
    let new : NewRecord := ⟨"a.php", none, "x", "", .null⟩
    let history : List (Timestamp × Request Record RecordId) :=
      [(0, .upsert new), (0, .commit (.ofNew 1 new 0) ⟨"doc", "", .text "", none, 5, 0⟩)]
    let db := Request.performAll Database.operations history (Database.migrate {})
    cfg.check = .ok cfg ∧
      (db.storedResults.map (List.map PassResult.pass)).toOption = some ["doc"] ∧
      ((db.overview cfg.pipeline.order cfg.runner.pendingCheck).map fun o =>
        (Overview.rows cfg.pipeline.order o.passes).map fun t => (t.pass, t.results)).toOption =
          some [("doc", 1), ("doc", 0)] := by
  intro cfg new history db
  exact ⟨by rfl, by decide +kernel, by decide +kernel⟩

end Relational

end Multipass
