import Multipass.Executor.Step
import Multipass.Proofs.Registry

/-!
# Pipelines that are accepted

When a configuration is resolved to a registry, and why it is refused if it is not. What is wrong
with a place in the order is said of the names before it and of the table under its name; the first
place with which something is wrong decides.

Main statements: `PassRegistry.ofConfig_eq_error_iff` and `PassRegistry.ofConfig_settles`, and
`Execution.definition_of_reached` for the passes of a registry that a worker looks up.
-/

namespace Multipass

/-!
### Passes that are looked up

A worker looks up the passes that it goes through, and these are passes of the order of its registry,
whatever happens to the shared state between its steps. So the look-up never fails.
-/

section

namespace Execution

variable {ω : Type} {env : Environment ω} {job : Job} {e e' : Execution}

/-- The executions that a worker reaches with a record, if others change the shared state in any way
between its steps. -/
inductive Reached (env : Environment ω) (job : Job) (record : Record) : Execution → Prop where
  | start : Reached env job record (.start record job.registry.order)
  | step {e e' w w'} :
    Reached env job record e →
    e.step env job w = (.running e', w') →
    Reached env job record e'

/-! ### Passes still to be gone through -/

/-- Holds of an execution that goes through the passes of another one, or leaves the first out. -/
def Follows (e e' : Execution) : Prop :=
  e'.remaining = e.remaining ∨ e'.remaining = e.remaining.tail

lemma follows_enter (phase : Phase) : e.Follows (e.enter phase) :=
  .inl rfl

lemma follows_close (pass : String) (outcome : PassOutcome) : e.Follows (e.close pass outcome) :=
  .inr rfl

lemma follows_completed (pass : String) (updated : Record) :
    e.Follows (e.completed job pass updated) := by
  simp only [completed]
  split
  · exact .inl rfl
  · exact .inr rfl

lemma follows_prepared (d : PassDefinition) (prior : List PassResult) :
    e.Follows (e.prepared job d prior) := by
  simp only [prepared]
  split
  · exact follows_close _ _
  · exact follows_enter _

lemma follows_choose (pass : String) (w : ω) : e.Follows (choose env job e pass w) := by
  simp only [choose]
  split
  · exact follows_close _ _
  · split
    · exact follows_close _ _
    · split
      · exact follows_close _ _
      · split
        · exact follows_enter _
        · exact follows_prepared _ _

lemma follows_afterCompletion {pass : String} {answer : Except StoreError Record}
    (h : afterCompletion job e pass answer = .running e') : e.Follows e' := by
  simp only [afterCompletion] at h
  split at h <;> cases h
  · exact follows_completed _ _
  · exact follows_close _ _

lemma follows_afterReply {d : PassDefinition} {pass : String} {since now : Nat} {reply : Reply}
    (h : afterReply e d pass since now reply = .running e') : e.Follows e' := by
  simp only [afterReply] at h
  split at h <;> cases h
  · exact follows_enter _
  · exact follows_close _ _

/-- A step leaves out the first pass or none. -/
lemma follows_step {w w' : ω} (h : e.step env job w = (.running e', w')) : e.Follows e' := by
  simp only [step] at h
  split at h
  · cases h
  · simp only [stepPass] at h
    split at h
    · cases h
      exact follows_choose _ _
    · split at h <;> cases h
      exact follows_prepared _ _
    · split at h <;> cases h
      · exact follows_enter _
      · exact follows_enter _
    · exact follows_afterCompletion (Prod.mk.inj h).1
    · cases h
      exact follows_enter _
    · split at h
      · cases h
        exact follows_close _ _
      · exact follows_afterReply (Prod.mk.inj h).1
    · exact follows_afterCompletion (Prod.mk.inj h).1
    · split at h <;> cases h
      · exact follows_enter _
      · exact .inr rfl
    · split at h <;> cases h
      · exact .inr rfl
      · exact .inr rfl

/-- A worker goes through no other passes than those of the order. -/
lemma remaining_subset_of_reached {record : Record} (reached : Reached env job record e) :
    e.remaining ⊆ job.registry.order := by
  induction reached with
  | start => exact List.filter_subset_self _
  | step _ h ih =>
    obtain same | tail := follows_step h
    · exact same ▸ ih
    · intro pass mem
      rw [tail] at mem
      exact ih (List.mem_of_mem_tail mem)

/-- A worker finds the definition of every pass that it goes through. -/
theorem definition_of_reached {record : Record} (reached : Reached env job record e) {pass : String}
    (mem : pass ∈ e.remaining) : ∃ d, job.registry.definition pass = .ok d :=
  PassRegistry.definition_iff.2 (remaining_subset_of_reached reached mem)

end Execution

end

/-! ### What is asked of a configuration -/

/-- What is asked of a table once the defaults are applied, and the words for a table that lacks it,
in the order in which it is looked for. -/
def PassConfig.demands (raw : PassConfig) (ai : AiConfig) : List (Bool × String) :=
  match raw.backend with
  | .ai => [
      (raw.prompt.any fun p => !Text.allBlank p, "ai passes need a non-empty `prompt`"),
      (temperatureInRange (raw.temperature.getD ai.temperature),
        "`temperature` must be in [0.0, 2.0]"),
      (raw.maxTokens.getD ai.maxTokens != 0, "`max_tokens` must be > 0")]
  | .staticTool => [
      (raw.command.any fun c => !Text.allBlank c, "static_tool passes need a `command`"),
      (raw.timeoutSeconds != 0, "`timeout_secs` must be > 0"),
      (!raw.successExitCodes.isEmpty, "`success_exit_codes` must not be empty")]
  | .none => []

/-- Holds of a table that its backend can use. -/
def PassConfig.Usable (raw : PassConfig) (ai : AiConfig) : Prop :=
  ∀ demand ∈ raw.demands ai, demand.1 = true

/-- Holds of the words for the first thing that a table lacks. -/
def PassConfig.Lacks (raw : PassConfig) (ai : AiConfig) (reason : String) : Prop :=
  ∃ met more, raw.demands ai = met ++ (false, reason) :: more ∧ ∀ demand ∈ met, demand.1 = true

namespace Config

/-- Holds of names that differ, and that all have a table that their backends can use. -/
structure Sound (cfg : Config) (names : List String) : Prop where
  nodup : names.Nodup
  usable : ∀ name ∈ names, ∃ raw, cfg.pass? name = some raw ∧ raw.Usable cfg.ai

/-- What is wrong with a place in the order, given the names before it: first that its name is one of
them, then that there is no table, then what the table lacks. -/
inductive Offends (cfg : Config) (before : List String) (name : String) :
    ConfigurationError → Prop where
  | repeated :
    name ∈ before →
    Offends cfg before name (.duplicateInOrder name)
  | unknown :
    name ∉ before →
    cfg.pass? name = none →
    Offends cfg before name (.unknownPass name)
  | invalid {raw reason} :
    name ∉ before →
    cfg.pass? name = some raw →
    raw.Lacks cfg.ai reason →
    Offends cfg before name (.invalidDefinition name reason)

/-- Holds of a configuration whose pipeline can be run. -/
structure Accepted (cfg : Config) : Prop where
  some : cfg.pipeline.order ≠ []
  sound : cfg.Sound cfg.pipeline.order
  scoring : ∀ name ∈ cfg.pipeline.scoringPass, name ∈ cfg.pipeline.order

/-- Why a configuration is refused: there are no passes; or something is wrong with the first place in
the order that is not as it should be; or the scoring pass is not in an order that is. -/
inductive Refused (cfg : Config) : ConfigurationError → Prop where
  | empty :
    cfg.pipeline.order = [] →
    Refused cfg .emptyPassOrder
  | offence {before name behind error} :
    cfg.pipeline.order = before ++ name :: behind →
    cfg.Sound before →
    cfg.Offends before name error →
    Refused cfg error
  | scoring {name} :
    cfg.pipeline.order ≠ [] →
    cfg.Sound cfg.pipeline.order →
    cfg.pipeline.scoringPass = some name →
    name ∉ cfg.pipeline.order →
    Refused cfg (.unknownScoringPass name)

end Config

/-! ### Tables -/

section

variable {raw : PassConfig} {ai : AiConfig} {reason : String}

lemma nonBlank?_eq_none {s : Option String} :
    nonBlank? s = none ↔ (s.any fun t => !Text.allBlank t) = false := by
  cases s <;> simp [nonBlank?]

lemma any_of_nonBlank? {s : Option String} {t : String} (h : nonBlank? s = some t) :
    (s.any fun t => !Text.allBlank t) = true := by
  by_contra blank
  rw [Bool.not_eq_true, ← nonBlank?_eq_none, h] at blank
  cases blank

lemma usable_iff : raw.Usable ai ↔ (raw.demands ai).find? (fun demand => !demand.1) = none := by
  simp [PassConfig.Usable, List.find?_eq_none]

lemma lacks_iff :
    raw.Lacks ai reason ↔
      (raw.demands ai).find? (fun demand => !demand.1) = some (false, reason) := by
  simp [PassConfig.Lacks, List.find?_eq_some_iff_append]

/-- A table is refused for the first thing that it lacks. -/
lemma resolveBackend_eq_error : resolveBackend raw ai = .error reason ↔ raw.Lacks ai reason := by
  rw [lacks_iff]
  simp only [resolveBackend, PassConfig.demands]
  cases raw.backend with
  | none => simp
  | ai =>
    cases hp : nonBlank? raw.prompt with
    | none => simp [nonBlank?_eq_none.1 hp]
    | some prompt =>
      simp only [any_of_nonBlank? hp]
      cases temperatureInRange (raw.temperature.getD ai.temperature) with
      | false => simp
      | true => by_cases none : raw.maxTokens.getD ai.maxTokens = 0 <;> simp [none]
  | staticTool =>
    cases hc : nonBlank? raw.command with
    | none => simp [nonBlank?_eq_none.1 hc]
    | some command =>
      simp only [any_of_nonBlank? hc]
      by_cases none : raw.timeoutSeconds = 0
      · simp [none]
      · by_cases empty : raw.successExitCodes = [] <;> simp [none, empty]

/-- A table that lacks nothing is resolved. -/
lemma resolveBackend_of_usable (usable : raw.Usable ai) :
    ∃ backend, resolveBackend raw ai = .ok backend := by
  cases h : resolveBackend raw ai with
  | ok backend => exact ⟨backend, rfl⟩
  | error reason =>
    have lacks := lacks_iff.1 (resolveBackend_eq_error.1 h)
    rw [usable_iff.1 usable] at lacks
    cases lacks

lemma usable_or_lacks (raw : PassConfig) (ai : AiConfig) :
    raw.Usable ai ∨ ∃ reason, raw.Lacks ai reason := by
  cases h : (raw.demands ai).find? (fun demand => !demand.1) with
  | none => exact .inl (usable_iff.2 h)
  | some demand =>
    obtain ⟨met, reason⟩ := demand
    obtain rfl : met = false := by simpa using List.find?_some h
    exact .inr ⟨reason, lacks_iff.2 h⟩

end

/-! ### Places in the order -/

namespace Config

variable {cfg : Config} {before : List String}

lemma sound_nil : cfg.Sound [] :=
  ⟨List.nodup_nil, nofun⟩

/-- The names up to a place are as they should be, or something is wrong with the place. -/
lemma Sound.snoc_or_offends (sound : cfg.Sound before) (name : String) :
    cfg.Sound (before ++ [name]) ∨ ∃ error, cfg.Offends before name error := by
  by_cases old : name ∈ before
  · exact .inr ⟨_, .repeated old⟩
  cases table : cfg.pass? name with
  | none => exact .inr ⟨_, .unknown old table⟩
  | some raw =>
    obtain usable | ⟨reason, lacks⟩ := usable_or_lacks raw cfg.ai
    · refine .inl ⟨?_, fun other mem => ?_⟩
      · rw [← List.concat_eq_append]
        exact sound.nodup.concat old
      · obtain mem | eq := List.mem_append.1 mem
        · exact sound.usable other mem
        · obtain rfl := List.mem_singleton.1 eq
          exact ⟨raw, table, usable⟩
    · exact .inr ⟨_, .invalid old table lacks⟩

/-- There is a first place with which something is wrong, or there is none. -/
lemma Sound.append_or_offends (sound : cfg.Sound before) (names : List String) :
    cfg.Sound (before ++ names) ∨ ∃ front name behind error,
      before ++ names = front ++ name :: behind ∧ cfg.Sound front ∧ cfg.Offends front name error := by
  induction names generalizing before with
  | nil => exact .inl (by rwa [List.append_nil])
  | cons name names ih =>
    obtain sound' | ⟨error, offends⟩ := sound.snoc_or_offends name
    · rw [List.append_cons]
      exact ih sound'
    · exact .inr ⟨before, name, names, error, rfl, sound, offends⟩

lemma accepted_or_refused (cfg : Config) : cfg.Accepted ∨ ∃ error, cfg.Refused error := by
  by_cases none : cfg.pipeline.order = []
  · exact .inr ⟨_, .empty none⟩
  have nothing : cfg.Sound [] := sound_nil
  obtain sound | ⟨front, name, behind, error, parts, sound, offends⟩ :=
    nothing.append_or_offends cfg.pipeline.order
  · rw [List.nil_append] at sound
    by_cases scoring : ∀ name ∈ cfg.pipeline.scoringPass, name ∈ cfg.pipeline.order
    · exact .inl ⟨none, sound, scoring⟩
    · simp only [not_forall] at scoring
      obtain ⟨name, given, outside⟩ := scoring
      exact .inr ⟨_, .scoring none sound given outside⟩
  · exact .inr ⟨error, .offence parts sound offends⟩

end Config

namespace PassRegistry

variable {cfg : Config} {registry : PassRegistry} {before seen : List String} {position : Nat}

/-- Names that are as they should be are resolved, and then the others are looked at. -/
lemma resolve_append (sound : cfg.Sound before) (fresh : ∀ name ∈ before, name ∉ seen)
    (position : Nat) :
    ∃ definitions, ∀ rest, resolve cfg seen position (before ++ rest) =
      (resolve cfg (before.reverse ++ seen) (position + before.length) rest).map
        (definitions ++ ·) := by
  -- On the names in front. What was seen grows by each of them, the last one first.
  induction before generalizing seen position with
  | nil =>
    refine ⟨[], fun rest => ?_⟩
    simp only [List.nil_append, List.reverse_nil, List.length_nil, Nat.add_zero]
    cases resolve cfg seen position rest <;> rfl
  | cons name before ih =>
    obtain ⟨nodup, usable⟩ := sound
    obtain ⟨new, nodup⟩ := List.nodup_cons.1 nodup
    obtain ⟨⟨raw, table, usable⟩, others⟩ := List.forall_mem_cons.1 usable
    obtain ⟨backend, resolved⟩ := resolveBackend_of_usable usable
    have unseen : seen.contains name = false := by simpa using fresh name List.mem_cons_self
    have fresh' : ∀ other ∈ before, other ∉ name :: seen := by
      intro other mem old
      obtain rfl | old := List.mem_cons.1 old
      · exact new mem
      · exact fresh other (List.mem_cons_of_mem _ mem) old
    obtain ⟨definitions, split⟩ := ih ⟨nodup, others⟩ fresh' (position + 1)
    refine ⟨⟨name, position, backend, raw.requires, raw.description⟩ :: definitions, fun rest => ?_⟩
    simp only [List.cons_append, resolve, unseen, table, resolveDefinition, resolved, split,
      Bool.false_eq_true, if_false]
    rw [List.reverse_cons, List.append_assoc, List.singleton_append, List.length_cons,
      Nat.add_right_comm, Nat.add_assoc]
    cases resolve cfg (before.reverse ++ name :: seen) (position + (before.length + 1)) rest <;> rfl

/-- What is wrong with a place is found there. -/
lemma resolve_of_offends {name : String} {error : ConfigurationError}
    (offends : cfg.Offends before name error) (same : ∀ other, other ∈ seen ↔ other ∈ before)
    (position : Nat) (behind : List String) :
    resolve cfg seen position (name :: behind) = .error error := by
  have unseen (new : name ∉ before) : seen.contains name = false := by
    simpa using mt (same name).1 new
  cases offends with
  | repeated old =>
    have known : seen.contains name = true := List.contains_iff_mem.2 ((same name).2 old)
    simp only [resolve, known, if_true]
  | unknown new table => simp only [resolve, unseen new, table, Bool.false_eq_true, if_false]
  | invalid new table lacks =>
    have refused := resolveBackend_eq_error.2 lacks
    simp only [resolve, unseen new, table, resolveDefinition, refused, Bool.false_eq_true, if_false]

/-- An order that is as it should be is resolved. -/
lemma resolve_of_sound {names : List String} (sound : cfg.Sound names) :
    ∃ definitions, resolve cfg [] 0 names = .ok definitions := by
  obtain ⟨definitions, split⟩ := resolve_append sound (fun _ _ => List.not_mem_nil) 0
  refine ⟨definitions ++ [], ?_⟩
  have whole := split []
  rwa [List.append_nil] at whole

lemma ofConfig_of_refused {error : ConfigurationError} (refused : cfg.Refused error) :
    ofConfig cfg = .error error := by
  have filled (some : cfg.pipeline.order ≠ []) : cfg.pipeline.order.isEmpty = false := by
    simpa using some
  cases refused with
  | empty none => simp only [ofConfig, none, List.isEmpty_nil, if_true]
  | @offence before name behind _ parts sound offends =>
    obtain ⟨definitions, split⟩ := resolve_append sound (fun _ _ => List.not_mem_nil) 0
    have wrong := split (name :: behind)
    rw [resolve_of_offends offends (fun other => by simp), ← parts] at wrong
    have some : cfg.pipeline.order ≠ [] := by simp [parts]
    simp only [ofConfig, filled some, wrong, Except.map, Bool.false_eq_true, if_false]
  | @scoring name some sound given outside =>
    obtain ⟨definitions, resolved⟩ := resolve_of_sound sound
    have names := (resolve_eq_ok resolved).1
    have unknown : (definitions.any fun d => d.name == name) = false := by
      rw [List.any_eq_false]
      intro d mem eq
      exact outside (names ▸ List.mem_map.2 ⟨d, mem, beq_iff_eq.1 eq⟩)
    simp only [ofConfig, filled some, resolved, given, unknown, Bool.false_eq_true, if_false]

lemma ofConfig_of_accepted (accepted : cfg.Accepted) : ∃ registry, ofConfig cfg = .ok registry := by
  have filled : cfg.pipeline.order.isEmpty = false := by simpa using accepted.some
  obtain ⟨definitions, resolved⟩ := resolve_of_sound accepted.sound
  cases given : cfg.pipeline.scoringPass with
  | none =>
    simp only [ofConfig, filled, resolved, given, Bool.false_eq_true, if_false]
    exact ⟨_, rfl⟩
  | some name =>
    have mem := accepted.scoring name given
    rw [← (resolve_eq_ok resolved).1] at mem
    have known : (definitions.any fun d => d.name == name) = true := by simpa using mem
    simp only [ofConfig, filled, resolved, given, known, Bool.false_eq_true, if_false, if_true]
    exact ⟨_, rfl⟩

/-- A configuration is refused for the first thing that is wrong with it. -/
theorem ofConfig_eq_error_iff {error : ConfigurationError} :
    ofConfig cfg = .error error ↔ cfg.Refused error := by
  refine ⟨fun failed => ?_, ofConfig_of_refused⟩
  obtain accepted | ⟨error', refused⟩ := cfg.accepted_or_refused
  · obtain ⟨registry, built⟩ := ofConfig_of_accepted accepted
    cases failed.symm.trans built
  · obtain rfl := Except.error.inj (failed.symm.trans (ofConfig_of_refused refused))
    exact refused

theorem ofConfig_eq_ok_iff : (∃ registry, ofConfig cfg = .ok registry) ↔ cfg.Accepted := by
  refine ⟨?_, ofConfig_of_accepted⟩
  rintro ⟨registry, built⟩
  obtain accepted | ⟨error, refused⟩ := cfg.accepted_or_refused
  · exact accepted
  · cases built.symm.trans (ofConfig_of_refused refused)

/-! ### Registries that are built -/

/-- The definitions stand at their positions, and each is that of the table under its name. -/
lemma placed_of_resolve {names : List String} {definitions : List PassDefinition}
    (h : resolve cfg seen position names = .ok definitions) :
    definitions.map PassDefinition.position = List.range' position names.length ∧
      ∀ d ∈ definitions, ∃ raw, cfg.pass? d.name = some raw ∧
        resolveDefinition d.name d.position raw cfg.ai = .ok d := by
  induction names generalizing seen position definitions with
  | nil =>
    cases h
    exact ⟨rfl, nofun⟩
  | cons name names ih =>
    simp only [resolve] at h
    split at h
    · cases h
    · split at h
      · cases h
      · next raw table =>
        split at h
        · cases h
        · next d hd =>
          split at h
          · cases h
          · next rest hr =>
            cases h
            obtain ⟨places, tables⟩ := ih hr
            have own : d.name = name ∧ d.position = position := by
              simp only [resolveDefinition] at hd
              split at hd <;> cases hd
              exact ⟨rfl, rfl⟩
            refine ⟨?_, List.forall_mem_cons.2 ⟨⟨raw, ?_, ?_⟩, tables⟩⟩
            · rw [List.map_cons, places, own.2, List.length_cons, List.range'_succ]
            · rw [own.1, table]
            · rw [own.1, own.2, hd]

/-- What a registry says beside its definitions is what the configuration says. -/
lemma scoring_of_ofConfig (h : ofConfig cfg = .ok registry) :
    registry.scoringPass = cfg.pipeline.scoringPass ∧
      registry.scoreFields = cfg.pipeline.scoreFields := by
  simp only [ofConfig] at h
  split at h
  · cases h
  · split at h
    · cases h
    · split at h
      · next given =>
        split at h <;> cases h
        exact ⟨given.symm, rfl⟩
      · next given =>
        cases h
        exact ⟨given.symm, rfl⟩

/-- Only the tables of the names that are resolved matter. -/
lemma resolve_congr {cfg' : Config} {names : List String} (ai : cfg'.ai = cfg.ai)
    (same : ∀ name ∈ names, cfg'.pass? name = cfg.pass? name) (seen : List String)
    (position : Nat) : resolve cfg' seen position names = resolve cfg seen position names := by
  induction names generalizing seen position with
  | nil => rfl
  | cons name names ih =>
    obtain ⟨table, others⟩ := List.forall_mem_cons.1 same
    simp only [resolve, table, ai, ih others]

/-- What a registry offers that is built of a configuration: the passes of the order, one after the
other, each as its table says, and a definition for each of them and for no other name. A worker with
this registry finds a definition for each pass that it goes through, whatever others do. -/
structure Serves (registry : PassRegistry) (cfg : Config) : Prop where
  names : registry.definitions.map PassDefinition.name = cfg.pipeline.order
  positions :
    registry.definitions.map PassDefinition.position = List.range cfg.pipeline.order.length
  tables : ∀ d ∈ registry.definitions, ∃ raw, cfg.pass? d.name = some raw ∧
    resolveDefinition d.name d.position raw cfg.ai = .ok d
  scoringPass : registry.scoringPass = cfg.pipeline.scoringPass
  scoreFields : registry.scoreFields = cfg.pipeline.scoreFields
  known : ∀ name, (∃ d, registry.definition name = .ok d) ↔ name ∈ cfg.pipeline.order
  unknown : ∀ name, name ∉ cfg.pipeline.order →
    registry.definition name = .error (.unknownPass name)
  looksUp : ∀ {ω : Type} (env : Environment ω) (job : Job) (record : Record) (e : Execution),
    job.registry = registry → Execution.Reached env job record e →
      ∀ pass ∈ e.remaining, ∃ d, registry.definition pass = .ok d

lemma serves_of_ofConfig (built : ofConfig cfg = .ok registry) : registry.Serves cfg := by
  have order := order_of_ofConfig built
  obtain ⟨places, tables⟩ := placed_of_resolve (resolve_of_ofConfig built)
  obtain ⟨pass, fields⟩ := scoring_of_ofConfig built
  exact {
    names := order
    positions := places.trans List.range_eq_range'.symm
    tables := tables
    scoringPass := pass
    scoreFields := fields
    known := fun name => order ▸ definition_iff
    unknown := by
      intro name outside
      have none : ¬∃ d, registry.definition name = .ok d := mt definition_iff.1 (order ▸ outside)
      simp only [definition] at none ⊢
      cases found : registry.find? name with
      | none => rfl
      | some d => exact absurd ⟨d, by rw [found]⟩ none
    looksUp := by
      rintro ω env job record e rfl reached pass mem
      exact Execution.definition_of_reached reached mem }

/-- For every configuration: it is resolved exactly if its order is not empty, no name is repeated in
it, each has a table that its backend can use under the defaults, and the scoring pass, if there is
one, is among them. Otherwise it is refused, because the order is empty, or for what is wrong with the
first place that is not as it should be, or because of the scoring pass. A registry that is built
serves the configuration, and it stays the same whatever tables stand under other names than those of
the order. -/
theorem ofConfig_settles (cfg : Config) :
    ((∃ registry, ofConfig cfg = .ok registry) ↔ cfg.Accepted) ∧
    (∀ error, ofConfig cfg = .error error ↔ cfg.Refused error) ∧
    (∀ registry, ofConfig cfg = .ok registry → registry.Serves cfg) ∧
    ∀ cfg' : Config, cfg'.ai = cfg.ai → cfg'.pipeline = cfg.pipeline →
      (∀ name ∈ cfg.pipeline.order, cfg'.pass? name = cfg.pass? name) →
      ofConfig cfg' = ofConfig cfg := by
  refine ⟨ofConfig_eq_ok_iff, fun _ => ofConfig_eq_error_iff, fun _ => serves_of_ofConfig, ?_⟩
  intro cfg' ai pipeline same
  simp only [ofConfig, pipeline, resolve_congr ai same]

/-- A table without a prompt does no harm outside of the order. In the order it is what is wrong,
although a name is repeated behind it. -/
theorem ofConfig_settles_of_spare :
    let doc : PassConfig := { backend := .ai, prompt := some "Doc it" }
    let lint : PassConfig := { backend := .staticTool, command := some "phpstan" }
    let spare : PassConfig := { backend := .ai }
    let cfg : Config := {
      db := ⟨"a.sqlite"⟩
      pipeline := { order := ["lint", "doc"], scoringPass := some "doc" }
      passes := [("doc", doc), ("spare", spare), ("lint", lint)] }
    let less : Config := { cfg with passes := [("lint", lint), ("doc", doc)] }
    let more : Config := { cfg with pipeline := { order := ["doc", "spare", "doc"] } }
    cfg.Accepted ∧
      (∃ registry, ofConfig cfg = .ok registry ∧ ofConfig less = .ok registry ∧
        registry.order = ["lint", "doc"] ∧
        registry.definitions.map PassDefinition.position = [0, 1]) ∧
      more.Refused (.invalidDefinition "spare" "ai passes need a non-empty `prompt`") := by
  intro doc lint spare cfg less more
  obtain ⟨accepted, -, serves, same⟩ := ofConfig_settles cfg
  obtain ⟨-, refused, -⟩ := ofConfig_settles more
  obtain ⟨registry, built⟩ : ∃ registry, ofConfig cfg = .ok registry := by
    cases h : ofConfig cfg with
    | ok registry => exact ⟨registry, rfl⟩
    | error e =>
      have fine : (ofConfig cfg).toOption.isSome = true := by decide +kernel
      rw [h] at fine
      cases fine
  have less_eq : ofConfig less = ofConfig cfg := same less rfl rfl (by decide)
  refine ⟨accepted.1 ⟨registry, built⟩, ⟨registry, built, less_eq.trans built, ?_, ?_⟩, ?_⟩
  · exact (serves registry built).names
  · exact (serves registry built).positions
  · exact (refused _).1 (by decide +kernel)

end PassRegistry

end Multipass
