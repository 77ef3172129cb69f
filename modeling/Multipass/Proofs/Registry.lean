import Mathlib.Data.List.Nodup
import Multipass.Registry

/-!
# Registries that are built

What holds of every registry that a configuration is resolved to: it has the order of the
configuration, no pass stands in it twice, and each name in it has the definition at its place.

Main statements: `PassRegistry.order_of_ofConfig` and `PassRegistry.nodup_of_ofConfig`.
-/

namespace Multipass

namespace PassRegistry

lemma name_of_resolveDefinition {name : String} {position : Nat} {raw : PassConfig} {ai : AiConfig}
    {d : PassDefinition} (h : resolveDefinition name position raw ai = .ok d) : d.name = name := by
  simp only [resolveDefinition] at h
  split at h <;> cases h
  rfl

/-- The definitions of the names of an order stand under these names, of which none is repeated. -/
lemma resolve_eq_ok {cfg : Config} {seen names : List String} {position : Nat}
    {definitions : List PassDefinition} (h : resolve cfg seen position names = .ok definitions) :
    definitions.map PassDefinition.name = names ∧ names.Nodup ∧ ∀ name ∈ names, name ∉ seen := by
  induction names generalizing seen position definitions with
  | nil =>
    cases h
    exact ⟨rfl, List.nodup_nil, nofun⟩
  | cons name names ih =>
    simp only [resolve] at h
    split at h
    · cases h
    · next new =>
      split at h
      · cases h
      · split at h
        · cases h
        · next definition hd =>
          split at h
          · cases h
          · next rest hr =>
            cases h
            obtain ⟨same, nodup, fresh⟩ := ih hr
            refine ⟨?_, List.nodup_cons.2 ⟨fun mem => ?_, nodup⟩, fun other mem => ?_⟩
            · rw [List.map_cons, same, name_of_resolveDefinition hd]
            · exact fresh name mem List.mem_cons_self
            · obtain rfl | mem := List.mem_cons.1 mem
              · simpa using new
              · exact fun old => fresh other mem (List.mem_cons_of_mem _ old)

variable {cfg : Config} {registry : PassRegistry}

lemma resolve_of_ofConfig (h : ofConfig cfg = .ok registry) :
    resolve cfg [] 0 cfg.pipeline.order = .ok registry.definitions := by
  simp only [ofConfig] at h
  split at h
  · cases h
  · split at h
    · cases h
    · next definitions hd =>
      split at h
      · split at h <;> cases h
        exact hd
      · cases h
        exact hd

theorem order_of_ofConfig (h : ofConfig cfg = .ok registry) :
    registry.order = cfg.pipeline.order :=
  (resolve_eq_ok (resolve_of_ofConfig h)).1

theorem nodup_of_ofConfig (h : ofConfig cfg = .ok registry) : registry.order.Nodup := by
  rw [order_of_ofConfig h]
  exact (resolve_eq_ok (resolve_of_ofConfig h)).2.1

/-- The names that are found are those of the order. -/
lemma definition_iff {pass : String} :
    (∃ d, registry.definition pass = .ok d) ↔ pass ∈ registry.order := by
  have found : (∃ d, registry.definition pass = .ok d) ↔ (registry.find? pass).isSome = true := by
    rw [definition]
    cases registry.find? pass <;> simp
  rw [found, find?, List.find?_isSome]
  simp [order]

/-- The definition that is found under the name of a definition is this one. -/
lemma definition_of_mem (nodup : registry.order.Nodup) {d : PassDefinition}
    (mem : d ∈ registry.definitions) : registry.definition d.name = .ok d := by
  have found : registry.find? d.name = some d := by
    cases h : registry.find? d.name with
    | none =>
      rw [find?, List.find?_eq_none] at h
      exact absurd (h d mem) (by simp)
    | some other =>
      have same : other.name = d.name := by simpa using List.find?_some h
      rw [List.inj_on_of_nodup_map nodup (List.mem_of_find?_eq_some h) mem same]
  rw [definition, found]

lemma mem_of_definition {pass : String} {d : PassDefinition}
    (h : registry.definition pass = .ok d) : d ∈ registry.definitions ∧ d.name = pass := by
  simp only [definition] at h
  split at h <;> cases h
  next h => exact ⟨List.mem_of_find?_eq_some h, by simpa using List.find?_some h⟩

end PassRegistry

end Multipass
