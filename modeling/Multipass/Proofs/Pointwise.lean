import Mathlib.Data.List.Forall2

/-!
# Lists related item by item

What two lists have in common whose items are related one by one, beside what the library has.
-/

namespace Multipass

variable {α β : Type} {R : α → β → Prop} {p : α → Bool} {q : β → Bool} {as : List α} {bs : List β}

lemma rel_find? (h : List.Forall₂ R as bs) (same : ∀ a b, R a b → p a = q b) :
    Option.Rel R (as.find? p) (bs.find? q) := by
  induction h with
  | nil => exact .none
  | @cons a b as bs head _ ih =>
    rw [List.find?_cons, List.find?_cons, same a b head]
    split
    · exact .some head
    · exact ih

lemma rel_getElem? (h : List.Forall₂ R as bs) (n : Nat) : Option.Rel R as[n]? bs[n]? := by
  induction h generalizing n with
  | nil => exact .none
  | cons head _ ih =>
    cases n with
    | zero => exact .some head
    | succ n => exact ih n

lemma forall₂_filter (h : List.Forall₂ R as bs) (same : ∀ a b, R a b → p a = q b) :
    List.Forall₂ R (as.filter p) (bs.filter q) :=
  List.rel_filter (fun a b head => show p a = true ↔ q b = true by rw [same a b head]) h

lemma any_eq (h : List.Forall₂ R as bs) (same : ∀ a b, R a b → p a = q b) :
    as.any p = bs.any q := by
  induction h with
  | nil => rfl
  | @cons a b as bs head _ ih => rw [List.any_cons, List.any_cons, same a b head, ih]

lemma forall₂_mem (h : List.Forall₂ R as bs) :
    List.Forall₂ (fun a b => a ∈ as ∧ R a b) as bs := by
  induction h with
  | nil => exact .nil
  | @cons a b as bs head tail ih =>
    refine .cons ⟨List.mem_cons_self, head⟩ (ih.imp fun c d h => ?_)
    exact ⟨List.mem_cons_of_mem a h.1, h.2⟩

/-- Two lists that are related to the same one are related to each other. -/
lemma forall₂_join {γ : Type} {S : α → γ → Prop} {T : β → γ → Prop} {cs : List γ}
    (h : List.Forall₂ R as bs) (h' : List.Forall₂ S as cs)
    (each : ∀ a b c, R a b → S a c → T b c) : List.Forall₂ T bs cs := by
  induction h generalizing cs with
  | nil =>
    cases h'
    exact .nil
  | cons head _ ih =>
    cases h' with
    | cons head' tail' => exact .cons (each _ _ _ head head') (ih tail')

lemma forall₂_append {cs : List α} {ds : List β} (h : List.Forall₂ R as bs)
    (h' : List.Forall₂ R cs ds) : List.Forall₂ R (as ++ cs) (bs ++ ds) :=
  List.rel_append h h'

lemma exists_of_rel_some {a : α} {o : Option β} (h : Option.Rel R (some a) o) :
    ∃ b, o = some b ∧ R a b := by
  cases h with
  | some head => exact ⟨_, rfl, head⟩

lemma eq_none_of_rel_none {o : Option β} (h : Option.Rel R none o) : o = none := by
  cases h
  rfl

lemma rel_map {γ δ : Type} {S : γ → δ → Prop} {g : α → γ} {g' : β → δ} {a : Option α} {b : Option β}
    (h : Option.Rel R a b) (each : ∀ a b, R a b → S (g a) (g' b)) :
    Option.Rel S (a.map g) (b.map g') := by
  cases h with
  | none => exact .none
  | some head => exact .some (each _ _ head)

lemma rel_bind {γ δ : Type} {S : γ → δ → Prop} {g : α → Option γ} {g' : β → Option δ}
    {a : Option α} {b : Option β} (h : Option.Rel R a b)
    (each : ∀ a b, R a b → Option.Rel S (g a) (g' b)) : Option.Rel S (a.bind g) (b.bind g') := by
  cases h with
  | none => exact .none
  | some head => exact each _ _ head

lemma map_eq_of_rel {g : α → β} {a : Option α} {b : Option β}
    (h : Option.Rel (fun a b => g a = b) a b) : a.map g = b := by
  cases h with
  | none => rfl
  | some eq => rw [Option.map_some, eq]

end Multipass
