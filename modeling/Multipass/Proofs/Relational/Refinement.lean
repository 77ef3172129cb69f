import Multipass.Proofs.Relational.Operations

/-!
# A database answers as a store in memory does

Every script that is put to a store in memory and to a database, both without contents at first, is
answered alike: it goes through in both or in neither, and the responses agree, under one renaming
of numbers that keeps their order.

Main statement: `sessions_agree`.
-/

namespace Multipass

open Relational

/-! ### What is shown -/

/-- Responses that agree under one renaming agree under every other one that keeps the numbers that
are shown. -/
lemma Response.Agrees.of_eq {f f' : RecordId → RecordId} {response response' : Response}
    (h : response.Agrees f response') (same : ∀ r ∈ response.shown, f' r.id = f r.id) :
    response.Agrees f' response' := by
  cases h with
  | error e => exact .error e
  | ok agrees =>
    refine .ok ?_
    cases agrees with
    | outcome o => exact .outcome o
    | done => exact .done
    | deleted found => exact .deleted found
    | record agrees => exact .record (agrees.of_eq (same _ (List.mem_singleton_self _)))
    | record? agrees =>
      refine .record? ?_
      cases agrees with
      | none => exact .none
      | some agrees => exact .some (agrees.of_eq (same _ (List.mem_singleton_self _)))
    | records agrees =>
      refine .records ((forall₂_mem agrees).imp fun r r' agrees => ?_)
      exact agrees.2.of_eq (same r agrees.1)
    | result? r => exact .result? r
    | results rs => exact .results rs
    | scores agrees => exact .scores agrees

/-- What is shown of an operation is in what it returns. -/
lemma Response.exists_of_shown {α : Type} {g : α → Answer} {reply : Except StoreError α}
    {r : Record} (mem : r ∈ Response.shown (reply.map g)) : ∃ a, reply = .ok a ∧ r ∈ (g a).shown := by
  cases reply with
  | ok a => exact ⟨a, rfl, mem⟩
  | error e => exact absurd mem List.not_mem_nil

namespace MemoryStore

/-- A record that a store holds is one of its records. -/
lemma mem_ids_of_holds {s : MemoryStore} {subject : Option RecordId}
    (there : subject.all (operations.holds s) = true) : ∀ id ∈ subject, id ∈ s.ids := by
  rintro id rfl
  have holds : (s.records.any fun r => r.id == id) = true := there
  simpa [ids] using holds

/-- The records in a response stand under numbers that were given. -/
lemma lt_of_shown {s : MemoryStore} (wf : s.WellFormed) (now : Timestamp)
    (request : Request Record RecordId) (r : Record)
    (mem : r ∈ Response.shown (request.perform operations now s).1) : r.id < s.nextId := by
  obtain ⟨r', mem', eq⟩ : ∃ r' ∈ s.records, r'.id = r.id := by
    cases request with
    | get path => exact ⟨r, List.mem_of_find?_eq_some (Option.mem_toList.1 mem), rfl⟩
    | list => exact ⟨r, mem, rfl⟩
    | pending order check => exact ⟨r, List.mem_of_mem_filter mem, rfl⟩
    | advance record pass =>
      obtain ⟨a, returned, mem⟩ := Response.exists_of_shown mem
      obtain rfl := List.mem_singleton.1 mem
      obtain ⟨stored, mem', -, -, h⟩ | ⟨_, _, _, _, h⟩ | ⟨_, h⟩ := advance_cases s record pass now
      · obtain rfl := Except.ok.inj (returned.symm.trans (congrArg Prod.fst h))
        exact ⟨stored, mem', rfl⟩
      · cases returned.symm.trans (congrArg Prod.fst h)
      · cases returned.symm.trans (congrArg Prod.fst h)
    | commit record result =>
      obtain ⟨a, returned, mem⟩ := Response.exists_of_shown mem
      obtain rfl := List.mem_singleton.1 mem
      obtain ⟨stored, mem', -, -, h⟩ | ⟨_, _, _, _, h⟩ | ⟨_, h⟩ := commit_cases s record result now
      · obtain rfl := Except.ok.inj (returned.symm.trans (congrArg Prod.fst h))
        exact ⟨stored, mem', rfl⟩
      · cases returned.symm.trans (congrArg Prod.fst h)
      · cases returned.symm.trans (congrArg Prod.fst h)
    | results id => exact absurd mem List.not_mem_nil
    | latest id pass => exact absurd mem List.not_mem_nil
    | scores id => exact absurd mem List.not_mem_nil
    | saveScores id values => exact absurd mem List.not_mem_nil
    | _ =>
      obtain ⟨a, -, mem⟩ := Response.exists_of_shown mem
      exact absurd mem List.not_mem_nil
  exact eq ▸ wf.below_of_mem mem'

end MemoryStore

namespace Relational

variable {clock clock' : Nat → Timestamp}

/-- From a store in memory and its mirror, and from responses that agree, a script goes on alike. -/
lemma Mirrors.session? {f : RecordId → RecordId} {s : MemoryStore} {records : Table RecordRow}
    {results : Table ResultRow} {scores : List ScoreRow} (m : Mirrors f s records results scores)
    {script : List (Request Ref Ref)} (plain : ∀ request ∈ script, request.Plain)
    {seen seen' : List Response} (agree : List.Forall₂ (Response.Agrees f) seen seen')
    (given : ∀ response ∈ seen, ∀ r ∈ response.shown, r.id < s.nextId) :
    ∃ f', KeepsOrder f' ∧ Option.Rel (List.Forall₂ (Response.Agrees f'))
      (session? MemoryStore.operations clock script seen s)
      (session? Database.operations clock' script seen' (tables records results scores)) := by
  induction script generalizing f s records results scores seen seen' with
  | nil => exact ⟨f, m.keeps, .some agree⟩
  | cons request script ih =>
    have resolved := request.resolve?_agrees agree
    cases hr : request.resolve? seen with
    | none =>
      rw [hr] at resolved
      refine ⟨f, m.keeps, ?_⟩
      simp only [Multipass.session?, hr, eq_none_of_rel_none resolved]
      exact .none
    | some request₁ =>
      rw [hr] at resolved
      obtain ⟨request₂, hr', same⟩ := exists_of_rel_some resolved
      simp only [Multipass.session?, hr, hr', m.holds_subject same]
      split
      · next there =>
        have alike := m.perform same ((plain request List.mem_cons_self).of_resolve? hr)
          (MemoryStore.mem_ids_of_holds there) (clock seen.length) (clock' seen'.length)
        obtain ⟨c, change, -⟩ := MemoryStore.change_perform s (clock seen.length) request₁
        have le := change.nextId_le
        have shown := MemoryStore.lt_of_shown m.wellFormed (clock seen.length) request₁
        generalize request₁.perform MemoryStore.operations (clock seen.length) s = after at *
        generalize request₂.perform Database.operations (clock' seen'.length) _ = after' at *
        cases alike with
        | @intro f' response response' s' records' results' scores' keeps m' agrees =>
          -- What was seen agrees under the new renaming too: it shows numbers that were given.
          refine ih m' (fun other mem => plain other (List.mem_cons_of_mem request mem)) ?_ ?_
          · refine forall₂_append ?_ (.cons agrees .nil)
            refine (forall₂_mem agree).imp fun r r' agrees => ?_
            exact agrees.2.of_eq fun record mem => keeps record.id (given r agrees.1 record mem)
          · intro r mem record mem'
            obtain mem | eq := List.mem_append.1 mem
            · exact Int.lt_of_lt_of_le (given r mem record mem') le
            · obtain rfl := List.mem_singleton.1 eq
              exact Int.lt_of_lt_of_le (shown record mem') le
      · exact ⟨f, m.keeps, .none⟩

/-- Every script of requests with values that columns can hold is answered alike by a store in
memory and by a database, both without contents at first. It goes through in both or in neither,
whatever their clocks show; and the responses agree, under one renaming of numbers that keeps their
order. -/
theorem sessions_agree (clock clock' : Nat → Timestamp) (script : List (Request Ref Ref))
    (plain : ∀ request ∈ script, request.Plain) :
    ∃ rename : RecordId → RecordId, KeepsOrder rename ∧
      Option.Rel (List.Forall₂ (Response.Agrees rename))
        (session? MemoryStore.operations clock script [] {})
        (session? Database.operations clock' script [] (Database.migrate {})) :=
  mirrors_empty.session? plain .nil nofun

/-- A result is kept, kept again with its completion, and refused the third time, each time for the
record as it was listed first. -/
theorem sessions_agree_of_stale :
    let result : PassResult := ⟨"lint", "cargo clippy", .text "clean", none, 5, 0⟩
    let listed : Ref := ⟨1, 0⟩
    let script : List (Request Ref Ref) :=
      [.upsert ⟨"lib.rs", some "rust", "", "e3b0c442", .null⟩, .list, .recordResult listed result,
        .commit listed result, .commit listed result, .results listed]
    (∀ request ∈ script, request.Plain) ∧
      (session? MemoryStore.operations (fun _ => 0) script [] {}).isSome ∧
      ∃ rename : RecordId → RecordId, KeepsOrder rename ∧
        Option.Rel (List.Forall₂ (Response.Agrees rename))
          (session? MemoryStore.operations (fun _ => 0) script [] {})
          (session? Database.operations (fun _ => 1) script [] (Database.migrate {})) := by
  intro result listed script
  have plain : ∀ request ∈ script, request.Plain := by
    have kept : result.Plain := ⟨nofun, nofun, by decide⟩
    have parsed : Json.Plain .null := ⟨trivial, by decide⟩
    simp only [script, List.forall_mem_cons]
    exact ⟨parsed, trivial, kept, kept, kept, trivial, fun _ mem => absurd mem List.not_mem_nil⟩
  exact ⟨plain, by decide, sessions_agree _ _ script plain⟩

end Relational

end Multipass
