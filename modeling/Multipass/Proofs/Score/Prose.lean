import Multipass.Proofs.Score.Extraction

/-!
# Braces in prose

An object behind prose is found if no brace of the prose opens an object, whatever other braces
stand there and whatever fences the strings of the object hold. Braces that do open an object are not
skipped, even if it has none of the metrics: the first such object is taken for the payload.

Main statement: `scores_behind_prose_iff`. That the condition is needed is shown by `scores_hidden`.
-/

namespace Multipass.Score

open Text
open Json (whole isSpace Place)

variable {prose s : List Char} {fields : List (String × Json)} {metric : String}
  {metrics : List String}

/-! ### Numbers for metrics -/

/-- Holds of fields with a number for each metric. -/
def rated (metrics : List String) (fields : List (String × Json)) : Bool :=
  metrics.all fun metric => ((Json.lookup metric fields).bind Json.number?).isSome

lemma exists_read_iff :
    (∃ score, read fields metric = .ok score) ↔
      ((Json.lookup metric fields).bind Json.number?).isSome = true := by
  rw [read]
  cases Json.lookup metric fields with
  | none => simp
  | some j => cases number : j.number? <;> simp [number]

/-- Fields give scores exactly if they hold a number for each metric. -/
lemma exists_ofPayload_iff :
    (∃ scores, ofPayload (.obj fields) metrics = .ok scores) ↔ rated metrics fields = true := by
  simp only [ofPayload, rated]
  induction metrics with
  | nil => simp [readAll]
  | cons metric metrics ih =>
    rw [List.all_cons, Bool.and_eq_true, ← ih, ← exists_read_iff, readAll]
    cases read fields metric with
    | error e => simp
    | ok score => cases readAll fields metrics <;> simp

/-! ### Fences in strings -/

/-- A fence that follows prose without one stands in the payload. -/
lemma exists_of_fence {front behind : List Char} (object : whole s = .ok (.obj fields))
    (unfenced : ¬ fence <:+: prose) (parts : prose ++ s = front ++ (fence ++ behind)) :
    ∃ w, s = w ++ (fence ++ behind) := by
  obtain ⟨w, rfl, eq⟩ | ⟨w, rfl, eq⟩ := List.append_eq_append_iff.1 parts
  · exact ⟨w, eq⟩
  · -- A fence does not end in the payload either, which begins with a blank or a brace.
    exfalso
    obtain ⟨c, behind', rfl, other⟩ : ∃ c t, s = c :: t ∧ c ∉ fence := by
      obtain ⟨bs, t, rfl, blanks, -⟩ := exists_first_of_whole object
      cases bs with
      | nil => exact ⟨'\x7b', t, rfl, by decide⟩
      | cons b bs =>
        refine ⟨b, bs ++ '\x7b' :: t, rfl, fun mem => ?_⟩
        cases backtick_of_mem_fence b mem
        exact absurd (blanks '`' List.mem_cons_self) (by decide)
    have within : fence <+: w := (prefix_append_cons_iff other).1 ⟨behind, eq⟩
    exact unfenced (within.isInfix.trans (List.suffix_append front w).isInfix)

/-- An object that is read without blanks around it ends outside of strings with them. -/
lemma after_of_trimmed (object : whole (trimChars s) = .ok (.obj fields)) :
    Place.outside.after s = some .outside := by
  have plain {bs : List Char} (blanks : ∀ b ∈ bs, isBlank b = true) :
      Place.outside.after bs = some .outside :=
    Place.after_outside (by decide) (by decide) blanks
  obtain ⟨bs, cs, parts, blanks, behind⟩ := exists_trimmed s
  rw [parts, List.append_assoc, Place.after_behind (plain blanks),
    Place.after_behind (Place.after_whole object), plain behind]

/-- Fences in the strings of a payload hold no object between them. -/
lemma fencedObject?_behind_prose (object : whole s = .ok (.obj fields))
    (unfenced : ¬ fence <:+: prose) : fencedObject? (prose ++ s) = none := by
  cases found : fencedObject? (prose ++ s) with
  | none => rfl
  | some j =>
    exfalso
    obtain ⟨body, fs, -, block, inner⟩ := fencedObject?_cases found
    obtain ⟨front, line, after, parts, -, -, -⟩ := fencedBlock?_eq_some_iff.1 block
    rw [List.append_assoc] at parts
    obtain ⟨w, rfl⟩ := exists_of_fence object unfenced parts
    -- The fence that closes the block stands in a string, and the end of the block does not.
    have layout : w ++ (fence ++ (line ++ ['\n'] ++ (body ++ fence ++ after))) =
        w ++ fence ++ line ++ '\n' :: (body ++ '`' :: ('`' :: '`' :: after)) := by
      simp [fence]
    have within := Place.after_between (layout ▸ Place.after_whole object)
    rw [after_of_trimmed inner] at within
    cases within

/-! ### Payloads behind prose -/

/-- What is found is the first object that begins in the prose, or else the payload behind it. -/
lemma extractObject_behind_prose {prose payload : String}
    (object : Json.parse payload = .ok (.obj fields)) (unfenced : contains prose "```" = false) :
    (∃ others hidden, opened prose.toList payload.toList = others :: hidden ∧
        extractObject (prose ++ payload) = .ok (.obj others)) ∨
      opened prose.toList payload.toList = [] ∧
        extractObject (prose ++ payload) = .ok (.obj fields) := by
  have blocks := fencedObject?_behind_prose object (not_infix_of_contains unfenced)
  rw [extractObject, String.toList_append, blocks]
  obtain found | ⟨none, last, eq⟩ := firstObject_append none prose.toList payload.toList
  · exact .inl found
  · refine .inr ⟨none, eq.trans ?_⟩
    obtain ⟨bs, behind, parts, blanks, reads⟩ := exists_first_of_whole object
    obtain ⟨rest, read⟩ := reads []
    have plain : '\x7b' ∉ bs := fun mem => absurd (blanks _ mem) (by decide)
    rw [List.append_nil] at read
    rw [parts]
    exact firstObject_of_opened_nil last (opened_of_plain plain _) read

/-- Suppose that a payload holds a number for each metric, and that none of the objects that begin
in the prose in front of it does. Its scores are found exactly if no object begins in the prose at
all, and otherwise the whole text is refused. -/
theorem scores_behind_prose_iff (metrics : List String) (prose payload : String)
    (fields : List (String × Json)) (object : Json.parse payload = .ok (.obj fields))
    (rates : rated metrics fields = true) (unfenced : contains prose "```" = false)
    (unrated : ∀ others ∈ opened prose.toList payload.toList, rated metrics others = false) :
    let found := (extractObject (prose ++ payload)).bind fun j => ofPayload j metrics
    ∃ scores, ofPayload (.obj fields) metrics = .ok scores ∧
      (found = .ok scores ↔ opened prose.toList payload.toList = []) ∧
      (opened prose.toList payload.toList ≠ [] → ∃ e, found = .error e) := by
  intro found
  obtain ⟨scores, scored⟩ := exists_ofPayload_iff.2 rates
  refine ⟨scores, scored, ?_⟩
  obtain ⟨others, hidden, some, eq⟩ | ⟨none, eq⟩ := extractObject_behind_prose object unfenced
  · have unscored : ¬ ∃ scores, ofPayload (.obj others) metrics = .ok scores := by
      rw [exists_ofPayload_iff, unrated others (some ▸ List.mem_cons_self)]
      exact Bool.false_ne_true
    have same : found = ofPayload (.obj others) metrics := by
      simp only [found, eq, Except.bind]
    rw [same, some]
    cases refused : ofPayload (.obj others) metrics with
    | error e => exact ⟨by simp, fun _ => ⟨e, rfl⟩⟩
    | ok scores => exact absurd ⟨scores, refused⟩ unscored
  · have same : found = .ok scores := by
      simp only [found, eq, Except.bind, scored]
    exact ⟨by simp [same, none], fun some => absurd none some⟩

/-- Braces around a statement open no object. -/
theorem scores_behind_prose_of_statement :
    let prose := "Given `if ($x) \x7b return; \x7d`, I score it "
    let payload := "\x7b\"overall_score\": 70\x7d"
    let metrics := ["overall_score"]
    let fields := [("overall_score", Json.int 70)]
    Json.parse payload = .ok (.obj fields) ∧ rated metrics fields = true ∧
      contains prose "```" = false ∧ opened prose.toList payload.toList = [] ∧
      ((extractObject (prose ++ payload)).bind fun j => ofPayload j metrics) =
        ofPayload (.obj fields) metrics := by
  intro prose payload metrics fields
  have object : Json.parse "\x7b\"overall_score\": 70\x7d" =
      .ok (.obj [("overall_score", .int 70)]) := by
    rfl
  have none : opened prose.toList payload.toList = [] := by
    decide +kernel
  obtain ⟨scores, scored, found, -⟩ := scores_behind_prose_iff metrics prose payload fields object
    (by decide) (by decide) (by simp [none])
  exact ⟨object, by decide, by decide, none, (found.2 none).trans scored.symm⟩

/-- An empty pair of braces is an object, and hides the payload although it holds no metric. -/
theorem scores_hidden :
    let prose := "The method `run() \x7b\x7d` is fine, I score it "
    let payload := "\x7b\"overall_score\": 70\x7d"
    let metrics := ["overall_score"]
    let fields := [("overall_score", Json.int 70)]
    Json.parse payload = .ok (.obj fields) ∧ rated metrics fields = true ∧
      contains prose "```" = false ∧
      (∀ others ∈ opened prose.toList payload.toList, rated metrics others = false) ∧
      ofPayload (.obj fields) metrics = .ok [⟨"overall_score", Number.Double.ofNat 70⟩] ∧
      ((extractObject (prose ++ payload)).bind fun j => ofPayload j metrics) =
        .error (.missingField "overall_score") := by
  refine ⟨by rfl, ?_, ?_, ?_, ?_, ?_⟩ <;> decide +kernel

end Multipass.Score
