import Multipass.Proofs.Json.Extent
import Multipass.Proofs.Text.Find
import Multipass.Score.Payload

/-!
# Payloads in free text

An object is found in a free text behind prose without braces, and in the first fenced block
whatever stands around it; and whatever is found is a part of the text that is an object by itself.

Main statement: `extractObject_wrapped`.
-/

namespace Multipass.Score

open Text
open Json (first whole isSpace Place Takes)

variable {before line body after s : List Char} {fields : List (String × Json)}

/-! ### Blanks around a text -/

lemma isBlank_of_isSpace {c : Char} (space : isSpace c = true) : isBlank c = true := by
  simp only [isSpace, Bool.or_eq_true, decide_eq_true_eq] at space
  obtain ((rfl | rfl) | rfl) | rfl := space <;> decide

/-- Trimming takes blanks away on both sides. -/
lemma exists_trimmed (s : List Char) :
    ∃ bs cs, s = bs ++ trimChars s ++ cs ∧ (∀ b ∈ bs, isBlank b = true) ∧
      ∀ c ∈ cs, isBlank c = true := by
  refine ⟨s.takeWhile isBlank, ((trimStartChars s).reverse.takeWhile isBlank).reverse, ?_,
    fun b mem => List.mem_takeWhile_imp mem, fun c mem => List.mem_takeWhile_imp (List.mem_reverse.1 mem)⟩
  have behind : trimChars s ++ ((trimStartChars s).reverse.takeWhile isBlank).reverse =
      trimStartChars s := by
    rw [trimChars, trimEndChars, ← List.reverse_append, List.takeWhile_append_dropWhile,
      List.reverse_reverse]
  rw [List.append_assoc, behind]
  exact List.takeWhile_append_dropWhile.symm

/-- Blanks are all that trimming takes away. -/
lemma trimChars_wrapped {c d : Char} {bs cs : List Char} (inner : List Char)
    (blanks : ∀ b ∈ bs, isBlank b = true) (behind : ∀ b ∈ cs, isBlank b = true)
    (head : isBlank c = false) (last : isBlank d = false) :
    trimChars (bs ++ (c :: inner ++ [d]) ++ cs) = c :: inner ++ [d] := by
  have start : trimStartChars (bs ++ (c :: inner ++ [d]) ++ cs) = c :: inner ++ [d] ++ cs := by
    rw [trimStartChars, List.append_assoc, List.dropWhile_append_of_pos blanks]
    simp [head]
  have blanks : ∀ b ∈ cs.reverse, isBlank b = true := fun b mem => behind b (List.mem_reverse.1 mem)
  rw [trimChars, start, trimEndChars, List.reverse_append, List.dropWhile_append_of_pos blanks]
  simp [last]

/-! ### Objects that begin in a text -/

/-- The objects that begin in a text when another follows it, one for each brace that opens one. -/
def opened : (text behind : List Char) → List (List (String × Json))
  | [], _ => []
  | c :: text, behind =>
    if c = '\x7b' then
      match first (c :: (text ++ behind)) with
      | .ok (.obj fields, _) => fields :: opened text behind
      | _ => opened text behind
    else opened text behind

lemma opened_of_plain (plain : '\x7b' ∉ s) (behind : List Char) : opened s behind = [] := by
  induction s with
  | nil => rfl
  | cons c s ih =>
    have other : c ≠ '\x7b' := fun eq => plain (eq ▸ List.mem_cons_self)
    rw [opened, if_neg other]
    exact ih fun mem => plain (List.mem_cons_of_mem c mem)

lemma mem_opened_iff {behind : List Char} :
    fields ∈ opened s behind ↔
      ∃ u v rest, s = u ++ '\x7b' :: v ∧ first ('\x7b' :: (v ++ behind)) = .ok (.obj fields, rest) := by
  induction s with
  | nil => simp [opened]
  | cons c s ih =>
    have deeper : (∃ u v rest, c :: s = u ++ '\x7b' :: v ∧
          first ('\x7b' :: (v ++ behind)) = .ok (.obj fields, rest)) ↔
        (c = '\x7b' ∧ ∃ rest, first (c :: (s ++ behind)) = .ok (.obj fields, rest)) ∨
          fields ∈ opened s behind := by
      rw [ih]
      constructor
      · rintro ⟨u, v, rest, parts, read⟩
        cases u with
        | nil =>
          cases parts
          exact .inl ⟨rfl, rest, read⟩
        | cons d u =>
          cases parts
          exact .inr ⟨u, v, rest, rfl, read⟩
      · rintro (⟨rfl, rest, read⟩ | ⟨u, v, rest, rfl, read⟩)
        · exact ⟨[], s, rest, rfl, read⟩
        · exact ⟨c :: u, v, rest, rfl, read⟩
    rw [deeper, opened]
    split
    · next brace =>
      split
      · next others rest read =>
        have here : (∃ rest, first (c :: (s ++ behind)) = .ok (.obj fields, rest)) ↔
            fields = others := by
          simp [read, eq_comm]
        rw [List.mem_cons, here]
        simp only [brace, true_and]
      · next none =>
        have no : ¬ ∃ rest, first (c :: (s ++ behind)) = .ok (.obj fields, rest) :=
          fun ⟨rest, read⟩ => none _ _ read
        simp only [no, and_false, false_or]
    · next other => simp only [other, false_and, false_or]

/-- The first object that begins in a text is found; if none does, the search goes on behind it. -/
lemma firstObject_append (last : Option (List Char × Json.Fault)) (s behind : List Char) :
    (∃ fields others, opened s behind = fields :: others ∧
        firstObject last (s ++ behind) = .ok (.obj fields)) ∨
      opened s behind = [] ∧ ∃ last', firstObject last (s ++ behind) = firstObject last' behind := by
  induction s generalizing last with
  | nil => exact .inr ⟨rfl, last, rfl⟩
  | cons c s ih =>
    simp only [List.cons_append, firstObject, opened]
    split
    · cases read : first (c :: (s ++ behind)) with
      | error fault => exact ih (some (c :: (s ++ behind), fault))
      | ok p =>
        obtain ⟨value, rest⟩ := p
        cases value with
        | obj fields => exact .inl ⟨fields, opened s behind, rfl, rfl⟩
        | _ => exact ih last
    · exact ih last

/-- An object that opens behind the objects of a text is found if there are none. -/
lemma firstObject_of_opened_nil (last : Option (List Char × Json.Fault))
    (none : opened before ('\x7b' :: s) = []) {rest : List Char}
    (read : first ('\x7b' :: s) = .ok (.obj fields, rest)) :
    firstObject last (before ++ '\x7b' :: s) = .ok (.obj fields) := by
  obtain ⟨fields, others, some, -⟩ | ⟨-, last', eq⟩ := firstObject_append last before ('\x7b' :: s)
  · rw [none] at some
    cases some
  · rw [eq, firstObject, if_pos rfl, read]

/-! ### Fenced blocks -/

lemma backtick_of_mem_fence : ∀ c ∈ fence, c = '`' := by
  simp [fence]

lemma fence_ne_nil : fence ≠ [] := nofun

lemma ahead_lineFeed_iff : Ahead ['\n'] line ↔ '\n' ∉ line := by
  simp [Ahead, List.singleton_infix_iff]

/-- A fenced block stands between the first fence, the end of its line, and the next fence. -/
lemma fencedBlock?_eq_some_iff :
    fencedBlock? s = some body ↔
      ∃ before line after, s = before ++ fence ++ (line ++ ['\n'] ++ (body ++ fence ++ after)) ∧
        Ahead fence before ∧ '\n' ∉ line ∧ Ahead fence body := by
  constructor
  · intro found
    simp only [fencedBlock?] at found
    split at found
    · cases found
    · next before behind opens =>
      split at found
      · cases found
      · next line inner ends =>
        obtain ⟨⟨_, after⟩, closes, rfl⟩ := Option.map_eq_some_iff.1 found
        obtain ⟨rfl, first⟩ := (splitAt?_eq_some_iff fence_ne_nil).1 opens
        obtain ⟨rfl, short⟩ := (splitAt?_eq_some_iff (List.cons_ne_nil _ _)).1 ends
        obtain ⟨rfl, next⟩ := (splitAt?_eq_some_iff fence_ne_nil).1 closes
        exact ⟨before, line, after, rfl, first, ahead_lineFeed_iff.1 short, next⟩
  · rintro ⟨before, line, after, rfl, first, short, next⟩
    simp only [fencedBlock?, first.splitAt?_eq fence_ne_nil,
      (ahead_lineFeed_iff.2 short).splitAt?_eq (List.cons_ne_nil _ _), next.splitAt?_eq fence_ne_nil,
      Option.map_some]

/-- Behind a text without a fence, the first fence may begin with backticks of that text, and then
leaves as many of its own. -/
lemma exists_opening (unfenced : ¬ fence <:+: before) :
    ∃ front ticks, before ++ fence = front ++ fence ++ ticks ∧ Ahead fence front ∧
      ∀ c ∈ ticks, c = '`' := by
  obtain ⟨front, ticks, eq, ahead⟩ := exists_ahead fence_ne_nil (List.suffix_append before fence).isInfix
  refine ⟨front, ticks, eq, ahead, fun c mem => ?_⟩
  have parts : front ++ fence ++ ticks = before ++ fence ++ [] := by rw [← eq, List.append_nil]
  obtain ⟨w, rfl⟩ := ahead.prefix_of parts
  have shifted : w ++ fence = fence ++ ticks := by simpa using eq
  -- What is left of the prose is too short for a fence, so it is a part of one.
  have few : w.length ≤ fence.length := by
    by_contra many
    have within : fence <+: w := by
      refine List.prefix_of_prefix_length_le (List.prefix_append _ ticks) ?_ (Nat.le_of_not_le many)
      exact shifted ▸ List.prefix_append w fence
    exact unfenced (within.isInfix.trans (List.suffix_append front w).isInfix)
  have part : w <+: fence :=
    List.prefix_of_prefix_length_le (shifted ▸ List.prefix_append w fence) (List.prefix_append ..) few
  have mem : c ∈ w ++ fence := shifted ▸ List.mem_append_right fence mem
  obtain mem | mem := List.mem_append.1 mem
  · exact backtick_of_mem_fence c (part.subset mem)
  · exact backtick_of_mem_fence c mem

/-- A block is found behind prose that holds no fence. -/
lemma fencedBlock?_wrapped (unfenced : ¬ fence <:+: before) (tag : '\n' ∉ line)
    (ahead : Ahead fence body) (after : List Char) :
    fencedBlock? (before ++ fence ++ line ++ ['\n'] ++ body ++ fence ++ after) = some body := by
  obtain ⟨front, ticks, eq, first, backticks⟩ := exists_opening unfenced
  refine fencedBlock?_eq_some_iff.2 ⟨front, ticks ++ line, after, by simp [eq], first, ?_, ahead⟩
  intro mem
  obtain mem | mem := List.mem_append.1 mem
  · exact absurd (backticks _ mem) (by decide)
  · exact tag mem

/-- A fence behind a text that is an object is the first one if none is within the text. -/
lemma ahead_fence_of_whole (object : whole s = .ok (.obj fields)) (unfenced : ¬ fence <:+: s) :
    Ahead fence s := by
  obtain ⟨bs, front, cs, rfl, -, behind, -⟩ := Json.exists_object_of_whole object
  have layout : bs ++ ('\x7b' :: front ++ ['\x7d']) ++ cs ++ fence.dropLast =
      bs ++ '\x7b' :: front ++ '\x7d' :: (cs ++ fence.dropLast) := by
    simp
  have other : '\x7d' ∉ fence := by decide
  rw [Ahead, layout, infix_append_cons_iff other]
  rintro (within | beyond)
  · refine unfenced (within.trans ⟨[], '\x7d' :: cs, ?_⟩)
    simp
  · -- Blanks and two backticks are no fence.
    have blanks : '`' ∉ cs := fun mem => absurd (behind _ mem) (by decide)
    have count := beyond.sublist.count_le '`'
    rw [List.count_append, List.count_eq_zero.2 blanks] at count
    exact absurd count (by decide)

/-! ### Payloads -/

/-- An object is read from its opening brace on, whatever follows. -/
lemma exists_first_of_whole (object : whole s = .ok (.obj fields)) :
    ∃ bs behind, s = bs ++ '\x7b' :: behind ∧ (∀ b ∈ bs, isSpace b = true) ∧
      ∀ after, ∃ rest, first ('\x7b' :: (behind ++ after)) = .ok (.obj fields, rest) := by
  obtain ⟨bs, front, cs, rfl, blanks, -, takes⟩ := Json.exists_object_of_whole object
  refine ⟨bs, front ++ '\x7d' :: cs, by simp, blanks, fun after => ⟨cs ++ after, ?_⟩⟩
  have reads := takes.reads (cs ++ after)
  simpa using reads

/-- An object is an object without the blanks around it. -/
lemma whole_trimChars (object : whole s = .ok (.obj fields)) :
    whole (trimChars s) = .ok (.obj fields) := by
  obtain ⟨bs, front, cs, rfl, blanks, behind, takes⟩ := Json.exists_object_of_whole object
  have trimmed := trimChars_wrapped front (fun b mem => isBlank_of_isSpace (blanks b mem))
    (fun c mem => isBlank_of_isSpace (behind c mem)) (show isBlank '\x7b' = false by decide)
    (show isBlank '\x7d' = false by decide)
  rw [trimmed]
  exact takes.whole

lemma fencedObject?_of_fencedBlock? (found : fencedBlock? s = some body)
    (object : whole (trimChars body) = .ok (.obj fields)) : fencedObject? s = some (.obj fields) := by
  simp only [fencedObject?, found, object]

lemma fencedObject?_cases {j : Json} (found : fencedObject? s = some j) :
    ∃ body fields, j = .obj fields ∧ fencedBlock? s = some body ∧
      whole (trimChars body) = .ok (.obj fields) := by
  simp only [fencedObject?] at found
  split at found
  · cases found
  · next body block =>
    split at found
    · next fields object =>
      cases found
      exact ⟨body, fields, rfl, block, object⟩
    · cases found

lemma fencedObject?_of_unfenced (unfenced : ¬ fence <:+: s) : fencedObject? s = none := by
  simp only [fencedObject?, fencedBlock?, splitAt?_eq_none_iff.2 unfenced]

/-- The object of a fenced block is a part of the text. -/
lemma infix_of_fencedObject? {j : Json} (found : fencedObject? s = some j) :
    ∃ part fields, part <:+: s ∧ whole part = .ok j ∧ j = .obj fields := by
  obtain ⟨body, fields, rfl, block, object⟩ := fencedObject?_cases found
  obtain ⟨before, line, after, rfl, -⟩ := fencedBlock?_eq_some_iff.1 block
  obtain ⟨bs, cs, parts, -⟩ := exists_trimmed body
  refine ⟨trimChars body, fields, ?_, object, rfl⟩
  have inner : trimChars body <:+: body := ⟨bs, cs, parts.symm⟩
  exact inner.trans ⟨before ++ fence ++ (line ++ ['\n']), fence ++ after, by simp⟩

/-- An object that begins at a brace is a part of the text. -/
lemma infix_of_firstObject {last : Option (List Char × Json.Fault)} {j : Json}
    (found : firstObject last s = .ok j) :
    ∃ part fields, part <:+: s ∧ whole part = .ok j ∧ j = .obj fields := by
  rw [← List.append_nil s] at found
  obtain ⟨fields, others, some, eq⟩ | ⟨-, last', eq⟩ := firstObject_append last s []
  · rw [eq] at found
    cases found
    have mem : fields ∈ opened s [] := some ▸ List.mem_cons_self
    obtain ⟨u, v, rest, rfl, read⟩ := mem_opened_iff.1 mem
    obtain ⟨bs, front, parts, -, takes⟩ := Json.exists_object read
    refine ⟨'\x7b' :: front ++ ['\x7d'], fields, ?_, takes.whole, rfl⟩
    rw [List.append_nil] at parts
    exact ⟨u ++ bs, rest, by simp [parts]⟩
  · rw [eq] at found
    cases found

lemma toList_fence : "```".toList = fence := by
  decide

lemma not_infix_of_contains {text : String} (h : contains text "```" = false) :
    ¬ fence <:+: text.toList := by
  rw [← toList_fence, ← occursIn_iff]
  exact Bool.eq_false_iff.1 h

/-- An object is found behind prose without braces. -/
lemma extractObject_of_plain {before payload after : String}
    (object : Json.parse payload = .ok (.obj fields)) (plain : '\x7b' ∉ before.toList)
    (head : payload.toList.head? = some '\x7b')
    (unfenced : contains (before ++ payload ++ after) "```" = false) :
    extractObject (before ++ payload ++ after) = .ok (.obj fields) := by
  rw [extractObject, fencedObject?_of_unfenced (not_infix_of_contains unfenced)]
  obtain ⟨bs, behind, parts, blanks, reads⟩ := exists_first_of_whole object
  cases bs with
  | cons b bs =>
    rw [parts] at head
    cases head
    exact absurd (blanks _ List.mem_cons_self) (by decide)
  | nil =>
    obtain ⟨rest, read⟩ := reads after.toList
    have found := firstObject_of_opened_nil none (opened_of_plain plain _) read
    simpa [String.toList_append, parts] using found

/-- An object is found in the first fenced block. -/
lemma extractObject_of_fenced {before tag payload : String}
    (object : Json.parse payload = .ok (.obj fields)) (unfenced : contains before "```" = false)
    (short : '\n' ∉ tag.toList) (bare : contains payload "```" = false) (after : String) :
    extractObject (before ++ "```" ++ tag ++ "\n" ++ payload ++ "```" ++ after) =
      .ok (.obj fields) := by
  have block := fencedBlock?_wrapped (not_infix_of_contains unfenced) short
    (ahead_fence_of_whole object (not_infix_of_contains bare)) after.toList
  have found := fencedObject?_of_fencedBlock? block (whole_trimChars object)
  have layout : (before ++ "```" ++ tag ++ "\n" ++ payload ++ "```" ++ after).toList =
      before.toList ++ fence ++ tag.toList ++ ['\n'] ++ payload.toList ++ fence ++ after.toList := by
    simp only [String.toList_append, toList_fence]
    rfl
  rw [extractObject, layout, found]

/-- What is found in a text is an object that some part of it is. -/
lemma exists_part_of_extractObject {text : String} {value : Json}
    (found : extractObject text = .ok value) :
    (∃ fields, value = .obj fields) ∧
      ∃ before part after, text = before ++ part ++ after ∧ Json.parse part = .ok value := by
  have part : ∃ part fields, part <:+: text.toList ∧ whole part = .ok value ∧ value = .obj fields := by
    rw [extractObject] at found
    split at found
    · next fenced =>
      cases found
      exact infix_of_fencedObject? fenced
    · exact infix_of_firstObject found
  obtain ⟨part, fields, ⟨u, v, eq⟩, object, rfl⟩ := part
  refine ⟨⟨fields, rfl⟩, String.ofList u, String.ofList part, String.ofList v, ?_, ?_⟩
  · rw [← String.ofList_append, ← String.ofList_append, eq, String.ofList_toList]
  · rw [Json.parse, String.toList_ofList]
    exact object

/-- A payload survives its wrapping: an object is found behind prose without braces if no fence
stands anywhere, and in a fenced block with any prose around it, if neither the prose in front nor
the object itself holds a fence. What is found in a text is an object that some part of it is. -/
theorem extractObject_wrapped :
    (∀ (before payload after : String) (fields : List (String × Json)),
      Json.parse payload = .ok (.obj fields) →
      '\x7b' ∉ before.toList → payload.toList.head? = some '\x7b' →
      contains (before ++ payload ++ after) "```" = false →
      extractObject (before ++ payload ++ after) = .ok (.obj fields)) ∧
    (∀ (before tag payload after : String) (fields : List (String × Json)),
      Json.parse payload = .ok (.obj fields) →
      contains before "```" = false → '\n' ∉ tag.toList → contains payload "```" = false →
      extractObject (before ++ "```" ++ tag ++ "\n" ++ payload ++ "```" ++ after) =
        .ok (.obj fields)) ∧
    (∀ (text : String) (value : Json), extractObject text = .ok value →
      (∃ fields, value = .obj fields) ∧
        ∃ before part after, text = before ++ part ++ after ∧ Json.parse part = .ok value) := by
  refine ⟨?_, ?_, ?_⟩
  · intro before payload after fields object plain head unfenced
    exact extractObject_of_plain object plain head unfenced
  · intro before tag payload after fields object unfenced short bare
    exact extractObject_of_fenced object unfenced short bare after
  · intro text value found
    exact exists_part_of_extractObject found

/-- A score with prose beside it, and one in a block behind prose that is full of braces. -/
theorem extractObject_wrapped_of_prose :
    Json.parse "\x7b\"overall_score\": 70\x7d" = .ok (.obj [("overall_score", .int 70)]) ∧
    extractObject "I score it \x7b\"overall_score\": 70\x7d \x7boverall\x7d." =
      .ok (.obj [("overall_score", .int 70)]) ∧
    extractObject "Given \x7b\x7d:\n```json\n\x7b\"overall_score\": 70\x7d``` \x7b\x7d" =
      .ok (.obj [("overall_score", .int 70)]) ∧
    ∃ before part after,
      "I score it \x7b\"overall_score\": 70\x7d \x7boverall\x7d." = before ++ part ++ after ∧
        Json.parse part = .ok (.obj [("overall_score", .int 70)]) := by
  have object : Json.parse "\x7b\"overall_score\": 70\x7d" =
      .ok (.obj [("overall_score", .int 70)]) := by
    rfl
  obtain ⟨unfenced, fenced, part⟩ := extractObject_wrapped
  have prose := unfenced "I score it " _ " \x7boverall\x7d." _ object (by decide) (by decide) (by decide)
  have block := fenced "Given \x7b\x7d:\n" "json" _ " \x7b\x7d" _ object (by decide) (by decide) (by decide)
  exact ⟨object, prose, block, (part _ _ prose).2⟩

end Multipass.Score
