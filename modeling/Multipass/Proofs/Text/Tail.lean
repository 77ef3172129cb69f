import Mathlib.Data.List.Infix
import Multipass.Backend.Tool
import Multipass.Proofs.Text.Utf8

/-!
# Ends of a text

A text is cut at a place in its bytes, and a place within a character will not do. From the first
place that leaves few enough bytes the cut moves on, byte by byte, until the byte there begins a
character or the text ends. It never moves far, since no character takes more than four bytes, and
what is left is the longest end that fits.

Main statements: `tail?_longest`, and `Tool.outcome_ne_panic` for the tools whose output is cut.
-/

namespace Multipass

namespace Text

/-! ### Boundaries -/

/-- The bytes of characters, one behind the other. -/
def bytesOf (cs : List Char) : List UInt8 :=
  cs.flatMap String.utf8EncodeChar

variable {bytes : List UInt8} {cs front back : List Char} {place stop : Nat}

lemma bytesOf_append (front back : List Char) :
    bytesOf (front ++ back) = bytesOf front ++ bytesOf back :=
  List.flatMap_append

lemma isContinuation_ofNat {n : Nat} (small : n < 256) :
    isContinuation (UInt8.ofNat n) = (decide (0x80 ≤ n) && decide (n < 0xc0)) := by
  rw [isContinuation, toNat_ofNat small]

/-- The first byte of a character begins it, and at most three others go on with it. -/
lemma exists_utf8EncodeChar (c : Char) :
    ∃ b bs, String.utf8EncodeChar c = b :: bs ∧ isContinuation b = false ∧
      (∀ x ∈ bs, isContinuation x = true) ∧ bs.length ≤ 3 := by
  have scalar : c.val.toNat < 0xd800 ∨ 0xdfff < c.val.toNat ∧ c.val.toNat < 0x110000 := c.valid
  have begins {n : Nat} (small : n < 256) (other : n < 0x80 ∨ 0xc0 ≤ n) :
      isContinuation (UInt8.ofNat n) = false := by
    rw [isContinuation_ofNat small]
    simpa using fun least => by omega
  have goOn (ns : List Nat) :
      ∀ x ∈ ns.map fun n => UInt8.ofNat (n % 64 + 0x80), isContinuation x = true := by
    intro x mem
    obtain ⟨n, -, rfl⟩ := List.mem_map.1 mem
    rw [isContinuation_ofNat (by omega)]
    simp
    omega
  rw [String.utf8EncodeChar]
  split
  · exact ⟨_, _, rfl, begins (by omega) (by omega), nofun, by simp⟩
  · split
    · exact ⟨_, _, rfl, begins (by omega) (by omega), goOn [_], by simp⟩
    · split
      · exact ⟨_, _, rfl, begins (by omega) (by omega), goOn [_, _], by simp⟩
      · exact ⟨_, _, rfl, begins (by omega) (by omega), goOn [_, _, _], by simp⟩

/-- The bytes of a character stand in front of those of the characters behind it. -/
lemma exists_bytesOf_cons (c : Char) :
    ∃ b bs, (∀ cs, bytesOf (c :: cs) = b :: (bs ++ bytesOf cs)) ∧ isContinuation b = false ∧
      (∀ x ∈ bs, isContinuation x = true) ∧ bs.length ≤ 3 := by
  obtain ⟨b, bs, eq, rest⟩ := exists_utf8EncodeChar c
  refine ⟨b, bs, fun cs => ?_, rest⟩
  rw [bytesOf, List.flatMap_cons, eq, List.cons_append]
  rfl

/-- A place behind some characters is a boundary. -/
lemma isBoundary_append (front back : List Char) :
    isBoundary (bytesOf (front ++ back)) (bytesOf front).length = true := by
  rw [bytesOf_append, isBoundary, List.getElem?_append_right Nat.le.refl, Nat.sub_self]
  cases back with
  | nil => simp [bytesOf]
  | cons c back =>
    obtain ⟨b, bs, bytes, begins, -⟩ := exists_bytesOf_cons c
    simp [bytes, begins]

/-- What is a boundary behind other bytes is one without them. -/
lemma isBoundary_behind (bs : List UInt8)
    (boundary : isBoundary (bs ++ bytes) (bs.length + place) = true) :
    isBoundary bytes place = true := by
  rw [isBoundary, List.getElem?_append_right (Nat.le_add_right ..),
    Nat.add_sub_cancel_left] at boundary
  rw [isBoundary]
  cases here : bytes[place]? with
  | none => simpa [here] using boundary
  | some b =>
    simp only [here, Bool.or_eq_true, decide_eq_true_eq] at boundary ⊢
    exact boundary.imp_left Nat.eq_zero_of_add_eq_zero_left

/-- Among the bytes that go on with a character there is no boundary. -/
lemma not_isBoundary_within {b : UInt8} {bs : List UInt8}
    (goesOn : ∀ x ∈ bs, isContinuation x = true) (within : place < bs.length) (rest : List UInt8) :
    isBoundary (b :: (bs ++ rest)) (place + 1) = false := by
  have here : (b :: (bs ++ rest))[place + 1]? = some bs[place] := by
    rw [List.getElem?_cons_succ, List.getElem?_append_left within, List.getElem?_eq_getElem within]
  rw [isBoundary, here]
  simp [goesOn _ (List.getElem_mem within)]

/-- A boundary lies behind some characters. -/
lemma exists_of_isBoundary (boundary : isBoundary (bytesOf cs) place = true) :
    ∃ front back, cs = front ++ back ∧ (bytesOf front).length = place := by
  induction cs generalizing place with
  | nil =>
    have start : place = 0 := by simpa [bytesOf, isBoundary] using boundary
    exact ⟨[], [], rfl, start.symm⟩
  | cons c cs ih =>
    obtain ⟨b, bs, bytes, -, goesOn, -⟩ := exists_bytesOf_cons c
    rw [bytes] at boundary
    cases place with
    | zero => exact ⟨[], c :: cs, rfl, rfl⟩
    | succ place =>
      by_cases within : place < bs.length
      · rw [not_isBoundary_within goesOn within] at boundary
        cases boundary
      · obtain ⟨rest, rfl⟩ := Nat.exists_eq_add_of_le (Nat.le_of_not_lt within)
        have later : isBoundary (bytesOf cs) rest = true := by
          refine isBoundary_behind (b :: bs) ?_
          rwa [List.length_cons, Nat.add_right_comm]
        obtain ⟨front, back, rfl, rfl⟩ := ih later
        refine ⟨c :: front, back, rfl, ?_⟩
        rw [bytes, List.length_cons, List.length_append, Nat.add_right_comm]

/-- No place is further from a boundary than three bytes. -/
lemma exists_boundary_near (le : place ≤ (bytesOf cs).length) :
    ∃ stop, place ≤ stop ∧ stop ≤ place + 3 ∧ isBoundary (bytesOf cs) stop = true := by
  suffices near : ∃ front back, cs = front ++ back ∧ place ≤ (bytesOf front).length ∧
      (bytesOf front).length ≤ place + 3 by
    obtain ⟨front, back, rfl, low, high⟩ := near
    exact ⟨_, low, high, isBoundary_append front back⟩
  induction cs generalizing place with
  | nil => exact ⟨[], [], rfl, le, Nat.zero_le _⟩
  | cons c cs ih =>
    obtain ⟨b, bs, bytes, -, -, few⟩ := exists_bytesOf_cons c
    have length (cs : List Char) :
        (bytesOf (c :: cs)).length = bs.length + (bytesOf cs).length + 1 := by
      rw [bytes, List.length_cons, List.length_append]
    cases place with
    | zero => exact ⟨[], c :: cs, rfl, Nat.le.refl, Nat.zero_le _⟩
    | succ place =>
      by_cases within : place ≤ bs.length
      · have single : (bytesOf [c]).length = bs.length + 1 := length []
        exact ⟨[c], cs, rfl, by omega, by omega⟩
      · rw [length] at le
        obtain ⟨front, back, rfl, low, high⟩ := @ih (place - bs.length) (by omega)
        refine ⟨c :: front, back, rfl, ?_, ?_⟩
        · rw [length]
          omega
        · rw [length]
          omega

/-! ### The search -/

/-- Beyond the end of a text there is no boundary. -/
lemma le_of_isBoundary (boundary : isBoundary bytes place = true) : place ≤ bytes.length := by
  by_contra beyond
  have none : bytes[place]? = none := List.getElem?_eq_none (by omega)
  rw [isBoundary, none, decide_eq_true_eq] at boundary
  omega

/-- The search ends at the first boundary, if there is one. -/
lemma exists_boundaryFrom (le : place ≤ stop) (boundary : isBoundary bytes stop = true) :
    ∃ first, boundaryFrom bytes place = some first ∧ place ≤ first ∧ isBoundary bytes first = true ∧
      ∀ other, place ≤ other → isBoundary bytes other = true → first ≤ other := by
  induction h : stop - place generalizing place with
  | zero =>
    obtain rfl : place = stop := by omega
    refine ⟨place, ?_, Nat.le.refl, boundary, fun other le _ => le⟩
    rw [boundaryFrom, if_pos boundary]
  | succ n ih =>
    by_cases here : isBoundary bytes place = true
    · refine ⟨place, ?_, Nat.le.refl, here, fun other le _ => le⟩
      rw [boundaryFrom, if_pos here]
    · have within : place < bytes.length := by
        have := le_of_isBoundary boundary
        omega
      obtain ⟨first, found, low, there, least⟩ := @ih (place + 1) (by omega) (by omega)
      refine ⟨first, ?_, by omega, there, fun other le boundary => ?_⟩
      · rw [boundaryFrom, if_neg here, if_pos within, found]
      · obtain rfl | lt := Nat.eq_or_lt_of_le le
        · exact absurd boundary here
        · exact least other lt boundary

/-! ### Ends -/

/-- Holds of an end of some characters that begins at the first boundary from a place on. -/
structure EndsFrom (cs : List Char) (place : Nat) (back : List Char) : Prop where
  suffix : back <:+ cs
  fits : (bytesOf back).length ≤ (bytesOf cs).length - place
  near : (bytesOf cs).length ≤ (bytesOf back).length + place + 3
  longest : ∀ other, other <:+ cs → (bytesOf other).length ≤ (bytesOf cs).length - place →
    other <:+ back

lemma length_bytesOf_pos (c : Char) (cs : List Char) : 0 < (bytesOf (c :: cs)).length := by
  obtain ⟨b, bs, bytes, -⟩ := exists_bytesOf_cons c
  rw [bytes]
  exact Nat.succ_pos _

/-- Of two ends of the same characters, the one with fewer bytes is an end of the other. -/
lemma suffix_of_length_le {other : List Char} (suffix : other <:+ cs) (suffix' : back <:+ cs)
    (le : (bytesOf other).length ≤ (bytesOf back).length) : other <:+ back := by
  obtain short | ⟨more, rfl⟩ := List.suffix_or_suffix_of_suffix suffix suffix'
  · exact short
  · cases more with
    | nil => exact List.suffix_rfl
    | cons c more =>
      have := length_bytesOf_pos c more
      rw [bytesOf_append, List.length_append] at le
      omega

/-- From every place within a text the search finds a boundary, and there the text can be cut. -/
lemma exists_sliceFrom (le : place ≤ (bytesOf cs).length) :
    ∃ back, (boundaryFrom (bytesOf cs) place).bind (sliceFrom? (bytesOf cs)) =
      some (String.ofList back) ∧ EndsFrom cs place back := by
  obtain ⟨stop, low, high, boundary⟩ := exists_boundary_near le
  obtain ⟨first, found, after, there, least⟩ := exists_boundaryFrom low boundary
  have close := least stop low boundary
  obtain ⟨front, back, rfl, rfl⟩ := exists_of_isBoundary there
  have length :
      (bytesOf (front ++ back)).length = (bytesOf front).length + (bytesOf back).length := by
    rw [bytesOf_append, List.length_append]
  refine ⟨back, ?_, ?_⟩
  · rw [found, Option.bind_some, sliceFrom?, if_pos there, bytesOf_append, List.drop_left, decode?,
      bytesOf, decodeFrom_flatMap, Option.map_some]
  · refine ⟨List.suffix_append .., by omega, by omega, ?_⟩
    intro other suffix fits
    refine suffix_of_length_le suffix (List.suffix_append ..) ?_
    -- Another end that fits begins at a boundary, and so not in front of the first one.
    obtain ⟨before, eq⟩ := suffix
    have bound := least _ ?_ (eq ▸ isBoundary_append before other)
    · rw [← eq, bytesOf_append, List.length_append] at length
      omega
    · rw [← eq, bytesOf_append, List.length_append] at fits le
      omega

lemma length_encode (s : String) : (encode s).length = (bytesOf s.toList).length := by
  rw [encode_eq, bytesOf]

/-- A text that does not fit is cut. -/
lemma exists_tail? {limit : Nat} {s : String} (exceeds : limit < (encode s).length) :
    ∃ back, tail? limit s = some (String.ofList back) ∧
      EndsFrom s.toList ((encode s).length - limit) back := by
  have bytes : encode s = bytesOf s.toList := encode_eq s
  rw [bytes] at exceeds ⊢
  obtain ⟨back, cut, ends⟩ := exists_sliceFrom (Nat.sub_le (bytesOf s.toList).length limit)
  refine ⟨back, ?_, ends⟩
  rw [tail?, bytes, if_neg (Nat.not_le_of_lt exceeds)]
  exact cut

/-- Every text can be cut. -/
lemma isSome_tail? (limit : Nat) (s : String) : (tail? limit s).isSome := by
  by_cases fits : (encode s).length ≤ limit
  · rw [tail?, if_pos fits, Option.isSome_some]
  · obtain ⟨back, cut, -⟩ := exists_tail? (Nat.lt_of_not_le fits)
    rw [cut, Option.isSome_some]

/-- The search for a cut ends, and never within a character: every text has an end that takes at most
so many bytes. It begins with a character of the text, or is empty, and every other end of the text
that takes no more bytes is an end of it. A text that fits is its own end, and that of a text that
does not fit lacks at most three bytes of what there was room for. -/
theorem tail?_longest (limit : Nat) (s : String) :
    ∃ t, tail? limit s = some t ∧ t.toList <:+ s.toList ∧ (encode t).length ≤ limit ∧
      (∀ u : String, u.toList <:+ s.toList → (encode u).length ≤ limit → u.toList <:+ t.toList) ∧
      ((encode s).length ≤ limit → t = s) ∧
      (limit < (encode s).length → limit ≤ (encode t).length + 3) := by
  by_cases fits : (encode s).length ≤ limit
  · refine ⟨s, ?_, List.suffix_rfl, fits, fun u suffix _ => suffix, fun _ => rfl, fun exceeds => ?_⟩
    · rw [tail?, if_pos fits]
    · exact absurd fits (Nat.not_le_of_lt exceeds)
  · have exceeds : limit < (encode s).length := Nat.lt_of_not_le fits
    obtain ⟨back, cut, ends⟩ := exists_tail? exceeds
    have room : (bytesOf s.toList).length - ((encode s).length - limit) = limit := by
      rw [← length_encode]
      omega
    have length : (encode (String.ofList back)).length = (bytesOf back).length := by
      rw [length_encode, String.toList_ofList]
    refine ⟨String.ofList back, cut, ?_, ?_, fun u suffix short => ?_, fun fits' => ?_, fun _ => ?_⟩
    · rw [String.toList_ofList]
      exact ends.suffix
    · rw [length, ← room]
      exact ends.fits
    · rw [length_encode, ← room] at short
      rw [String.toList_ofList]
      exact ends.longest _ suffix short
    · exact absurd fits' fits
    · have near := ends.near
      rw [← length_encode] at near
      omega

/-- A limit within a character of two bytes leaves the character out. -/
example : tail? 4 "héllo" = some "llo" := by
  rw [tail?, if_neg (by decide +kernel), boundaryFrom, if_neg (by decide +kernel),
    if_pos (by decide +kernel), boundaryFrom, if_pos (by decide +kernel)]
  decide +kernel

end Text

/-- No end of a command breaks the worker down that reads its output. -/
theorem Tool.outcome_ne_panic (p : ToolPassParams) (args : List String) (ending : ToolEnd)
    (text : String) : Tool.outcome p args ending ≠ .panic text := by
  cases ending with
  | notStarted fault =>
    simp only [outcome]
    split <;> nofun
  | timedOut => nofun
  | ended code stdout stderr =>
    have cut := Text.isSome_tail? quotedBytes (Text.trim (Text.decodeLossy stderr))
    simp only [outcome]
    split
    · split <;> nofun
    · split
      · nofun
      · next none =>
        rw [none] at cut
        cases cut

end Multipass
