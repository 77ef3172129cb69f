import Multipass.Proofs.Json.Readable
import Multipass.Proofs.Json.RoundTrip

/-!
# The extent of a value

A value takes up the same text wherever that text stands: whatever follows an object, and for a
number as long as what follows begins in the same way, or nothing does. Within the text of a value a
backtick stands only inside of strings, and a line feed only outside of them.

Main statements: `regular_value`, `exists_object` and `exists_object_of_whole`.
-/

namespace Multipass.Json

/-! ### Places in a text -/

/-- Where a place in a text lies: outside of strings, inside of one, or in one behind a backslash. -/
inductive Place where
  | outside
  | inside
  | escaped
  deriving DecidableEq, Repr

/-- The place behind a character, for a character that may stand there. -/
def Place.next : Place → Char → Option Place
  | .outside, c => if c = '"' then some .inside else if c = '`' then none else some .outside
  | .inside, c =>
    if c = '"' then some .outside
    else if c = '\\' then some .escaped
    else if c = '\n' then none
    else some .inside
  | .escaped, c => if c = '`' ∨ c = '\n' then none else some .inside

/-- The place behind a text. -/
def Place.after (p : Place) (s : List Char) : Option Place :=
  s.foldlM Place.next p

@[simp] lemma Place.after_nil (p : Place) : p.after [] = some p := rfl

@[simp] lemma Place.after_cons (p : Place) (c : Char) (s : List Char) :
    p.after (c :: s) = (p.next c).bind fun q => q.after s := rfl

@[simp] lemma Place.after_append (p : Place) (s t : List Char) :
    p.after (s ++ t) = (p.after s).bind fun q => q.after t :=
  List.foldlM_append

lemma Place.after_behind {p q : Place} {s : List Char} (h : p.after s = some q) (t : List Char) :
    p.after (s ++ t) = q.after t := by
  rw [after_append, h, Option.bind_some]

lemma Place.next_lineFeed {p q : Place} (h : p.next '\n' = some q) : q = .outside := by
  cases p <;> cases h
  rfl

lemma Place.eq_inside_of_backtick {p q : Place} (h : p.next '`' = some q) : p = .inside := by
  cases p <;> cases h
  rfl

/-- What stands between a line feed and a backtick ends inside of a string. -/
lemma Place.after_between {p q : Place} {line body behind : List Char}
    (h : p.after (line ++ '\n' :: (body ++ '`' :: behind)) = some q) :
    outside.after body = some .inside := by
  rw [after_append, Option.bind_eq_some_iff] at h
  obtain ⟨r, -, h⟩ := h
  rw [after_cons, Option.bind_eq_some_iff] at h
  obtain ⟨o, feed, h⟩ := h
  cases next_lineFeed feed
  rw [after_append, Option.bind_eq_some_iff] at h
  obtain ⟨r, within, h⟩ := h
  rw [after_cons, Option.bind_eq_some_iff] at h
  obtain ⟨_, tick, -⟩ := h
  cases eq_inside_of_backtick tick
  exact within

/-- Characters of a kind that has neither quotes nor backticks stay outside of strings. -/
lemma Place.after_outside {p : Char → Bool} (quote : p '"' = false) (backtick : p '`' = false)
    {s : List Char} (all : ∀ c ∈ s, p c = true) : outside.after s = some .outside := by
  induction s with
  | nil => rfl
  | cons c s ih =>
    have holds := all c List.mem_cons_self
    have noQuote : c ≠ '"' := by
      rintro rfl
      exact absurd holds (by simp [quote])
    have noBacktick : c ≠ '`' := by
      rintro rfl
      exact absurd holds (by simp [backtick])
    have stays : outside.next c = some .outside := by simp [next, noQuote, noBacktick]
    rw [after_cons, stays, Option.bind_some]
    exact ih fun d mem => all d (List.mem_cons_of_mem c mem)

lemma Place.after_digits {ds : List Char} (digits : ∀ d ∈ ds, d.isDigit = true) :
    outside.after ds = some .outside :=
  after_outside (by decide) (by decide) digits

lemma Place.after_blanks {bs : List Char} (blanks : ∀ b ∈ bs, isSpace b = true) :
    outside.after bs = some .outside :=
  after_outside (by decide) (by decide) blanks

/-! ### What a reader takes -/

/-- Holds of a text of which a reader reads `a`, whatever follows, and which leads from a place to
another. -/
structure Takes {α : Type} (read : Reader α) (start finish : Place) (front : List Char) (a : α) :
    Prop where
  place : start.after front = some finish
  reads : ∀ t, read (front ++ t) = .ok (a, t)

/-- Holds of a text that is empty or begins as another does. -/
def Follows (rest t : List Char) : Prop :=
  ∀ c ∈ t.head?, c ∈ rest.head?

/-- Holds of a reader that reads the same of a text if what it leaves is cut off, or gives way to
something that begins in the same way; what it reads leads from a place to one outside of strings. -/
def Regular {α : Type} (start : Place) (read : Reader α) : Prop :=
  ∀ ⦃s : List Char⦄ ⦃a : α⦄ ⦃rest : List Char⦄, read s = .ok (a, rest) →
    ∃ front, s = front ++ rest ∧ start.after front = some .outside ∧
      ∀ t, Follows rest t → read (front ++ t) = .ok (a, t)

variable {s rest t front : List Char} {j : Json} {negative : Bool} {depth : Nat}

lemma Follows.append (front : List Char) (follows : Follows rest t) :
    Follows (front ++ rest) (front ++ t) := by
  cases front with
  | nil => exact follows
  | cons c front => exact fun d mem => mem

lemma Follows.stops (follows : Follows rest t) (stops : Stops rest) : Stops t :=
  fun c mem => stops c (follows c mem)

/-- What may stand for a text that begins with a character begins with it, or is empty. -/
lemma Follows.head {c : Char} (follows : Follows rest (c :: t)) : ∃ u, rest = c :: u := by
  have head := follows c rfl
  cases rest with
  | nil => cases head
  | cons d u =>
    cases head
    exact ⟨u, rfl⟩

/-! ### Numbers -/

lemma floatReading_cases {significand : Nat} {exponent : Int}
    (h : floatReading negative significand exponent s = .ok (j, rest)) :
    rest = s ∧ ∀ t, floatReading negative significand exponent t = .ok (j, t) := by
  simp only [floatReading] at h ⊢
  split at h
  · cases h
    exact ⟨rfl, fun t => rfl⟩
  · cases h

/-- The digits of an exponent that is kept end where the text stops. -/
lemma exists_digits_of_exponentDigits {v e : Nat} (h : exponentDigits v s = .ok (e, rest)) :
    ∃ ds, s = ds ++ rest ∧ (∀ d ∈ ds, d.isDigit = true) ∧
      ∀ t, Follows rest t → exponentDigits v (ds ++ t) = .ok (e, t) := by
  induction s generalizing v with
  | nil =>
    cases h
    refine ⟨[], rfl, nofun, fun t follows => ?_⟩
    cases t with
    | nil => rfl
    | cons c t =>
      obtain ⟨u, eq⟩ := follows.head
      cases eq
  | cons c s ih =>
    simp only [exponentDigits] at h
    split at h
    · next digit =>
      split at h
      · cases h
      · next small =>
        obtain ⟨ds, rfl, digits, reads⟩ := ih h
        refine ⟨c :: ds, rfl, List.forall_mem_cons.2 ⟨digit, digits⟩, fun t follows => ?_⟩
        simp only [List.cons_append, exponentDigits, digit, if_true, if_neg small]
        exact reads t follows
    · next digit =>
      cases h
      refine ⟨[], rfl, nofun, fun t follows => ?_⟩
      cases t with
      | nil => rfl
      | cons d t =>
        obtain ⟨u, eq⟩ := follows.head
        cases eq
        simp only [List.nil_append, exponentDigits, digit]
        rfl

/-- The digits of an exponent that is too large are left at the same one, whatever follows. -/
lemma exists_digits_of_exponentDigits_error {v : Nat} (h : exponentDigits v s = .error rest) :
    ∃ ds, s = ds ++ rest ∧ (∀ d ∈ ds, d.isDigit = true) ∧
      ∀ t, exponentDigits v (ds ++ t) = .error t := by
  induction s generalizing v with
  | nil => cases h
  | cons c s ih =>
    simp only [exponentDigits] at h
    split at h
    · next digit =>
      split at h
      · next large =>
        cases h
        refine ⟨[c], rfl, by simpa using digit, fun t => ?_⟩
        simp only [List.cons_append, List.nil_append, exponentDigits, digit, if_true, if_pos large]
      · next small =>
        obtain ⟨ds, rfl, digits, reads⟩ := ih h
        refine ⟨c :: ds, rfl, List.forall_mem_cons.2 ⟨digit, digits⟩, fun t => ?_⟩
        simp only [List.cons_append, exponentDigits, digit, if_true, if_neg small]
        exact reads t
    · cases h

/-- Digits are taken up to where a text stops. -/
lemma exists_digits (s : List Char) :
    ∃ ds rest, s = ds ++ rest ∧ (∀ d ∈ ds, d.isDigit = true) ∧ Stops rest ∧
      s.takeWhile Char.isDigit = ds ∧ s.dropWhile Char.isDigit = rest := by
  refine ⟨s.takeWhile Char.isDigit, s.dropWhile Char.isDigit,
    List.takeWhile_append_dropWhile.symm, ?_, ?_, rfl, rfl⟩
  · intro d mem
    exact List.mem_takeWhile_imp mem
  · intro c mem
    have first := List.head?_dropWhile_not Char.isDigit s
    rw [Option.mem_def.1 mem] at first
    simpa using first

/-- The sign of an exponent, and the text behind it. -/
def exponentSign : List Char → Bool × List Char
  | '+' :: s => (false, s)
  | '-' :: s => (true, s)
  | s => (false, s)

/-- Reads an exponent behind its sign. -/
def unsignedExponent (negative : Bool) (significand : Nat) (start : Int) (down : Bool) : Reader Json
  | [] => .error (before .eofValue [])
  | c :: rest =>
    if c.isDigit then
      match exponentDigits (digitValue c) rest with
      | .ok (e, rest) =>
        floatReading negative significand (if down then start - e else start + e) rest
      | .error rest =>
        if significand != 0 && !down then .error (before .numberOutOfRange rest)
        else .ok (.float (Number.Binary.zero .double negative), rest.dropWhile Char.isDigit)
    else .error (here .invalidNumber (c :: rest))

lemma exponent_eq (significand : Nat) (start : Int) (s : List Char) :
    exponent negative significand start s =
      unsignedExponent negative significand start (exponentSign s).1 (exponentSign s).2 := by
  unfold exponent
  split
  next down behind eq =>
    have sign : exponentSign s = (down, behind) := eq
    rw [sign]
    cases behind <;> rfl

lemma regular_unsignedExponent {significand : Nat} {start : Int} {down : Bool}
    (h : unsignedExponent negative significand start down s = .ok (j, rest)) :
    ∃ c front, s = c :: front ++ rest ∧ c.isDigit = true ∧
      Place.outside.after (c :: front) = some .outside ∧
      ∀ t, Follows rest t →
        unsignedExponent negative significand start down (c :: front ++ t) = .ok (j, t) := by
  cases s with
  | nil => cases h
  | cons c s =>
    simp only [unsignedExponent] at h
    split at h
    · next digit =>
      split at h
      · next e s kept =>
        obtain ⟨ds, rfl, digits, reads⟩ := exists_digits_of_exponentDigits kept
        obtain ⟨rfl, reading⟩ := floatReading_cases h
        have all : ∀ d ∈ c :: ds, d.isDigit = true := List.forall_mem_cons.2 ⟨digit, digits⟩
        refine ⟨c, ds, rfl, digit, Place.after_digits all, fun t follows => ?_⟩
        simp only [List.cons_append, unsignedExponent, digit, if_true, reads t follows, reading]
      · next s large =>
        split at h
        · cases h
        · next zero =>
          obtain ⟨ds, rfl, digits, reads⟩ := exists_digits_of_exponentDigits_error large
          obtain ⟨es, rest', rfl, others, stops, taken, left⟩ := exists_digits s
          rw [left] at h
          cases h
          have all : ∀ d ∈ c :: (ds ++ es), d.isDigit = true := by
            simp only [List.forall_mem_cons, List.forall_mem_append]
            exact ⟨digit, digits, others⟩
          refine ⟨c, ds ++ es, by simp, digit, Place.after_digits all, fun t follows => ?_⟩
          obtain ⟨-, left⟩ := (follows.stops stops).span others
          simp only [List.cons_append, List.append_assoc, unsignedExponent, digit, if_true, reads,
            if_neg zero, left]
    · cases h

/-- A sign is taken off from in front of any digit. -/
lemma exponentSign_cases (s : List Char) :
    ∃ sign, s = sign ++ (exponentSign s).2 ∧ Place.outside.after sign = some .outside ∧
      ∀ {c : Char} {u : List Char}, c.isDigit = true →
        exponentSign (sign ++ c :: u) = ((exponentSign s).1, c :: u) := by
  fun_cases exponentSign s with
  | case1 s => exact ⟨['+'], rfl, rfl, fun _ => rfl⟩
  | case2 s => exact ⟨['-'], rfl, rfl, fun _ => rfl⟩
  | case3 s plus minus =>
    refine ⟨[], rfl, rfl, fun {c u} digit => ?_⟩
    have noPlus : c ≠ '+' := by
      rintro rfl
      exact absurd digit (by decide)
    have noMinus : c ≠ '-' := by
      rintro rfl
      exact absurd digit (by decide)
    simp [exponentSign, noPlus, noMinus]

lemma regular_exponent (significand : Nat) (start : Int) :
    Regular .outside (exponent negative significand start) := by
  intro s j rest h
  rw [exponent_eq] at h
  obtain ⟨c, front, parts, digit, place, reads⟩ := regular_unsignedExponent h
  obtain ⟨sign, split, plain, same⟩ := exponentSign_cases s
  refine ⟨sign ++ c :: front, ?_, ?_, fun t follows => ?_⟩
  · rw [List.append_assoc, ← parts]
    exact split
  · rw [Place.after_append, plain, Option.bind_some, place]
  · have reads := reads t follows
    rw [List.cons_append] at reads
    rw [exponent_eq, List.append_assoc, List.cons_append, same digit]
    exact reads

/-- A reader that goes on behind one character with a regular one. -/
lemma Regular.behind {c : Char} {read goesOn : Reader Json} (regular : Regular .outside goesOn)
    (place : Place.outside.next c = some .outside) (goes : ∀ u, read (c :: u) = goesOn u)
    (h : goesOn s = .ok (j, rest)) :
    ∃ front, c :: s = front ++ rest ∧ Place.outside.after front = some .outside ∧
      ∀ t, Follows rest t → read (front ++ t) = .ok (j, t) := by
  obtain ⟨front, rfl, inner, reads⟩ := regular h
  refine ⟨c :: front, rfl, ?_, fun t follows => ?_⟩
  · rw [Place.after_cons, place, Option.bind_some, inner]
  · rw [List.cons_append, goes]
    exact reads t follows

lemma regular_afterDigits (significand : Nat) (start : Int) :
    Regular .outside (afterDigits negative significand start) := by
  intro s j rest h
  simp only [afterDigits] at h
  split at h
  · exact (regular_exponent significand start).behind rfl (fun _ => rfl) h
  · exact (regular_exponent significand start).behind rfl (fun _ => rfl) h
  · next s lower upper =>
    obtain ⟨rfl, reads⟩ := floatReading_cases h
    refine ⟨[], rfl, rfl, fun t follows => ?_⟩
    cases t with
    | nil => exact reads []
    | cons c t =>
      obtain ⟨u, rfl⟩ := follows.head
      have lower : c ≠ 'e' := fun eq => lower u (by rw [eq])
      have upper : c ≠ 'E' := fun eq => upper u (by rw [eq])
      simp [afterDigits, lower, upper, reads]

lemma regular_fraction (significand : Nat) (start : Int) :
    Regular .outside (fraction negative significand start) := by
  intro s j rest h
  obtain ⟨ds, s, rfl, digits, stops, taken, left⟩ := exists_digits s
  simp only [fraction, taken, left] at h
  cases ds with
  | nil => cases s <;> cases h
  | cons d ds =>
    obtain ⟨front, rfl, place, reads⟩ := regular_afterDigits _ _ h
    refine ⟨d :: ds ++ front, (List.append_assoc ..).symm, ?_, fun t follows => ?_⟩
    · rw [Place.after_append, Place.after_digits digits, Option.bind_some, place]
    · have stops := (follows.append front).stops stops
      rw [List.append_assoc, fraction_of_digits negative _ _ (List.cons_ne_nil d ds) digits stops]
      exact reads t follows

lemma regular_finish (ds : List Char) : Regular .outside (number.finish negative ds) := by
  intro s j rest h
  simp only [number.finish] at h
  split at h
  · exact (regular_fraction _ _).behind rfl (fun _ => rfl) h
  · exact (regular_exponent _ _).behind rfl (fun _ => rfl) h
  · exact (regular_exponent _ _).behind rfl (fun _ => rfl) h
  · next point lower upper =>
    -- Nothing else belongs to the number.
    have same : rest = s ∧ ∀ t,
        (if (gather 0 ds).2.2 = 0 then .ok (integer negative (gather 0 ds).1, t)
          else floatReading negative (gather 0 ds).1 (gather 0 ds).2.2 t) = .ok (j, t) := by
      split at h
      · next none =>
        cases h
        exact ⟨rfl, fun t => if_pos none⟩
      · next some =>
        obtain ⟨eq, reads⟩ := floatReading_cases h
        exact ⟨eq, fun t => (if_neg some).trans (reads t)⟩
    obtain ⟨rfl, reads⟩ := same
    refine ⟨[], rfl, rfl, fun t follows => ?_⟩
    cases t with
    | nil => exact reads []
    | cons c t =>
      obtain ⟨u, rfl⟩ := follows.head
      have point : c ≠ '.' := fun eq => point u (by rw [eq])
      have lower : c ≠ 'e' := fun eq => lower u (by rw [eq])
      have upper : c ≠ 'E' := fun eq => upper u (by rw [eq])
      have reads := reads (c :: t)
      simpa [number.finish, point, lower, upper] using reads

/-- What is read as a number has digits in front, of which only zero begins with a zero. -/
lemma exists_leads {p : Json × List Char} (h : number negative s = .ok p) :
    ∃ ds rest, s = ds ++ rest ∧ Leads ds ∧ Stops rest ∧ number.finish negative ds rest = .ok p := by
  cases s with
  | nil => cases h
  | cons c s =>
    obtain ⟨ds, rest, parts, digits, stops, taken, left⟩ := exists_digits (c :: s)
    simp only [number, taken, left] at h
    cases digit : c.isDigit with
    | false => simp [digit] at h
    | true =>
      simp only [digit, Bool.not_true, Bool.false_eq_true, if_false] at h
      by_cases zero : c = '0'
      · subst zero
        have leads : Leads ['0'] := ⟨List.cons_ne_nil _ _, by simp, fun _ => rfl⟩
        simp only [if_true, true_and] at h
        refine ⟨['0'], s, rfl, leads, ?_⟩
        cases s with
        | nil => exact ⟨by rintro _ ⟨⟩, h⟩
        | cons d s =>
          cases next : d.isDigit with
          | true => simp [next] at h
          | false =>
            simp only [next, Bool.false_eq_true, if_false] at h
            refine ⟨?_, h⟩
            rintro e ⟨⟩
            exact next
      · simp only [zero, if_false, false_and] at h
        refine ⟨ds, rest, parts, ?_, stops, ?_⟩
        · rw [List.takeWhile_cons, digit] at taken
          refine ⟨?_, digits, ?_⟩
          · rw [← taken]
            exact List.cons_ne_nil _ _
          · rw [← taken]
            rintro ⟨⟩
            exact absurd rfl zero
        · cases rest <;> exact h

lemma regular_number : Regular .outside (number negative) := by
  intro s j rest h
  obtain ⟨ds, s, rfl, leads, stops, h⟩ := exists_leads h
  obtain ⟨front, rfl, place, reads⟩ := regular_finish ds h
  refine ⟨ds ++ front, (List.append_assoc ..).symm, ?_, fun t follows => ?_⟩
  · rw [Place.after_append, Place.after_digits leads.digits, Option.bind_some, place]
  · rw [List.append_assoc, number_of_leads negative leads ((follows.append front).stops stops)]
    exact reads t follows

/-! ### Strings -/

/-- A hexadecimal digit leads to a place inside of a string. -/
lemma Place.next_hex {c : Char} {n : Nat} (hex : hexValue? c = some n) :
    inside.next c = some .inside := by
  have quote : c ≠ '"' := by
    rintro rfl
    cases hex
  have backslash : c ≠ '\\' := by
    rintro rfl
    cases hex
  have line : c ≠ '\n' := by
    rintro rfl
    cases hex
  simp [next, quote, backslash, line]

lemma takes_hexEscape {n : Nat} (h : hexEscape s = .ok (n, rest)) :
    ∃ front, s = front ++ rest ∧ Takes hexEscape .inside .inside front n := by
  simp only [hexEscape] at h
  split at h
  · cases h
  · split at h
    · next a b c d s enough =>
      split at h
      · next w x y z ha hb hc hd =>
        cases h
        refine ⟨[a, b, c, d], rfl, ?_, fun t => ?_⟩
        · simp [Place.next_hex ha, Place.next_hex hb, Place.next_hex hc, Place.next_hex hd]
        · have few : ¬ Text.byteCount (a :: b :: c :: d :: t) < 4 := by
            simp only [Text.byteCount_cons]
            have := one_le_utf8Size a
            have := one_le_utf8Size b
            have := one_le_utf8Size c
            have := one_le_utf8Size d
            omega
          simp only [List.cons_append, List.nil_append, hexEscape, if_neg few, ha, hb, hc, hd]
      · cases h
    · cases h

lemma takes_unicodeEscape {c : Char} (h : unicodeEscape s = .ok (c, rest)) :
    ∃ front, s = front ++ rest ∧ Takes unicodeEscape .inside .inside front c := by
  rw [unicodeEscape, bind_eq_ok] at h
  obtain ⟨⟨n, left⟩, first, h⟩ := h
  dsimp only at h
  obtain ⟨high, rfl, place, reads⟩ := takes_hexEscape first
  split at h
  · cases h
  · next trail =>
    split at h
    · next single =>
      cases h
      refine ⟨high, rfl, place, fun t => ?_⟩
      simp only [unicodeEscape, reads, bind, Except.bind, if_neg trail, if_pos single]
    · next pair =>
      split at h
      · cases h
      · cases h
      · rw [bind_eq_ok] at h
        obtain ⟨⟨m, left⟩, second, h⟩ := h
        obtain ⟨low, rfl, place', reads'⟩ := takes_hexEscape second
        dsimp only at h
        split at h
        · cases h
        · next fits =>
          rw [Except.ok.injEq, Prod.mk.injEq] at h
          obtain ⟨rfl, rfl⟩ := h
          refine ⟨high ++ '\\' :: 'u' :: low, by simp, ?_, fun t => ?_⟩
          · rw [Place.after_append, place]
            exact place'
          · simp only [List.append_assoc, List.cons_append, unicodeEscape, reads, reads', bind,
              Except.bind, if_neg trail, if_neg pair, if_neg fits]
      · cases h
      · cases h

lemma takes_escape {c : Char} (h : escape s = .ok (c, rest)) :
    ∃ front, s = front ++ rest ∧ Takes escape .escaped .inside front c := by
  cases s with
  | nil => cases h
  | cons d s =>
    by_cases unicode : d = 'u'
    · subst unicode
      obtain ⟨front, rfl, place, reads⟩ := takes_unicodeEscape h
      exact ⟨'u' :: front, rfl, place, reads⟩
    · simp only [escape, if_neg unicode] at h
      split_ifs at h with e e e e e e e e
      all_goals
        subst e
        cases h
        exact ⟨[_], rfl, rfl, fun t => rfl⟩

/-- The characters of a string are read up to the quote that closes it. -/
lemma takes_characters {fuel : Nat} {cs : List Char} (h : characters fuel s = .ok (cs, rest)) :
    ∃ front, s = front ++ rest ∧ ∀ fuel, front.length ≤ fuel →
      Takes (characters fuel) .inside .outside front cs := by
  induction fuel generalizing s cs with
  | zero => cases h
  | succ fuel ih =>
    cases s with
    | nil => cases h
    | cons c s =>
      simp only [characters] at h
      split at h
      · next quote =>
        subst quote
        cases h
        refine ⟨['"'], rfl, fun fuel enough => ⟨rfl, fun t => ?_⟩⟩
        obtain ⟨fuel, rfl⟩ := Nat.exists_eq_succ_of_ne_zero (Nat.ne_of_gt enough)
        rfl
      · next quote =>
        split at h
        · next backslash =>
          subst backslash
          obtain ⟨⟨e, left⟩, escaped, h⟩ := bind_eq_ok.1 h
          obtain ⟨⟨es, left'⟩, others, h⟩ := bind_eq_ok.1 h
          cases h
          obtain ⟨first, rfl, place, reads⟩ := takes_escape escaped
          obtain ⟨front, rfl, takes⟩ := ih others
          refine ⟨'\\' :: (first ++ front), by simp, fun fuel enough => ?_⟩
          obtain ⟨fuel, rfl⟩ := Nat.exists_eq_succ_of_ne_zero
            (Nat.ne_of_gt (Nat.lt_of_lt_of_le (Nat.succ_pos _) enough))
          have enough : front.length ≤ fuel := by
            simp only [List.length_cons, List.length_append] at enough
            omega
          obtain ⟨place', reads'⟩ := takes fuel enough
          refine ⟨?_, fun t => ?_⟩
          · show Place.escaped.after (first ++ front) = some .outside
            rw [Place.after_append, place]
            exact place'
          · rw [List.cons_append, List.append_assoc, characters_escape (reads _), reads']
            rfl
        · next backslash =>
          split at h
          · cases h
          · next plain =>
            obtain ⟨⟨es, left⟩, others, h⟩ := bind_eq_ok.1 h
            cases h
            obtain ⟨front, rfl, takes⟩ := ih others
            refine ⟨c :: front, rfl, fun fuel enough => ?_⟩
            obtain ⟨fuel, rfl⟩ := Nat.exists_eq_succ_of_ne_zero
              (Nat.ne_of_gt (Nat.lt_of_lt_of_le (Nat.succ_pos _) enough))
            obtain ⟨place, reads⟩ := takes fuel (Nat.le_of_succ_le_succ enough)
            refine ⟨?_, fun t => ?_⟩
            · have line : c ≠ '\n' := by
                rintro rfl
                exact plain (by decide)
              simp [Place.next, quote, backslash, line, place]
            · simp only [List.cons_append, characters, if_neg quote, if_neg backslash, if_neg plain,
                reads, bind, Except.bind]

lemma takes_string {text : String} (h : string s = .ok (text, rest)) :
    ∃ front, s = front ++ rest ∧ Takes string .inside .outside front text := by
  obtain ⟨⟨cs, left⟩, chars, h⟩ := bind_eq_ok.1 h
  cases h
  obtain ⟨front, rfl, takes⟩ := takes_characters chars
  refine ⟨front, rfl, (takes _ (Nat.le_refl _)).place, fun t => ?_⟩
  have enough : front.length ≤ (front ++ t).length + 1 := by
    rw [List.length_append]
    omega
  simp only [string, (takes _ enough).reads, bind, Except.bind]

lemma regular_string : Regular .inside string := by
  intro s text rest h
  obtain ⟨front, parts, takes⟩ := takes_string h
  exact ⟨front, parts, takes.place, fun t _ => takes.reads t⟩

/-! ### Arrays and objects -/

lemma isSpace_of_skipSpace {c : Char} (h : skipSpace s = c :: rest) : isSpace c = false := by
  have first := List.head?_dropWhile_not isSpace s
  rw [← skipSpace, h] at first
  simpa using first

/-- Blanks are passed over in front of the character that follows them, whatever follows that. -/
lemma exists_blanks {c : Char} (h : skipSpace s = c :: rest) :
    ∃ bs, s = bs ++ c :: rest ∧ Place.outside.after bs = some .outside ∧
      ∀ t, skipSpace (bs ++ c :: t) = c :: t := by
  have blanks : ∀ b ∈ s.takeWhile isSpace, isSpace b = true := fun b mem => List.mem_takeWhile_imp mem
  refine ⟨s.takeWhile isSpace, ?_, Place.after_blanks blanks, fun t => ?_⟩
  · rw [← h]
    exact List.takeWhile_append_dropWhile.symm
  · rw [skipSpace, List.dropWhile_append_of_pos blanks, ← skipSpace,
      skipSpace_cons (isSpace_of_skipSpace h)]

/-- What is read in front of a character, with blanks between, is read in front of it whatever
follows that. -/
lemma Regular.upTo {α : Type} {start : Place} {read : Reader α} (regular : Regular start read) {a : α}
    {left : List Char} {c : Char} (h : read s = .ok (a, left)) (skipped : skipSpace left = c :: rest) :
    ∃ front, s = front ++ c :: rest ∧ start.after front = some .outside ∧
      ∀ t, ∃ left, read (front ++ c :: t) = .ok (a, left) ∧ skipSpace left = c :: t := by
  obtain ⟨front, rfl, place, reads⟩ := regular h
  obtain ⟨bs, rfl, blanks, skips⟩ := exists_blanks skipped
  refine ⟨front ++ bs, (List.append_assoc ..).symm, ?_, fun t => ⟨bs ++ c :: t, ?_, skips t⟩⟩
  · rw [Place.after_behind place, blanks]
  · have follows : Follows (c :: rest) (c :: t) := fun _ mem => mem
    rw [List.append_assoc]
    exact reads _ (follows.append bs)

/-- What follows a comma within an array is an item, not the bracket. -/
lemma items_next {α : Type} {item : Reader α} {fuel : Nat} {a : α} {c : Char} {left u : List Char}
    (read : item s = .ok (a, left)) (comma : skipSpace left = ',' :: u)
    (next : skipSpace u = c :: rest) (other : c ≠ ']') :
    items item (fuel + 1) s = (items item fuel (c :: rest)).bind fun p => .ok (a :: p.1, p.2) := by
  conv_lhs => simp only [items, read, comma, next, bind, Except.bind]
  split
  · next eq => cases eq
  · next eq => cases eq; exact absurd rfl other
  · rfl

lemma array_next {α : Type} {item : Reader α} {c : Char} (next : skipSpace s = c :: rest)
    (other : c ≠ ']') : array item s = items item (c :: rest).length (c :: rest) := by
  simp only [array, next]
  split
  · next eq => cases eq
  · next eq => cases eq; exact absurd rfl other
  · rfl

/-- The items of an array are read up to the bracket that closes it. -/
lemma takes_items {α : Type} {item : Reader α} (regular : Regular .outside item) {fuel : Nat}
    {as : List α} (h : items item fuel s = .ok (as, rest)) :
    ∃ front, s = front ++ ']' :: rest ∧ ∀ fuel, front.length < fuel →
      Takes (items item fuel) .outside .outside (front ++ [']']) as := by
  induction fuel generalizing s as with
  | zero => cases h
  | succ fuel ih =>
    rw [items, bind_eq_ok] at h
    obtain ⟨⟨a, left⟩, first, h⟩ := h
    dsimp only at h
    split at h
    · cases h
    · next closed =>
      cases h
      obtain ⟨front, rfl, place, reads⟩ := regular.upTo first closed
      refine ⟨front, rfl, fun fuel enough => ⟨?_, fun t => ?_⟩⟩
      · rw [Place.after_behind place]
        rfl
      · obtain ⟨fuel, rfl⟩ := Nat.exists_eq_succ_of_ne_zero (Nat.ne_zero_of_lt enough)
        obtain ⟨left, read, skips⟩ := reads t
        rw [List.append_assoc, List.singleton_append]
        simp only [items, read, skips, bind, Except.bind]
    · next behind comma =>
      obtain ⟨front, rfl, place, reads⟩ := regular.upTo first comma
      split at h
      · cases h
      · cases h
      · next bracket =>
        rw [bind_eq_ok] at h
        obtain ⟨⟨others, left⟩, next, h⟩ := h
        cases h
        obtain ⟨front', parts, takes⟩ := ih next
        -- What follows the comma is an item, not the bracket.
        cases front' with
        | nil => exact absurd parts (bracket _)
        | cons c front' =>
          have ne : c ≠ ']' := by
            rintro rfl
            exact bracket _ parts
          obtain ⟨bs, rfl, blanks, skips⟩ := exists_blanks parts
          refine ⟨front ++ ',' :: (bs ++ c :: front'), by simp, fun fuel enough => ?_⟩
          obtain ⟨fuel, rfl⟩ := Nat.exists_eq_succ_of_ne_zero (Nat.ne_zero_of_lt enough)
          have enough : (c :: front').length < fuel := by
            simp only [List.length_append, List.length_cons] at enough ⊢
            omega
          obtain ⟨place', reads'⟩ := takes fuel enough
          refine ⟨?_, fun t => ?_⟩
          · rw [List.append_assoc, Place.after_behind place, List.cons_append, List.append_assoc]
            exact (Place.after_behind blanks _).trans place'
          · obtain ⟨left, read, comma⟩ := reads (bs ++ c :: (front' ++ ']' :: t))
            have reads' : items item fuel (c :: (front' ++ ']' :: t)) = .ok (others, t) := by
              simpa using reads' t
            have layout : front ++ ',' :: (bs ++ c :: front') ++ [']'] ++ t =
                front ++ ',' :: (bs ++ c :: (front' ++ ']' :: t)) := by
              simp
            rw [layout, items_next read comma (skips _) ne, reads']
            rfl
    · cases h

/-- An array is read up to its closing bracket. -/
lemma takes_array {α : Type} {item : Reader α} (regular : Regular .outside item) {as : List α}
    (h : array item s = .ok (as, rest)) :
    ∃ front, s = front ++ ']' :: rest ∧
      Takes (array item) .outside .outside (front ++ [']']) as := by
  simp only [array] at h
  split at h
  · cases h
  · next closed =>
    cases h
    obtain ⟨bs, rfl, blanks, skips⟩ := exists_blanks closed
    refine ⟨bs, rfl, ?_, fun t => ?_⟩
    · rw [Place.after_behind blanks]
      rfl
    · simp only [List.append_assoc, List.cons_append, List.nil_append, array, skips]
  · next bracket =>
    obtain ⟨front, parts, takes⟩ := takes_items regular h
    cases front with
    | nil => exact absurd parts (bracket _)
    | cons c front =>
      have ne : c ≠ ']' := by
        rintro rfl
        exact bracket _ parts
      obtain ⟨bs, rfl, blanks, skips⟩ := exists_blanks parts
      refine ⟨bs ++ c :: front, by simp, ?_, fun t => ?_⟩
      · rw [List.append_assoc, Place.after_behind blanks]
        exact (takes _ (Nat.lt_succ_self _)).place
      · have enough : (c :: front).length < (c :: (front ++ ']' :: t)).length := by
          simp
        have reads : items item (c :: (front ++ ']' :: t)).length (c :: (front ++ ']' :: t)) =
            .ok (as, t) := by
          simpa using (takes _ enough).reads t
        have layout : bs ++ c :: front ++ [']'] ++ t = bs ++ c :: (front ++ ']' :: t) := by
          simp
        rw [layout, array_next (skips _) ne]
        exact reads

/-- Holds when a key, a colon and a value are read of a text, and what is left behind the blanks. -/
inductive ReadsField (item : Reader Json) (s : List Char) (key : String) (j : Json)
    (left : List Char) : Prop where
  | intro {u v w : List Char} :
    string s = .ok (key, u) →
    skipSpace u = ':' :: v →
    item v = .ok (j, w) →
    skipSpace w = left →
    ReadsField item s key j left

section Fields

variable {item : Reader Json} {fuel : Nat} {key : String} {gathered fs : List (String × Json)}
  {u : List Char}

/-- A field is read in front of a character whatever follows that. -/
lemma ReadsField.upTo {c : Char} (regular : Regular .outside item)
    (reads : ReadsField item s key j (c :: rest)) :
    ∃ front, s = front ++ c :: rest ∧ Place.inside.after front = some .outside ∧
      ∀ t, ReadsField item (front ++ c :: t) key j (c :: t) := by
  obtain ⟨named, colon, read, left⟩ := reads
  obtain ⟨name, rfl, inside, names⟩ := regular_string.upTo named colon
  obtain ⟨front, rfl, place, reads⟩ := regular.upTo read left
  refine ⟨name ++ ':' :: front, by simp, ?_, fun t => ?_⟩
  · rw [Place.after_behind inside]
    exact place
  · obtain ⟨u, named, colon⟩ := names (front ++ c :: t)
    obtain ⟨w, read, left⟩ := reads t
    rw [List.append_assoc, List.cons_append]
    exact .intro named colon read left

/-- The last field is read, and the object ends. -/
lemma ReadsField.closed (reads : ReadsField item s key j ('\x7d' :: rest)) :
    members (setField item) (fuel + 1) gathered s = .ok (insertField key j gathered, rest) := by
  obtain ⟨named, colon, read, brace⟩ := reads
  simp only [members, named, colon, setField, read, brace, bind, Except.bind]

/-- A field is read, and another one follows. -/
lemma ReadsField.next (reads : ReadsField item s key j (',' :: u)) (quote : skipSpace u = '"' :: rest) :
    members (setField item) (fuel + 1) gathered s =
      members (setField item) fuel (insertField key j gathered) rest := by
  obtain ⟨named, colon, read, comma⟩ := reads
  conv_lhs => simp only [members, named, colon, setField, read, comma, quote, bind, Except.bind]

/-- Behind a field the object ends, or another field follows. -/
lemma members_cases (h : members (setField item) (fuel + 1) gathered s = .ok (fs, rest)) :
    ∃ key j, (ReadsField item s key j ('\x7d' :: rest) ∧ fs = insertField key j gathered) ∨
      ∃ u v, ReadsField item s key j (',' :: u) ∧ skipSpace u = '"' :: v ∧
        members (setField item) fuel (insertField key j gathered) v = .ok (fs, rest) := by
  rw [members, bind_eq_ok] at h
  obtain ⟨⟨key, left⟩, named, h⟩ := h
  rw [bind_eq_ok] at h
  obtain ⟨reader, field, h⟩ := h
  cases field
  dsimp only at h
  split at h
  · cases h
  · next colon =>
    rw [bind_eq_ok] at h
    obtain ⟨p, value, h⟩ := h
    rw [bind_eq_ok] at value
    obtain ⟨⟨j, left'⟩, read, value⟩ := value
    cases value
    dsimp only at h
    split at h
    · cases h
    · next brace =>
      cases h
      exact ⟨key, j, .inl ⟨.intro named colon read brace, rfl⟩⟩
    · next u comma =>
      split at h
      · cases h
      · next v quote => exact ⟨key, j, .inr ⟨u, v, .intro named colon read comma, quote, h⟩⟩
      · cases h
      · cases h
    · cases h
  · cases h

/-- The fields of an object are read up to the brace that closes it. -/
lemma takes_members (regular : Regular .outside item)
    (h : members (setField item) fuel gathered s = .ok (fs, rest)) :
    ∃ front, s = front ++ '\x7d' :: rest ∧ ∀ fuel, front.length < fuel →
      Takes (members (setField item) fuel gathered) .inside .outside (front ++ ['\x7d']) fs := by
  induction fuel generalizing s gathered with
  | zero => cases h
  | succ fuel ih =>
    obtain ⟨key, j, ⟨last, rfl⟩ | ⟨u, v, field, quote, others⟩⟩ := members_cases h
    · obtain ⟨front, rfl, place, reads⟩ := last.upTo regular
      refine ⟨front, rfl, fun fuel enough => ⟨?_, fun t => ?_⟩⟩
      · rw [Place.after_behind place]
        rfl
      · obtain ⟨fuel, rfl⟩ := Nat.exists_eq_succ_of_ne_zero (Nat.ne_zero_of_lt enough)
        rw [List.append_assoc, List.singleton_append]
        exact (reads t).closed
    · obtain ⟨front, rfl, place, reads⟩ := field.upTo regular
      obtain ⟨bs, rfl, blanks, skips⟩ := exists_blanks quote
      obtain ⟨front', rfl, takes⟩ := ih others
      refine ⟨front ++ ',' :: (bs ++ '"' :: front'), by simp, fun fuel enough => ?_⟩
      obtain ⟨fuel, rfl⟩ := Nat.exists_eq_succ_of_ne_zero (Nat.ne_zero_of_lt enough)
      have enough : front'.length < fuel := by
        simp only [List.length_append, List.length_cons] at enough
        omega
      obtain ⟨place', reads'⟩ := takes fuel enough
      have layout (t : List Char) : front ++ ',' :: (bs ++ '"' :: front') ++ ['\x7d'] ++ t =
          front ++ ',' :: (bs ++ '"' :: (front' ++ ['\x7d'] ++ t)) := by
        simp
      refine ⟨?_, fun t => ?_⟩
      · rw [← List.append_nil (_ ++ ['\x7d']), layout, Place.after_behind place, List.append_nil]
        exact (Place.after_behind blanks _).trans place'
      · rw [layout, (reads _).next (skips _)]
        exact reads' t

/-- An object is read up to its closing brace. -/
lemma takes_object (regular : Regular .outside item) (h : object (setField item) [] s = .ok (fs, rest)) :
    ∃ front, s = front ++ '\x7d' :: rest ∧
      Takes (object (setField item) []) .outside .outside (front ++ ['\x7d']) fs := by
  simp only [object] at h
  split at h
  · cases h
  · next closed =>
    cases h
    obtain ⟨bs, rfl, blanks, skips⟩ := exists_blanks closed
    refine ⟨bs, rfl, ?_, fun t => ?_⟩
    · rw [Place.after_behind blanks]
      rfl
    · simp only [List.append_assoc, List.cons_append, List.nil_append, object, skips]
  · next behind quoted =>
    obtain ⟨bs, rfl, blanks, skips⟩ := exists_blanks quoted
    obtain ⟨front, rfl, takes⟩ := takes_members regular h
    refine ⟨bs ++ '"' :: front, by simp, ?_, fun t => ?_⟩
    · rw [List.append_assoc, Place.after_behind blanks]
      exact (takes _ (Nat.lt_succ_self _)).place
    · have enough : front.length < (front ++ '\x7d' :: t).length + 1 := by
        rw [List.length_append]
        omega
      have reads := (takes _ enough).reads t
      have layout : bs ++ '"' :: front ++ ['\x7d'] ++ t = bs ++ '"' :: (front ++ '\x7d' :: t) := by
        simp
      rw [List.append_assoc, List.singleton_append] at reads
      rw [layout]
      simp only [object, skips]
      exact reads
  · cases h

end Fields

/-! ### Values -/

lemma value_congr {s t : List Char} (h : skipSpace s = skipSpace t) : value depth s = value depth t := by
  unfold value
  rw [h]

lemma value_quote (depth : Nat) (s : List Char) :
    value depth ('"' :: s) = (string s).bind fun p => .ok (.str p.1, p.2) := by
  unfold value
  rfl

lemma value_bracket (depth : Nat) (s : List Char) :
    value (depth + 1) ('[' :: s) = (array (value depth) s).bind fun p => .ok (.arr p.1, p.2) := by
  unfold value
  rfl

lemma value_brace (depth : Nat) (s : List Char) :
    value (depth + 1) ('\x7b' :: s) =
      (object (setField (value depth)) [] s).bind fun p => .ok (.obj p.1, p.2) := by
  unfold value
  rfl

lemma literal_cases {k : Json} {letters : List Char} (h : literal k letters s = .ok (j, rest)) :
    s = letters ++ rest ∧ ∀ t, literal k letters (letters ++ t) = .ok (j, t) := by
  induction letters generalizing s with
  | nil =>
    cases h
    exact ⟨rfl, fun t => rfl⟩
  | cons l ls ih =>
    cases s with
    | nil => cases h
    | cons c s =>
      simp only [literal] at h
      split at h
      · next eq =>
        subst eq
        obtain ⟨rfl, reads⟩ := ih h
        exact ⟨rfl, fun t => by simpa [literal] using reads t⟩
      · cases h

/-- A value is read behind blanks as it is without them. -/
lemma regular_of_head {c : Char} {behind : List Char} (head : skipSpace s = c :: behind)
    (regular : ∃ front, behind = front ++ rest ∧ Place.outside.after (c :: front) = some .outside ∧
      ∀ t, Follows rest t → value depth (c :: (front ++ t)) = .ok (j, t)) :
    ∃ front, s = front ++ rest ∧ Place.outside.after front = some .outside ∧
      ∀ t, Follows rest t → value depth (front ++ t) = .ok (j, t) := by
  obtain ⟨front, rfl, place, reads⟩ := regular
  obtain ⟨bs, rfl, blanks, skips⟩ := exists_blanks head
  refine ⟨bs ++ c :: front, by simp, ?_, fun t follows => ?_⟩
  · rw [Place.after_behind blanks, place]
  · have same : skipSpace (bs ++ c :: front ++ t) = skipSpace (c :: (front ++ t)) := by
      rw [List.append_assoc, List.cons_append, skips, skipSpace_cons (isSpace_of_skipSpace head)]
    rw [value_congr same]
    exact reads t follows

/-- A value takes up the same text, as long as what follows begins in the same way or nothing
does. -/
theorem regular_value (depth : Nat) : Regular .outside (value depth) := by
  induction depth using Nat.strongRecOn with
  | ind depth ih =>
    intro s j rest h
    have word {letters : List Char} {k : Json} {c : Char} {behind : List Char}
        (head : skipSpace s = c :: behind) (place : Place.outside.after (c :: letters) = some .outside)
        (goes : ∀ t, value depth (c :: t) = literal k letters t)
        (h : literal k letters behind = .ok (j, rest)) :
        ∃ front, s = front ++ rest ∧ Place.outside.after front = some .outside ∧
          ∀ t, Follows rest t → value depth (front ++ t) = .ok (j, t) := by
      obtain ⟨rfl, reads⟩ := literal_cases h
      exact regular_of_head head ⟨letters, rfl, place, fun t _ => (goes _).trans (reads t)⟩
    unfold value at h
    split at h
    · cases h
    · next head => exact word head rfl (fun t => by unfold value; rfl) h
    · next head => exact word head rfl (fun t => by unfold value; rfl) h
    · next head => exact word head rfl (fun t => by unfold value; rfl) h
    · next head =>
      obtain ⟨front, rfl, place, reads⟩ := regular_number h
      refine regular_of_head head ⟨front, rfl, place, fun t follows => ?_⟩
      rw [value_minus]
      exact reads t follows
    · next head =>
      rw [bind_eq_ok] at h
      obtain ⟨⟨text, left⟩, read, h⟩ := h
      cases h
      obtain ⟨front, rfl, place, reads⟩ := takes_string read
      refine regular_of_head head ⟨front, rfl, place, fun t _ => ?_⟩
      rw [value_quote, reads]
      rfl
    · next head =>
      split at h
      · cases h
      · next depth =>
        rw [bind_eq_ok] at h
        obtain ⟨⟨js, left⟩, read, h⟩ := h
        cases h
        obtain ⟨front, rfl, place, reads⟩ := takes_array (ih depth (Nat.lt_succ_self depth)) read
        refine regular_of_head head ⟨front ++ [']'], by simp, place, fun t _ => ?_⟩
        rw [value_bracket, reads]
        rfl
    · next head =>
      split at h
      · cases h
      · next depth =>
        rw [bind_eq_ok] at h
        obtain ⟨⟨fs, left⟩, read, h⟩ := h
        cases h
        obtain ⟨front, rfl, place, reads⟩ := takes_object (ih depth (Nat.lt_succ_self depth)) read
        refine regular_of_head head ⟨front ++ ['\x7d'], by simp, place, fun t _ => ?_⟩
        rw [value_brace, reads]
        rfl
    · next c behind _ _ _ _ _ _ _ head =>
      split at h
      · next digit =>
        obtain ⟨front, parts, place, reads⟩ := regular_number h
        cases front with
        | nil => cases reads [] (by rintro _ ⟨⟩)
        | cons d front =>
          cases parts
          refine regular_of_head head ⟨front, rfl, place, fun t follows => ?_⟩
          rw [value_of_isDigit depth digit]
          exact reads t follows
      · cases h

/-- What is read as an object begins with a brace behind blanks. -/
lemma object_of_value {fs : List (String × Json)} (h : value depth s = .ok (.obj fs, rest)) :
    ∃ inner behind, depth = inner + 1 ∧ skipSpace s = '\x7b' :: behind ∧
      object (setField (value inner)) [] behind = .ok (fs, rest) := by
  -- Nothing but an object nests as deep as one.
  have flat (readable : Readable 0 (.obj fs)) : False := by
    cases readable
  unfold value at h
  split at h
  · cases h
  · exact (flat (readable_literal .null h)).elim
  · exact (flat (readable_literal .bool h)).elim
  · exact (flat (readable_literal .bool h)).elim
  · exact (flat (readable_number h)).elim
  · rw [bind_eq_ok] at h
    obtain ⟨p, -, h⟩ := h
    cases h
  · split at h
    · cases h
    · rw [bind_eq_ok] at h
      obtain ⟨p, -, h⟩ := h
      cases h
  · next behind head =>
    split at h
    · cases h
    · next inner =>
      rw [bind_eq_ok] at h
      obtain ⟨p, read, h⟩ := h
      cases h
      exact ⟨inner, behind, rfl, head, read⟩
  · split at h
    · exact (flat (readable_number h)).elim
    · cases h

/-- An object takes up the text from its opening brace to its closing one, whatever follows. -/
theorem exists_object {fs : List (String × Json)} (h : value depth s = .ok (.obj fs, rest)) :
    ∃ bs front, s = bs ++ '\x7b' :: front ++ '\x7d' :: rest ∧ (∀ b ∈ bs, isSpace b = true) ∧
      Takes (value depth) .outside .outside ('\x7b' :: front ++ ['\x7d']) (.obj fs) := by
  obtain ⟨inner, behind, rfl, head, read⟩ := object_of_value h
  obtain ⟨front, rfl, place, reads⟩ := takes_object (regular_value inner) read
  refine ⟨s.takeWhile isSpace, front, ?_, fun b mem => List.mem_takeWhile_imp mem, place, fun t => ?_⟩
  · rw [List.append_assoc, List.cons_append, ← head]
    exact List.takeWhile_append_dropWhile.symm
  · have reads := reads t
    rw [List.cons_append, List.cons_append, value_brace, reads]
    rfl

/-! ### Texts of one object -/

/-- In a text that is an object, blanks stand beside its braces and nothing else. -/
theorem exists_object_of_whole {fs : List (String × Json)} (h : whole s = .ok (.obj fs)) :
    ∃ bs front cs, s = bs ++ ('\x7b' :: front ++ ['\x7d']) ++ cs ∧ (∀ b ∈ bs, isSpace b = true) ∧
      (∀ c ∈ cs, isSpace c = true) ∧
      Takes first .outside .outside ('\x7b' :: front ++ ['\x7d']) (.obj fs) := by
  rw [whole, entire, bind_eq_ok] at h
  obtain ⟨⟨j, cs⟩, read, h⟩ := h
  dsimp only at h
  split at h
  · next nothing =>
    cases h
    obtain ⟨bs, front, rfl, blanks, takes⟩ := exists_object read
    have behind : ∀ c ∈ cs, isSpace c = true := by
      simpa [skipSpace, List.dropWhile_eq_nil_iff] using nothing
    exact ⟨bs, front, cs, by simp, blanks, behind, takes⟩
  · cases h

/-- What is read of a text, whatever follows it, is what the text is. -/
lemma Takes.whole {start finish : Place} (takes : Takes first start finish front j) :
    whole front = .ok j := by
  have reads := takes.reads []
  rw [List.append_nil] at reads
  exact entire_of_reads reads

/-- A text that is an object ends outside of strings. -/
lemma Place.after_whole {fs : List (String × Json)} (h : Json.whole s = .ok (.obj fs)) :
    outside.after s = some .outside := by
  obtain ⟨bs, front, cs, rfl, blanks, behind, takes⟩ := exists_object_of_whole h
  rw [List.append_assoc, after_behind (after_blanks blanks), after_behind takes.place,
    after_blanks behind]

end Multipass.Json
