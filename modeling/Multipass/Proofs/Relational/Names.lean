import Multipass.Proofs.Json.Shape
import Multipass.Store.Relational.JsonText
import Multipass.Store.Relational.Row

/-!
# Lists of names in columns

A list of names is written as a JSON array. It is read back by the program, and the database, which
reads such texts in its own way, finds in it the same names.

Main statements: `readNames_writeNames` and `someIsText_writeNames`.
-/

namespace Multipass.Relational

open Json

/-! ### Read by the program -/

lemma begins_quoted (s : String) : Begins (quoted s) :=
  ⟨'"', _, rfl, rfl, by decide⟩

lemma compactChars_strs (names : List String) :
    compactChars (Json.strs names) = '[' :: (separated quoted names ++ [']']) := by
  have written : separated compactChars (names.map Json.str) = separated quoted names := by
    cases names with
    | nil => rfl
    | cons name names => simp [separated, compactChars, List.flatMap_map]
  rw [Json.strs, compactChars_arr, written]
  rfl

/-- A list of names is read back from its column. -/
theorem readNames_writeNames (names : List String) : readNames (writeNames names) = .ok names := by
  have reads : ∀ name ∈ names, ∀ rest, Ends rest →
      ∃ other, textValue (quoted name ++ rest) = .ok (other, rest) ∧ name = other :=
    fun name _ rest _ => ⟨name, textValue_quoted name rest, rfl⟩
  obtain ⟨_, array, same⟩ := array_separated [] reads fun name _ => begins_quoted name
  obtain rfl := List.forall₂_eq_eq_eq ▸ same
  have bracket : isSpace '[' = false := rfl
  have read : listValue textValue (compactChars (Json.strs names)) = .ok (names, []) := by
    rw [compactChars_strs]
    simp only [listValue, skipSpace_cons bracket, array]
  rw [readNames, writeNames, parseAs, compact, String.toList_ofList, entire_of_reads read]
  rfl

/-! ### Read by the database -/

/-- The piece that is the written form of a character. -/
def pieceOf (c : Char) : TextPiece :=
  if c = '"' then .short '"'
  else if c = '\\' then .short '\\'
  else if c = '\x08' then .short 'b'
  else if c = '\x0c' then .short 'f'
  else if c = '\n' then .short 'n'
  else if c = '\r' then .short 'r'
  else if c = '\t' then .short 't'
  else if c.toNat < 0x20 then
    .unit ['0', '0', hexDigit (c.toNat / 16), hexDigit (c.toNat % 16)] c.toNat
  else .plain c

/-- A character with its written form within quotes, and the piece that this form is. -/
inductive Shown (c : Char) : List Char → TextPiece → Prop where
  | short {letter} :
    TextPiece.letterPoint letter = c.toNat →
    letter ∈ ['"', '\\', 'b', 'f', 'n', 'r', 't'] →
    Shown c ['\\', letter] (.short letter)
  | unit {high low} :
    c.toNat < 0x20 →
    high = hexDigit (c.toNat / 16) →
    low = hexDigit (c.toNat % 16) →
    Shown c ['\\', 'u', '0', '0', high, low] (.unit ['0', '0', high, low] c.toNat)
  | plain :
    c ≠ '"' →
    c ≠ '\\' →
    0x20 ≤ c.toNat →
    Shown c [c] (.plain c)

lemma shown (c : Char) : Shown c (escapeChar c) (pieceOf c) := by
  by_cases quote : c = '"'
  · exact quote ▸ .short rfl (by decide)
  by_cases backslash : c = '\\'
  · exact backslash ▸ .short rfl (by decide)
  by_cases backspace : c = '\x08'
  · exact backspace ▸ .short rfl (by decide)
  by_cases formFeed : c = '\x0c'
  · exact formFeed ▸ .short rfl (by decide)
  by_cases lineFeed : c = '\n'
  · exact lineFeed ▸ .short rfl (by decide)
  by_cases lineReturn : c = '\r'
  · exact lineReturn ▸ .short rfl (by decide)
  by_cases tab : c = '\t'
  · exact tab ▸ .short rfl (by decide)
  simp only [escapeChar, pieceOf, quote, backslash, backspace, formFeed, lineFeed, lineReturn, tab,
    if_false]
  split
  · next control => exact .unit control rfl rfl
  · next printed => exact .plain quote backslash (Nat.le_of_not_lt printed)

/-- A piece stands for its character, whatever follows it. -/
lemma points_cons {c : Char} {cs : List Char} {p : TextPiece} (h : Shown c cs p)
    (ps : List TextPiece) : TextPiece.points (p :: ps) = c.toNat :: TextPiece.points ps := by
  cases h with
  | short point _ => rw [TextPiece.points, point]
  | plain _ _ _ => rfl
  | unit control _ _ =>
    have low : ¬ (c.toNat / 0x400 = 0x36) := by omega
    cases ps with
    | nil => rfl
    | cons q ps =>
      cases q with
      | unit ds n => rw [TextPiece.points, if_neg fun h => low h.1]
      | _ => rfl

/-- The pieces of a name stand for its characters. -/
lemma points_pieceOf (cs : List Char) :
    TextPiece.points (cs.map pieceOf) = cs.map Char.toNat := by
  induction cs with
  | nil => rfl
  | cons c cs ih => rw [List.map_cons, points_cons (shown c), ih, List.map_cons]

namespace JsonText

lemma isHex_hexDigit {n : Nat} (h : n < 16) : isHex (hexDigit n) = true := by
  rw [isHex, hexValue?_hexDigit h]
  rfl

lemma hexValue_control {n : Nat} (h : n < 0x20) :
    LooseJson.hexValue ['0', '0', hexDigit (n / 16), hexDigit (n % 16)] = n := by
  have all : ∀ m < 0x20,
      LooseJson.hexValue ['0', '0', hexDigit (m / 16), hexDigit (m % 16)] = m := by decide
  exact all n h

/-- An escape is read as its piece. -/
lemma escape?_of_shown {c : Char} {cs : List Char} {p : TextPiece} (h : Shown c ('\\' :: cs) p)
    (rest : List Char) : escape? (cs ++ rest) = some (p, rest) := by
  cases h with
  | short _ mem =>
    simp only [List.mem_cons, List.not_mem_nil, or_false] at mem
    obtain rfl | rfl | rfl | rfl | rfl | rfl | rfl := mem <;> rfl
  | @unit high low control hh hl =>
    have zero : isHex '0' = true := rfl
    have hex : hexDigits? 4 ('0' :: '0' :: high :: low :: rest) =
        some (['0', '0', high, low], rest) := by
      have hHigh : isHex high = true := hh ▸ isHex_hexDigit (by omega)
      have hLow : isHex low = true := hl ▸ isHex_hexDigit (by omega)
      simp [hexDigits?, zero, hHigh, hLow]
    have value : LooseJson.hexValue ['0', '0', high, low] = c.toNat := by
      rw [hh, hl, hexValue_control control]
    simp [escape?, hex, value]
  | plain _ backslash _ => exact absurd rfl backslash

/-- The written form of a character is read as its piece. -/
lemma pieces?_escapeChar (fuel : Nat) (c : Char) (rest : List Char) :
    pieces? '"' (fuel + 1) (escapeChar c ++ rest) =
      (pieces? '"' fuel rest).map fun (ps, rest) => (pieceOf c :: ps, rest) := by
  have h := shown c
  generalize escapeChar c = cs, pieceOf c = p at h
  cases h with
  | short point mem =>
    have read := escape?_of_shown (Shown.short point mem) rest
    have ne : ¬ '\\' = '"' := by decide
    simp only [List.cons_append, List.nil_append] at read ⊢
    simp only [pieces?, ne, if_false, if_true, read]
  | unit control hh hl =>
    have read := escape?_of_shown (Shown.unit control hh hl) rest
    have ne : ¬ '\\' = '"' := by decide
    simp only [List.cons_append, List.nil_append] at read ⊢
    simp only [pieces?, ne, if_false, if_true, read]
  | plain quote backslash _ =>
    simp only [List.cons_append, List.nil_append, pieces?, quote, backslash, if_false]

/-- A text in quotes is read as the pieces of its characters. -/
lemma text?_quoted (s : String) (rest : List Char) :
    text? '"' (s.toList.flatMap escapeChar ++ '"' :: rest) =
      some (s.toList.map pieceOf, rest) := by
  have read : ∀ (cs : List Char) (fuel : Nat), cs.length < fuel →
      pieces? '"' fuel (cs.flatMap escapeChar ++ '"' :: rest) = some (cs.map pieceOf, rest) := by
    intro cs
    induction cs with
    | nil =>
      intro fuel enough
      obtain ⟨fuel, rfl⟩ := Nat.exists_eq_succ_of_ne_zero (Nat.ne_of_gt enough)
      rfl
    | cons c cs ih =>
      intro fuel enough
      obtain ⟨fuel, rfl⟩ := Nat.exists_eq_succ_of_ne_zero
        (Nat.ne_of_gt (Nat.lt_of_le_of_lt (Nat.zero_le _) enough))
      rw [List.flatMap_cons, List.append_assoc, pieces?_escapeChar,
        ih fuel (Nat.lt_of_succ_lt_succ enough)]
      rfl
  refine read s.toList _ ?_
  have := length_le_flatMap_escapeChar s.toList
  rw [List.length_append]
  omega

lemma skip_cons {c : Char} (blank : isBlank c = false) (slash : c ≠ '/') (s : List Char) :
    skip (c :: s) = c :: s := by
  have kept : (c :: s).dropWhile isBlank = c :: s := by simp [blank]
  simp only [skip, List.length_cons, skipWithin, kept]
  split
  · next eq => cases eq; exact absurd rfl slash
  · next eq => cases eq; exact absurd rfl slash
  · rfl

/-- The value that the database reads of a text in quotes. -/
def shownText (s : String) : LooseJson :=
  .text (s.toList.map pieceOf)

lemma value?_quoted (depth : Nat) (s : String) (rest : List Char) :
    value? depth (quoted s ++ rest) = some (shownText s, rest) := by
  have written : quoted s ++ rest = '"' :: (s.toList.flatMap escapeChar ++ '"' :: rest) := by
    simp [quoted]
  have blank : isBlank '"' = false := by decide
  rw [written]
  unfold value?
  rw [skip_cons blank (by decide)]
  show plain? ('"' :: (s.toList.flatMap escapeChar ++ '"' :: rest)) = _
  simp only [plain?, text?_quoted]
  rfl

/-- The last name is read, and the array ends. -/
lemma items?_last (depth fuel : Nat) (name : String) (rest : List Char) :
    items? (value? depth) (fuel + 1) (quoted name ++ ']' :: rest) =
      some ([shownText name], rest) := by
  have read := value?_quoted depth name (']' :: rest)
  obtain ⟨tail, layout⟩ : ∃ tail, quoted name ++ ']' :: rest = '"' :: tail := ⟨_, rfl⟩
  have start : skip ('"' :: tail) = '"' :: tail :=
    skip_cons (show isBlank '"' = false by decide) (by decide) _
  have close : skip (']' :: rest) = ']' :: rest :=
    skip_cons (show isBlank ']' = false by decide) (by decide) _
  rw [layout] at read ⊢
  simp only [items?, start]
  split
  · next bracket => exact absurd (List.cons.inj bracket).1 (by decide)
  · simp only [read, close]

/-- A name is read, and another one follows. -/
lemma items?_next (depth fuel : Nat) (name : String) (s : List Char) :
    items? (value? depth) (fuel + 1) (quoted name ++ ',' :: s) =
      (items? (value? depth) fuel s).map fun (js, rest) => (shownText name :: js, rest) := by
  have read := value?_quoted depth name (',' :: s)
  obtain ⟨tail, layout⟩ : ∃ tail, quoted name ++ ',' :: s = '"' :: tail := ⟨_, rfl⟩
  have start : skip ('"' :: tail) = '"' :: tail :=
    skip_cons (show isBlank '"' = false by decide) (by decide) _
  have comma : skip (',' :: s) = ',' :: s :=
    skip_cons (show isBlank ',' = false by decide) (by decide) _
  rw [layout] at read ⊢
  conv_lhs => simp only [items?, start]
  split
  · next bracket => exact absurd (List.cons.inj bracket).1 (by decide)
  · simp only [read, comma]

/-- Names are read from behind the bracket of their array. -/
lemma items?_quoted {fuel : Nat} {name : String} {names : List String} (depth : Nat)
    (rest : List Char) (enough : names.length < fuel) :
    items? (value? depth) fuel
      (quoted name ++ ((names.flatMap fun name => ',' :: quoted name) ++ ']' :: rest)) =
      some ((name :: names).map shownText, rest) := by
  obtain ⟨fuel, rfl⟩ := Nat.exists_eq_succ_of_ne_zero
    (Nat.ne_of_gt (Nat.lt_of_le_of_lt (Nat.zero_le _) enough))
  induction names generalizing name fuel with
  | nil => exact items?_last depth fuel name rest
  | cons next names ih =>
    have shorter := Nat.lt_of_succ_lt_succ enough
    obtain ⟨fuel, rfl⟩ := Nat.exists_eq_succ_of_ne_zero
      (Nat.ne_of_gt (Nat.lt_of_le_of_lt (Nat.zero_le _) shorter))
    have layout : ((next :: names).flatMap fun name => ',' :: quoted name) ++ ']' :: rest =
        ',' :: (quoted next ++
          ((names.flatMap fun name => ',' :: quoted name) ++ ']' :: rest)) := by
      simp
    rw [layout, items?_next, ih fuel shorter]
    rfl

/-- A list of names is read as the array of its texts. -/
lemma value?_strs (depth : Nat) (names : List String) :
    value? (depth + 1) (compactChars (Json.strs names)) =
      some (.array (names.map shownText), []) := by
  have blank : isBlank '[' = false := by decide
  have read : items? (value? depth) ((separated quoted names ++ [']']).length + 1)
      (separated quoted names ++ [']']) = some (names.map shownText, []) := by
    cases names with
    | nil => rfl
    | cons name names =>
      have layout : separated quoted (name :: names) ++ [']'] =
          quoted name ++ ((names.flatMap fun name => ',' :: quoted name) ++ [']']) := by
        simp [separated]
      rw [layout]
      refine items?_quoted depth [] ?_
      have := length_le_flatMap_comma quoted names
      simp only [List.length_append, List.length_cons]
      omega
  rw [compactChars_strs]
  unfold value?
  rw [skip_cons blank (by decide)]
  simp only [read]
  rfl

end JsonText

/-! ### No character of code zero -/

lemma ne_nul_of_mem_escapeChar {c d : Char} (mem : d ∈ escapeChar c) : d ≠ '\x00' := by
  have h := shown c
  generalize escapeChar c = cs, pieceOf c = p at h mem
  have digits : ∀ n < 16, hexDigit n ≠ '\x00' := by decide
  cases h with
  | short _ valid =>
    have letters : ∀ letter ∈ ['"', '\\', 'b', 'f', 'n', 'r', 't'], letter ≠ '\x00' := by simp
    obtain rfl | mem := List.mem_cons.1 mem
    · decide
    · exact List.mem_singleton.1 mem ▸ letters _ valid
  | unit control hh hl =>
    simp only [List.mem_cons, List.not_mem_nil, or_false] at mem
    obtain rfl | rfl | rfl | rfl | rfl | rfl := mem
    · decide
    · decide
    · decide
    · decide
    · exact hh ▸ digits _ (by omega)
    · exact hl ▸ digits _ (by omega)
  | plain _ _ printed =>
    rw [List.mem_singleton.1 mem]
    rintro rfl
    exact absurd printed (by decide)

lemma ne_nul_of_mem_quoted {s : String} {d : Char} (mem : d ∈ quoted s) : d ≠ '\x00' := by
  simp only [quoted, List.cons_append, List.mem_cons, List.mem_append, List.mem_flatMap,
    List.not_mem_nil, or_false] at mem
  obtain rfl | ⟨c, -, mem⟩ | rfl := mem
  · decide
  · exact ne_nul_of_mem_escapeChar mem
  · decide

lemma ne_nul_of_mem_strs {names : List String} {d : Char}
    (mem : d ∈ compactChars (Json.strs names)) : d ≠ '\x00' := by
  have items : ∀ names : List String, d ∈ separated quoted names → d ≠ '\x00' := by
    intro names mem
    cases names with
    | nil => cases mem
    | cons name names =>
      simp only [separated, List.mem_append, List.mem_flatMap, List.mem_cons] at mem
      obtain mem | ⟨other, -, rfl | mem⟩ := mem
      · exact ne_nul_of_mem_quoted mem
      · decide
      · exact ne_nul_of_mem_quoted mem
  rw [compactChars_strs, List.mem_cons, List.mem_append, List.mem_singleton] at mem
  obtain rfl | mem | rfl := mem
  · decide
  · exact items names mem
  · decide

lemma takeWhile_eq_self {α : Type} {p : α → Bool} {as : List α} (h : ∀ a ∈ as, p a = true) :
    as.takeWhile p = as := by
  induction as with
  | nil => rfl
  | cons a as ih =>
    rw [List.takeWhile_cons_of_pos (h a List.mem_cons_self),
      ih fun b mem => h b (List.mem_cons_of_mem a mem)]

/-- The database reads a list of names as the array of the texts. -/
theorem readJson_writeNames (names : List String) :
    readJson (writeNames names) = some (.array (names.map JsonText.shownText)) := by
  have whole : (writeNames names).toList.takeWhile (· ≠ '\x00') =
      compactChars (Json.strs names) := by
    rw [writeNames, compact, String.toList_ofList]
    exact takeWhile_eq_self fun d mem => by simpa using ne_nul_of_mem_strs mem
  have depth : JsonText.maxDepth = 999 + 1 := rfl
  simp only [readJson, whole, depth, JsonText.value?_strs]
  rfl

lemma toNat_map_injective {s t : List Char} (h : s.map Char.toNat = t.map Char.toNat) : s = t :=
  List.map_injective_iff.2 (fun _ _ => Char.toNat_inj.1) h

/-- The database finds a name in a list exactly when it is there. -/
theorem someIsText_writeNames (names : List String) (name : String) :
    ((readJson (writeNames names)).bind fun j => LooseJson.someIsText name j.eachValue) =
      some (names.contains name) := by
  rw [readJson_writeNames]
  show LooseJson.someIsText name (names.map JsonText.shownText) = _
  induction names with
  | nil => rfl
  | cons other names ih =>
    have scalar : (JsonText.shownText other).scalar? =
        some (.text (other.toList.map Char.toNat)) := by
      rw [JsonText.shownText, LooseJson.scalar?, points_pieceOf]
    rw [List.map_cons, LooseJson.someIsText, scalar, List.contains_cons]
    by_cases h : name = other
    · simp [h]
    · have ne : other.toList.map Char.toNat ≠ name.toList.map Char.toNat := fun eq =>
        h (String.toList_inj.1 (toNat_map_injective eq)).symm
      simp [h, ne, ih]

end Multipass.Relational
