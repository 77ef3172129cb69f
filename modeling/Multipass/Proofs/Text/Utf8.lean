import Mathlib.Tactic.Lemma
import Multipass.Text.Utf8

/-!
# Texts as bytes

The bytes of a text are those of its characters, one behind the other, and a byte below `0x80`
stands for its own character alone. Bytes are read as a text exactly if they are the bytes of it.

Main statements: `encode_eq`, `mem_encode_iff` and `decode?_iff`.
-/

namespace Multipass.Text

lemma toList_loop (bytes : ByteArray) (i : Nat) (front : List UInt8) :
    ByteArray.toList.loop bytes i front = front.reverse ++ bytes.data.toList.drop i := by
  induction h : bytes.size - i generalizing i front with
  | zero =>
    have past : bytes.data.toList.length ≤ i := by
      rw [Array.length_toList]
      exact Nat.le_of_sub_eq_zero h
    rw [ByteArray.toList.loop, if_neg (by omega), List.drop_eq_nil_of_le past, List.append_nil]
  | succ n ih =>
    have within : i < bytes.size := by omega
    rw [ByteArray.toList.loop, if_pos within, ih (i + 1) _ (by omega), List.reverse_cons,
      List.append_assoc, List.singleton_append]
    congr 1
    have within' : i < bytes.data.toList.length := by
      rw [Array.length_toList]
      exact within
    have here : bytes.get! i = bytes.data.toList[i] := by
      rw [Array.getElem_toList]
      exact getElem!_pos bytes.data i within
    rw [List.drop_eq_getElem_cons within', here]

lemma encode_eq_data (s : String) : encode s = s.toUTF8.data.toList := by
  rw [encode, ByteArray.toList, toList_loop]
  rfl

/-- Texts with the same bytes are the same. -/
theorem encode_inj {s t : String} : encode s = encode t ↔ s = t := by
  refine ⟨fun same => ?_, congrArg encode⟩
  rw [encode_eq_data, encode_eq_data, Array.toList_inj] at same
  exact String.toByteArray_inj.1 (ByteArray.ext same)

/-- The bytes of a text are the bytes of its characters. -/
theorem encode_eq (s : String) : encode s = s.toList.flatMap String.utf8EncodeChar := by
  have bytes : s.toUTF8 = (s.toList.flatMap String.utf8EncodeChar).toByteArray := by
    rw [← List.utf8Encode, ← String.toByteArray_ofList, String.ofList_toList]
    rfl
  rw [encode_eq_data, bytes, List.toList_data_toByteArray]

lemma encode_append (s t : String) : encode (s ++ t) = encode s ++ encode t := by
  simp only [encode_eq, String.toList_append, List.flatMap_append]

section

variable {b : UInt8} {bs : List UInt8} {owed low high bits n : Nat}

/-- A byte that begins a longer sequence leads into it. -/
lemma decodeFrom_first (leads : lead? b.toNat = some ⟨owed + 1, low, high, bits⟩) :
    decodeFrom false .between (b :: bs) = decodeFrom false (.within (owed + 1) low high bits) bs := by
  simp only [decodeFrom, openSequence, leads]

/-- A byte in its range adds six bits to those before it. -/
lemma decodeFrom_next (least : low ≤ b.toNat) (most : b.toNat ≤ high) :
    decodeFrom false (.within (owed + 2) low high bits) (b :: bs) =
      decodeFrom false (.within (owed + 1) 0x80 0xbf (bits * 64 + (b.toNat - 0x80))) bs := by
  have more : ¬owed + 2 ≤ 1 := by omega
  simp only [decodeFrom, least, most, decide_true, Bool.and_self, if_true, more, if_false]
  rfl

/-- The last byte of a sequence completes its character. -/
lemma decodeFrom_last (least : low ≤ b.toNat) (most : b.toNat ≤ high) :
    decodeFrom false (.within 1 low high bits) (b :: bs) =
      (decodeFrom false .between bs).map (Char.ofNat (bits * 64 + (b.toNat - 0x80)) :: ·) := by
  simp only [decodeFrom, least, most, decide_true, Bool.and_self, if_true, Nat.le_refl]

lemma toNat_ofNat (small : n < 256) : (UInt8.ofNat n).toNat = n := by
  rw [UInt8.toNat_ofNat']
  exact Nat.mod_eq_of_lt small

lemma lead?_two (least : 0xc2 ≤ n) (below : n < 0xe0) :
    lead? n = some ⟨1, 0x80, 0xbf, n - 0xc0⟩ := by
  rw [lead?, if_neg (by omega), if_neg (by omega), if_pos below]

/-- At either end of the bytes that begin a sequence of three, fewer bytes may follow. -/
lemma lead?_three (least : 0xe0 ≤ n) (below : n < 0xf0) : lead? n =
    some ⟨2, if n = 0xe0 then 0xa0 else 0x80, if n = 0xed then 0x9f else 0xbf, n - 0xe0⟩ := by
  by_cases long : n = 0xe0
  · subst long
    rfl
  · by_cases surrogate : n = 0xed
    · subst surrogate
      rfl
    · rw [lead?, if_neg (by omega), if_neg (by omega), if_neg (by omega), if_neg (by simpa using long),
        if_neg (by simpa using surrogate), if_pos below, if_neg long, if_neg surrogate]

lemma lead?_four (least : 0xf0 ≤ n) (below : n < 0xf5) : lead? n =
    some ⟨3, if n = 0xf0 then 0x90 else 0x80, if n = 0xf4 then 0x8f else 0xbf, n - 0xf0⟩ := by
  obtain rfl | rfl | rfl | rfl | rfl : n = 0xf0 ∨ n = 0xf1 ∨ n = 0xf2 ∨ n = 0xf3 ∨ n = 0xf4 := by
    omega
  all_goals rfl

lemma decodeFrom_two (least : 0x80 ≤ n) (most : n ≤ 0x7ff) (bs : List UInt8) :
    decodeFrom false .between (UInt8.ofNat (n / 64 % 32 + 0xc0) :: UInt8.ofNat (n % 64 + 0x80) :: bs) =
      (decodeFrom false .between bs).map (Char.ofNat n :: ·) := by
  have first := toNat_ofNat (n := n / 64 % 32 + 0xc0) (by omega)
  have last := toNat_ofNat (n := n % 64 + 0x80) (by omega)
  have leads := first ▸ lead?_two (n := n / 64 % 32 + 0xc0) (by omega) (by omega)
  have whole : (n / 64 % 32 + 0xc0 - 0xc0) * 64 + (n % 64 + 0x80 - 0x80) = n := by omega
  rw [decodeFrom_first leads, decodeFrom_last (by omega) (by omega), first, last, whole]

lemma decodeFrom_three (least : 0x800 ≤ n) (most : n ≤ 0xffff) (scalar : n < 0xd800 ∨ 0xdfff < n)
    (bs : List UInt8) :
    decodeFrom false .between (UInt8.ofNat (n / 4096 % 16 + 0xe0) ::
        UInt8.ofNat (n / 64 % 64 + 0x80) :: UInt8.ofNat (n % 64 + 0x80) :: bs) =
      (decodeFrom false .between bs).map (Char.ofNat n :: ·) := by
  have first := toNat_ofNat (n := n / 4096 % 16 + 0xe0) (by omega)
  have next := toNat_ofNat (n := n / 64 % 64 + 0x80) (by omega)
  have last := toNat_ofNat (n := n % 64 + 0x80) (by omega)
  have leads := first ▸ lead?_three (n := n / 4096 % 16 + 0xe0) (by omega) (by omega)
  have whole : ((n / 4096 % 16 + 0xe0 - 0xe0) * 64 + (n / 64 % 64 + 0x80 - 0x80)) * 64 +
      (n % 64 + 0x80 - 0x80) = n := by omega
  rw [decodeFrom_first leads, decodeFrom_next (by split <;> omega) (by split <;> omega),
    decodeFrom_last (by omega) (by omega), first, next, last, whole]

lemma decodeFrom_four (least : 0x10000 ≤ n) (below : n < 0x110000) (bs : List UInt8) :
    decodeFrom false .between (UInt8.ofNat (n / 262144 % 8 + 0xf0) ::
        UInt8.ofNat (n / 4096 % 64 + 0x80) :: UInt8.ofNat (n / 64 % 64 + 0x80) ::
        UInt8.ofNat (n % 64 + 0x80) :: bs) =
      (decodeFrom false .between bs).map (Char.ofNat n :: ·) := by
  have first := toNat_ofNat (n := n / 262144 % 8 + 0xf0) (by omega)
  have second := toNat_ofNat (n := n / 4096 % 64 + 0x80) (by omega)
  have third := toNat_ofNat (n := n / 64 % 64 + 0x80) (by omega)
  have last := toNat_ofNat (n := n % 64 + 0x80) (by omega)
  have leads := first ▸ lead?_four (n := n / 262144 % 8 + 0xf0) (by omega) (by omega)
  have whole : (((n / 262144 % 8 + 0xf0 - 0xf0) * 64 + (n / 4096 % 64 + 0x80 - 0x80)) * 64 +
      (n / 64 % 64 + 0x80 - 0x80)) * 64 + (n % 64 + 0x80 - 0x80) = n := by omega
  rw [decodeFrom_first leads, decodeFrom_next (by split <;> omega) (by split <;> omega),
    decodeFrom_next (by omega) (by omega), decodeFrom_last (by omega) (by omega), first, second, third,
    last, whole]

/-- The bytes of a character are read as that character. -/
lemma decodeFrom_utf8EncodeChar (c : Char) (bs : List UInt8) :
    decodeFrom false .between (String.utf8EncodeChar c ++ bs) =
      (decodeFrom false .between bs).map (c :: ·) := by
  have scalar : c.val.toNat < 0xd800 ∨ 0xdfff < c.val.toNat ∧ c.val.toNat < 0x110000 := c.valid
  have same : Char.ofNat c.val.toNat = c := Char.ofNat_toNat c
  rw [String.utf8EncodeChar]
  split
  · next one =>
    have byte := toNat_ofNat (n := c.val.toNat) (by omega)
    have leads : lead? c.val.toNat = some ⟨0, 0x80, 0xbf, c.val.toNat⟩ := by
      rw [lead?, if_pos (by omega)]
    simp only [List.singleton_append, decodeFrom, openSequence, byte, leads, same]
  · split
    · have read := decodeFrom_two (n := c.val.toNat) (by omega) (by omega) bs
      rwa [same] at read
    · split
      · have read := decodeFrom_three (n := c.val.toNat) (by omega) (by omega) (by omega) bs
        rwa [same] at read
      · have read := decodeFrom_four (n := c.val.toNat) (by omega) (by omega) bs
        rwa [same] at read

end

/-- The characters of a text are read from their bytes. -/
lemma decodeFrom_flatMap (cs : List Char) :
    decodeFrom false .between (cs.flatMap String.utf8EncodeChar) = some cs := by
  induction cs with
  | nil => rfl
  | cons c cs ih => rw [List.flatMap_cons, decodeFrom_utf8EncodeChar, ih, Option.map_some]

/-! ### Texts of bytes -/

section

variable {b : UInt8} {bs : List UInt8} {cs : List Char} {owed low high bits n : Nat}

/-- A sequence that is read goes on with a byte in its range. -/
lemma exists_inRange (read : decodeFrom false (.within owed low high bits) bs = some cs) :
    ∃ b rest, bs = b :: rest ∧ low ≤ b.toNat ∧ b.toNat ≤ high := by
  cases bs with
  | nil => cases read
  | cons b rest =>
    rw [decodeFrom] at read
    split at read
    · next range =>
      simp only [Bool.and_eq_true, decide_eq_true_eq] at range
      exact ⟨b, rest, rfl, range⟩
    · cases read

lemma exists_last (read : decodeFrom false (.within 1 low high bits) bs = some cs) :
    ∃ b rest more, bs = b :: rest ∧ low ≤ b.toNat ∧ b.toNat ≤ high ∧
      cs = Char.ofNat (bits * 64 + (b.toNat - 0x80)) :: more ∧
        decodeFrom false .between rest = some more := by
  obtain ⟨b, rest, rfl, least, most⟩ := exists_inRange read
  rw [decodeFrom_last least most, Option.map_eq_some_iff] at read
  obtain ⟨more, read, rfl⟩ := read
  exact ⟨b, rest, more, rfl, least, most, rfl, read⟩

lemma exists_next (read : decodeFrom false (.within (owed + 2) low high bits) bs = some cs) :
    ∃ b rest, bs = b :: rest ∧ low ≤ b.toNat ∧ b.toNat ≤ high ∧
      decodeFrom false (.within (owed + 1) 0x80 0xbf (bits * 64 + (b.toNat - 0x80))) rest =
        some cs := by
  obtain ⟨b, rest, rfl, least, most⟩ := exists_inRange read
  rw [decodeFrom_next least most] at read
  exact ⟨b, rest, rfl, least, most, read⟩

lemma toNat_val_ofNat (scalar : n < 0xd800 ∨ 0xdfff < n ∧ n < 0x110000) :
    (Char.ofNat n).val.toNat = n := by
  have valid : n.isValidChar := scalar
  rw [Char.ofNat, dif_pos valid]
  rfl

lemma ofNat_eq (same : n = b.toNat) : UInt8.ofNat n = b := by
  rw [same, UInt8.ofNat_toNat]

lemma utf8EncodeChar_two {b₀ b₁ : UInt8} (least : 0xc2 ≤ b₀.toNat) (below : b₀.toNat < 0xe0)
    (least₁ : 0x80 ≤ b₁.toNat) (most₁ : b₁.toNat ≤ 0xbf) :
    String.utf8EncodeChar (Char.ofNat ((b₀.toNat - 0xc0) * 64 + (b₁.toNat - 0x80))) = [b₀, b₁] := by
  have value := toNat_val_ofNat (n := (b₀.toNat - 0xc0) * 64 + (b₁.toNat - 0x80)) (by omega)
  rw [String.utf8EncodeChar, value, if_neg (by omega), if_pos (by omega),
    ofNat_eq (b := b₀) (by omega), ofNat_eq (b := b₁) (by omega)]

lemma utf8EncodeChar_three {b₀ b₁ b₂ : UInt8} (least : 0xe0 ≤ b₀.toNat) (below : b₀.toNat < 0xf0)
    (least₁ : (if b₀.toNat = 0xe0 then 0xa0 else 0x80) ≤ b₁.toNat)
    (most₁ : b₁.toNat ≤ if b₀.toNat = 0xed then 0x9f else 0xbf)
    (least₂ : 0x80 ≤ b₂.toNat) (most₂ : b₂.toNat ≤ 0xbf) :
    String.utf8EncodeChar (Char.ofNat
      (((b₀.toNat - 0xe0) * 64 + (b₁.toNat - 0x80)) * 64 + (b₂.toNat - 0x80))) = [b₀, b₁, b₂] := by
  have low : 0x80 ≤ b₁.toNat ∧ (b₀.toNat = 0xe0 → 0xa0 ≤ b₁.toNat) := by
    split at least₁ <;> omega
  have high : b₁.toNat ≤ 0xbf ∧ (b₀.toNat = 0xed → b₁.toNat ≤ 0x9f) := by
    split at most₁ <;> omega
  clear least₁ most₁
  have value := toNat_val_ofNat
    (n := ((b₀.toNat - 0xe0) * 64 + (b₁.toNat - 0x80)) * 64 + (b₂.toNat - 0x80)) (by omega)
  rw [String.utf8EncodeChar, value, if_neg (by omega), if_neg (by omega), if_pos (by omega),
    ofNat_eq (b := b₀) (by omega), ofNat_eq (b := b₁) (by omega), ofNat_eq (b := b₂) (by omega)]

lemma utf8EncodeChar_four {b₀ b₁ b₂ b₃ : UInt8} (least : 0xf0 ≤ b₀.toNat) (below : b₀.toNat < 0xf5)
    (least₁ : (if b₀.toNat = 0xf0 then 0x90 else 0x80) ≤ b₁.toNat)
    (most₁ : b₁.toNat ≤ if b₀.toNat = 0xf4 then 0x8f else 0xbf)
    (least₂ : 0x80 ≤ b₂.toNat) (most₂ : b₂.toNat ≤ 0xbf)
    (least₃ : 0x80 ≤ b₃.toNat) (most₃ : b₃.toNat ≤ 0xbf) :
    String.utf8EncodeChar (Char.ofNat
      ((((b₀.toNat - 0xf0) * 64 + (b₁.toNat - 0x80)) * 64 + (b₂.toNat - 0x80)) * 64 +
        (b₃.toNat - 0x80))) = [b₀, b₁, b₂, b₃] := by
  have low : 0x80 ≤ b₁.toNat ∧ (b₀.toNat = 0xf0 → 0x90 ≤ b₁.toNat) := by
    split at least₁ <;> omega
  have high : b₁.toNat ≤ 0xbf ∧ (b₀.toNat = 0xf4 → b₁.toNat ≤ 0x8f) := by
    split at most₁ <;> omega
  clear least₁ most₁
  have value := toNat_val_ofNat (n := (((b₀.toNat - 0xf0) * 64 + (b₁.toNat - 0x80)) * 64 +
    (b₂.toNat - 0x80)) * 64 + (b₃.toNat - 0x80)) (by omega)
  rw [String.utf8EncodeChar, value, if_neg (by omega), if_neg (by omega), if_neg (by omega),
    ofNat_eq (b := b₀) (by omega), ofNat_eq (b := b₁) (by omega), ofNat_eq (b := b₂) (by omega),
    ofNat_eq (b := b₃) (by omega)]

/-- Bytes that are read begin with those of the first character that they are read as. -/
lemma exists_first (read : decodeFrom false .between (b :: bs) = some cs) :
    ∃ c more rest, cs = c :: more ∧ b :: bs = String.utf8EncodeChar c ++ rest ∧
      decodeFrom false .between rest = some more := by
  have byte : b.toNat < 256 := b.toNat_lt
  by_cases one : b.toNat < 0x80
  · have leads : lead? b.toNat = some ⟨0, 0x80, 0xbf, b.toNat⟩ := by rw [lead?, if_pos one]
    simp only [decodeFrom, openSequence, leads, Option.map_eq_some_iff] at read
    obtain ⟨more, read, rfl⟩ := read
    have value := toNat_val_ofNat (n := b.toNat) (by omega)
    refine ⟨_, more, bs, rfl, ?_, read⟩
    rw [String.utf8EncodeChar, value, if_pos (by omega), UInt8.ofNat_toNat, List.singleton_append]
  · by_cases stray : b.toNat < 0xc2
    · have leads : lead? b.toNat = none := by rw [lead?, if_neg one, if_pos stray]
      simp [decodeFrom, openSequence, leads] at read
    · by_cases two : b.toNat < 0xe0
      · rw [decodeFrom_first (lead?_two (by omega) two)] at read
        obtain ⟨b₁, rest, more, rfl, least, most, rfl, others⟩ := exists_last read
        refine ⟨_, more, rest, rfl, ?_, others⟩
        rw [utf8EncodeChar_two (by omega) two least most]
        rfl
      · by_cases three : b.toNat < 0xf0
        · rw [decodeFrom_first (lead?_three (by omega) three)] at read
          obtain ⟨b₁, rest, rfl, least₁, most₁, read⟩ := exists_next read
          obtain ⟨b₂, rest, more, rfl, least₂, most₂, rfl, others⟩ := exists_last read
          refine ⟨_, more, rest, rfl, ?_, others⟩
          rw [utf8EncodeChar_three (by omega) three least₁ most₁ least₂ most₂]
          rfl
        · by_cases four : b.toNat < 0xf5
          · rw [decodeFrom_first (lead?_four (by omega) four)] at read
            obtain ⟨b₁, rest, rfl, least₁, most₁, read⟩ := exists_next read
            obtain ⟨b₂, rest, rfl, least₂, most₂, read⟩ := exists_next read
            obtain ⟨b₃, rest, more, rfl, least₃, most₃, rfl, others⟩ := exists_last read
            refine ⟨_, more, rest, rfl, ?_, others⟩
            rw [utf8EncodeChar_four (by omega) four least₁ most₁ least₂ most₂ least₃ most₃]
            rfl
          · have leads : lead? b.toNat = none := by
              simp only [lead?, beq_iff_eq]
              repeat rw [if_neg (by omega)]
            simp [decodeFrom, openSequence, leads] at read

/-- Bytes that are read are those of the characters that they are read as. -/
lemma flatMap_of_decodeFrom (read : decodeFrom false .between bs = some cs) :
    cs.flatMap String.utf8EncodeChar = bs := by
  induction cs generalizing bs with
  | nil =>
    cases bs with
    | nil => rfl
    | cons b bs =>
      obtain ⟨_, _, _, ⟨⟩, -⟩ := exists_first read
  | cons c cs ih =>
    cases bs with
    | nil => cases read
    | cons b bs =>
      obtain ⟨_, _, rest, ⟨⟩, front, read⟩ := exists_first read
      rw [List.flatMap_cons, ih read, front]

end

/-- Bytes are read as a text exactly if they are the bytes of that text. -/
theorem decode?_iff {bytes : List UInt8} {s : String} :
    decode? bytes = some s ↔ encode s = bytes := by
  rw [decode?, encode_eq, Option.map_eq_some_iff]
  constructor
  · rintro ⟨cs, read, rfl⟩
    rw [String.toList_ofList, flatMap_of_decodeFrom read]
  · rintro rfl
    exact ⟨s.toList, decodeFrom_flatMap _, String.ofList_toList⟩

end Multipass.Text
