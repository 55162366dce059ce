/-
Winnow/Proofs/Text/Decoding.lean

Characters and their bytes.

The bytes that a character takes up are those that stand for it, and the bytes that
stand for a character are read as this one (`bytes_of_charAt`, `charAt_of_encode`).  So the
bytes of a piece are those of its characters, and behind them what is left open
(`bytes_of_decodePiece`).

Main result: bytes are read to their end as characters exactly if they are the bytes of these
characters (`decode_eq_ok_iff`); hence it can be decided whether bytes are those of a text
(`IsText`).
-/
import Winnow.Proofs.Outcome
import Winnow.Text.Utf8

namespace Winnow.Text

variable {b : UInt8} {bytes rest left : List UInt8} {c : Char} {cs : List Char}
  {code read count more least most : Nat}

/-! ### The bytes of texts -/

/-- The bytes of characters. -/
def charBytes (cs : List Char) : List UInt8 := cs.flatMap String.utf8EncodeChar

theorem charBytes_cons (c : Char) (cs : List Char) :
    charBytes (c :: cs) = String.utf8EncodeChar c ++ charBytes cs := List.flatMap_cons

theorem charBytes_append (cs ds : List Char) :
    charBytes (cs ++ ds) = charBytes cs ++ charBytes ds := List.flatMap_append

/-- Every character takes up a byte at least. -/
theorem length_le_charBytes (cs : List Char) : cs.length ≤ (charBytes cs).length := by
  induction cs with
  | nil => exact Nat.le_refl 0
  | cons c cs ih =>
    have hc : 0 < (String.utf8EncodeChar c).length := by
      rw [String.length_utf8EncodeChar]
      exact c.utf8Size_pos
    rw [charBytes_cons, List.length_append, List.length_cons]
    omega

theorem toList_loop {bytes : ByteArray} {i n : Nat} (hn : i + n = bytes.size)
    (front : List UInt8) :
    ByteArray.toList.loop bytes i front = front.reverse ++ bytes.data.toList.drop i := by
  induction n generalizing i front with
  | zero =>
    have hi : bytes.size ≤ i := Nat.le_of_eq hn.symm
    rw [ByteArray.toList.loop, if_neg (Nat.not_lt.mpr hi), List.drop_eq_nil_of_le hi,
      List.append_nil]
  | succ n ih =>
    have hlt : i < bytes.size := by omega
    have hi : i < bytes.data.toList.length := hlt
    have hfirst : bytes.get! i = bytes.data.toList[i] := getElem!_pos bytes.data i hlt
    rw [ByteArray.toList.loop, if_pos hlt, ih (by omega), List.reverse_cons, hfirst,
      List.append_assoc, List.singleton_append, ← List.drop_eq_getElem_cons]

theorem textBytes_eq (s : String) : textBytes s = charBytes s.toList := by
  have hs : s.toByteArray = s.toList.utf8Encode := by
    rw [← String.toByteArray_ofList, String.ofList_toList]
  show s.toByteArray.toList = _
  rw [ByteArray.toList, toList_loop (Nat.zero_add _), hs]
  exact List.toList_data_toByteArray

/-- Whether bytes are those of a text. -/
def IsText (bytes : List UInt8) : Prop := ∃ s : String, textBytes s = bytes

theorem isText_iff : IsText bytes ↔ ∃ cs, charBytes cs = bytes := by
  constructor
  · rintro ⟨s, rfl⟩
    exact ⟨s.toList, (textBytes_eq s).symm⟩
  · rintro ⟨cs, rfl⟩
    refine ⟨.ofList cs, ?_⟩
    rw [textBytes_eq, String.toList_ofList]

/-! ### The bytes of one character -/

theorem utf8EncodeChar_eq (c : Char) :
    String.utf8EncodeChar c
      = if c.toNat ≤ 127 then [UInt8.ofNat c.toNat]
        else if c.toNat ≤ 2047 then
          [UInt8.ofNat (c.toNat / 64 % 32 + 192), UInt8.ofNat (c.toNat % 64 + 128)]
        else if c.toNat ≤ 65535 then
          [UInt8.ofNat (c.toNat / 4096 % 16 + 224), UInt8.ofNat (c.toNat / 64 % 64 + 128),
            UInt8.ofNat (c.toNat % 64 + 128)]
        else
          [UInt8.ofNat (c.toNat / 262144 % 8 + 240), UInt8.ofNat (c.toNat / 4096 % 64 + 128),
            UInt8.ofNat (c.toNat / 64 % 64 + 128), UInt8.ofNat (c.toNat % 64 + 128)] := rfl

theorem toNat_charOfNat {v : Nat} (hv : v.isValidChar) : (Char.ofNat v).toNat = v := by
  rw [Char.ofNat, dif_pos hv]
  rfl

theorem toNat_byte {v : Nat} (hv : v < 256) : (UInt8.ofNat v).toNat = v :=
  UInt8.toNat_ofNat_of_lt' hv

theorem byte_eq {v : Nat} (h : v = b.toNat) : UInt8.ofNat v = b := by
  rw [h, UInt8.ofNat_toNat]

/-- The kinds of first bytes, by the number of bytes that follow. -/
theorem Lead.ofByte?_eq_some_iff {lead : Lead} :
    ofByte? b = some lead ↔
      (b.toNat < 0x80 ∧ lead = ⟨0, 0, 0, b.toNat⟩) ∨
      (0xC2 ≤ b.toNat ∧ b.toNat < 0xE0 ∧ lead = ⟨1, 0x80, 0xBF, b.toNat - 0xC0⟩) ∨
      (0xE0 ≤ b.toNat ∧ b.toNat < 0xF0 ∧ lead = ⟨2, if b.toNat = 0xE0 then 0xA0 else 0x80,
        if b.toNat = 0xED then 0x9F else 0xBF, b.toNat - 0xE0⟩) ∨
      (0xF0 ≤ b.toNat ∧ b.toNat < 0xF5 ∧ lead = ⟨3, if b.toNat = 0xF0 then 0x90 else 0x80,
        if b.toNat = 0xF4 then 0x8F else 0xBF, b.toNat - 0xF0⟩) := by
  obtain ⟨more, least, most, high⟩ := lead
  unfold ofByte?
  dsimp only
  repeat' split
  all_goals
    simp only [Option.some.injEq, reduceCtorEq, false_iff, Lead.mk.injEq]
    omega

theorem continueChar_zero :
    continueChar code read 0 least most bytes = .char c count ↔
      Char.ofNat code = c ∧ read = count := by
  rw [continueChar, Utf8Step.char.injEq]

theorem continueChar_cons (hleast : least ≤ b.toNat) (hmost : b.toNat ≤ most) :
    continueChar code read (more + 1) least most (b :: rest)
      = continueChar (64 * code + b.toNat % 64) (read + 1) more 0x80 0xBF rest := by
  rw [continueChar, decide_eq_true hleast, decide_eq_true hmost, Bool.and_self, if_pos rfl]

theorem exists_of_continueChar
    (h : continueChar code read (more + 1) least most bytes = .char c count) :
    ∃ b rest, bytes = b :: rest ∧ least ≤ b.toNat ∧ b.toNat ≤ most ∧
      continueChar (64 * code + b.toNat % 64) (read + 1) more 0x80 0xBF rest = .char c count := by
  cases bytes with
  | nil => cases h
  | cons b rest =>
    rw [continueChar] at h
    split at h
    · rename_i hrange
      obtain ⟨hleast, hmost⟩ := Bool.and_eq_true_iff.mp hrange
      exact ⟨b, rest, rfl, of_decide_eq_true hleast, of_decide_eq_true hmost, h⟩
    · cases h

/-- **A character that is read** takes up the bytes that stand for it. -/
theorem bytes_of_charAt (h : charAt b rest = .char c count) :
    String.utf8EncodeChar c ++ rest.drop (count - 1) = b :: rest := by
  unfold charAt at h
  split at h
  · cases h
  · rename_i lead hlead
    -- by the number of bytes that follow; the code has six more bits for each of them
    obtain ⟨hb, rfl⟩ | ⟨hlow, hhigh, rfl⟩ | ⟨hlow, hhigh, rfl⟩ | ⟨hlow, hhigh, rfl⟩ :=
      Lead.ofByte?_eq_some_iff.mp hlead
    · obtain ⟨rfl, rfl⟩ := continueChar_zero.mp h
      have hvalid : b.toNat.isValidChar := .inl (by omega)
      rw [utf8EncodeChar_eq, toNat_charOfNat hvalid, if_pos (by omega), byte_eq rfl]
      rfl
    · obtain ⟨b₁, rest, rfl, hlow₁, hhigh₁, h⟩ := exists_of_continueChar h
      obtain ⟨rfl, rfl⟩ := continueChar_zero.mp h
      dsimp only at hlow₁ hhigh₁
      have hvalid : (64 * (b.toNat - 0xC0) + b₁.toNat % 64).isValidChar := .inl (by omega)
      rw [utf8EncodeChar_eq, toNat_charOfNat hvalid, if_neg (by omega), if_pos (by omega),
        byte_eq (b := b) (by omega), byte_eq (b := b₁) (by omega)]
      rfl
    · obtain ⟨b₁, rest, rfl, hlow₁, hhigh₁, h⟩ := exists_of_continueChar h
      obtain ⟨b₂, rest, rfl, hlow₂, hhigh₂, h⟩ := exists_of_continueChar h
      obtain ⟨rfl, rfl⟩ := continueChar_zero.mp h
      dsimp only at hlow₁ hhigh₁
      obtain ⟨hrange, hlong, hvalid⟩ : (0x80 ≤ b₁.toNat ∧ b₁.toNat ≤ 0xBF) ∧
          0x800 ≤ 64 * (64 * (b.toNat - 0xE0) + b₁.toNat % 64) + b₂.toNat % 64 ∧
          (64 * (64 * (b.toNat - 0xE0) + b₁.toNat % 64) + b₂.toNat % 64).isValidChar := by
        unfold Nat.isValidChar
        split at hlow₁ <;> split at hhigh₁ <;> omega
      rw [utf8EncodeChar_eq, toNat_charOfNat hvalid, if_neg (by omega), if_neg (by omega),
        if_pos (by omega), byte_eq (b := b) (by omega), byte_eq (b := b₁) (by omega),
        byte_eq (b := b₂) (by omega)]
      rfl
    · obtain ⟨b₁, rest, rfl, hlow₁, hhigh₁, h⟩ := exists_of_continueChar h
      obtain ⟨b₂, rest, rfl, hlow₂, hhigh₂, h⟩ := exists_of_continueChar h
      obtain ⟨b₃, rest, rfl, hlow₃, hhigh₃, h⟩ := exists_of_continueChar h
      obtain ⟨rfl, rfl⟩ := continueChar_zero.mp h
      dsimp only at hlow₁ hhigh₁
      obtain ⟨hrange, hlong, hvalid⟩ : (0x80 ≤ b₁.toNat ∧ b₁.toNat ≤ 0xBF) ∧
          0x10000 ≤ 64 * (64 * (64 * (b.toNat - 0xF0) + b₁.toNat % 64) + b₂.toNat % 64)
            + b₃.toNat % 64 ∧
          (64 * (64 * (64 * (b.toNat - 0xF0) + b₁.toNat % 64) + b₂.toNat % 64)
            + b₃.toNat % 64).isValidChar := by
        unfold Nat.isValidChar
        split at hlow₁ <;> split at hhigh₁ <;> omega
      rw [utf8EncodeChar_eq, toNat_charOfNat hvalid, if_neg (by omega), if_neg (by omega),
        if_neg (by omega), byte_eq (b := b) (by omega), byte_eq (b := b₁) (by omega),
        byte_eq (b := b₂) (by omega), byte_eq (b := b₃) (by omega)]
      rfl

theorem continueChar_toNat (hcode : code = c.toNat) :
    continueChar code read 0 least most bytes = .char c read := by
  rw [continueChar, hcode, Char.ofNat_toNat]

/-- **The bytes of a character** are read as this character. -/
theorem charAt_of_encode (h : String.utf8EncodeChar c = b :: rest) (behind : List UInt8) :
    charAt b (rest ++ behind) = .char c (rest.length + 1) := by
  have hvalid : c.toNat < 0xD800 ∨ 0xDFFF < c.toNat ∧ c.toNat < 0x110000 := c.valid
  rw [utf8EncodeChar_eq] at h
  unfold charAt
  -- the number of bytes decides the kind of the first one; the least and the most second byte
  -- are what the bounds of the code leave for it
  split at h
  · cases h
    have hb := toNat_byte (v := c.toNat) (by omega)
    rw [Lead.ofByte?_eq_some_iff.mpr (.inl ⟨by omega, rfl⟩)]
    exact continueChar_toNat hb
  · split at h
    · cases h
      have hb := toNat_byte (v := c.toNat / 64 % 32 + 192) (by omega)
      have hb₁ := toNat_byte (v := c.toNat % 64 + 128) (by omega)
      rw [Lead.ofByte?_eq_some_iff.mpr (.inr (.inl ⟨by omega, by omega, rfl⟩))]
      dsimp only [List.cons_append]
      rw [continueChar_cons (by omega) (by omega)]
      exact continueChar_toNat (by omega)
    · split at h
      · cases h
        have hb := toNat_byte (v := c.toNat / 4096 % 16 + 224) (by omega)
        have hb₁ := toNat_byte (v := c.toNat / 64 % 64 + 128) (by omega)
        have hb₂ := toNat_byte (v := c.toNat % 64 + 128) (by omega)
        rw [Lead.ofByte?_eq_some_iff.mpr (.inr (.inr (.inl ⟨by omega, by omega, rfl⟩)))]
        dsimp only [List.cons_append]
        rw [continueChar_cons (by split <;> omega) (by split <;> omega),
          continueChar_cons (by omega) (by omega)]
        exact continueChar_toNat (by omega)
      · cases h
        have hb := toNat_byte (v := c.toNat / 262144 % 8 + 240) (by omega)
        have hb₁ := toNat_byte (v := c.toNat / 4096 % 64 + 128) (by omega)
        have hb₂ := toNat_byte (v := c.toNat / 64 % 64 + 128) (by omega)
        have hb₃ := toNat_byte (v := c.toNat % 64 + 128) (by omega)
        rw [Lead.ofByte?_eq_some_iff.mpr (.inr (.inr (.inr ⟨by omega, by omega, rfl⟩)))]
        dsimp only [List.cons_append]
        rw [continueChar_cons (by split <;> omega) (by split <;> omega),
          continueChar_cons (by omega) (by omega), continueChar_cons (by omega) (by omega)]
        exact continueChar_toNat (by omega)

/-! ### Pieces -/

/-- **The bytes of a piece** are those of its characters and what is left open. -/
theorem bytes_of_decodePiece {isLast : Bool} {fuel position : Nat}
    (h : decodePiece isLast fuel position bytes = .ok (cs, left)) :
    charBytes cs ++ left = bytes := by
  induction fuel generalizing position bytes cs with
  | zero =>
    cases h
    rfl
  | succ fuel ih =>
    cases bytes with
    | nil =>
      cases h
      rfl
    | cons b rest =>
      rw [decodePiece] at h
      split at h
      · rename_i c count hchar
        obtain ⟨⟨ds, behind⟩, hrest, h⟩ := except_bind_eq_ok_iff.mp h
        cases h
        rw [charBytes_cons, List.append_assoc, ih hrest]
        exact bytes_of_charAt hchar
      · cases h
        rfl
      · split at h
        · cases h
          rfl
        · cases h

/-- The bytes of characters are read, and nothing is left. -/
theorem decodePiece_charBytes (isLast : Bool) {fuel : Nat}
    (hfuel : (charBytes cs).length ≤ fuel) (position : Nat) :
    decodePiece isLast fuel position (charBytes cs) = .ok (cs, []) := by
  induction cs generalizing fuel position with
  | nil => cases fuel <;> rfl
  | cons c cs ih =>
    obtain ⟨b, rest, hc⟩ : ∃ b rest, String.utf8EncodeChar c = b :: rest := by
      refine List.exists_cons_of_ne_nil fun hnil => ?_
      have hlength := String.length_utf8EncodeChar c
      rw [hnil] at hlength
      exact absurd hlength (Nat.ne_of_lt c.utf8Size_pos)
    rw [charBytes_cons, hc, List.cons_append] at hfuel ⊢
    cases fuel with
    | zero => cases hfuel
    | succ fuel =>
      -- a step takes the bytes of one character, one at least, so the fuel lasts for the others
      rw [List.length_cons, List.length_append] at hfuel
      have hdrop : (rest ++ charBytes cs).drop (rest.length + 1 - 1) = charBytes cs := by
        rw [Nat.add_sub_cancel, List.drop_left]
      rw [decodePiece, charAt_of_encode hc]
      dsimp only
      rw [hdrop, ih (by omega)]
      rfl

theorem eq_nil_of_checkEnd {position : Nat} (h : checkEnd position bytes = .ok ()) :
    bytes = [] := by
  cases bytes with
  | nil => rfl
  | cons b rest => cases h

/-- **Bytes are read as characters** exactly if they are the bytes of these characters. -/
theorem decode_eq_ok_iff : decode bytes = .ok cs ↔ charBytes cs = bytes := by
  constructor
  · intro h
    obtain ⟨⟨ds, left⟩, hpiece, h⟩ := except_bind_eq_ok_iff.mp h
    obtain ⟨⟨⟩, hend, h⟩ := except_bind_eq_ok_iff.mp h
    cases h
    have hbytes := bytes_of_decodePiece hpiece
    rwa [eq_nil_of_checkEnd hend, List.append_nil] at hbytes
  · rintro rfl
    rw [decode, decodePiece_charBytes true (Nat.le_refl _) 0]
    rfl

theorem isText_iff_isOk : IsText bytes ↔ (decode bytes).isOk = true := by
  rw [isText_iff]
  constructor
  · rintro ⟨cs, hcs⟩
    rw [decode_eq_ok_iff.mpr hcs]
    rfl
  · intro h
    cases hdecode : decode bytes with
    | error fault =>
      rw [hdecode] at h
      cases h
    | ok cs => exact ⟨cs, decode_eq_ok_iff.mp hdecode⟩

instance : DecidablePred IsText := fun _ => decidable_of_iff _ isText_iff_isOk.symm

example : ¬ IsText [0x61, 0x3A, 0x20, 0xFF, 0x0A] := by decide

end Winnow.Text
