/-
Winnow/Proofs/Yaml/Undecodable.lean

Files that are no text.

What has been read of a file are whole characters, and what is left open stands in front
of the bytes that have not been taken (`Intake.Covers`).  The end of a file shows only where
nothing is open.  So a file whose bytes are not those of a text never comes to an end: as
long as there is no fault, as many characters are read as are wanted, and what is left
gets less by as many (`Covers.read`).

Main results: the supply of such a file ends with a fault (`ending_ofBytes`), and if the file
is no longer than one piece it is nothing but this fault (`exists_ofBytes`).
-/
import Winnow.Proofs.Text.Decoding
import Winnow.Yaml.Supply

namespace Winnow

/-! ### Pieces -/

namespace Text

theorem length_unifyLineEnds_le (cs : List Char) : (unifyLineEnds cs).length ≤ cs.length := by
  fun_induction unifyLineEnds cs with
  | case1 cs ih =>
    simp only [List.length_cons]
    omega
  | case2 cs _ ih => exact Nat.succ_le_succ ih
  | case3 c cs _ _ ih => exact Nat.succ_le_succ ih
  | case4 => exact Nat.le_refl 0

namespace Intake

variable {i j : Intake} {wanted : Nat} {bytes total : List UInt8} {cs : List Char}
  {isLast goesOn : Bool}

/-- Settling makes no characters, where a carriage return that is held back counts as one. -/
theorem length_settle_le (holdsReturn isLast : Bool) (cs : List Char) :
    (settle holdsReturn isLast cs).1.length + (settle holdsReturn isLast cs).2.toNat
      ≤ cs.length + holdsReturn.toNat := by
  unfold settle
  generalize hds : (if holdsReturn && (isLast || !cs.isEmpty) then '\r' :: cs else cs) = ds
  have hlength : ds.length + (holdsReturn && ds.isEmpty).toNat
      ≤ cs.length + holdsReturn.toNat := by
    subst hds
    cases holdsReturn <;> cases isLast <;> cases cs <;> simp
  dsimp only
  split
  · rename_i hreturn
    have hlast := beq_iff_eq.mp (Bool.and_eq_true_iff.mp hreturn).2
    have hpos : 0 < ds.length := List.length_pos_iff.mpr fun hnil => by
      rw [hnil] at hlast
      cases hlast
    have hunified := length_unifyLineEnds_le ds.dropLast
    rw [List.length_dropLast] at hunified
    show (unifyLineEnds ds.dropLast).length + 1 ≤ _
    omega
  · have hunified := length_unifyLineEnds_le ds
    show (unifyLineEnds ds).length + (holdsReturn && ds.isEmpty).toNat ≤ _
    omega

/-- At most how many characters a file still has. -/
def room (i : Intake) : Nat :=
  i.ready.length + i.holdsReturn.toNat + i.carried.length + i.bytes.length

/-- Whether characters, what is left open and what has not been taken are the bytes of a file. -/
def Covers (i : Intake) (total : List UInt8) : Prop :=
  ∃ cs, charBytes cs ++ (i.carried ++ i.bytes) = total

theorem covers_start (bytes : List UInt8) : (start bytes).Covers bytes := ⟨[], rfl⟩

/-- A file of which nothing is left is a text. -/
theorem Covers.isText (h : i.Covers total) (hcarried : i.carried = []) (hbytes : i.bytes = []) :
    IsText total := by
  obtain ⟨cs, hcs⟩ := h
  rw [hcarried, hbytes, List.append_nil] at hcs
  exact isText_iff.mpr ⟨cs, (List.append_nil _).symm.trans hcs⟩

theorem pieceSize_pos (i : Intake) (wanted : Nat) : 0 < i.pieceSize wanted :=
  Nat.lt_of_lt_of_le (by decide) (Nat.le_max_left _ _)

/-- **A piece that is taken** holds its characters and what is left open.  Nothing is
open behind the last one, which is empty. -/
theorem takePiece_eq_ok (h : i.takePiece wanted = .ok (goesOn, j)) :
    ∃ cs, charBytes cs ++ j.carried = i.carried ++ i.bytes.take (i.pieceSize wanted) ∧
      j.bytes = i.bytes.drop (i.pieceSize wanted) ∧
      j.ready.length + j.holdsReturn.toNat ≤ cs.length + i.holdsReturn.toNat ∧
      (i.bytes = [] → j.carried = []) ∧ (i.bytes ≠ [] → goesOn = true) := by
  have hempty : i.bytes.take (i.pieceSize wanted) = [] ↔ i.bytes = [] := by
    rw [List.take_eq_nil_iff]
    exact or_iff_right (Nat.pos_iff_ne_zero.mp (i.pieceSize_pos wanted))
  obtain ⟨⟨cs, left⟩, hpiece, h⟩ := except_bind_eq_ok_iff.mp h
  have hbytes := bytes_of_decodePiece hpiece
  dsimp only at h
  split at h
  · -- only behind the end of the file is a piece empty; then nothing may be left open
    rename_i hlast
    obtain ⟨⟨⟩, hend, h⟩ := except_bind_eq_ok_iff.mp h
    cases h
    refine ⟨cs, hbytes, rfl, length_settle_le _ _ cs, fun _ => eq_nil_of_checkEnd hend, ?_⟩
    exact fun hne => absurd (hempty.mp (List.isEmpty_iff.mp hlast)) hne
  · rename_i hmore
    cases h
    refine ⟨cs, hbytes, rfl, length_settle_le _ _ cs, fun hnil => ?_, fun _ => ?_⟩
    · exact absurd (List.isEmpty_iff.mpr (hempty.mpr hnil)) hmore
    · rw [Bool.eq_false_iff.mpr hmore]
      rfl

/-- Of a file that is no text there is always another piece, if there is no fault. -/
theorem Covers.takePiece (h : i.Covers total) (htext : ¬ IsText total)
    (hpiece : i.takePiece wanted = .ok (goesOn, j)) :
    goesOn = true ∧ j.Covers total ∧ j.bytes.length < i.bytes.length ∧
      j.room + i.ready.length ≤ i.room := by
  obtain ⟨cs, hcs, hrest, hready, hlast, hmore⟩ := takePiece_eq_ok hpiece
  obtain ⟨before, hbefore⟩ := h
  have hcovers : j.Covers total := by
    refine ⟨before ++ cs, ?_⟩
    rw [charBytes_append, hrest, List.append_assoc, ← List.append_assoc (charBytes cs), hcs,
      List.append_assoc, List.take_append_drop]
    exact hbefore
  have hne : i.bytes ≠ [] := fun hnil => by
    refine htext (hcovers.isText (hlast hnil) ?_)
    rw [hrest, hnil, List.drop_nil]
  have hpos := List.length_pos_iff.mpr hne
  have hsize := i.pieceSize_pos wanted
  have hchars := length_le_charBytes cs
  have hlength := congrArg List.length hcs
  rw [List.length_append, List.length_append, List.length_take] at hlength
  unfold room
  rw [hrest, List.length_drop]
  refine ⟨hmore hne, hcovers, ?_, ?_⟩ <;> omega

/-- **Reading a file that is no text** comes to a fault, or gives as many characters as are
wanted. -/
theorem Covers.readWithin {fuel : Nat} (h : i.Covers total) (htext : ¬ IsText total)
    (hfuel : i.bytes.length < fuel) (wanted : Nat) :
    (∃ fault, i.readWithin fuel wanted = .error fault) ∨
      ∃ cs j, i.readWithin fuel wanted = .ok (cs, j) ∧ cs.length = wanted ∧ j.Covers total ∧
        j.bytes.length ≤ i.bytes.length ∧ j.room + wanted ≤ i.room := by
  induction fuel generalizing i wanted with
  | zero => exact absurd hfuel (Nat.not_lt_zero _)
  | succ fuel ih =>
    rw [Intake.readWithin]
    dsimp only
    have hready : i.room = i.ready.length + i.holdsReturn.toNat + i.carried.length
      + i.bytes.length := rfl
    by_cases hwanted : wanted ≤ i.ready.length
    · rw [List.length_take_of_le hwanted, Nat.sub_self, if_pos rfl]
      refine .inr ⟨_, _, rfl, List.length_take_of_le hwanted, h, Nat.le_refl _, ?_⟩
      show (i.ready.drop wanted).length + i.holdsReturn.toNat + i.carried.length
        + i.bytes.length + wanted ≤ _
      rw [List.length_drop]
      omega
    · -- all characters that are there are read, and the others are wanted of the next piece
      have hall : i.ready.take wanted = i.ready := List.take_of_length_le (by omega)
      have hmissing : wanted - i.ready.length ≠ 0 := by omega
      rw [hall, if_neg hmissing, List.drop_eq_nil_of_le (by omega)]
      cases hpiece : Intake.takePiece { i with ready := [] } (wanted - i.ready.length) with
      | error fault => exact .inl ⟨fault, rfl⟩
      | ok found =>
        obtain ⟨goesOn, next⟩ := found
        have hrest : Covers { i with ready := [] } total := h
        obtain ⟨rfl, hnext, hbytes, hroom⟩ := hrest.takePiece htext hpiece
        change next.bytes.length < i.bytes.length at hbytes
        change next.room + 0 ≤ 0 + i.holdsReturn.toNat + i.carried.length + i.bytes.length at hroom
        change (∃ fault, (next.readWithin fuel (wanted - i.ready.length) >>= _) = .error fault) ∨
          ∃ cs j, (next.readWithin fuel (wanted - i.ready.length) >>= _) = .ok (cs, j) ∧ _
        obtain ⟨fault, hread⟩ | ⟨cs, j, hread, hcs, hj, hjbytes, hjroom⟩ :=
          ih hnext (Nat.lt_of_lt_of_le hbytes (Nat.le_of_lt_succ hfuel)) (wanted - i.ready.length)
        · rw [hread]
          exact .inl ⟨fault, rfl⟩
        · rw [hread]
          refine .inr ⟨i.ready ++ cs, j, rfl, ?_, hj, by omega, by omega⟩
          rw [List.length_append, hcs]
          omega

theorem Covers.read (h : i.Covers total) (htext : ¬ IsText total) (wanted : Nat) :
    (∃ fault, i.read wanted = .error fault) ∨
      ∃ cs j, i.read wanted = .ok (cs, j) ∧ cs.length = wanted ∧ j.Covers total ∧
        j.room + wanted ≤ i.room := by
  obtain hfault | ⟨cs, j, hread, hcs, hj, -, hroom⟩ :=
    h.readWithin htext (Nat.lt_add_of_pos_right (Nat.succ_pos 1)) wanted
  · exact .inl hfault
  · exact .inr ⟨cs, j, hread, hcs, hj, hroom⟩

/-- Something is always left of a file that is no text. -/
theorem Covers.room_pos (h : i.Covers total) (htext : ¬ IsText total) : 0 < i.room := by
  refine Nat.pos_of_ne_zero fun hroom => htext (h.isText ?_ ?_) <;>
    refine List.eq_nil_iff_length_eq_zero.mpr ?_ <;>
    · unfold room at hroom
      omega

end Intake

end Text

namespace Yaml.Supply

open Text (IsText Intake)

variable {bytes : List UInt8} {i : Intake}

/-! ### Loads -/

theorem ending_behind {cs : List Char} {x : Supply} (h : x.ending.isSome) :
    (x.behind cs).ending.isSome := by
  unfold behind
  split
  · exact h
  · rfl

theorem ending_loads (h : i.Covers bytes) (htext : ¬ IsText bytes) {fuel : Nat}
    (hfuel : i.room ≤ fuel) : (loads fuel i).ending.isSome := by
  induction fuel generalizing i with
  | zero => exact absurd (h.room_pos htext) (Nat.not_lt.mpr hfuel)
  | succ fuel ih =>
    rw [loads]
    obtain ⟨fault, hread⟩ | ⟨cs, j, hread, hcs, hj, hroom⟩ := h.read htext loadSize
    · rw [hread]
      rfl
    · rw [hread]
      cases cs with
      | nil => cases hcs
      | cons c cs =>
        refine ending_behind (ih hj ?_)
        change j.room + 4096 ≤ i.room at hroom
        omega

/-- The first load of a file that is no text comes to a fault, or gives two times as many
characters as are read at once. -/
theorem firstLoad_cases (htext : ¬ IsText bytes) :
    (∃ fault, firstLoad (bytes.length + 1) [] (.start bytes) = .error fault) ∨
      ∃ cs j, firstLoad (bytes.length + 1) [] (.start bytes) = .ok (cs, j) ∧ j.Covers bytes ∧
        j.room + 2 * loadSize ≤ bytes.length := by
  have hstart := Intake.covers_start bytes
  have hroom : (Intake.start bytes).room = bytes.length := Nat.zero_add _
  have hfuel : bytes.length = bytes.length - 1 + 1 := by
    have hpos := hstart.room_pos htext
    omega
  rw [firstLoad]
  obtain ⟨fault, hread⟩ | ⟨cs, i, hread, hcs, hi, hiroom⟩ := hstart.read htext loadSize
  · rw [hread]
    exact .inl ⟨fault, rfl⟩
  · have htwo : 2 ≤ cs.length := hcs ▸ (by decide)
    have hmore : ¬ (cs.isEmpty || decide (2 ≤ 0)) = true := by
      cases cs with
      | nil => cases hcs
      | cons c cs => exact Bool.false_ne_true
    rw [hread]
    change (∃ fault, (if (cs.isEmpty || decide (2 ≤ 0)) = true then _
        else firstLoad bytes.length cs i) = .error fault) ∨
      ∃ ds j, (if (cs.isEmpty || decide (2 ≤ 0)) = true then _
        else firstLoad bytes.length cs i) = .ok (ds, j) ∧ _
    rw [if_neg hmore, hfuel, firstLoad]
    -- the second reading is the last one, since there are more than two characters
    obtain ⟨fault, hnext⟩ | ⟨ds, j, hnext, -, hj, hjroom⟩ := hi.read htext loadSize
    · rw [hnext]
      exact .inl ⟨fault, rfl⟩
    · rw [hnext]
      refine .inr ⟨cs ++ ds, j, if_pos ?_, hj, by omega⟩
      rw [decide_eq_true htwo, Bool.or_true]

/-- **A file that is no text** ends with a fault. -/
theorem ending_ofBytes (htext : ¬ IsText bytes) : (ofBytes bytes).ending.isSome := by
  unfold ofBytes
  obtain ⟨fault, hload⟩ | ⟨cs, j, hload, hj, hroom⟩ := firstLoad_cases htext
  · rw [hload]
    rfl
  · rw [hload]
    exact ending_behind (ending_loads hj htext (by omega))

/-- **Nothing is read** of a file of one piece that is no text. -/
theorem exists_ofBytes (hbytes : bytes.length ≤ Intake.leastPiece) (htext : ¬ IsText bytes) :
    ∃ fault, ofBytes bytes = failed (.notText fault) := by
  unfold ofBytes
  obtain ⟨fault, hload⟩ | ⟨cs, j, hload, hj, hroom⟩ := firstLoad_cases htext
  · rw [hload]
    exact ⟨fault, rfl⟩
  · -- the first load would be the whole file
    have hpos := hj.room_pos htext
    change j.room + 8192 ≤ bytes.length at hroom
    change bytes.length ≤ 8192 at hbytes
    omega

end Yaml.Supply

end Winnow
