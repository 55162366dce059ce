/-
Winnow/Proofs/Value/Keys.lean

Keys of all kinds.

A key is a scalar or a tuple of keys; a float in it is a number, for one that is none
carries a mark (`Value.isKey`).  Two keys are the same just if they have one face
(`sameKey_iff`): all numbers of one amount do, whatever their kinds, and all times at one
instant.  So being the same key is an equivalence of keys, and looking up entries does not
depend on which of several same keys is used.
-/
import Winnow.Proofs.Store.Entries
import Winnow.Proofs.Value.Numbers

namespace Winnow

/-! ### Faces -/

/-- What keys that are the same have in common. -/
inductive Face
  | number (a : Amount)
  /-- A time without an offset, or an instant in seconds and microseconds. -/
  | time (t : DateTime ⊕ Int × Nat)
  /-- A scalar that is the same key as no other. -/
  | scalar (s : Scalar)
  | row (faces : List Face)
  /-- No key. -/
  | none

/-- What a time has in common with the times that are the same. -/
def DateTime.instant (t : DateTime) : DateTime ⊕ Int × Nat :=
  match t.offset with
  | some offset => .inr (t.shownSeconds - offset, t.microsecond)
  | none => .inl t

theorem DateTime.same_iff (t u : DateTime) : t.same u = true ↔ t.instant = u.instant := by
  unfold DateTime.same DateTime.instant
  cases t.offset <;> cases u.offset <;> simp

namespace Scalar

/-- Whether a scalar is a key: a float that is no number has to have a mark. -/
def isKey : Scalar → Bool
  | float x => !x.isNaN
  | _ => true

/-- What a scalar has in common with the scalars that are the same key. -/
def face : Scalar → Face
  | float x => ((unpackedAmount? x.toModel.unpack).map Face.number).getD .none
  | time t => .time t.instant
  | a => match a.whole? with
    | some n => .number (.units (n * unitsOfOne))
    | none => .scalar a

/-- How a scalar that is a key is compared: as a whole number, as a float, or with scalars of
its own kind. -/
inductive Compares : Scalar → Prop
  | whole {a : Scalar} {n : Int} : a.whole? = some n →
      a.face = .number (.units (n * unitsOfOne)) → Compares a
  | float {x : Float} {n : Amount} : x.isNaN = false → unpackedAmount? x.toModel.unpack = some n →
      (float x).face = .number n → Compares (.float x)
  | own {a : Scalar} : a.whole? = none → (∀ x, a ≠ .float x) → (∀ n, a.face ≠ .number n) →
      Compares a

theorem compares {a : Scalar} (ha : a.isKey = true) : Compares a := by
  cases a with
  | truth b => exact .whole rfl rfl
  | integer n => exact .whole rfl rfl
  | level l => exact .whole rfl rfl
  | float x =>
    have hx : x.isNaN = false := by simpa [isKey] using ha
    obtain ⟨n, hn⟩ := exists_unpackedAmount hx
    exact .float hx hn (by rw [face, hn]; rfl)
  | _ => exact .own rfl nofun fun n => Face.noConfusion

/-- A scalar has not the face of a tuple. -/
theorem face_ne_row (a : Scalar) (faces : List Face) : a.face ≠ .row faces := by
  cases a with
  | float x =>
    rw [face]
    cases unpackedAmount? x.toModel.unpack <;> exact Face.noConfusion
  | _ => exact Face.noConfusion

variable {a b : Scalar} {m n : Int}

theorem same_of_whole (hm : a.whole? = some m) (hn : b.whole? = some n) :
    a.same b = (m == n) := by
  unfold same
  rw [hm, hn]

theorem same_float (hm : a.whole? = some m) (y : Float) : a.same (float y) = floatIsWhole y m := by
  unfold same
  rw [hm]
  rfl

theorem float_same (x : Float) (hn : b.whole? = some n) : (float x).same b = floatIsWhole x n := by
  unfold same
  rw [hn]
  rfl

/-- A number is the same key as numbers only. -/
theorem not_same_of_own (ha : a.whole? = none) (haFloat : ∀ x, a ≠ .float x)
    (hb : (∃ n, b.whole? = some n) ∨ ∃ y, b = .float y) :
    a.same b = false ∧ b.same a = false := by
  unfold same
  rw [ha]
  rcases hb with ⟨n, hn⟩ | ⟨y, rfl⟩
  · rw [hn]
    cases a <;> first | exact ⟨rfl, rfl⟩ | exact absurd rfl (haFloat _)
  · cases a <;> first | exact ⟨rfl, rfl⟩ | exact absurd rfl (haFloat _)

/-- Scalars that are no numbers are compared with scalars of their own kind. -/
theorem same_iff_of_own (ha : a.whole? = none) (hb : b.whole? = none)
    (haFloat : ∀ x, a ≠ .float x) (hbFloat : ∀ x, b ≠ .float x) :
    a.same b = true ↔ a.face = b.face := by
  cases a <;> cases b <;> simp_all [same, whole?, face, DateTime.same_iff]

/-- **Scalars are the same key** just if they have one face. -/
theorem same_iff (ha : a.isKey = true) (hb : b.isKey = true) :
    a.same b = true ↔ a.face = b.face := by
  cases compares ha with
  | @whole _ m hm hmFace =>
    rw [hmFace]
    cases compares hb with
    | whole hn hnFace =>
      rw [hnFace, same_of_whole hm hn, Face.number.injEq, Amount.units.injEq,
        Int.mul_eq_mul_right_iff unitsOfOne_ne_zero]
      exact beq_iff_eq
    | float hy hn hnFace =>
      rw [hnFace, same_float hm, floatIsWhole_iff hy, hn, Option.some.injEq, Face.number.injEq]
      exact eq_comm
    | own hb hbFloat hbFace =>
      refine iff_of_false ?_ (hbFace _).symm
      rw [(not_same_of_own hb hbFloat (.inl ⟨m, hm⟩)).2]
      exact Bool.false_ne_true
  | @float x n hx hn hnFace =>
    rw [hnFace]
    cases compares hb with
    | whole hm hmFace =>
      rw [hmFace, float_same x hm, floatIsWhole_iff hx, hn, Option.some.injEq, Face.number.injEq]
    | @float y m hy hm hmFace =>
      rw [hmFace, Face.number.injEq]
      exact float_beq_iff hn hm
    | own hb hbFloat hbFace =>
      refine iff_of_false ?_ (hbFace _).symm
      rw [(not_same_of_own hb hbFloat (.inr ⟨x, rfl⟩)).2]
      exact Bool.false_ne_true
  | own ha haFloat haFace =>
    cases compares hb with
    | whole hn hnFace =>
      rw [hnFace, (not_same_of_own ha haFloat (.inl ⟨_, hn⟩)).1]
      exact iff_of_false Bool.false_ne_true (haFace _)
    | float hx hn hnFace =>
      rw [hnFace, (not_same_of_own ha haFloat (.inr ⟨_, rfl⟩)).1]
      exact iff_of_false Bool.false_ne_true (haFace _)
    | own hb hbFloat _ => exact same_iff_of_own ha hb haFloat hbFloat

end Scalar

namespace Value

mutual
/-- Whether a value is a key. -/
def isKey : Value → Bool
  | scalar s => s.isKey
  | tuple items => areKeys items
  | _ => false

/-- Whether all values are keys. -/
def areKeys : List Value → Bool
  | [] => true
  | v :: rest => isKey v && areKeys rest
end

mutual
/-- What a key has in common with the keys that are the same. -/
def face : Value → Face
  | scalar s => s.face
  | tuple items => .row (faces items)
  | _ => .none

/-- What keys have in common with those that are the same, one by one. -/
def faces : List Value → List Face
  | [] => []
  | v :: rest => face v :: faces rest
end

theorem areKeys_cons {v : Value} {rest : List Value} :
    areKeys (v :: rest) = true ↔ v.isKey = true ∧ areKeys rest = true := by
  rw [areKeys, Bool.and_eq_true]

theorem areKeys_iff {values : List Value} :
    areKeys values = true ↔ ∀ v ∈ values, v.isKey = true := by
  induction values with
  | nil => exact iff_of_true rfl nofun
  | cons v rest ih => rw [areKeys_cons, ih, List.forall_mem_cons]

mutual
/-- **Two keys are the same** just if they have one face. -/
theorem sameKey_iff {k l : Value} (hk : k.isKey = true) (hl : l.isKey = true) :
    k.sameKey l = true ↔ k.face = l.face := by
  match k, l with
  | scalar a, scalar b => exact Scalar.same_iff hk hl
  | scalar a, tuple items =>
    exact iff_of_false Bool.false_ne_true (Scalar.face_ne_row a _)
  | tuple items, scalar a =>
    exact iff_of_false Bool.false_ne_true (Scalar.face_ne_row a _).symm
  | tuple items, tuple others =>
    rw [sameKey, sameKeys_iff hk hl, face, face, Face.row.injEq]

theorem sameKeys_iff {ks ls : List Value} (hks : areKeys ks = true) (hls : areKeys ls = true) :
    sameKeys ks ls = true ↔ faces ks = faces ls := by
  match ks, ls with
  | [], [] => exact iff_of_true rfl rfl
  | [], l :: ls => exact iff_of_false Bool.false_ne_true nofun
  | k :: ks, [] => exact iff_of_false Bool.false_ne_true nofun
  | k :: ks, l :: ls =>
    obtain ⟨hk, hks⟩ := areKeys_cons.mp hks
    obtain ⟨hl, hls⟩ := areKeys_cons.mp hls
    rw [sameKeys, Bool.and_eq_true, sameKey_iff hk hl, sameKeys_iff hks hls, faces, faces,
      List.cons.injEq]
end

variable {k l q : Value}

/-- A key is the same key as itself. -/
theorem sameKey_self (hk : k.isKey = true) : k.sameKey k = true := (sameKey_iff hk hk).mpr rfl

/-- Keys that are the same are the same as the same keys. -/
theorem sameKey_congr (hk : k.isKey = true) (hl : l.isKey = true) (hq : q.isKey = true)
    (h : k.sameKey l = true) : q.sameKey k = q.sameKey l := by
  rw [Bool.eq_iff_iff, sameKey_iff hq hk, sameKey_iff hq hl, (sameKey_iff hk hl).mp h]

theorem sameKey_comm (hk : k.isKey = true) (hl : l.isKey = true) : k.sameKey l = l.sameKey k := by
  rw [Bool.eq_iff_iff, sameKey_iff hk hl, sameKey_iff hl hk]
  exact eq_comm

end Value

/-! ### Entries -/

namespace Entries

variable {β : Type} {entries : List (Value × β)} {e : Value × β} {key q : Value} {b : β}

/-- What entries are under are keys. -/
def AreKeyed (entries : List (Value × β)) : Prop := ∀ e ∈ entries, e.1.isKey = true

theorem AreKeyed.head (h : AreKeyed (e :: entries)) : e.1.isKey = true := h e List.mem_cons_self

theorem AreKeyed.tail (h : AreKeyed (e :: entries)) : AreKeyed entries :=
  fun f hf => h f (List.mem_cons_of_mem _ hf)

theorem AreKeyed.insert (h : AreKeyed entries) (hkey : key.isKey = true) (b : β) :
    AreKeyed (insert key b entries) := by
  intro e he
  rcases key_mem_insert he with heq | ⟨f, hf, heq⟩
  · rw [heq]
    exact hkey
  · rw [← heq]
    exact h f hf

theorem find?_of_same (h : e.1.sameKey q = true) (rest : List (Value × β)) :
    find? q (e :: rest) = some e.2 := by
  rw [find?, if_pos h]

theorem find?_of_not_same (h : e.1.sameKey q = false) (rest : List (Value × β)) :
    find? q (e :: rest) = find? q rest := by
  rw [find?, if_neg (Bool.eq_false_iff.mp h)]

/-- Nothing is found where all keys are others. -/
theorem find?_eq_none_iff : find? q entries = none ↔ ∀ e ∈ entries, e.1.sameKey q = false := by
  induction entries with
  | nil => exact iff_of_true rfl nofun
  | cons e rest ih =>
    rw [List.forall_mem_cons, ← ih, find?]
    cases e.1.sameKey q with
    | true => exact iff_of_false (Option.some_ne_none e.2) fun h => absurd h.1 (by decide)
    | false => exact (and_iff_right rfl).symm

/-- Under another key there is something just if there was before. -/
theorem isNone_find?_insert (h : key.sameKey q = false) :
    (find? q (Entries.insert key b entries)).isNone = (find? q entries).isNone := by
  induction entries with
  | nil => rw [Entries.insert, find?_of_not_same h]
  | cons e rest ih =>
    rw [Entries.insert]
    split
    · rw [find?, find?]
      split <;> rfl
    · rw [find?, find?]
      split
      · rfl
      · exact ih

/-- The same is found under keys that are the same. -/
theorem AreKeyed.find?_congr (h : AreKeyed entries) (hkey : key.isKey = true)
    (hq : q.isKey = true) (hsame : key.sameKey q = true) : find? key entries = find? q entries := by
  induction entries with
  | nil => rfl
  | cons e rest ih =>
    rw [find?, find?, Value.sameKey_congr hkey hq h.head hsame, ih h.tail]

/-- What was put under a key is found under each key that is the same. -/
theorem AreKeyed.find?_insert (h : AreKeyed entries) (hkey : key.isKey = true)
    (hq : q.isKey = true) (hsame : key.sameKey q = true) :
    find? q (Entries.insert key b entries) = some b := by
  induction entries with
  | nil => exact find?_of_same hsame []
  | cons e rest ih =>
    rw [Entries.insert]
    split
    · rename_i hthere
      rw [Value.sameKey_congr hkey hq h.head hsame] at hthere
      exact find?_of_same (e := (e.1, b)) hthere rest
    · rename_i hnot
      rw [Value.sameKey_congr hkey hq h.head hsame] at hnot
      rw [find?_of_not_same (Bool.eq_false_iff.mpr hnot), ih h.tail]

/-- Under a key that is another the same is found as before. -/
theorem AreKeyed.find?_insert_other (h : AreKeyed entries) (hkey : key.isKey = true)
    (hq : q.isKey = true) (hsame : key.sameKey q = false) :
    find? q (Entries.insert key b entries) = find? q entries := by
  induction entries with
  | nil => exact find?_of_not_same hsame []
  | cons e rest ih =>
    rw [Entries.insert]
    split
    · rename_i hthere
      rw [Value.sameKey_comm h.head hkey] at hthere
      have hnot : e.1.sameKey q = false := by
        rw [Value.sameKey_comm h.head hq, ← Value.sameKey_congr hkey h.head hq hthere,
          Value.sameKey_comm hq hkey, hsame]
      rw [find?_of_not_same (e := (e.1, b)) hnot, find?_of_not_same hnot]
    · rw [find?, find?, ih h.tail]

/-- A key that comes once does not come again. -/
theorem AreKeyed.find?_tail (h : AreKeyed ((key, b) :: entries)) (hq : q.isKey = true)
    (hdistinct : DistinctKeys ((key, b) :: entries)) (hsame : key.sameKey q = true) :
    find? q entries = none := by
  refine find?_eq_none_iff.mpr fun e he => ?_
  have hkey : key.isKey = true := h.head
  rw [← Value.sameKey_congr hkey hq (h.tail e he) hsame, Value.sameKey_comm (h.tail e he) hkey]
  exact (List.pairwise_cons.mp hdistinct).1 e he

/-- **Entries with one row of keys** come to the same, if what is found under each key does. -/
theorem AreKeyed.map_eq_map {γ δ : Type} {others : List (Value × γ)} {f : β → δ} {g : γ → δ}
    (h : AreKeyed entries) (hdistinct : DistinctKeys entries)
    (hkeys : entries.map (·.1) = others.map (·.1))
    (hfind : ∀ key b c, key.isKey = true → find? key entries = some b →
      find? key others = some c → f b = g c) :
    (entries.map fun (k, v) => (k, f v)) = others.map fun (k, v) => (k, g v) := by
  induction entries generalizing others with
  | nil =>
    cases List.map_eq_nil_iff.mp hkeys.symm
    rfl
  | cons e rest ih =>
    cases others with
    | nil => cases hkeys
    | cons d others =>
      obtain ⟨k, b⟩ := e
      obtain ⟨k', c⟩ := d
      obtain ⟨rfl, hrestKeys⟩ : k = k' ∧ rest.map (·.1) = others.map (·.1) := List.cons.inj hkeys
      have hsame : k.sameKey k = true := Value.sameKey_self h.head
      have hfirst := hfind k b c h.head (find?_of_same (e := (k, b)) hsame rest)
        (find?_of_same (e := (k, c)) hsame others)
      have hrest := ih h.tail hdistinct.tail hrestKeys fun key b c hq hb hc => by
        -- what is found behind the first key is under another
        obtain ⟨l, hl, hlq⟩ := mem_of_find? hb
        have hnot : k.sameKey key = false := by
          rw [← Value.sameKey_congr (h.tail (l, b) hl) hq h.head hlq]
          exact (List.pairwise_cons.mp hdistinct).1 (l, b) hl
        exact hfind key b c hq ((find?_of_not_same (e := (k, _)) hnot rest).trans hb)
          ((find?_of_not_same (e := (k, _)) hnot others).trans hc)
      rw [List.map_cons, List.map_cons, hrest]
      exact congrArg (fun v => (k, v) :: _) hfirst

end Entries

end Winnow
