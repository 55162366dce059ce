/-
Winnow/Proofs/Store/Entries.lean

Entries of mappings under keys that are texts.

Paths consist of texts, and a text is the same key as itself and as nothing
else (`sameKey_text_iff`, `text_sameKey_iff`).  So looking up a text after
`Entries.insert` is as for any finite map, also among keys of other kinds:
what was inserted is found under its own key (`find?_insert_self`), and every
other text is found as before (`find?_insert_of_ne`).

`DistinctKeys` says that no key comes twice.  Inserting keeps it.
-/
import Winnow.Value.Basic

namespace Winnow

/-! ### Keys that are texts -/

theorem sameKey_text_iff {v : Value} {t : String} :
    v.sameKey (.text t) = true ↔ v = .text t := by
  cases v with
  | scalar s =>
    cases s with
    | text u =>
      show (u == t) = true ↔ _
      rw [beq_iff_eq, Value.text, Value.scalar.injEq, Scalar.text.injEq]
    | _ => exact iff_of_false Bool.false_ne_true nofun
  | _ => exact iff_of_false Bool.false_ne_true nofun

theorem text_sameKey_iff {v : Value} {t : String} :
    (Value.text t).sameKey v = true ↔ v = .text t := by
  cases v with
  | scalar s =>
    cases s with
    | text u =>
      show (t == u) = true ↔ _
      rw [beq_iff_eq, Value.text, Value.scalar.injEq, Scalar.text.injEq, eq_comm]
    | _ => exact iff_of_false Bool.false_ne_true nofun
  | _ => exact iff_of_false Bool.false_ne_true nofun

namespace Entries

variable {β : Type} {entries : List (Value × β)} {key : Value} {b : β} {t : String}

/-! ### Looking up -/

theorem mem_of_find? (h : find? key entries = some b) :
    ∃ k, (k, b) ∈ entries ∧ k.sameKey key = true := by
  induction entries with
  | nil => cases h
  | cons e rest ih =>
    rw [find?] at h
    split at h
    · rename_i hkey
      injection h with h
      exact ⟨e.1, by rw [← h]; exact List.mem_cons_self, hkey⟩
    · obtain ⟨k, hk, hkey⟩ := ih h
      exact ⟨k, List.mem_cons_of_mem _ hk, hkey⟩

/-- What is found under a text has a place, with the text for its key. -/
theorem exists_getElem?_of_find? (h : find? (.text t) entries = some b) :
    ∃ n : Nat, entries[n]? = some (.text t, b) := by
  obtain ⟨k, hmem, hkey⟩ := mem_of_find? h
  rw [sameKey_text_iff.mp hkey] at hmem
  exact List.getElem?_of_mem hmem

/-- Changing the values changes what is found. -/
theorem find?_map {γ : Type} (f : β → γ) (key : Value) (entries : List (Value × β)) :
    find? key (entries.map fun (k, v) => (k, f v)) = (find? key entries).map f := by
  induction entries with
  | nil => rfl
  | cons e rest ih =>
    rw [List.map_cons, find?, find?, ih]
    split <;> rfl

theorem insert_map {γ : Type} (f : β → γ) (key : Value) (b : β) (entries : List (Value × β)) :
    insert key (f b) (entries.map fun (k, v) => (k, f v))
      = (insert key b entries).map fun (k, v) => (k, f v) := by
  induction entries with
  | nil => rfl
  | cons e rest ih =>
    rw [List.map_cons, insert, insert, ih]
    split <;> rfl

theorem find?_text_cons (k : Value) (c : β) (rest : List (Value × β)) :
    (k = .text t → find? (.text t) ((k, c) :: rest) = some c) ∧
    (k ≠ .text t → find? (.text t) ((k, c) :: rest) = find? (.text t) rest) := by
  constructor
  · intro hk
    rw [find?, if_pos (sameKey_text_iff.mpr hk)]
  · intro hk
    rw [find?, if_neg fun h => hk (sameKey_text_iff.mp h)]

theorem find?_text_eq_none (h : ∀ e ∈ entries, e.1 ≠ .text t) :
    find? (.text t) entries = none := by
  induction entries with
  | nil => rfl
  | cons e rest ih =>
    rw [(find?_text_cons e.1 e.2 rest).2 (h e List.mem_cons_self)]
    exact ih fun f hf => h f (List.mem_cons_of_mem _ hf)

theorem find?_insert_self : find? (.text t) (insert (.text t) b entries) = some b := by
  induction entries with
  | nil => exact (find?_text_cons (.text t) b []).1 rfl
  | cons e rest ih =>
    rw [insert]
    split
    · rename_i hkey
      exact (find?_text_cons e.1 b rest).1 (sameKey_text_iff.mp hkey)
    · rename_i hkey
      rw [(find?_text_cons e.1 e.2 _).2 fun h => hkey (sameKey_text_iff.mpr h)]
      exact ih

theorem find?_insert_of_ne (hkey : key ≠ .text t) :
    find? (.text t) (insert key b entries) = find? (.text t) entries := by
  induction entries with
  | nil => exact (find?_text_cons key b []).2 hkey
  | cons e rest ih =>
    rw [insert]
    split
    · rename_i hsame
      have he : e.1 ≠ .text t := by
        intro he
        rw [he] at hsame
        exact hkey (text_sameKey_iff.mp hsame)
      rw [(find?_text_cons e.1 b rest).2 he, (find?_text_cons e.1 e.2 rest).2 he]
    · by_cases he : e.1 = .text t
      · rw [(find?_text_cons e.1 e.2 _).1 he, (find?_text_cons e.1 e.2 rest).1 he]
      · rw [(find?_text_cons e.1 e.2 _).2 he, (find?_text_cons e.1 e.2 rest).2 he, ih]

theorem mem_insert {e : Value × β} (h : e ∈ insert key b entries) : e.2 = b ∨ e ∈ entries := by
  induction entries with
  | nil =>
    rw [insert, List.mem_singleton] at h
    exact .inl (by rw [h])
  | cons f rest ih =>
    rw [insert] at h
    split at h
    · rcases List.mem_cons.mp h with rfl | h
      · exact .inl rfl
      · exact .inr (List.mem_cons_of_mem _ h)
    · rcases List.mem_cons.mp h with rfl | h
      · exact .inr List.mem_cons_self
      · exact (ih h).imp_right (List.mem_cons_of_mem _)

/-- A key that is not there is put at the end. -/
theorem insert_of_forall_ne (h : ∀ e ∈ entries, e.1.sameKey key = false) :
    insert key b entries = entries ++ [(key, b)] := by
  induction entries with
  | nil => rfl
  | cons e rest ih =>
    obtain ⟨hfirst, hrest⟩ := List.forall_mem_cons.mp h
    rw [insert, if_neg (Bool.eq_false_iff.mp hfirst), ih hrest, List.cons_append]

/-- Putting what is there changes nothing. -/
theorem insert_eq_self (h : find? (.text t) entries = some b) :
    insert (.text t) b entries = entries := by
  induction entries with
  | nil => cases h
  | cons e rest ih =>
    rw [find?] at h
    rw [insert]
    split at h
    · cases h
      rw [if_pos ‹_›]
    · rw [if_neg ‹_›, ih h]

/-- The keys keep their order, and a new one comes last. -/
theorem keys_insert (key : Value) (b : β) (entries : List (Value × β)) :
    (insert key b entries).map (·.1)
      = entries.map (·.1) ++ if (find? key entries).isSome then [] else [key] := by
  induction entries with
  | nil => rfl
  | cons e rest ih =>
    rw [insert, find?]
    split
    · simp
    · simpa using ih

/-- Putting a value under a text keeps all entries under keys of other kinds. -/
theorem mem_insert_text_iff {e : Value × β} (he : ∀ k, e.1 ≠ .text k) :
    e ∈ insert (.text t) b entries ↔ e ∈ entries := by
  induction entries with
  | nil =>
    rw [insert, List.mem_singleton]
    exact iff_of_false (fun h => he t (by rw [h])) List.not_mem_nil
  | cons f rest ih =>
    rw [insert]
    split
    · rename_i hkey
      -- the entry whose value is replaced has a text for its key
      have htext := sameKey_text_iff.mp hkey
      have hne : e ≠ (f.1, b) := fun h => he t (by rw [h, htext])
      have hne' : e ≠ f := fun h => he t (by rw [h, htext])
      rw [List.mem_cons, List.mem_cons]
      exact or_congr_left (iff_of_false hne hne')
    · rw [List.mem_cons, List.mem_cons, ih]

/-! ### Keys that come once -/

/-- No key of entries is the same as one before it. -/
def DistinctKeys (entries : List (Value × β)) : Prop :=
  entries.Pairwise fun e f => e.1.sameKey f.1 = false

theorem distinctKeys_nil : DistinctKeys ([] : List (Value × β)) := .nil

/-- Whether keys come once does not depend on what is under them. -/
theorem DistinctKeys.of_keys {γ : Type} {other : List (Value × γ)} (h : DistinctKeys entries)
    (hkeys : other.map (·.1) = entries.map (·.1)) : DistinctKeys other := by
  have hmap : (entries.map (·.1)).Pairwise fun k l => k.sameKey l = false :=
    List.pairwise_map.mpr h
  rw [← hkeys] at hmap
  exact List.pairwise_map.mp hmap

theorem distinctKeys_pair {u : String} {c : β} (h : t ≠ u) :
    DistinctKeys [(.text t, b), (.text u, c)] := by
  refine List.pairwise_pair.mpr (Bool.eq_false_iff.mpr fun hsame => h ?_)
  cases sameKey_text_iff.mp hsame
  rfl

theorem DistinctKeys.tail {e : Value × β} (h : DistinctKeys (e :: entries)) :
    DistinctKeys entries := (List.pairwise_cons.mp h).2

theorem DistinctKeys.find?_tail {c : β} (h : DistinctKeys ((.text t, c) :: entries)) :
    find? (.text t) entries = none := by
  refine find?_text_eq_none fun e he hkey => ?_
  have hfalse := (List.pairwise_cons.mp h).1 e he
  rw [text_sameKey_iff.mpr hkey] at hfalse
  cases hfalse

/-- What is under a key that comes once is found under it. -/
theorem DistinctKeys.find?_of_mem (h : DistinctKeys entries) (hmem : (.text t, b) ∈ entries) :
    find? (.text t) entries = some b := by
  induction entries with
  | nil => cases hmem
  | cons e rest ih =>
    rcases List.mem_cons.mp hmem with rfl | hmem
    · exact (find?_text_cons _ b rest).1 rfl
    · have hne : e.1 ≠ .text t := by
        intro hkey
        have hfalse : e.1.sameKey (.text t) = false := (List.pairwise_cons.mp h).1 _ hmem
        rw [sameKey_text_iff.mpr hkey] at hfalse
        cases hfalse
      rw [(find?_text_cons e.1 e.2 rest).2 hne]
      exact ih h.tail hmem

/-- Keys of a row with one more key are those of the row, and the new one. -/
theorem key_mem_insert {e : Value × β} (h : e ∈ insert key b entries) :
    e.1 = key ∨ ∃ f ∈ entries, f.1 = e.1 := by
  induction entries with
  | nil =>
    rw [insert, List.mem_singleton] at h
    exact .inl (by rw [h])
  | cons f rest ih =>
    rw [insert] at h
    split at h
    · rcases List.mem_cons.mp h with rfl | h
      · exact .inr ⟨f, List.mem_cons_self, rfl⟩
      · exact .inr ⟨e, List.mem_cons_of_mem _ h, rfl⟩
    · rcases List.mem_cons.mp h with rfl | h
      · exact .inr ⟨_, List.mem_cons_self, rfl⟩
      · rcases ih h with h | ⟨g, hg, hge⟩
        · exact .inl h
        · exact .inr ⟨g, List.mem_cons_of_mem _ hg, hge⟩

theorem DistinctKeys.insert (h : DistinctKeys entries) (key : Value) (b : β) :
    DistinctKeys (insert key b entries) := by
  induction entries with
  | nil => exact List.pairwise_singleton _ _
  | cons e rest ih =>
    obtain ⟨hfirst, hrest⟩ := List.pairwise_cons.mp h
    rw [Entries.insert]
    split
    · exact List.pairwise_cons.mpr ⟨hfirst, hrest⟩
    · rename_i hkey
      refine List.pairwise_cons.mpr ⟨fun f hf => ?_, ih hrest⟩
      rcases key_mem_insert hf with hf | ⟨g, hg, hgf⟩
      · rw [hf]
        exact Bool.eq_false_iff.mpr hkey
      · rw [← hgf]
        exact hfirst g hg

end Entries

end Winnow
