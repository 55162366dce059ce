/-
Winnow/Proofs/Store/Entering.lean

The sections along the way of an item that is put under a path.

Of the sections that were there only the last one on the way is changed.  It gets the next
key, and behind this key either the item itself or a way of new sections, each with one key
(`exists_enteredAt`).  So every section on the way has the entries that it had, together
with the next key, which stays where it was or comes behind all others
(`sections_of_assign`).
-/
import Winnow.Proofs.Store.OneWay

namespace Winnow

namespace Store

variable {s t : Store} {i j value : Item} {a : Nat} {key k : String} {p q path rest : List String}

/-- The section at an address, reached on the first part of a path, gets the item behind a
key, on a way of sections of their own if the path goes on. -/
structure EnteredAt (s : Store) (i value : Item) (t : Store) (p : List String) (key : String)
    (rest : List String) (a : Nat) : Prop where
  way : s.find? i p = some (.object a)
  entry : ∃ old next, s.entries? (.object a) = some old ∧
    t.entries? (.object a) = some (Entries.insert (.text key) next old) ∧
    t.OneWay value next rest ∧ (rest ≠ [] → Entries.find? (.text key) old = none)
  frame : ∀ b, b < s.size → b ≠ a → t.cell? b = s.cell? b

/-- **Where a path leaves the sections that are there**, by induction on the path. -/
theorem exists_enteredAt (hpath : path ≠ []) (h : s.assign value i path = (.ok (), t)) :
    ∃ p key rest a, path = p ++ key :: rest ∧ s.EnteredAt i value t p key rest a := by
  fun_induction Store.assign s value i path with
  | case1 => exact absurd rfl hpath
  | case2 s i last address entries hentries haddress =>
    cases h
    obtain ⟨rfl, hentries⟩ := entries?_eq_some_of_address haddress hentries
    exact ⟨[], last, [], address, rfl, rfl,
      ⟨entries, value, hentries, entries?_putEntry_self hentries, rfl, fun h => absurd rfl h⟩,
      fun b _ hb => cell?_put_of_ne hb.symm⟩
  | case3 => cases h
  | case4 s i key rest hrest address entries hentries haddress next hfind ih =>
    obtain ⟨p, k, after, a, rfl, hentered⟩ := ih hrest h
    refine ⟨key :: p, k, after, a, rfl, ?_, hentered.entry, hentered.frame⟩
    rw [find?_cons, hentries, Option.bind_some, hfind, Option.bind_some, hentered.way]
  | case5 s i key rest hrest address entries hentries haddress hfind fresh u hadd =>
    cases hadd
    obtain ⟨rfl, hentries⟩ := entries?_eq_some_of_address haddress hentries
    have hsmall : address < s.size := holds_of_entries? hentries
    have hsize : (s.addSection address entries key).size = s.size + 1 := size_put.trans size_add
    -- from the new section on there is nothing yet
    have hempty : (s.addSection address entries key).entries? (.object s.size) = some [] :=
      entries?_addSection_new hentries
    obtain ⟨t', hassign, hway, hframe⟩ := exists_oneWay_of_assign hempty hrest value
    cases hassign.symm.trans h
    refine ⟨[], key, rest, address, rfl, rfl, ⟨entries, .object s.size, hentries, ?_, hway,
      fun _ => hfind⟩, fun b hb hne => ?_⟩
    · rw [entries?_congr (hframe address (by omega) (Nat.ne_of_lt hsmall))]
      exact entries?_putEntry_self ((growsTo_add s _).entries?_of_eq_some hentries)
    · rw [hframe b (by omega) (Nat.ne_of_lt hb), addSection, putEntry, cell?_put_of_ne hne.symm,
        (growsTo_add s _).cell?_eq hb]
  | case6 => cases h

/-- Where on the way of a path a section with the next key may lie. -/
theorem prefix_append_cons_cases (h : q ++ [k] <+: p ++ key :: rest) :
    q ++ [k] <+: p ∨ (q = p ∧ k = key) ∨
      ∃ after, q = p ++ key :: after ∧ after ++ [k] <+: rest := by
  rcases List.prefix_or_prefix_of_prefix h (List.prefix_append p (key :: rest)) with hle | hle
  · exact .inl hle
  · rcases List.prefix_concat_iff.mp hle with rfl | ⟨before, rfl⟩
    · exact .inl (List.prefix_refl _)
    · rw [List.append_assoc, List.prefix_append_right_inj] at h
      cases before with
      | nil =>
        rw [List.nil_append, List.cons_prefix_cons] at h
        exact .inr (.inl ⟨List.append_nil p, h.1⟩)
      | cons x after =>
        rw [List.cons_append, List.cons_prefix_cons] at h
        obtain ⟨rfl, h⟩ := h
        exact .inr (.inr ⟨after, rfl, h⟩)

/-- An item is a section with the entries of another, if there was another, and with an
item under a key: where the key was, or behind all others. -/
structure Extended (s : Store) (former : Option Item) (k : String) (next : Item) (t : Store)
    (w : Item) : Prop where
  same : ∀ j, former = some j → w = j
  entries : t.entries? w
    = some (Entries.insert (.text k) next ((former.bind s.entries?).getD []))

/-- In a section that is empty the way ends at once. -/
theorem eq_nil_of_find?_empty (h : s.entries? i = some []) (hp : s.find? i p = some j) :
    p = [] := by
  cases p with
  | nil => rfl
  | cons k q =>
    rw [find?_cons, h] at hp
    cases hp

/-- Where there was an empty section, there might as well have been nothing. -/
theorem Extended.ofEmpty (hempty : s.entries? i = some []) {next w : Item} (u : Store)
    (h : s.Extended (s.find? i q) k next t w) : u.Extended none k next t w := by
  have hformer : ((s.find? i q).bind s.entries?).getD [] = [] := by
    cases hfind : s.find? i q with
    | none => rfl
    | some j =>
      cases eq_nil_of_find?_empty hempty hfind
      cases hfind
      rw [Option.bind_some, hempty, Option.getD_some]
  have hentries := h.entries
  rw [hformer] at hentries
  refine ⟨fun j hj => ?_, hentries⟩
  cases hj

/-- The keys that were there keep their order, and the next key, if it is new, comes last. -/
theorem Extended.keys {former : Option Item} {next w : Item} (h : s.Extended former k next t w) :
    ∃ entries, t.entries? w = some entries ∧
      entries.map (·.1) = ((former.bind s.entries?).getD []).map (·.1) ++
        if (Entries.find? (.text k) ((former.bind s.entries?).getD [])).isSome then []
        else [.text k] :=
  ⟨_, h.entries, Entries.keys_insert (.text k) next _⟩

namespace EnteredAt

theorem find?_behind (h : s.EnteredAt i value t p key rest a)
    (hp : t.find? i p = some (.object a)) :
    ∃ next, t.OneWay value next rest ∧
      ∀ after, t.find? i (p ++ key :: after) = t.find? next after := by
  obtain ⟨old, next, -, hnew, hway, -⟩ := h.entry
  refine ⟨next, hway, fun after => ?_⟩
  rw [List.append_cons, find?_append, find?_append_key hp hnew, Entries.find?_insert_self,
    Option.bind_some]

/-- Before the section that is changed the next key is there, and stays. -/
theorem extended_before (h : s.EnteredAt i value t (q ++ k :: p) key rest a) (hs : s.Sound)
    (hi : s.Holds i) (hun : s.Unshared i) :
    ∃ w next, s.find? i q = some w ∧ s.find? i (q ++ [k]) = some next ∧
      s.Extended (s.find? i q) k next t w := by
  obtain ⟨c, entries, hc, hentries⟩ := isSection_of_find?_append h.way (List.cons_ne_nil k p)
  have hhere := h.way
  rw [List.append_cons, find?_append] at hhere
  obtain ⟨next, hnext, -⟩ := Option.bind_eq_some_iff.mp hhere
  have hfind := hnext
  rw [find?_append_key hc hentries] at hfind
  have hne : c ≠ a := by
    rintro rfl
    have hlength := congrArg List.length (hun _ _ c hc h.way)
    simp at hlength
  refine ⟨.object c, next, hc, hnext, fun j hj => Option.some.inj (hc.symm.trans hj), ?_⟩
  rw [entries?_congr (h.frame c (hs.holds_of_find? hi hc) hne), hc, Option.bind_some, hentries,
    Option.getD_some, Entries.insert_eq_self hfind]

/-- Behind it there was nothing. -/
theorem extended_behind (h : s.EnteredAt i value t p key (q ++ k :: rest) a)
    (hp : t.find? i p = some (.object a)) :
    ∃ w next, t.find? i (p ++ key :: q) = some w ∧ t.find? i (p ++ key :: q ++ [k]) = some next ∧
      s.Extended (s.find? i (p ++ key :: q)) k next t w := by
  obtain ⟨first, hway, hfind⟩ := h.find?_behind hp
  obtain ⟨w, hw, next, hentries, -⟩ := hway.find?
  obtain ⟨old, -, hold, -, -, hmissing⟩ := h.entry
  have hnothing : s.find? i (p ++ key :: q) = none := by
    rw [find?_append, h.way, Option.bind_some, find?_cons, hold, Option.bind_some,
      hmissing (by simp), Option.bind_none]
  refine ⟨w, next, (hfind q).trans hw, ?_, ?_, ?_⟩
  · rw [List.append_assoc, List.cons_append, hfind, find?_append_key hw hentries]
    exact (Entries.find?_text_cons _ _ _).1 rfl
  · intro j hj
    rw [hnothing] at hj
    cases hj
  · rw [hnothing, hentries]
    rfl

end EnteredAt

/-- **The sections along the way.**  Each is the one that was there, if there was one, with
the entries that it had and the next key. -/
theorem sections_of_assign (hs : s.Sound) (hi : s.Holds i) (hun : s.Unshared i)
    (hpath : path ≠ []) (h : s.assign value i path = (.ok (), t)) (hq : q ++ [k] <+: path) :
    ∃ w next, t.find? i q = some w ∧ t.find? i (q ++ [k]) = some next ∧
      s.Extended (s.find? i q) k next t w := by
  have hassigned := assign_assigned hs hi hun hpath h
  obtain ⟨p, key, rest, a, rfl, hentered⟩ := exists_enteredAt hpath h
  have hp : t.find? i p = some (.object a) :=
    hassigned.kept p _ (List.prefix_append p _) (by simp) hentered.way
  rcases prefix_append_cons_cases hq with ⟨more, rfl⟩ | ⟨rfl, rfl⟩ | ⟨after, rfl, more, rfl⟩
  · rw [List.append_assoc, List.singleton_append] at hentered
    obtain ⟨w, next, hw, hnext, hextended⟩ := hentered.extended_before hs hi hun
    refine ⟨w, next, hassigned.kept q w ?_ ?_ hw, hassigned.kept _ next hq ?_ hnext, hextended⟩
    · exact (List.prefix_append q [k]).trans hq
    · simp
    · simp
  · obtain ⟨old, next, hold, hnew, -, -⟩ := hentered.entry
    refine ⟨.object a, next, hp, ?_, fun j hj => ?_, ?_⟩
    · rw [find?_append_key hp hnew, Entries.find?_insert_self]
    · exact Option.some.inj (hentered.way.symm.trans hj)
    · rw [hentered.way, Option.bind_some, hold, Option.getD_some, hnew]
  · rw [List.append_assoc, List.singleton_append] at hentered
    exact hentered.extended_behind hp

end Store

end Winnow
