/-
Winnow/Proofs/Store/Assigning.lean

Putting an item under a path.

`assign` follows the path as far as there are sections, adds the sections that
are missing, and puts the item under the last key.  It fails just where it meets
something on the way that is no section (`assign_isOk_iff`).

Two elementary changes make up the rest: putting an item under a key of a section
(`find?_putEntry_append`), and putting a new section there
(`find?_addSection_append`).  Where no object is reached by two paths (`Unshared`),
each of them changes what is found under one path and behind it.  So after `assign`
the item is under its path, what lies on other ways is as it was, and there are
sections all along the path, the old ones in their places (`Assigned`).
-/
import Winnow.Proofs.Store.Changing

namespace Winnow

namespace Store

variable {s t u : Store} {i j value : Item} {a : Nat} {entries : List (Value × Item)}
  {key : String} {path : List String}

/-! ### Whether it fails -/

/-- Something on the way of a path, before its end, is no section. -/
def Blocked (s : Store) (i : Item) (path : List String) : Prop :=
  ∃ q w, q <+: path ∧ q ≠ path ∧ s.find? i q = some w ∧ s.entries? w = none

theorem not_blocked_nil : ¬ s.Blocked i [] := by
  rintro ⟨q, w, hq, hne, -⟩
  exact hne (List.prefix_nil.mp hq)

theorem blocked_of_entries?_eq_none (h : s.entries? i = none) (key : String)
    (rest : List String) : s.Blocked i (key :: rest) :=
  ⟨[], i, List.nil_prefix, (List.cons_ne_nil key rest).symm, rfl, h⟩

/-- What blocks a path lies behind its first key, if there is a section. -/
theorem blocked_cons_iff (h : s.entries? i = some entries) {rest : List String} :
    s.Blocked i (key :: rest) ↔
      ∃ next, Entries.find? (.text key) entries = some next ∧ s.Blocked next rest := by
  have hfind (q : List String) : s.find? i (key :: q)
      = (Entries.find? (.text key) entries).bind fun next => s.find? next q := by
    rw [find?_cons, h, Option.bind_some]
  constructor
  · rintro ⟨q, w, hq, hne, hw, hnone⟩
    cases q with
    | nil =>
      cases hw
      rw [h] at hnone
      cases hnone
    | cons k q =>
      obtain ⟨rfl, hrest⟩ := List.cons_prefix_cons.mp hq
      rw [hfind] at hw
      obtain ⟨next, hnext, hw⟩ := Option.bind_eq_some_iff.mp hw
      exact ⟨next, hnext, q, w, hrest, fun heq => hne (by rw [heq]), hw, hnone⟩
  · rintro ⟨next, hnext, q, w, hq, hne, hw, hnone⟩
    refine ⟨key :: q, w, List.cons_prefix_cons.mpr ⟨rfl, hq⟩, ?_, ?_, hnone⟩
    · exact fun heq => hne (List.cons.inj heq).2
    · rw [hfind, hnext, Option.bind_some, hw]

theorem not_blocked_of_empty (h : s.entries? i = some []) (path : List String) :
    ¬ s.Blocked i path := by
  cases path with
  | nil => exact not_blocked_nil
  | cons key rest =>
    rw [blocked_cons_iff h]
    rintro ⟨next, hnext, -⟩
    cases hnext

/-! ### Changing the entries of a section -/

theorem cell?_put_self {c d : Cell} (h : s.cell? a = some c) : (s.put a d).cell? a = some d := by
  show (s.cells.setIfInBounds a d)[a]? = some d
  exact Array.getElem?_setIfInBounds_self_of_lt (lt_size_of_cell? h)

theorem cell?_put_of_ne {b : Nat} {d : Cell} (h : a ≠ b) : (s.put a d).cell? b = s.cell? b :=
  Array.getElem?_setIfInBounds_ne h

theorem entries?_putEntry_self (h : s.entries? (.object a) = some entries) :
    (s.putEntry a entries key value).entries? (.object a)
      = some (Entries.insert (.text key) value entries) := by
  obtain ⟨b, hb, hcell⟩ := entries?_eq_some_iff.mp h
  cases hb
  exact entries?_eq_some_iff.mpr ⟨a, rfl, cell?_put_self hcell⟩

theorem entries?_congr {b : Nat} (h : t.cell? b = s.cell? b) :
    t.entries? (.object b) = s.entries? (.object b) := by
  unfold Store.entries?
  rw [Item.address?, Option.bind_some, Option.bind_some, h]

theorem entries?_eq_some_of_address {b : Nat} (ha : i.address? = some b)
    (h : s.entries? i = some entries) : i = .object b ∧ s.entries? (.object b) = some entries := by
  cases i with
  | scalar x => cases ha
  | object c =>
    cases ha
    exact ⟨rfl, h⟩

theorem exists_address_of_entries? (h : s.entries? i = some entries) :
    ∃ b, i.address? = some b := by
  obtain ⟨b, rfl, -⟩ := entries?_eq_some_iff.mp h
  exact ⟨b, rfl⟩

/-- Adds a new section under a key of a section. -/
def addSection (s : Store) (address : Nat) (entries : List (Value × Item)) (key : String) :
    Store := (s.add (.mapping [])).2.putEntry address entries key (s.add (.mapping [])).1

/-- The new section is empty. -/
theorem entries?_addSection_new (h : s.entries? (.object a) = some entries) :
    (s.addSection a entries key).entries? (.object s.size) = some [] := by
  obtain ⟨b, hb, hcell⟩ := entries?_eq_some_iff.mp h
  cases hb
  have hne : a ≠ s.size := Nat.ne_of_lt (lt_size_of_cell? hcell)
  exact (entries?_congr (cell?_put_of_ne hne)).trans entries?_add

/-- An item that is no section of this store has no entries. -/
theorem entries?_eq_none_of_forall
    (h : ∀ b entries, i.address? = some b → s.entries? i = some entries → False) :
    s.entries? i = none := by
  refine Option.eq_none_iff_forall_ne_some.mpr fun entries hentries => ?_
  obtain ⟨b, hb⟩ := exists_address_of_entries? hentries
  exact h b entries hb hentries

/-- **An item is put under a path** unless something on the way is no section. -/
theorem assign_isOk_iff : (s.assign value i path).1 = .ok () ↔ ¬ s.Blocked i path := by
  fun_induction Store.assign s value i path with
  | case1 => exact iff_of_true rfl not_blocked_nil
  | case2 s i last address entries hentries haddress =>
    refine iff_of_true rfl ?_
    rw [blocked_cons_iff hentries]
    rintro ⟨_, _, hrest⟩
    exact not_blocked_nil hrest
  | case3 s i last hnone =>
    refine iff_of_false (fun h => by cases h) (not_not_intro ?_)
    exact blocked_of_entries?_eq_none (entries?_eq_none_of_forall hnone) last []
  | case4 s i key rest hrest address entries hentries haddress next hfind ih =>
    rw [ih, blocked_cons_iff hentries, hfind]
    simp only [Option.some.injEq, exists_eq_left']
  | case5 s i key rest hrest address entries hentries haddress hfind fresh t hadd ih =>
    cases hadd
    obtain ⟨rfl, hentries⟩ := entries?_eq_some_of_address haddress hentries
    -- nothing blocks the way in the new section
    rw [ih, blocked_cons_iff hentries, hfind]
    refine iff_of_true (not_blocked_of_empty (entries?_addSection_new hentries) rest) ?_
    rintro ⟨_, hnext, _⟩
    cases hnext
  | case6 s i key rest hrest hnone =>
    refine iff_of_false (fun h => by cases h) (not_not_intro ?_)
    exact blocked_of_entries?_eq_none (entries?_eq_none_of_forall hnone) key rest

/-! ### Elementary changes -/

/-- No object is reached by two paths. -/
def Unshared (s : Store) (i : Item) : Prop :=
  ∀ p q a, s.find? i p = some (.object a) → s.find? i q = some (.object a) → p = q

/-- What is found under a path depends on the cells on the way only. -/
theorem find?_congr {q : List String} (h : ∀ p a, p <+: q → p ≠ q →
    s.find? i p = some (.object a) → t.cell? a = s.cell? a) : t.find? i q = s.find? i q := by
  induction q generalizing i with
  | nil => rfl
  | cons key rest ih =>
    have hentries : t.entries? i = s.entries? i := by
      cases i with
      | scalar x => rfl
      | object a => exact entries?_congr (h [] a List.nil_prefix nofun rfl)
    rw [find?_cons, find?_cons, hentries]
    cases hnext : (s.entries? i).bind (Entries.find? (.text key)) with
    | none => rfl
    | some next =>
      refine ih fun p a hp hne hfind => ?_
      refine h (key :: p) a (List.cons_prefix_cons.mpr ⟨rfl, hp⟩) ?_ ?_
      · exact fun heq => hne (List.cons.inj heq).2
      · rw [find?_cons, hnext, Option.bind_some, hfind]

section Putting

variable {p : List String}

/-- Changing a section under a path changes nothing that is found on other ways. -/
theorem find?_putEntry_of_not_behind (hun : s.Unshared i) (hp : s.find? i p = some (.object a))
    (hentries : s.entries? (.object a) = some entries) {q : List String}
    (hq : ¬ p ++ [key] <+: q) :
    (s.putEntry a entries key value).find? i q = s.find? i q := by
  -- only the section itself is changed, and it is on no other way
  have hcell (b : Nat) (hb : b ≠ a) : (s.putEntry a entries key value).cell? b = s.cell? b :=
    cell?_put_of_ne hb.symm
  have hbefore (q : List String) (hq : ∀ before, before <+: q → before ≠ q → before ≠ p) :
      (s.putEntry a entries key value).find? i q = s.find? i q := by
    refine find?_congr fun before b hstart hne hb => hcell b ?_
    rintro rfl
    exact hq before hstart hne (hun before p b hb hp)
  by_cases hpq : p <+: q
  · obtain ⟨rest, rfl⟩ := hpq
    have hhere := hbefore p fun before _ hne => hne
    rw [find?_append, find?_append, hhere, hp, Option.bind_some, Option.bind_some]
    cases rest with
    | nil => rfl
    | cons k rest =>
      have hk : Value.text key ≠ .text k := by
        rintro ⟨rfl⟩
        exact hq (by simp)
      rw [find?_cons, find?_cons, entries?_putEntry_self hentries, hentries, Option.bind_some,
        Option.bind_some, Entries.find?_insert_of_ne hk]
      cases hnext : Entries.find? (.text k) entries with
      | none => rfl
      | some next =>
        refine find?_congr fun before b _ _ hb => hcell b ?_
        rintro rfl
        have hbehind : s.find? i (p ++ k :: before) = some (.object b) := by
          rw [find?_append, hp, Option.bind_some, find?_cons, hentries, Option.bind_some, hnext,
            Option.bind_some, hb]
        have hlength := congrArg List.length (hun _ _ b hbehind hp)
        simp at hlength
  · refine hbefore q fun before hstart _ => ?_
    rintro rfl
    exact hpq hstart

/-- The item is under the key then. -/
theorem find?_putEntry_append (hun : s.Unshared i) (hp : s.find? i p = some (.object a))
    (hentries : s.entries? (.object a) = some entries) (rest : List String) :
    (s.putEntry a entries key value).find? i (p ++ key :: rest)
      = (s.putEntry a entries key value).find? value rest := by
  have hhere : ¬ p ++ [key] <+: p := by
    intro hstart
    have hlength := hstart.length_le
    rw [List.length_append, List.length_singleton] at hlength
    omega
  rw [find?_append, find?_putEntry_of_not_behind hun hp hentries hhere, hp, Option.bind_some,
    find?_cons, entries?_putEntry_self hentries, Option.bind_some, Entries.find?_insert_self,
    Option.bind_some]

/-- Adding a cell keeps what is found, and nothing gets shared. -/
theorem Unshared.add (hun : s.Unshared i) (hs : s.Sound) (hi : s.Holds i) (c : Cell) :
    (s.add c).2.Unshared i := by
  intro p q b hp hq
  rw [(growsTo_add s c).find?_eq hs hi] at hp hq
  exact hun p q b hp hq

/-- Adding a section under a path changes nothing that is found on other ways. -/
theorem find?_addSection_of_not_behind (hs : s.Sound) (hi : s.Holds i) (hun : s.Unshared i)
    (hp : s.find? i p = some (.object a)) (hentries : s.entries? (.object a) = some entries)
    {q : List String} (hq : ¬ p ++ [key] <+: q) :
    (s.addSection a entries key).find? i q = s.find? i q := by
  have hgrows := growsTo_add s (.mapping [])
  have hheld := hs.holds_of_find? hi hp
  rw [addSection, find?_putEntry_of_not_behind (hun.add hs hi _) _ _ hq, hgrows.find?_eq hs hi]
  · rw [hgrows.find?_eq hs hi, hp]
  · rw [hgrows.entries?_eq hheld, hentries]

/-- The new section is there, with nothing behind it. -/
theorem find?_addSection_append (hs : s.Sound) (hi : s.Holds i) (hun : s.Unshared i)
    (hp : s.find? i p = some (.object a)) (hentries : s.entries? (.object a) = some entries)
    {rest : List String} {w : Item} :
    (s.addSection a entries key).find? i (p ++ key :: rest) = some w ↔
      rest = [] ∧ w = .object s.size := by
  have hgrows := growsTo_add s (.mapping [])
  have hheld := hs.holds_of_find? hi hp
  have hnew : (s.addSection a entries key).entries? (.object s.size) = some [] :=
    entries?_addSection_new hentries
  have hthere : (s.addSection a entries key).find? i (p ++ key :: rest)
      = (s.addSection a entries key).find? (.object s.size) rest := by
    refine find?_putEntry_append (hun.add hs hi _) ?_ ?_ rest
    · rw [hgrows.find?_eq hs hi, hp]
    · rw [hgrows.entries?_eq hheld, hentries]
  rw [hthere]
  cases rest with
  | nil => exact ⟨fun h => ⟨rfl, (Option.some.inj h).symm⟩, fun h => congrArg some h.2.symm⟩
  | cons k rest =>
    rw [find?_cons, hnew]
    exact ⟨nofun, fun h => nomatch h.1⟩

theorem Unshared.addSection (hs : s.Sound) (hi : s.Holds i) (hun : s.Unshared i)
    (hp : s.find? i p = some (.object a)) (hentries : s.entries? (.object a) = some entries) :
    (s.addSection a entries key).Unshared i := by
  -- what is found is the new section, or an old object under its old path
  have hcases (q : List String) (b : Nat)
      (hq : (s.addSection a entries key).find? i q = some (.object b)) :
      q = p ++ [key] ∧ b = s.size ∨ s.find? i q = some (.object b) ∧ b < s.size := by
    by_cases hstart : p ++ [key] <+: q
    · obtain ⟨rest, rfl⟩ := hstart
      rw [List.append_assoc, List.singleton_append,
        find?_addSection_append hs hi hun hp hentries] at hq
      obtain ⟨rfl, hb⟩ := hq
      cases hb
      exact .inl ⟨List.append_nil _, rfl⟩
    · rw [find?_addSection_of_not_behind hs hi hun hp hentries hstart] at hq
      exact .inr ⟨hq, hs.holds_of_find? hi hq⟩
  intro q q' b hq hq'
  rcases hcases q b hq with ⟨rfl, hb⟩ | ⟨hold, hb⟩
  · rcases hcases q' b hq' with ⟨rfl, -⟩ | ⟨-, hb'⟩
    · rfl
    · omega
  · rcases hcases q' b hq' with ⟨-, hb'⟩ | ⟨hold', -⟩
    · omega
    · exact hun q q' b hold hold'

theorem Unshared.putScalar (hun : s.Unshared i) (hp : s.find? i p = some (.object a))
    (hentries : s.entries? (.object a) = some entries) (x : Scalar) :
    (s.putEntry a entries key (.scalar x)).Unshared i := by
  have hold (q : List String) (b : Nat)
      (hq : (s.putEntry a entries key (.scalar x)).find? i q = some (.object b)) :
      s.find? i q = some (.object b) := by
    by_cases hstart : p ++ [key] <+: q
    · obtain ⟨rest, rfl⟩ := hstart
      rw [List.append_assoc, List.singleton_append, find?_putEntry_append hun hp hentries] at hq
      cases rest <;> cases hq
    · rwa [find?_putEntry_of_not_behind hun hp hentries hstart] at hq
  exact fun q q' b hq hq' => hun q q' b (hold q b hq) (hold q' b hq')

end Putting

/-! ### Putting items under paths -/

/-- What comes of putting an item under a path. -/
structure Assigned (s : Store) (i value : Item) (path : List String) (t : Store) : Prop where
  /-- The item is there, and all that is found behind it. -/
  there : ∀ rest, t.find? i (path ++ rest) = t.find? value rest
  /-- What lies neither on the way nor behind is found as before. -/
  others : ∀ q, ¬ path <+: q → ¬ q <+: path → t.find? i q = s.find? i q
  /-- What was on the way stays in its place. -/
  kept : ∀ q w, q <+: path → q ≠ path → s.find? i q = some w → t.find? i q = some w
  /-- The sections that were missing on the way are new. -/
  new : ∀ q a, q <+: path → q ≠ path → s.find? i q = none → t.find? i q = some (.object a) →
    s.size ≤ a
  /-- Only the cells on the way are changed. -/
  frame : ∀ a c, s.cell? a = some c →
    (∀ q, q <+: path → q ≠ path → s.find? i q ≠ some (.object a)) → t.cell? a = some c

theorem isSection_of_find?_append {q rest : List String} {w : Item}
    (h : s.find? i (q ++ rest) = some w) (hrest : rest ≠ []) :
    ∃ a entries, s.find? i q = some (.object a) ∧ s.entries? (.object a) = some entries := by
  rw [find?_append] at h
  obtain ⟨j, hj, hw⟩ := Option.bind_eq_some_iff.mp h
  rw [find?_eq_look hrest] at hw
  obtain ⟨entries, hentries, -⟩ := Option.bind_eq_some_iff.mp hw
  obtain ⟨a, rfl, -⟩ := entries?_eq_some_iff.mp hentries
  exact ⟨a, entries, hj, hentries⟩

namespace Assigned

/-- There are sections all along the way. -/
theorem sections (h : s.Assigned i value path t) {q : List String} (hq : q <+: path)
    (hne : q ≠ path) :
    ∃ a entries, t.find? i q = some (.object a) ∧ t.entries? (.object a) = some entries := by
  obtain ⟨rest, rfl⟩ := hq
  have hthere := h.there []
  rw [List.append_nil] at hthere
  exact isSection_of_find?_append hthere fun hrest => hne (by rw [hrest, List.append_nil])

end Assigned

theorem not_prefix_of_proper {q path : List String} (hq : q <+: path) (hne : q ≠ path) :
    ¬ path <+: q := fun h => hne (hq.eq_of_length_le h.length_le)

/-- Putting an item under a key of the section under a path. -/
theorem assigned_putEntry {p : List String} (hun : s.Unshared i)
    (hp : s.find? i p = some (.object a)) (hentries : s.entries? (.object a) = some entries) :
    s.Assigned i value (p ++ [key]) (s.putEntry a entries key value) := by
  have hbefore {q : List String} (hq : q <+: p ++ [key]) (hne : q ≠ p ++ [key]) :
      (s.putEntry a entries key value).find? i q = s.find? i q :=
    find?_putEntry_of_not_behind hun hp hentries (not_prefix_of_proper hq hne)
  refine ⟨fun rest => ?_, fun q hq _ => ?_, fun q w hq hne hw => ?_, fun q b hq hne hnone => ?_,
    fun b c hc hother => ?_⟩
  · rw [List.append_assoc]
    exact find?_putEntry_append hun hp hentries rest
  · exact find?_putEntry_of_not_behind hun hp hentries hq
  · rw [hbefore hq hne, hw]
  · -- nothing was missing on the way to the section
    rw [hbefore hq hne, hnone]
    exact nofun
  · have hproper : p ≠ p ++ [key] := by simp
    have hne : a ≠ b := by
      rintro rfl
      exact hother p (List.prefix_append p [key]) hproper hp
    rw [putEntry, cell?_put_of_ne hne, hc]

/-- Putting an item behind a new section on the way. -/
theorem Assigned.afterSection {p rest : List String} (hs : s.Sound) (hi : s.Holds i)
    (hun : s.Unshared i) (hp : s.find? i p = some (.object a))
    (hentries : s.entries? (.object a) = some entries)
    (hfind : Entries.find? (.text key) entries = none)
    (h : (s.addSection a entries key).Assigned i value (p ++ key :: rest) t) :
    s.Assigned i value (p ++ key :: rest) t := by
  have hsame {q : List String} (hq : ¬ p ++ [key] <+: q) :
      (s.addSection a entries key).find? i q = s.find? i q :=
    find?_addSection_of_not_behind hs hi hun hp hentries hq
  -- behind the key there was nothing before
  have hnothing {q : List String} (hq : p ++ [key] <+: q) : s.find? i q = none := by
    obtain ⟨after, rfl⟩ := hq
    rw [List.append_assoc, List.singleton_append, find?_append, hp, Option.bind_some, find?_cons,
      hentries, Option.bind_some, hfind, Option.bind_none]
  refine ⟨h.there, fun q hq hq' => ?_, fun q w hq hne hw => ?_, fun q b hq hne hnone hb => ?_,
    fun b c hc hother => ?_⟩
  · rw [h.others q hq hq']
    by_cases hbehind : p ++ [key] <+: q
    · rw [hnothing hbehind]
      obtain ⟨after, rfl⟩ := hbehind
      refine Option.eq_none_iff_forall_ne_some.mpr fun w hw => hq' ?_
      rw [List.append_assoc, List.singleton_append] at hw
      obtain ⟨rfl, -⟩ := (find?_addSection_append hs hi hun hp hentries).mp hw
      simp
    · exact hsame hbehind
  · refine h.kept q w hq hne ?_
    by_cases hbehind : p ++ [key] <+: q
    · rw [hnothing hbehind] at hw
      cases hw
    · rw [hsame hbehind, hw]
  · cases hmiddle : (s.addSection a entries key).find? i q with
    | none =>
      have hsize := h.new q b hq hne hmiddle hb
      have hgrows := (growsTo_add s (.mapping [])).size_le
      rw [addSection, putEntry, size_put] at hsize
      omega
    | some w =>
      cases (h.kept q w hq hne hmiddle).symm.trans hb
      by_cases hbehind : p ++ [key] <+: q
      · obtain ⟨after, rfl⟩ := hbehind
        rw [List.append_assoc, List.singleton_append] at hmiddle
        obtain ⟨-, hnew⟩ := (find?_addSection_append hs hi hun hp hentries).mp hmiddle
        cases hnew
        exact Nat.le_refl _
      · rw [hsame hbehind, hnone] at hmiddle
        cases hmiddle
  · have hsmall := lt_size_of_cell? hc
    have hne : a ≠ b := by
      rintro rfl
      exact hother p (List.prefix_append p _) (by simp) hp
    refine h.frame b c ?_ fun q hq hproper hb => ?_
    · rw [addSection, putEntry, cell?_put_of_ne hne]
      exact growsTo_add s _ b c hc
    · by_cases hbehind : p ++ [key] <+: q
      · obtain ⟨after, rfl⟩ := hbehind
        rw [List.append_assoc, List.singleton_append] at hb
        obtain ⟨-, hnew⟩ := (find?_addSection_append hs hi hun hp hentries).mp hb
        cases hnew
        omega
      · rw [hsame hbehind] at hb
        exact hother q hq hproper hb

theorem addSection_leadsTo (hs : s.Sound) (hentries : s.entries? (.object a) = some entries) :
    s.LeadsTo (s.addSection a entries key) := by
  have hadded : s.LeadsTo (s.add (.mapping [])).2 := (AddsTo.refl.add fits_mapping_nil).leadsTo hs
  have hfits := (hs.fits_entries hentries).mono hadded.size_le
  exact hadded.trans (putEntry_leadsTo hadded.sound hfits holds_add key)

/-- Putting an item under a path that begins at an item on the way, by induction on
what is left of the path. -/
theorem assigned_of_walk {root : Item} {p : List String} (hs : s.Sound) (hroot : s.Holds root)
    (hun : s.Unshared root) (hp : s.find? root p = some i) (hpath : path ≠ [])
    (h : s.assign value i path = (.ok (), t)) : s.Assigned root value (p ++ path) t := by
  fun_induction Store.assign s value i path generalizing p with
  | case1 => exact absurd rfl hpath
  | case2 s i last address entries hentries haddress =>
    cases h
    obtain ⟨rfl, hentries⟩ := entries?_eq_some_of_address haddress hentries
    exact assigned_putEntry hun hp hentries
  | case3 => cases h
  | case4 s i key rest hrest address entries hentries haddress next hfind ih =>
    have hnext : s.find? root (p ++ [key]) = some next := by
      rw [find?_append_key hp hentries, hfind]
    have hassigned := ih hs hroot hun hnext hrest h
    rwa [List.append_assoc] at hassigned
  | case5 s i key rest hrest address entries hentries haddress hfind fresh t hadd ih =>
    cases hadd
    obtain ⟨rfl, hentries⟩ := entries?_eq_some_of_address haddress hentries
    have hstep : s.LeadsTo (s.addSection address entries key) := addSection_leadsTo hs hentries
    have hnew : (s.addSection address entries key).find? root (p ++ [key])
        = some (.object s.size) :=
      (find?_addSection_append hs hroot hun hp hentries).mpr ⟨rfl, rfl⟩
    have hassigned := ih hstep.sound (hstep.holds hroot) (hun.addSection hs hroot hp hentries)
      hnew hrest h
    rw [List.append_assoc, List.singleton_append] at hassigned
    exact hassigned.afterSection hs hroot hun hp hentries hfind
  | case6 => cases h

/-- **Putting an item under a path** changes what is found under the path and
behind it, and nothing else. -/
theorem assign_assigned (hs : s.Sound) (hi : s.Holds i) (hun : s.Unshared i) (hpath : path ≠ [])
    (h : s.assign value i path = (.ok (), t)) : s.Assigned i value path t :=
  assigned_of_walk (p := []) hs hi hun rfl hpath h

end Store

end Winnow
