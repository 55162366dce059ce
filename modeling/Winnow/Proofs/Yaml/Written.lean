/-
Winnow/Proofs/Yaml/Written.lean

What is built of a document is what is written in it.

`Build.Faithful` is the invariant of all that is built: a node that has been met has its
scalar for an item, or an object that waits or holds what is written there.  Each step of
building keeps it (`Faithful.adds`), and so does filling (`Faithful.fill`).  No node is met
twice, so nothing waits in the end (`run_faithful`).

Main result: every mapping that is built has the entries that are written in its node, one
after another (`Graph.shows_of_build`).  So under a path of texts lies what is built of the
node that is written under this path (`Graph.Shows.find?`).  Both are about documents in which
no mapping is merged into another.
-/
import Mathlib.Data.List.Perm.Subperm
import Winnow.Proofs.Yaml.Steps

namespace Winnow.Yaml

open Relation (ReflTransGen)

/-! ### Nodes -/

namespace Graph

variable {g : Graph} {n : Nat} {x : Scalar} {word : String}

/-- The text that a node stands for, if its type is that of texts. -/
def word? (g : Graph) (n : Nat) : Option String :=
  match g.tag n with
  | .text => (Build.textTo (g.vertices.size + 1) g n).toOption
  | _ => none

/-- The node that is written under a text in a mapping: the last one, if there are more. -/
def under? (g : Graph) (n : Nat) (word : String) : Option Nat :=
  match g.vertex? n with
  | some ⟨.mapping, .mapping written⟩ =>
    (written.reverse.find? fun e => g.word? e.1 == some word).map (·.2)
  | _ => none

/-- The node that is written under a path. -/
def find? (g : Graph) (n : Nat) : List String → Option Nat
  | [] => some n
  | word :: rest => (g.under? n word).bind fun m => g.find? m rest

/-- Whether no key of a mapping merges another mapping, or is an equals sign. -/
def isUnmerged (g : Graph) : Bool :=
  g.vertices.all fun v => match v.content with
    | .mapping written => written.all fun e => g.tag e.1 != .merge && g.tag e.1 != .standIn
    | _ => true

/-- A node stands for a scalar.  What has been built before counts only for the mark of a
float that is no number. -/
def Reads (g : Graph) (n : Nat) (x : Scalar) : Prop :=
  ∃ b : Build, b.graph = g ∧ b.scalar? n (g.tag n) = some (.ok x)

theorem lt_size_of_tag (h : g.tag n ≠ .other) : n < g.vertices.size := by
  by_contra hn
  have hnone : g.vertex? n = none := Array.getElem?_eq_none (Nat.le_of_not_lt hn)
  rw [tag, hnone] at h
  exact h rfl

end Graph

/-! ### Texts -/

theorem ne_text_of_readFloat {mark : Nat} {text word : String} :
    readFloat mark text ≠ .ok (.text word) := by
  intro h
  unfold readFloat at h
  dsimp only at h
  split at h
  · cases h
  · split at h
    · cases h
    · obtain ⟨x, -, h⟩ := except_bind_eq_ok_iff.mp h
      unfold Scalar.ofFloat at h
      split at h <;> split at h <;> cases h

theorem ne_text_of_timeOfNumbers {year month day : Nat} {clock : Option Clock} {word : String} :
    timeOfNumbers year month day clock ≠ .ok (.text word) := by
  intro h
  cases clock with
  | none =>
    obtain ⟨date, -, h⟩ := except_bind_eq_ok_iff.mp h
    cases h
  | some c =>
    -- behind the check of the offset
    have hrest : (do
        let date ← Date.ofNumbers year month day
        let time ← DateTime.ofNumbers date c.hour c.minute c.second c.microsecond c.offset
        .ok (.time time)) = Except.ok (Scalar.text word) := by
      unfold timeOfNumbers at h
      dsimp only at h
      split at h
      · split at h
        · cases h
        · exact h
      · exact h
    obtain ⟨date, -, hrest⟩ := except_bind_eq_ok_iff.mp hrest
    obtain ⟨time, -, hrest⟩ := except_bind_eq_ok_iff.mp hrest
    cases hrest

theorem ne_text_of_readTime {text word : String} : readTime text ≠ .ok (.text word) := by
  intro h
  unfold readTime at h
  split at h
  · cases h
  · split at h
    · rename_i hread
      cases h
      exact ne_text_of_timeOfNumbers hread
    · cases h

/-- Only a node whose type is that of texts stands for a text. -/
theorem Build.tag_of_text {b : Build} {n : Nat} {tag : Tag} {word : String}
    (h : b.scalar? n tag = some (.ok (.text word))) : tag = .text := by
  cases tag with
  | text => rfl
  | null =>
    obtain ⟨text, -, h⟩ := except_bind_eq_ok_iff.mp (Option.some.inj h)
    cases h
  | truth | integer | bytes =>
    obtain ⟨text, -, h⟩ := except_bind_eq_ok_iff.mp (Option.some.inj h)
    obtain ⟨_, -, h⟩ := except_bind_eq_ok_iff.mp h
    cases h
  | float =>
    obtain ⟨text, -, h⟩ := except_bind_eq_ok_iff.mp (Option.some.inj h)
    exact absurd h ne_text_of_readFloat
  | time =>
    obtain ⟨text, -, h⟩ := except_bind_eq_ok_iff.mp (Option.some.inj h)
    split at h
    · exact absurd h ne_text_of_readTime
    · cases h
  | _ => cases h

theorem Graph.Reads.word?_eq_some_iff {g : Graph} {n : Nat} {x : Scalar} {word : String}
    (h : g.Reads n x) : g.word? n = some word ↔ x = .text word := by
  obtain ⟨b, rfl, h⟩ := h
  by_cases htag : b.graph.tag n = .text
  · rw [htag] at h
    have h : (b.text n).map Scalar.text = .ok x := Option.some.inj h
    unfold word?
    rw [htag]
    show (b.text n).toOption = some word ↔ _
    generalize b.text n = read at h ⊢
    cases read with
    | error fault => cases h
    | ok s =>
      cases h
      exact (Option.some.injEq s word).to_iff.trans (Scalar.text.injEq s word).to_iff.symm
  · have hnone : b.graph.word? n = none := by
      unfold word?
      split
      · exact absurd ‹_› htag
      · rfl
    rw [hnone]
    refine iff_of_false nofun ?_
    rintro rfl
    exact htag (Build.tag_of_text h)

/-! ### Merges -/

namespace Graph

variable {g : Graph} {n : Nat} {written : List (Nat × Nat)}

theorem entries?_eq_some_iff : g.entries? n = some written ↔
    ∃ tag, g.vertex? n = some ⟨tag, .mapping written⟩ := by
  unfold entries?
  constructor
  · intro h
    split at h
    · rename_i tag entries hvertex
      cases h
      exact ⟨tag, hvertex⟩
    · cases h
  · rintro ⟨tag, hvertex⟩
    rw [hvertex]

theorem tag_of_isUnmerged (hg : g.isUnmerged = true) (hn : g.entries? n = some written)
    {e : Nat × Nat} (he : e ∈ written) : g.tag e.1 ≠ .merge ∧ g.tag e.1 ≠ .standIn := by
  obtain ⟨tag, hvertex⟩ := entries?_eq_some_iff.mp hn
  have hnode := Array.all_eq_true_iff_forall_mem.mp hg _ (Array.mem_of_getElem? hvertex)
  simpa using List.all_eq_true.mp hnode e he

theorem flattenFrom_of_isUnmerged {flatten : Graph → Nat → Except Fault Graph}
    (hg : g.isUnmerged = true) (hn : g.entries? n = some written) (fuel position : Nat) :
    flattenFrom flatten n fuel position g = .ok ([], g) := by
  induction fuel generalizing position with
  | zero => rfl
  | succ fuel ih =>
    rw [flattenFrom]
    dsimp only
    rw [hn]
    split
    · rfl
    · rename_i key value hentry
      obtain ⟨hmerge, hstandIn⟩ := tag_of_isUnmerged hg hn (List.mem_of_getElem? hentry)
      split
      · exact absurd ‹_› hmerge
      · exact absurd ‹_› hstandIn
      · exact ih (position + 1)

/-- Where nothing is merged, taking merges out changes nothing. -/
theorem flatten_of_isUnmerged (hg : g.isUnmerged = true) (hn : g.entries? n = some written) :
    g.flatten n = .ok g := by
  obtain ⟨tag, hvertex⟩ := entries?_eq_some_iff.mp hn
  have hput : g.putEntries n written = g := by
    obtain ⟨hlt, hget⟩ := Array.getElem?_eq_some_iff.mp hvertex
    unfold putEntries put
    rw [tag_of_vertex? hvertex, ← hget, Array.setIfInBounds_def, dif_pos hlt,
      Array.set_getElem_self]
  unfold flatten flattenTo
  dsimp only
  rw [flattenFrom_of_isUnmerged hg hn]
  show Except.ok (g.putEntries n ([] ++ (g.entries? n).getD [])) = _
  rw [hn, List.nil_append, Option.getD_some, hput]

end Graph

/-! ### Rows of entries -/

namespace Row

variable {met : List (Nat × Item)} {before entries : List (Value × Item)}
  {written : List (Nat × Nat)}

/-- Under a text lies the item of the last node that is written under it. -/
theorem find?_text {g : Graph}
    (hreads : ∀ n x, met.lookup n = some (.scalar x) → g.Reads n x)
    (h : Row met before written entries) (word : String) :
    Entries.find? (.text word) entries
      = match written.reverse.find? fun e => g.word? e.1 == some word with
        | some e => met.lookup e.2
        | none => Entries.find? (.text word) before := by
  induction h with
  | nil => rfl
  | @cons k v x i before entries rest hkey hvalue _ ih =>
    rw [ih, List.reverse_cons, List.find?_append]
    cases rest.reverse.find? fun e => g.word? e.1 == some word with
    | some e => rfl
    | none =>
      -- no later node is written under the text, so this one counts if its key is the text
      have hword : g.word? k = some word ↔ x = .text word :=
        (hreads k x hkey).word?_eq_some_iff
      rw [Option.none_or, List.find?_singleton]
      by_cases hx : x = .text word
      · rw [if_pos (beq_iff_eq.mpr (hword.mpr hx)), hx]
        exact Entries.find?_insert_self.trans hvalue.symm
      · rw [if_neg fun heq => hx (hword.mp (beq_iff_eq.mp heq))]
        exact Entries.find?_insert_of_ne fun heq => hx (Value.scalar.inj heq)

theorem exists_value (h : Row met before written entries) {e : Nat × Nat} (he : e ∈ written) :
    ∃ i, met.lookup e.2 = some i := by
  induction h with
  | nil => cases he
  | cons _ hvalue _ ih =>
    rcases List.mem_cons.mp he with rfl | he
    · exact ⟨_, hvalue⟩
    · exact ih he

/-- Keys that were there stay. -/
theorem keys_subset (h : Row met before written entries) :
    before.map (·.1) ⊆ entries.map (·.1) := by
  induction h with
  | nil => exact List.Subset.refl _
  | @cons k v x i before entries rest _ _ _ ih =>
    rw [Entries.keys_insert] at ih
    exact List.Subset.trans (List.subset_append_left _ _) ih

/-- Every key that is written is among the keys, or the same as one of them. -/
theorem exists_key (h : Row met before written entries) {e : Nat × Nat} (he : e ∈ written) :
    ∃ x, met.lookup e.1 = some (.scalar x) ∧
      ∃ key ∈ entries.map (·.1), key = .scalar x ∨ key.sameKey (.scalar x) = true := by
  induction h with
  | nil => cases he
  | @cons k v x i before entries rest hkey _ hrest ih =>
    rcases List.mem_cons.mp he with rfl | he
    · refine ⟨x, hkey, ?_⟩
      have hkeys := hrest.keys_subset
      rw [Entries.keys_insert, List.append_subset] at hkeys
      cases hfind : Entries.find? (.scalar x) before with
      | some j =>
        -- an entry that was there under a key that is the same has kept its own
        obtain ⟨key, hmem, hsame⟩ := Entries.mem_of_find? hfind
        exact ⟨key, hkeys.1 (List.mem_map_of_mem hmem), .inr hsame⟩
      | none =>
        rw [hfind] at hkeys
        exact ⟨.scalar x, hkeys.2 List.mem_cons_self, .inl rfl⟩
    · exact ih he

end Row

namespace Build

variable {g : Graph} {b b' : Build} {n : Nat} {i : Item} {busy : List (Nat × Nat)}

/-! ### Cells -/

/-- A cell holds what is written in a node, if the node is a mapping. -/
def Holds (b : Build) (n : Nat) (c : Cell) : Prop :=
  ∀ written, b.graph.vertex? n = some ⟨.mapping, .mapping written⟩ →
    ∃ own, c = .mapping own ∧ Row b.items [] written own

theorem Holds.mono {c : Cell} (hc : b.Holds n c) (hgraph : b'.graph = b.graph)
    (hitems : ∀ m j, b.items.lookup m = some j → b'.items.lookup m = some j) : b'.Holds n c := by
  intro written hvertex
  rw [hgraph] at hvertex
  obtain ⟨own, rfl, hrow⟩ := hc written hvertex
  exact ⟨own, rfl, hrow.mono hitems⟩

/-- What a collection is filled with is what is written there, where nothing is merged. -/
theorem contents_written (hunmerged : b.graph.isUnmerged = true) {c : Cell}
    (h : b.contents n = .ok (c, b')) : ReflTransGen Adds b b' ∧ b'.Holds n c := by
  obtain ⟨g, hg, hadds, hfills⟩ := contents_met h
  have hgraph : g = b.graph := by
    rcases hg with rfl | ⟨written, hwritten, hflatten⟩
    · rfl
    · cases (Graph.flatten_of_isUnmerged hunmerged hwritten).symm.trans hflatten
      rfl
  subst hgraph
  refine ⟨hadds, fun written hvertex => ?_⟩
  rw [(extends_of_adds hadds).graph] at hvertex
  have hvertex : b.graph.vertex? n = some ⟨.mapping, .mapping written⟩ := hvertex
  rw [Graph.tag_of_vertex? hvertex] at hfills
  cases hfills with
  | list htag _ => exact absurd rfl htag
  | set htag => exact absurd rfl htag
  | mapping hrow =>
    rw [Graph.entries?_eq_some_iff.mpr ⟨_, hvertex⟩] at hrow
    exact ⟨_, rfl, hrow⟩

/-! ### The invariant -/

/-- An object waits, is being filled, or holds what is written in its node. -/
def IsTracked (b : Build) (busy : List (Nat × Nat)) (n a : Nat) : Prop :=
  (n, a) ∈ busy ++ b.waiting ∨ ∃ c, b.store.cell? a = some c ∧ b.Holds n c

/-- What has been built so far is what is written in a graph, while the objects of `busy` are
being filled.  No two nodes have one object, so filling one spoils no other. -/
structure Faithful (g : Graph) (busy : List (Nat × Nat)) (b : Build) : Prop where
  graph : b.graph = g
  within : ∀ e ∈ b.items, e.1 < g.vertices.size
  once : (b.items.map (·.1)).Nodup
  scalars : ∀ n x, b.items.lookup n = some (.scalar x) → g.Reads n x
  objects : ∀ n a, b.items.lookup n = some (.object a) → a < b.store.size ∧ b.IsTracked busy n a
  apart : ∀ n m a, b.items.lookup n = some (.object a) → b.items.lookup m = some (.object a) →
    n = m
  waits : ∀ w ∈ busy ++ b.waiting, b.items.lookup w.1 = some (.object w.2)

namespace Faithful

/-- New cells and marks change nothing of what has been built. -/
theorem grow (h : Faithful g busy b) {s : Store} (hgrows : b.store.GrowsTo s) :
    Faithful g busy { b with store := s } := by
  refine ⟨h.graph, h.within, h.once, h.scalars, fun n a hn => ?_, h.apart, h.waits⟩
  obtain ⟨ha, htracked⟩ := h.objects n a hn
  refine ⟨Nat.lt_of_lt_of_le ha hgrows.size_le, htracked.imp_right ?_⟩
  rintro ⟨c, hc, hholds⟩
  exact ⟨c, hgrows a c hc, hholds⟩

/-- A node may be met for the first time. -/
theorem meet (h : Faithful g busy b) (hn : n < g.vertices.size) (hfresh : b.items.lookup n = none)
    {more : List (Nat × Nat)} (hscalar : ∀ x, i = .scalar x → g.Reads n x)
    (hobject : ∀ a, i = .object a → a < b.store.size ∧ (n, a) ∈ more ∧
      ∀ m, b.items.lookup m ≠ some (.object a))
    (hmore : ∀ w ∈ more, w.1 = n ∧ i = .object w.2) :
    Faithful g busy { b with items := (n, i) :: b.items, waiting := b.waiting ++ more } := by
  have hcases {m : Nat} {j : Item} (hm : ((n, i) :: b.items).lookup m = some j) :
      m = n ∧ i = j ∨ b.items.lookup m = some j := by
    rw [List.lookup_cons] at hm
    split at hm
    · exact .inl ⟨beq_iff_eq.mp ‹_›, Option.some.inj hm⟩
    · exact .inr hm
  have hkept {m : Nat} {j : Item} (hm : b.items.lookup m = some j) :
      ((n, i) :: b.items).lookup m = some j := lookup_cons_of_fresh hfresh i hm
  constructor
  case graph => exact h.graph
  case within => exact List.forall_mem_cons.mpr ⟨hn, h.within⟩
  case once =>
    refine List.nodup_cons.mpr ⟨fun hmem => ?_, h.once⟩
    obtain ⟨e, he, hkey⟩ := List.mem_map.mp hmem
    have hne := List.lookup_eq_none_iff.mp hfresh e he
    rw [hkey, bne_self_eq_false] at hne
    cases hne
  case scalars =>
    intro m x hm
    rcases hcases hm with ⟨rfl, hi⟩ | hbefore
    · exact hscalar x hi
    · exact h.scalars m x hbefore
  case objects =>
    intro m a hm
    rcases hcases hm with ⟨rfl, hi⟩ | hbefore
    · obtain ⟨ha, hmem, -⟩ := hobject a hi
      exact ⟨ha, .inl (List.mem_append_right _ (List.mem_append_right _ hmem))⟩
    · obtain ⟨ha, htracked⟩ := h.objects m a hbefore
      refine ⟨ha, htracked.imp (fun hopen => ?_) ?_⟩
      · rw [← List.append_assoc]
        exact List.mem_append_left _ hopen
      · rintro ⟨c, hc, hholds⟩
        exact ⟨c, hc, hholds.mono rfl fun _ _ => hkept⟩
  case apart =>
    intro m k a hm hk
    rcases hcases hm with ⟨rfl, hi⟩ | hm' <;> rcases hcases hk with ⟨rfl, hi'⟩ | hk'
    · rfl
    · exact absurd hk' ((hobject a hi).2.2 k)
    · exact absurd hm' ((hobject a hi').2.2 m)
    · exact h.apart m k a hm' hk'
  case waits =>
    rw [← List.append_assoc]
    refine List.forall_mem_append.mpr ⟨fun w hw => hkept (h.waits w hw), fun w hw => ?_⟩
    obtain ⟨hnode, hi⟩ := hmore w hw
    rw [hnode, hi]
    exact List.lookup_cons_self

/-- Every step keeps the invariant. -/
theorem adds (h : Faithful g busy b) (hstep : Adds b b') : Faithful g busy b' := by
  cases hstep with
  | @scalar n x hfresh hscalar =>
    have hreads : g.Reads n x := ⟨b, h.graph, h.graph ▸ hscalar⟩
    have hn : n < g.vertices.size := Graph.lt_size_of_tag fun htag => by
      rw [h.graph, htag] at hscalar
      cases hscalar
    -- a mark that is taken is no cell
    obtain ⟨mark, heq⟩ := b.rememberScalar_eq n x
    have hmarked : Faithful g busy { b with store := { b.store with nextMark := mark } } :=
      h.grow fun _ _ hc => hc
    have hmet := hmarked.meet (i := .scalar x) hn hfresh (fun y hy => by cases hy; exact hreads)
      nofun (List.forall_mem_nil _)
    rw [List.append_nil] at hmet
    rw [heq]
    exact hmet
  | @collection n c hfresh hcell =>
    have hn : n < g.vertices.size := Graph.lt_size_of_tag fun htag => by
      rw [h.graph, htag] at hcell
      cases hcell
    have hgrown := h.grow (Store.growsTo_add b.store c)
    refine hgrown.meet hn hfresh nofun (fun a ha => ?_) fun w hw => ?_
    · -- the address is new: all objects so far lie below it
      cases ha
      refine ⟨Store.holds_add, List.mem_singleton_self _, fun m hm => ?_⟩
      exact absurd (h.objects m _ hm).1 (Nat.lt_irrefl _)
    · cases List.mem_singleton.mp hw
      exact ⟨rfl, rfl⟩
  | pair items => exact h.grow (Store.growsTo_add b.store _)

theorem run_adds (h : Faithful g busy b) (hrun : ReflTransGen Adds b b') : Faithful g busy b' := by
  induction hrun with
  | refl => exact h
  | tail _ hstep ih => exact ih.adds hstep

/-- No more nodes are met than there are. -/
theorem length_items_le (h : Faithful g busy b) : b.items.length ≤ g.vertices.size := by
  have hsubset : b.items.map (·.1) ⊆ List.range g.vertices.size := by
    intro n hn
    obtain ⟨e, he, rfl⟩ := List.mem_map.mp hn
    exact List.mem_range.mpr (h.within e he)
  have hle := (List.subperm_of_subset h.once hsubset).length_le
  rwa [List.length_map, List.length_range] at hle

/-- The first object that waits is taken up. -/
theorem takeUp (h : Faithful g [] b) {w : Nat × Nat} {rest : List (Nat × Nat)}
    (hwaiting : b.waiting = w :: rest) : Faithful g [w] { b with waiting := rest } := by
  have hwaits := h.waits
  have hobjects := h.objects
  unfold IsTracked at hobjects
  rw [hwaiting] at hwaits hobjects
  exact ⟨h.graph, h.within, h.once, h.scalars, hobjects, h.apart, hwaits⟩

/-- The object that is being filled holds what is written there. -/
theorem fill {a : Nat} (h : Faithful g [(n, a)] b) {c : Cell} (hc : b.Holds n c) :
    Faithful g [] { b with store := b.store.put a c } := by
  refine ⟨h.graph, h.within, h.once, h.scalars, fun m a' hm => ?_, h.apart,
    fun w hw => h.waits w (List.mem_cons_of_mem _ hw)⟩
  obtain ⟨ha', htracked⟩ := h.objects m a' hm
  have hn : b.items.lookup n = some (.object a) := h.waits (n, a) List.mem_cons_self
  refine ⟨Store.size_put.symm ▸ ha', ?_⟩
  -- the object is that of this node alone, so no other loses what it holds
  by_cases haddress : a' = a
  · subst haddress
    cases h.apart m n a' hm hn
    exact .inr ⟨c, Array.getElem?_setIfInBounds_self_of_lt ha', hc⟩
  · rcases htracked with hopen | ⟨d, hd, hholds⟩
    · rcases List.mem_cons.mp hopen with heq | hopen
      · exact absurd (Prod.ext_iff.mp heq).2 haddress
      · exact .inl hopen
    · refine .inr ⟨d, ?_, hholds⟩
      exact (Array.getElem?_setIfInBounds_ne (Ne.symm haddress)).trans hd

end Faithful

/-- **In the end nothing waits**, and what has been built is what is written: each run fills one
object, and for each object that waits a node has been met. -/
theorem run_faithful (hg : g.isUnmerged = true) {fuel : Nat} (hb : Faithful g [] b)
    (hfuel : b.waiting.length + g.vertices.size ≤ fuel + b.items.length)
    (h : run fuel b = .ok b') :
    Faithful g [] b' ∧ b'.waiting = [] ∧
      ∀ n i, b.items.lookup n = some i → b'.items.lookup n = some i := by
  induction fuel generalizing b with
  | zero =>
    cases h
    have hle := hb.length_items_le
    exact ⟨hb, List.length_eq_zero_iff.mp (by omega), fun _ _ hn => hn⟩
  | succ fuel ih =>
    rw [run] at h
    split at h
    · cases h
      exact ⟨hb, ‹_›, fun _ _ hn => hn⟩
    · rename_i n a rest hwaiting
      obtain ⟨⟨c, b₁⟩, hcontents, h⟩ := except_bind_eq_ok_iff.mp h
      have hbusy := hb.takeUp hwaiting
      have hgraph : ({ b with waiting := rest } : Build).graph.isUnmerged = true := hb.graph ▸ hg
      obtain ⟨hadds, hholds⟩ := contents_written hgraph hcontents
      have hkept := extends_of_adds hadds
      -- one object less waits, and for each that has been added a node has been met
      have hfuel' : b₁.waiting.length + g.vertices.size ≤ fuel + b₁.items.length := by
        have hcount : b₁.waiting.length + b.items.length ≤ rest.length + b₁.items.length :=
          hkept.count
        rw [hwaiting, List.length_cons] at hfuel
        omega
      obtain ⟨hlast, hnone, hitems⟩ := ih ((hbusy.run_adds hadds).fill hholds) hfuel' h
      exact ⟨hlast, hnone, fun m j hm => hitems m j (hkept.items m j hm)⟩

end Build

/-! ### Documents -/

namespace Graph

variable {g : Graph} {t : Store} {met : List (Nat × Item)} {n m root : Nat} {i : Item}

/-- The items of nodes are what is written in a graph. -/
structure Shows (g : Graph) (met : List (Nat × Item)) (t : Store) : Prop where
  scalars : ∀ n x, met.lookup n = some (.scalar x) → g.Reads n x
  mappings : ∀ n i written, met.lookup n = some i →
    g.vertex? n = some ⟨.mapping, .mapping written⟩ →
    ∃ own, t.entries? i = some own ∧ Row met [] written own

/-- **What is built is what is written.** -/
theorem shows_of_build {s : Store} (hg : g.isUnmerged = true)
    (h : build g root s = .ok (i, t)) : ∃ met, met.lookup root = some i ∧ g.Shows met t := by
  obtain ⟨⟨j, b⟩, hitem, h⟩ := except_bind_eq_ok_iff.mp h
  obtain ⟨b', hrun, h⟩ := except_bind_eq_ok_iff.mp h
  cases h
  obtain ⟨hadds, hroot⟩ := Build.item_met hitem
  have hstart : Build.Faithful g [] ⟨g, s, [], []⟩ :=
    ⟨rfl, nofun, .nil, nofun, nofun, nofun, nofun⟩
  have hcount : b.waiting.length + 0 ≤ 0 + b.items.length := (Build.extends_of_adds hadds).count
  obtain ⟨hlast, hnone, hitems⟩ :=
    Build.run_faithful hg (hstart.run_adds hadds) (by omega) hrun
  refine ⟨b'.items, hitems root i hroot, hlast.scalars, fun n i written hn hvertex => ?_⟩
  cases i with
  | scalar x =>
    obtain ⟨c, rfl, hscalar⟩ := hlast.scalars n x hn
    rw [tag_of_vertex? hvertex] at hscalar
    cases hscalar
  | object a =>
    rcases (hlast.objects n a hn).2 with hopen | ⟨c, hc, hholds⟩
    · rw [hnone] at hopen
      cases hopen
    · rw [← hlast.graph] at hvertex
      obtain ⟨own, rfl, hrow⟩ := hholds written hvertex
      exact ⟨own, Store.entries?_eq_some_iff.mpr ⟨a, rfl, hc⟩, hrow⟩

namespace Shows

theorem exists_under (h : g.Shows met t) (hn : met.lookup n = some i) {word : String}
    (hunder : g.under? n word = some m) :
    ∃ j, (t.entries? i).bind (Entries.find? (.text word)) = some j ∧ met.lookup m = some j := by
  unfold under? at hunder
  split at hunder
  · rename_i written hvertex
    obtain ⟨e, hfind, rfl⟩ := Option.map_eq_some_iff.mp hunder
    obtain ⟨own, hown, hrow⟩ := h.mappings n i written hn hvertex
    have hkey := hrow.find?_text h.scalars word
    rw [hfind] at hkey
    obtain ⟨j, hj⟩ := hrow.exists_value (List.mem_reverse.mp (List.mem_of_find?_eq_some hfind))
    rw [hown, Option.bind_some]
    exact ⟨j, hkey.trans hj, hj⟩
  · cases hunder

/-- **Under a path of texts** lies what is built of the node that is written there. -/
theorem find? (h : g.Shows met t) (hn : met.lookup n = some i) {path : List String}
    (hpath : g.find? n path = some m) : ∃ j, t.find? i path = some j ∧ met.lookup m = some j := by
  induction path generalizing n i with
  | nil =>
    cases hpath
    exact ⟨i, rfl, hn⟩
  | cons word rest ih =>
    obtain ⟨k, hunder, hrest⟩ := Option.bind_eq_some_iff.mp hpath
    obtain ⟨j, hfirst, hk⟩ := h.exists_under hn hunder
    obtain ⟨last, hlast, hm⟩ := ih hk hrest
    refine ⟨last, ?_, hm⟩
    rw [Store.find?_cons, hfirst]
    exact hlast

end Shows

end Graph

end Winnow.Yaml
