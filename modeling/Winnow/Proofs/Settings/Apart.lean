/-
Winnow/Proofs/Settings/Apart.lean

The layer of a source stays as it is while other sources are asked for changes.

The layer has objects of its own when all other layers can be paired with themselves by
a pairing that leaves these objects out (`KeptApart`).  A request for another source
looks at the layer of that source only, so it leaves alone what has no partner, and the
objects stay apart (`KeptApart.both`).  Merging all layers, which comes with putting a
setting under its key, adds objects, and these may refer to anything: the pairing goes on
behind them (`KeptApart.grown`).

So over a whole history of such requests the layer is the same item, and its objects
are as they were, if they are all its own (`OwnsLayer.run`).
-/
import Winnow.Proofs.Settings.Histories

namespace Winnow

/-- A request is about one source, which is another than a given one. -/
def Request.IsBeside (x : Source) (request : Request) : Prop :=
  ∃ y, request.source? = some y ∧ y ≠ x

namespace Registry

open Store (Twins)

variable {P : Pairing} {S : Nat → Prop} {x y : Source} {n : Nat} {r r' q : Registry} {s : Store}
  {request : Request}

/-! ### Objects of one source -/

/-- The objects in `S` are not among those of the layers of other sources, which are paired with
themselves by `P`. -/
structure KeptApart (P : Pairing) (S : Nat → Prop) (x : Source) (n : Nat) (r : Registry) :
    Prop where
  twins : Twins P r.store r.store
  others : ∀ other ≠ x, Option.Rel (Item.Paired P) (r.layers n other) (r.layers n other)
  there {a : Nat} : S a → a < r.store.size
  alone {a b : Nat} : S a → ¬P a b

/-- The layer of a source has objects of its own. -/
def OwnsLayer (x : Source) (n : Nat) (r : Registry) : Prop :=
  ∃ P S, KeptApart P S x n r ∧
    ∀ path a, (r.layers n).itemAt? r.store path x = some (.object a) → S a

theorem ownsLayer_of_none (h : r.layers n x = none) : r.OwnsLayer x n := by
  refine ⟨Eq, fun _ => False, ⟨Store.twins_refl _, fun _ _ => rel_self _, False.elim,
    fun hfalse _ => hfalse⟩, fun path a ha => ?_⟩
  rw [Layers.itemAt?, h] at ha
  cases ha

/-- The layer of a source is the same item in two registries, and the objects in `S` are the
same. -/
structure SameLayer (S : Nat → Prop) (x : Source) (n : Nat) (r r' : Registry) : Prop where
  layer : r'.layers n x = r.layers n x
  cells : ∀ a, S a → r'.store.cell? a = r.store.cell? a

theorem SameLayer.refl (S : Nat → Prop) (x : Source) (n : Nat) (r : Registry) :
    SameLayer S x n r r := ⟨rfl, fun _ _ => rfl⟩

theorem SameLayer.trans (h : SameLayer S x n r r') (h' : SameLayer S x n r' q) :
    SameLayer S x n r q :=
  ⟨h'.layer.trans h.layer, fun a ha => (h'.cells a ha).trans (h.cells a ha)⟩

/-! ### Requests for other sources -/

/-- What touches another source leaves the objects apart, and as they were. -/
theorem KeptApart.both {f : Registry → Registry} (h : KeptApart P S x n r)
    (hn : n < r.settings.length) (hf : Touches n y f) (hne : y ≠ x) :
    KeptApart P S x n (f r) ∧ SameLayer S x n r (f r) := by
  obtain ⟨hdone, hlayer, hothers, -⟩ := hf P r r hn hn h.twins (h.others y hne)
  refine ⟨⟨hdone.twins, fun other hother => ?_, fun ha => ?_, h.alone⟩, hothers x hne.symm,
    fun a ha => hdone.keeps a (h.there ha) fun b => h.alone ha⟩
  · by_cases hy : other = y
    · rw [hy]
      exact hlayer
    · rw [hothers other hy]
      exact h.others other hother
  · exact Nat.lt_of_lt_of_le (h.there ha) hdone.size_le

/-- Objects are added, which may refer to anything. -/
theorem KeptApart.grown (h : KeptApart P S x n r) (hr : r.Sound) (hs : r.store.GrowsTo s) :
    KeptApart (P.realigned r.store.size s.size s.size) S x n { r with store := s }
      ∧ SameLayer S x n r { r with store := s } := by
  have hkeeps (a b : Nat) (_ : P a b) (ha : a < r.store.size) : s.cell? a = r.store.cell? a :=
    hs.cell?_eq ha
  have hkeeps' (a b : Nat) (_ : P a b) (hb : b < r.store.size) : s.cell? b = r.store.cell? b :=
    hs.cell?_eq hb
  refine ⟨⟨h.twins.realign hr.store hs.size_le hs.size_le hkeeps hkeeps',
    fun other hother => layer_realigned hr (h.others other hother) _ _,
    fun ha => Nat.lt_of_lt_of_le (h.there ha) hs.size_le, ?_⟩, rfl,
    fun a ha => hs.cell?_eq (h.there ha)⟩
  rintro a b ha (⟨-, hab⟩ | ⟨k, rfl, -⟩)
  · exact h.alone ha hab
  · have hlt := h.there ha
    have hle := hs.size_le
    omega

/-- **A request for another source** leaves the objects apart, and as they were. -/
theorem KeptApart.perform [Stack] (h : KeptApart P S x n r) (hr : r.Unwatched n)
    (hvalue : request.IsSound) (hsource : request.source? = some y) (hne : y ≠ x) :
    ∃ Q, KeptApart Q S x n (request.perform n r) ∧ SameLayer S x n r (request.perform n r) := by
  cases request with
  | loadFile f path source mark =>
    cases hsource
    exact ⟨P, h.both hr.there (touches_loadFile n f path y mark) hne⟩
  | load value source =>
    cases hsource
    exact ⟨P, h.both hr.there (touches_loadCopy n value y) hne⟩
  | set key value source =>
    cases hsource
    obtain ⟨hadopted, hheld⟩ := Store.adopt_sound hr.sound.store hvalue.1 hvalue.2
    have hr' := hr.sound.withStore hadopted
    obtain ⟨s, hs, heq⟩ := exists_store_of_set hr' hheld hr.nobody (Setting.keyParts key) y
    obtain ⟨hassign, hsame⟩ :=
      h.both hr.there (touches_assign n (Setting.keyParts key) value y) hne
    obtain ⟨hgrown, hsame'⟩ := hassign.grown (assign_leadsTo hr' hheld rfl).sound hs
    show ∃ Q, KeptApart Q S x n (Registry.set _ n _ _ y).2
      ∧ SameLayer S x n r (Registry.set _ n _ _ y).2
    rw [heq]
    exact ⟨_, hgrown, hsame.trans hsame'⟩
  | clear source =>
    cases hsource
    exact ⟨P, h.both hr.there (touches_clear n y) hne⟩

/-! ### Histories -/

theorem keptApart_run [Stack] {history : List Request} (h : KeptApart P S x n r)
    (hr : r.Unwatched n) (hvalue : ∀ request ∈ history, request.IsSound)
    (hbeside : ∀ request ∈ history, request.IsBeside x) :
    SameLayer S x n r (run n history r) ∧ (run n history r).Unwatched n := by
  induction history generalizing r P with
  | nil => exact ⟨.refl S x n r, hr⟩
  | cons request rest ih =>
    obtain ⟨hfirst, hrest⟩ := List.forall_mem_cons.mp hvalue
    obtain ⟨⟨y, hsource, hne⟩, hothers⟩ := List.forall_mem_cons.mp hbeside
    obtain ⟨Q, hkept, hsame⟩ := h.perform hr hfirst hsource hne
    obtain ⟨hrun, hunwatched⟩ := ih hkept (hr.perform hfirst) hrest hothers
    exact ⟨hsame.trans hrun, hunwatched⟩

/-- **Over a history of requests for other sources** a layer that has objects of its own stays as
it is. -/
theorem OwnsLayer.run [Stack] {history : List Request} (h : r.OwnsLayer x n) (hr : r.Unwatched n)
    (hhistory : ∀ request ∈ history, request.IsSound ∧ request.IsBeside x) :
    (run n history r).layers n x = r.layers n x ∧
      ∀ path a, (r.layers n).itemAt? r.store path x = some (.object a) →
        (run n history r).store.cell? a = r.store.cell? a := by
  obtain ⟨P, S, hkept, hown⟩ := h
  obtain ⟨hsame, -⟩ := keptApart_run hkept hr (fun request hmem => (hhistory request hmem).1)
    fun request hmem => (hhistory request hmem).2
  exact ⟨hsame.layer, fun path a ha => hsame.cells a (hown path a ha)⟩

end Registry

end Winnow
