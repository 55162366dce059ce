/-
Winnow/Proofs/Settings/Histories.lean

Taking a source away is as if it had never been there.

A history is a row of requests to some settings, each with any outcome: files and
values are loaded, settings are put under keys, sources are cleared.  The values are new
ones, so no two layers have an object in common.  Two runs are compared, one of the
whole history, and one without the requests that are about a source.  After each request
(`Separates`)

* the layers of the other sources are paired, object by object;
* the layer of the source has objects of its own, which are not paired.

A request for another source does the same in both runs, and leaves the objects of the
source alone (`Separated.both`); a request for the source leaves all objects alone that
are paired (`Separated.own`).  Merging all layers, which comes with putting a setting
under its key, adds objects that nothing refers to, and not the same ones in both runs:
the pairing goes on behind them (`Separated.grown`).

So when the source is cleared in the end, what is read is the same in both
(`clear_after_history`).
-/
import Winnow.Proofs.Settings.Defaults
import Winnow.Proofs.Settings.Order

namespace Winnow

open Store (Twins)

/-! ### Requests -/

/-- What is asked of settings.  A file may hold floats that are no numbers: their marks begin
with one that is given, and so do not depend on what has been read before.  A value is an object
of its own, with all its parts. -/
inductive Request
  | loadFile (f : Files) (path : String) (source : Source) (mark : Nat)
  | load (value : Stored) (source : Source)
  | set (key : String) (value : Stored) (source : Source)
  | clear (source : Option Source)

namespace Request

/-- The source that a request is about. -/
def source? : Request → Option Source
  | loadFile _ _ source _ => some source
  | load _ source => some source
  | set _ _ source => some source
  | clear source => source

/-- Nothing dangles in the value of a request. -/
def IsSound : Request → Prop
  | load value _ => value.store.Sound ∧ value.store.Holds value.item
  | set _ value _ => value.store.Sound ∧ value.store.Holds value.item
  | loadFile .. | clear _ => True

/-- What a request leaves, whether it succeeds or not.  A value becomes a new object first. -/
def perform [Stack] (n : Nat) : Request → Registry → Registry
  | loadFile f path source mark, r =>
    (({ r with store := { r.store with nextMark := mark } } : Registry).loadFile n f path source).2
  | load value source, r =>
    ({ r with store := (r.store.adopt value).2 } : Registry).loadCopy n (r.store.adopt value).1
      source
  | set key value source, r =>
    (({ r with store := (r.store.adopt value).2 } : Registry).set n (Setting.keyParts key)
      (r.store.adopt value).1 source).2
  | clear source, r => r.clear n source

end Request

/-- Two stored values look the same, however deep one looks. -/
def Stored.LooksLike (v w : Stored) : Prop :=
  ∀ depth, v.store.viewTo depth v.item = w.store.viewTo depth w.item

namespace Registry

variable {P Q : Pairing} {r q : Registry} {n : Nat} {x y : Source} {s t : Store}
  {request : Request} {value : Item}

/-- What a history leaves. -/
def run [Stack] (n : Nat) (history : List Request) (r : Registry) : Registry :=
  history.foldl (fun r request => request.perform n r) r

/-! ### Settings that nobody watches -/

/-- Settings that are there and that nobody watches, in a registry where nothing dangles. -/
structure Unwatched (n : Nat) (r : Registry) : Prop where
  sound : r.Sound
  there : n < r.settings.length
  nobody : r.watchers n = []

theorem length_setLayers (r : Registry) (n : Nat) (l : Layers) (s : Store) :
    (r.setLayers n l s).settings.length = r.settings.length := List.length_modify _ _ _

/-- A change that nobody is told of adds objects at most, after the setting has been put under
its key. -/
theorem exists_store_of_set [Stack] (hr : r.Sound) (hvalue : r.store.Holds value)
    (hnobody : r.watchers n = []) (path : List String) (source : Source) :
    ∃ s, (r.assign n path value source).2.store.GrowsTo s
      ∧ (r.set n path value source).2 = { (r.assign n path value source).2 with store := s } := by
  rcases hassign : r.assign n path value source with ⟨_ | _, r₁⟩
  · refine ⟨r₁.store, .refl _, ?_⟩
    rw [set_of_assign_error hassign]
  · have hset := set_eq_announce hassign
    have hsound := (assign_leadsTo hr hvalue hassign).sound
    have hwatchers := (sameWatchers_assign hassign).watchers n
    rw [hset]
    unfold announce Registry.merged
    rcases hmerged : (r₁.layers n).merged r₁.store with ⟨_ | item, s⟩
    · exact ⟨s, (Layers.merged_sound hsound.store hmerged).1, rfl⟩
    · refine ⟨s, (Layers.merged_sound hsound.store hmerged).1, ?_⟩
      show (inform (setTo Stack.rounds) item (r₁.watchers n) { r₁ with store := s }).2 = _
      rw [hwatchers, hnobody]
      rfl

namespace Unwatched

theorem withStore (h : r.Unwatched n) (hs : r.store.LeadsTo s) :
    ({ r with store := s } : Registry).Unwatched n := ⟨h.sound.withStore hs, h.there, h.nobody⟩

theorem withLayers (h : r.Unwatched n) {l : Layers} (hr : (r.setLayers n l s).Sound) :
    (r.setLayers n l s).Unwatched n :=
  ⟨hr, (length_setLayers r n l s).symm ▸ h.there,
    ((sameWatchers_setLayers r n l s).watchers n).trans h.nobody⟩

theorem loadFile (h : r.Unwatched n) (f : Files) (path : String) (source : Source) :
    (r.loadFile n f path source).2.Unwatched n := by
  refine ⟨loadFile_sound h.sound n f path source, ?_,
    ((sameWatchers_loadFile r n f path source).watchers n).trans h.nobody⟩
  unfold Registry.loadFile
  split
  · rw [length_setLayers]
    exact h.there
  · exact h.there

theorem set [Stack] (h : r.Unwatched n) (hvalue : r.store.Holds value) (path : List String)
    (source : Source) : (r.set n path value source).2.Unwatched n := by
  have hset := (set_leadsTo h.sound hvalue n path source).sound
  obtain ⟨s, -, heq⟩ := exists_store_of_set h.sound hvalue h.nobody path source
  rw [heq, assign_snd] at hset ⊢
  exact h.withLayers hset

theorem clear (h : r.Unwatched n) (source : Option Source) : (r.clear n source).Unwatched n := by
  refine ⟨clear_sound h.sound n source, ?_,
    ((sameWatchers_clear r n source).watchers n).trans h.nobody⟩
  exact Nat.lt_of_lt_of_eq h.there (List.length_modify _ _ _).symm

/-- Whatever is asked of them, nobody watches. -/
theorem perform [Stack] (h : r.Unwatched n) (hvalue : request.IsSound) :
    (request.perform n r).Unwatched n := by
  cases request with
  | loadFile f path source mark =>
    exact (h.withStore (Store.mark_leadsTo h.sound.store mark)).loadFile f path source
  | load value source =>
    obtain ⟨hadopted, hheld⟩ := Store.adopt_sound h.sound.store hvalue.1 hvalue.2
    exact h.withLayers (loadCopy_sound (h.withStore hadopted).sound hheld n source)
  | set key value source =>
    obtain ⟨hadopted, hheld⟩ := Store.adopt_sound h.sound.store hvalue.1 hvalue.2
    exact (h.withStore hadopted).set hheld _ source
  | clear source => exact h.clear source

end Unwatched

/-! ### Two registries, one without a source -/

/-- A registry has, beyond what another one has, the layer of a source, with objects of its own.
The layers of all other sources are paired by `P`, and `Q` marks the objects of the source. -/
structure Separates (P Q : Pairing) (x : Source) (n : Nat) (r q : Registry) : Prop where
  twins : Twins P r.store q.store
  own : Twins Q r.store r.store
  diagonal {a b : Nat} : Q a b → a = b
  apart {a b : Nat} : P a b → Q a a → r.store.size ≤ a
  others : ∀ other ≠ x, Option.Rel (Item.Paired P) (r.layers n other) (q.layers n other)
  layer : Option.Rel (Item.Paired Q) (r.layers n x) (r.layers n x)
  absent : q.layers n x = none

/-- A registry has, beyond what another one has, the layer of a source. -/
def Separated (x : Source) (n : Nat) (r q : Registry) : Prop := ∃ P Q, Separates P Q x n r q

theorem rel_self (i : Option Item) : Option.Rel (Item.Paired Eq) i i := by
  cases i with
  | none => exact .none
  | some i => exact .some (Item.paired_refl (fun _ => rfl) i)

/-- Where there is no layer of the source, it has no objects, and all others are paired with
themselves. -/
theorem separated_refl (h : r.layers n x = none) : Separated x n r r := by
  have hnone : Twins (fun a b => a = b ∧ r.store.size ≤ a) r.store r.store := by
    refine ⟨fun h k => h.1.symm.trans k.1, fun h k => h.1.trans k.1.symm,
      fun k => ⟨rfl, Nat.le_add_right _ _⟩, ?_⟩
    rintro a b ⟨rfl, ha⟩
    rw [show r.store.cell? a = none from Array.getElem?_eq_none ha]
    exact .none
  refine ⟨Eq, _, Store.twins_refl r.store, hnone, And.left, fun _ hQ => hQ.2,
    fun other _ => rel_self _, ?_, h⟩
  rw [h]
  exact .none

theorem layer_realigned (hr : r.Sound) {other : Option Item}
    (h : Option.Rel (Item.Paired P) (r.layers n y) other) (a b : Nat) :
    Option.Rel (Item.Paired (P.realigned r.store.size a b)) (r.layers n y) other := by
  rcases rel_cases h with ⟨hs, rfl⟩ | ⟨i, j, hs, rfl, hi⟩ <;> rw [hs]
  · exact .none
  · exact .some ((hr.layers n y i hs).realigned hi)

theorem Separates.diagonal_realigned (h : Separates P Q x n r q) {old m a b : Nat}
    (hab : Q.realigned old m m a b) : a = b := by
  rcases hab with ⟨-, hab⟩ | ⟨k, rfl, rfl⟩
  · exact h.diagonal hab
  · rfl

/-- Objects of the source have no partner. -/
theorem Separates.not_paired (h : Separates P Q x n r q) {a b c : Nat} (hab : Q a b)
    (ha : a < r.store.size) : ¬P a c := by
  cases h.diagonal hab
  exact fun hac => absurd (h.apart hac hab) (Nat.not_le.mpr ha)

/-- What touches another source does the same in both. -/
theorem Separated.both {f : Registry → Registry} (h : Separated x n r q) (hr : r.Sound)
    (hn : n < r.settings.length) (hn' : n < q.settings.length) (hf : Touches n y f)
    (hne : y ≠ x) : Separated x n (f r) (f q) := by
  obtain ⟨P, Q, h⟩ := h
  obtain ⟨hdone, hlayer, hothers, hothers'⟩ := hf P r q hn hn' h.twins (h.others y hne)
  have hkeeps (a b : Nat) (hab : Q a b) (ha : a < r.store.size) :
      (f r).store.cell? a = r.store.cell? a := hdone.keeps a ha fun _ => h.not_paired hab ha
  refine ⟨P, Q.realigned r.store.size (f r).store.size (f r).store.size, hdone.twins,
    h.own.realign hr.store hdone.size_le hdone.size_le hkeeps ?_, h.diagonal_realigned, ?_, ?_, ?_,
    ?_⟩
  · intro a b hab hb
    cases h.diagonal hab
    exact hkeeps a a hab hb
  · rintro a b hab (⟨ha, haa⟩ | ⟨k, rfl, -⟩)
    · exact absurd hab (h.not_paired haa ha)
    · exact Nat.le_add_right _ _
  · intro other hother
    by_cases hy : other = y
    · rw [hy]
      exact hlayer
    · rw [hothers other hy, hothers' other hy]
      exact h.others other hother
  · rw [hothers x hne.symm]
    exact layer_realigned hr h.layer _ _
  · rw [hothers' x hne.symm]
    exact h.absent

/-- What touches the source itself leaves all objects alone that are paired. -/
theorem Separated.own {f : Registry → Registry} (h : Separated x n r q) (hr : r.Sound)
    (hn : n < r.settings.length) (hf : Touches n x f) : Separated x n (f r) q := by
  obtain ⟨P, Q, h⟩ := h
  obtain ⟨hdone, hlayer, hothers, -⟩ := hf Q r r hn hn h.own h.layer
  refine ⟨P.realigned r.store.size (f r).store.size q.store.size, Q,
    h.twins.realign hr.store hdone.size_le (Nat.le_refl _) ?_ fun _ _ _ _ => rfl, hdone.twins,
    h.diagonal, ?_, ?_, hlayer, h.absent⟩
  · exact fun a b hab ha => hdone.keeps a ha fun c hac => h.not_paired hac ha hab
  · rintro a b (⟨ha, hab⟩ | ⟨k, rfl, -⟩) haa
    · exact absurd hab (h.not_paired haa ha)
    · exact Nat.le_add_right _ _
  · intro other hother
    rw [hothers other hother]
    exact layer_realigned hr (h.others other hother) _ _

/-- Objects that nothing refers to are added to both, not the same ones. -/
theorem Separated.grown (h : Separated x n r q) (hr : r.Sound) (hs : r.store.GrowsTo s)
    (ht : q.store.GrowsTo t) :
    Separated x n { r with store := s } { q with store := t } := by
  obtain ⟨P, Q, h⟩ := h
  refine ⟨P.realigned r.store.size s.size t.size, Q.realigned r.store.size s.size s.size,
    h.twins.realign hr.store hs.size_le ht.size_le (fun a b _ ha => hs.cell?_eq ha)
      fun a b _ hb => ht.cell?_eq hb,
    h.own.realign hr.store hs.size_le hs.size_le (fun a b _ ha => hs.cell?_eq ha)
      fun a b _ hb => hs.cell?_eq hb,
    h.diagonal_realigned, ?_, fun other hother => layer_realigned hr (h.others other hother) _ _,
    layer_realigned hr h.layer _ _, h.absent⟩
  rintro a b (⟨ha, hab⟩ | ⟨k, rfl, -⟩) (⟨-, haa⟩ | ⟨k', hk', -⟩)
  · exact absurd hab (h.not_paired haa ha)
  · exact Nat.le.intro hk'.symm
  · exact Nat.le_add_right _ _
  · exact Nat.le_add_right _ _

/-- All sources are cleared in both. -/
theorem Separated.clearAll (h : Separated x n r q) (hn : n < r.settings.length)
    (hn' : n < q.settings.length) : Separated x n (r.clear n none) (q.clear n none) := by
  obtain ⟨P, Q, h⟩ := h
  have hlayers : (r.clear n none).layers n = (r.layers n).clearAll := layers_clear hn none
  have hlayers' : (q.clear n none).layers n = (q.layers n).clearAll := layers_clear hn' none
  refine ⟨P, Q, h.twins, h.own, h.diagonal, h.apart, fun other hother => ?_, ?_, ?_⟩
  · rw [hlayers, hlayers']
    unfold Layers.clearAll
    split
    · exact h.others other hother
    · exact .none
  · rw [hlayers]
    unfold Layers.clearAll
    split
    · exact h.layer
    · exact .none
  · rw [hlayers']
    unfold Layers.clearAll
    split
    · exact h.absent
    · rfl

/-! ### Histories -/

/-- A request for another source is made in both runs. -/
theorem Separated.performBoth [Stack] (h : Separated x n r q) (hr : r.Unwatched n)
    (hq : q.Unwatched n) (hvalue : request.IsSound) (hne : request.source? ≠ some x) :
    Separated x n (request.perform n r) (request.perform n q) := by
  have hsound := hr.sound
  cases request with
  | loadFile f path source mark =>
    exact h.both hsound hr.there hq.there (touches_loadFile n f path source mark)
      fun heq => hne (congrArg some heq)
  | load value source =>
    exact h.both hsound hr.there hq.there (touches_loadCopy n value source)
      fun heq => hne (congrArg some heq)
  | set key value source =>
    obtain ⟨hadopted, hheld⟩ := Store.adopt_sound hsound.store hvalue.1 hvalue.2
    obtain ⟨hadopted', hheld'⟩ := Store.adopt_sound hq.sound.store hvalue.1 hvalue.2
    have hr' := hsound.withStore hadopted
    obtain ⟨s, hs, heq⟩ := exists_store_of_set hr' hheld hr.nobody (Setting.keyParts key) source
    obtain ⟨t, ht, heq'⟩ := exists_store_of_set (hq.sound.withStore hadopted') hheld' hq.nobody
      (Setting.keyParts key) source
    have hassign := h.both hsound hr.there hq.there
      (touches_assign n (Setting.keyParts key) value source) fun heq => hne (congrArg some heq)
    show Separated x n (Registry.set _ n _ _ source).2 (Registry.set _ n _ _ source).2
    rw [heq, heq']
    exact hassign.grown (assign_leadsTo hr' hheld rfl).sound hs ht
  | clear source =>
    cases source with
    | none => exact h.clearAll hr.there hq.there
    | some source =>
      exact h.both hsound hr.there hq.there (touches_clear n source)
        fun heq => hne (congrArg some heq)

/-- A request for the source is made in one run only. -/
theorem Separated.performOwn [Stack] (h : Separated x n r q) (hr : r.Unwatched n)
    (hvalue : request.IsSound) (heq : request.source? = some x) :
    Separated x n (request.perform n r) q := by
  have hsound := hr.sound
  cases request with
  | loadFile f path source mark =>
    cases heq
    exact h.own hsound hr.there (touches_loadFile n f path x mark)
  | load value source =>
    cases heq
    exact h.own hsound hr.there (touches_loadCopy n value x)
  | set key value source =>
    cases heq
    obtain ⟨hadopted, hheld⟩ := Store.adopt_sound hsound.store hvalue.1 hvalue.2
    have hr' := hsound.withStore hadopted
    obtain ⟨s, hs, heq⟩ := exists_store_of_set hr' hheld hr.nobody (Setting.keyParts key) x
    have hassign := h.own hsound hr.there (touches_assign n (Setting.keyParts key) value x)
    show Separated x n (Registry.set _ n _ _ x).2 q
    rw [heq]
    exact hassign.grown (assign_leadsTo hr' hheld rfl).sound hs (.refl q.store)
  | clear source =>
    cases heq
    exact h.own hsound hr.there (touches_clear n x)

/-- The requests of a history that are not about a source. -/
def withoutSource (x : Source) (history : List Request) : List Request :=
  history.filter fun request => request.source? ≠ some x

/-- **Two runs, one without the requests for a source**, have the same in all other layers. -/
theorem separated_run [Stack] {history : List Request} (h : Separated x n r q) (hr : r.Unwatched n)
    (hq : q.Unwatched n) (hvalue : ∀ request ∈ history, request.IsSound) :
    Separated x n (run n history r) (run n (withoutSource x history) q)
      ∧ (run n history r).Unwatched n := by
  induction history generalizing r q with
  | nil => exact ⟨h, hr⟩
  | cons request rest ih =>
    obtain ⟨hfirst, hrest⟩ := List.forall_mem_cons.mp hvalue
    unfold withoutSource
    by_cases heq : request.source? = some x
    · rw [List.filter_cons_of_neg (by simpa using heq)]
      exact ih (h.performOwn hr hfirst heq) (hr.perform hfirst) hq hrest
    · rw [List.filter_cons_of_pos (by simpa using heq)]
      exact ih (h.performBoth hr hq hfirst heq) (hr.perform hfirst) (hq.perform hfirst) hrest

/-! ### What is read -/

/-- All that can be read of settings is what can be read of others in another registry: every
setting or its default, every setting with its source, and all settings merged. -/
structure ReadsLike [Stack] (r : Registry) (n : Nat) (q : Registry) (m : Nat) : Prop where
  get (path : List String) (default : Value) :
    (r.getStored n path default).LooksLike (q.getStored m path default)
  find (path : List String) :
    Option.Rel (fun v w => v.1 = w.1 ∧ Stored.LooksLike ⟨r.store, v.2⟩ ⟨q.store, w.2⟩)
      (r.find? n path) (q.find? m path)
  merged : OutcomesAlike
    (fun i j => Stored.LooksLike ⟨(r.merged n).2.store, i⟩ ⟨(q.merged m).2.store, j⟩)
    (r.merged n).1 (q.merged m).1

/-- **Settings whose layers are paired read alike.** -/
theorem readsLike_of_paired [Stack] {m : Nat} (h : Twins P r.store q.store)
    (hl : Layers.Paired P (r.layers n) (q.layers m)) : ReadsLike r n q m := by
  have hfind (path : List String) :
      Option.Rel (Layers.FoundAlike P) (r.find? n path) (q.find? m path) := hl.find? h path
  refine ⟨fun path default => ?_, fun path => ?_, ?_⟩
  · unfold Registry.getStored
    rcases rel_cases (hfind path) with ⟨hs, ht⟩ | ⟨i, j, hs, ht, hi⟩ <;> rw [hs, ht]
    · exact fun _ => rfl
    · exact h.viewTo_eq hi.2
  · rcases rel_cases (hfind path) with ⟨hs, ht⟩ | ⟨i, j, hs, ht, hi⟩ <;> rw [hs, ht]
    · exact .none
    · exact .some ⟨hi.1, h.viewTo_eq hi.2⟩
  · obtain ⟨houtcome, hdone⟩ := hl.merged h
    unfold Registry.merged
    rcases hx : (r.layers n).merged r.store with ⟨v, u⟩
    rcases hy : (q.layers m).merged q.store with ⟨w, u'⟩
    rw [hx, hy] at houtcome hdone
    cases houtcome with
    | error fault => exact .error _
    | ok hi => exact .ok (hdone.twins.viewTo_eq hi)

/-- Clearing the source leaves what there would be without it. -/
theorem Separated.readsLike [Stack] (h : Separated x n r q) (hn : n < r.settings.length)
    (hx : x ≠ .defaults) : ReadsLike (r.clear n (some x)) n q n := by
  obtain ⟨P, Q, h⟩ := h
  have hlayers : (r.clear n (some x)).layers n = (r.layers n).clear x := layers_clear hn (some x)
  refine readsLike_of_paired (P := P) h.twins fun source => ?_
  rw [hlayers]
  by_cases hsource : source = x
  · rw [hsource, h.absent, Layers.clear, if_neg hx, Layers.update, if_pos rfl]
    exact .none
  · rw [Layers.clear_of_ne _ hsource]
    exact h.others source hsource

/-- Nobody watches new settings. -/
theorem unwatched_of_add {f : Files} {file : Option String} {environment : Option Environment}
    (hr : r.Sound) (hadd : r.add f file environment = (.ok n, q)) : q.Unwatched n := by
  have hq := add_sound hr f file environment
  rw [hadd] at hq
  obtain ⟨l, s, -, rfl, rfl⟩ := add_eq_ok_iff.mp hadd
  refine ⟨hq, ?_, ?_⟩
  · show r.settings.length < (r.settings ++ [_]).length
    rw [List.length_append]
    exact Nat.lt_succ_self _
  · unfold Registry.watchers withNew
    rw [List.getElem?_concat_length]
    rfl

/-- Nobody watches new settings, and they have no layer but that of the defaults. -/
theorem unwatched_new {f : Files} (hr : r.Sound) (hadd : r.add f none none = (.ok n, q)) :
    q.Unwatched n ∧ ∀ source ≠ .defaults, q.layers n source = none := by
  refine ⟨unwatched_of_add hr hadd, fun source hne => ?_⟩
  obtain ⟨l, s, hnew, rfl, rfl⟩ := add_eq_ok_iff.mp hadd
  rw [layers_withNew]
  cases hnew
  exact if_neg hne

/-- **Clearing a source is as if it had never been there**: after any history of new settings that
nobody watches, all that can be read is what can be read without the requests for that source.
The defaults are the exception: they are always there, and nothing that clears changes them. -/
theorem clear_after_history [Stack] {f : Files} {history : List Request} (hr : r.Reachable)
    (hadd : r.add f none none = (.ok n, q)) (hvalue : ∀ request ∈ history, request.IsSound)
    (hx : x ≠ .defaults) :
    ReadsLike ((run n history q).clear n (some x)) n (run n (withoutSource x history) q) n
      ∧ ∀ r' m, Reachable r' → m < r'.settings.length →
        (r'.layers m .defaults).isSome = true
          ∧ ∀ source, (r'.clear m source).layers m .defaults = r'.layers m .defaults
            ∧ (r'.clear m source).store = r'.store := by
  constructor
  · obtain ⟨hq, hlayers⟩ := unwatched_new hr.sound hadd
    obtain ⟨hrun, hunwatched⟩ := separated_run (separated_refl (hlayers x hx)) hq hq hvalue
    exact hrun.readsLike hunwatched.there hx
  · intro r' m hr' hm
    refine ⟨hr'.hasDefaults.layers hm, fun source => ⟨?_, rfl⟩⟩
    rw [layers_clear hm]
    cases source with
    | some source => exact Layers.clear_defaults _ source
    | none => exact Layers.clearAll_defaults _

/-- Requests for two sources; the third fails, because a number is in the way.  The value of the
first is a part of itself. -/
def attempts : List Request :=
  [.load ⟨⟨#[.mapping [(.text "a", .object 1)],
      .mapping [(.text "b", .scalar (.integer 1)), (.text "self", .object 0)]], 0⟩, .object 0⟩
      .runtime,
    .set "a.b" (.ofValue (.scalar (.integer 2))) .file,
    .set "a.b.c" (.ofValue (.scalar (.integer 3))) .runtime,
    .clear (some .environment)]

theorem isSound_attempts : ∀ request ∈ attempts, request.IsSound := by
  have hscalar (i : Int) : (Stored.ofValue (.scalar (.integer i))).store.Sound := sound_empty.store
  refine List.forall_mem_cons.mpr ⟨⟨?_, Nat.zero_lt_two⟩, List.forall_mem_cons.mpr
    ⟨⟨hscalar 2, trivial⟩, List.forall_mem_cons.mpr
      ⟨⟨hscalar 3, trivial⟩, List.forall_mem_singleton.mpr trivial⟩⟩⟩
  rintro (_ | _ | a) c hc
  · cases hc
    exact Store.fits_mapping.mpr
      ⟨List.forall_mem_singleton.mpr Nat.one_lt_two, List.pairwise_singleton _ _⟩
  · cases hc
    exact Store.fits_mapping.mpr ⟨List.forall_mem_cons.mpr
      ⟨trivial, List.forall_mem_singleton.mpr Nat.zero_lt_two⟩,
      Entries.distinctKeys_pair (by decide)⟩
  · cases hc

/-- New settings. -/
def atStart : Registry := (empty.add .empty none none).2

open scoped Stack in
/-- The setting of the program hides that of the file until it is cleared. -/
theorem clear_after_history_attempts :
    empty.add .empty none none = (.ok 0, atStart)
      ∧ ((run 0 attempts atStart).find? 0 ["a", "b"]).map (·.1) = some .runtime
      ∧ (((run 0 attempts atStart).clear 0 (some .runtime)).find? 0 ["a", "b"]).map (·.1)
        = some .file
      ∧ ReadsLike ((run 0 attempts atStart).clear 0 (some .runtime)) 0
        (run 0 [.set "a.b" (.ofValue (.scalar (.integer 2))) .file, .clear (some .environment)]
          atStart) 0 := by
  have hadd : empty.add .empty none none = (.ok 0, atStart) := rfl
  obtain ⟨halike, -⟩ := clear_after_history .empty hadd isSound_attempts
    (show Source.runtime ≠ .defaults by decide)
  exact ⟨hadd, by decide +kernel, by decide +kernel, halike⟩

end Registry

end Winnow
