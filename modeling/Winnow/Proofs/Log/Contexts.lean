/-
Winnow/Proofs/Log/Contexts.lean

The context that places one within another make.

Each open block is a place that gives values to some keys, and so is a call that writes a
record.  The context is made by putting the values of each place over those of the places
around it, from the outermost on.  Putting a value over another does not move its key.  So
the keys stand in the order in which they first appear (`keys_joined`), and each has the
value that the innermost of the places with this key gives it (`lookup_joined`).
-/
import Mathlib.Data.List.Induction
import Winnow.Log.Context

namespace Winnow.Log

/-- What one place gives: keys with values, and no key twice. -/
structure Keywords where
  entries : Context
  distinct : (entries.map (·.1)).Nodup

namespace Context

variable {base c : Context} {k x : String} {v : Value} {seen : List String}

/-- The keys of a context, in their order. -/
def keys (c : Context) : List String := c.map (·.1)

/-! ### Putting values over others -/

theorem keys_put (k : String) (v : Value) (c : Context) :
    (c.put k v).keys = if k ∈ c.keys then c.keys else c.keys ++ [k] := by
  induction c with
  | nil => rfl
  | cons e rest ih =>
    rw [put]
    by_cases hk : e.1 = k
    · rw [if_pos hk]
      simp [keys, hk]
    · rw [if_neg hk]
      unfold keys at ih ⊢
      rw [List.map_cons, List.map_cons, ih]
      by_cases hmem : k ∈ rest.map (·.1)
      · rw [if_pos hmem, if_pos (List.mem_cons_of_mem _ hmem)]
      · rw [if_neg hmem, if_neg (by simp [Ne.symm hk, hmem]), List.cons_append]

theorem lookup_cons (e : String × Value) (c : Context) (x : String) :
    List.lookup x (e :: c) = if x = e.1 then some e.2 else c.lookup x := by
  rw [List.lookup_cons]
  by_cases hx : x = e.1
  · rw [if_pos hx, beq_iff_eq.mpr hx]
  · rw [if_neg hx, beq_eq_false_iff_ne.mpr hx]

theorem lookup_put (k : String) (v : Value) (c : Context) (x : String) :
    (c.put k v).lookup x = if x = k then some v else c.lookup x := by
  induction c with
  | nil => exact lookup_cons (k, v) [] x
  | cons e rest ih =>
    rw [put]
    by_cases hk : e.1 = k
    · rw [if_pos hk, lookup_cons, lookup_cons, hk]
      by_cases hx : x = k
      · rw [if_pos hx, if_pos hx]
      · rw [if_neg hx, if_neg hx, if_neg hx]
    · rw [if_neg hk, lookup_cons, lookup_cons, ih]
      by_cases hx : x = e.1
      · have hne : x ≠ k := fun h => hk (hx.symm.trans h)
        rw [if_pos hx, if_pos hx, if_neg hne]
      · rw [if_neg hx, if_neg hx]

theorem eraseDups_append_singleton (row : List String) (k : String) :
    (row ++ [k]).eraseDups = if k ∈ row.eraseDups then row.eraseDups else row.eraseDups ++ [k] := by
  rw [List.eraseDups_append]
  by_cases hk : k ∈ row
  · simp [hk, List.removeAll]
  · simp [hk, List.removeAll, List.eraseDups_cons]

/-- The keys of a place come behind those that were there, where they are new. -/
theorem keys_overlay (h : base.keys = seen.eraseDups) (c : Context) :
    (base.overlay c).keys = (seen ++ c.keys).eraseDups := by
  induction c generalizing base seen with
  | nil =>
    show base.keys = (seen ++ []).eraseDups
    rw [List.append_nil, h]
  | cons e rest ih =>
    have hput : (base.put e.1 e.2).keys = (seen ++ [e.1]).eraseDups := by
      rw [keys_put, eraseDups_append_singleton, h]
    have hrest : ((base.put e.1 e.2).overlay rest).keys = _ := ih hput
    rw [List.append_assoc] at hrest
    exact hrest

theorem lookup_eq_none_of_not_mem (h : x ∉ c.keys) : c.lookup x = none := by
  induction c with
  | nil => rfl
  | cons e rest ih =>
    obtain ⟨hne, hrest⟩ : x ≠ e.1 ∧ x ∉ rest.map (·.1) := by simpa [keys] using h
    rw [lookup_cons, if_neg hne, ih hrest]

/-- What a place gives a value has this value, and all else has the value that it had. -/
theorem lookup_overlay (hc : c.keys.Nodup) (base : Context) (x : String) :
    (base.overlay c).lookup x = (c.lookup x).or (base.lookup x) := by
  induction c generalizing base with
  | nil => rfl
  | cons e rest ih =>
    obtain ⟨hnot, hrest⟩ := List.nodup_cons.mp hc
    have hover : ((base.put e.1 e.2).overlay rest).lookup x = _ := ih hrest _
    rw [lookup_put] at hover
    refine hover.trans ?_
    rw [lookup_cons]
    by_cases hx : x = e.1
    · rw [if_pos hx, if_pos hx, hx, lookup_eq_none_of_not_mem hnot]
      rfl
    · rw [if_neg hx, if_neg hx]

/-! ### Values that can be written -/

theorem isWritable_put (hc : c.isWritable = true) (hv : v.isWritable = true) :
    (c.put k v).isWritable = true := by
  unfold isWritable at hc ⊢
  induction c with
  | nil => simpa [put] using hv
  | cons e rest ih =>
    rw [List.all_cons, Bool.and_eq_true] at hc
    rw [put]
    split
    · rw [List.all_cons, hv, hc.2]
      rfl
    · rw [List.all_cons, hc.1, ih hc.2]
      rfl

theorem isWritable_overlay (hbase : base.isWritable = true) (hc : c.isWritable = true) :
    (base.overlay c).isWritable = true :=
  List.foldlRecOn (motive := fun g : Context => g.isWritable = true) c _ hbase
    fun _ hg e he => isWritable_put hg (List.all_eq_true.mp hc e he)

theorem isWritable_joined {blocks : List Context} (hall : ∀ c ∈ blocks, c.isWritable = true) :
    (joined blocks).isWritable = true :=
  List.foldlRecOn (motive := fun g : Context => g.isWritable = true) blocks _ rfl
    fun _ hg c hc => isWritable_overlay hg (hall c hc)

/-! ### Places one within another -/

theorem joined_append_singleton (blocks : List Context) (c : Context) :
    joined (blocks ++ [c]) = (joined blocks).overlay c := by
  rw [joined, List.foldl_append]
  rfl

/-- **The keys stand in the order in which they first appear**, from the outermost place
to the innermost. -/
theorem keys_joined (blocks : List Context) :
    (joined blocks).keys = (blocks.flatMap keys).eraseDups := by
  induction blocks using List.reverseRecOn with
  | nil => rfl
  | append_singleton blocks c ih =>
    rw [joined_append_singleton, keys_overlay ih, List.flatMap_append, List.flatMap_singleton]

/-- **Each key has the value that the innermost place gives it.** -/
theorem lookup_joined (places : List Keywords) (k : String) :
    (joined (places.map (·.entries))).lookup k
      = places.reverse.findSome? fun p => p.entries.lookup k := by
  induction places using List.reverseRecOn with
  | nil => rfl
  | append_singleton places p ih =>
    rw [List.map_append, List.map_singleton, joined_append_singleton, lookup_overlay p.distinct, ih,
      List.reverse_append, List.reverse_singleton, List.singleton_append, List.findSome?_cons]
    cases p.entries.lookup k <;> rfl

end Context

end Winnow.Log
