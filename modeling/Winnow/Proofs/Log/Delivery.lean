/-
Winnow/Proofs/Log/Delivery.lean

What a record leaves as it was.

A call hands one record over, or it changes nothing (`log_cases`,
`logRaised_cases`).  Handlers write to files and to the console, and keep
records.  The channels, the open blocks of context and the handlers but for their
files stay the same (`servesLike_deliver`), and the blocks do not count for what is
written.  So a message within a block of its own is one record, and nothing else is
left of the block (`log_within`).
-/
import Winnow.Log.Logger
import Winnow.Proofs.Log.Contexts

namespace Winnow.Log.Hub

variable {h : Hub} {channel : String} {level least : Level}

/-! ### Thresholds -/

theorem number_pos (level : Level) : 0 < level.number := by
  cases level <;> decide

theorem threshold_of_level (hlevel : h.level channel = .ok least) :
    (h.channel channel).threshold.number = least.number := by
  unfold Hub.level at hlevel
  dsimp only at hlevel
  split at hlevel
  · rename_i l hfound
    cases hlevel
    have hsame : ((least.number : Int) == (h.channel channel).threshold.number) = true :=
      List.find?_some (p := fun l : Level => (l.number : Int) == _) hfound
    exact (beq_iff_eq.mp hsame).symm
  · cases hlevel

theorem effective_of_level (hlevel : h.level channel = .ok least) :
    h.effective channel = least.number := by
  have hnumber := threshold_of_level hlevel
  have hne : (h.channel channel).threshold.number ≠ 0 := by
    have hpos := number_pos least
    omega
  unfold effective effectiveFrom
  simp only [hne, ne_eq, not_false_eq_true, if_true]
  exact hnumber

/-- A channel with a level takes the records from this level on. -/
theorem takes_iff_of_level (hlevel : h.level channel = .ok least) :
    h.takes channel level.number = true ↔ least.number ≤ level.number := by
  have hpos := number_pos level
  unfold takes
  rw [effective_of_level hlevel, Bool.and_eq_true, decide_eq_true_iff, decide_eq_true_iff]
  omega

/-! ### What stays while records are handed over -/

variable {g : Hub} {r : Record} {c : Context} {n : Nat}

/-- What is seen of a handler without its file, if it writes to one. -/
def outline (x : Handler) : Int × Nat × Option Bool :=
  (x.least, x.closings, match x.sink with
    | .capture => some true
    | .console => some false
    | .file _ => none)

/-- Two states have the same channels, the same handlers but for their files, the same open
blocks, and the same time. -/
structure ServesLike (h g : Hub) : Prop where
  channels : g.channels = h.channels
  handlers : g.handlers.map outline = h.handlers.map outline
  blocks : g.blocks = h.blocks
  clock : g.clock = h.clock

namespace ServesLike

theorem refl (h : Hub) : ServesLike h h := ⟨rfl, rfl, rfl, rfl⟩

theorem trans {f : Hub} (hhg : ServesLike h g) (hgf : ServesLike g f) : ServesLike h f :=
  ⟨hgf.channels.trans hhg.channels, hgf.handlers.trans hhg.handlers,
    hgf.blocks.trans hhg.blocks, hgf.clock.trans hhg.clock⟩

theorem channel_eq (hlike : ServesLike h g) (name : String) : g.channel name = h.channel name := by
  unfold channel
  rw [hlike.channels]

theorem level_eq (hlike : ServesLike h g) (channel : String) :
    g.level channel = h.level channel := by
  unfold level
  rw [hlike.channel_eq]

end ServesLike

/-- A handler that only gets another file is seen as before. -/
theorem map_outline_updateHandler {f : Handler → Handler}
    (hf : ∀ x, h.handlers[n]? = some x → outline (f x) = outline x) :
    (h.updateHandler n f).handlers.map outline = h.handlers.map outline := by
  refine List.ext_getElem? fun k => ?_
  unfold updateHandler
  rw [List.getElem?_map, List.getElem?_map, List.getElem?_modify]
  by_cases hk : n = k
  · subst hk
    cases hx : h.handlers[n]? with
    | none => rfl
    | some x => simp [hf x hx]
  · simp [hk]

/-- A handler that gets a record changes nothing but its file, the console and the records. -/
theorem servesLike_give (h : Hub) (r : Record) (n : Nat) : ServesLike h (h.give r n) := by
  unfold give
  split
  · exact .refl h
  · rename_i x hx
    split
    · exact .refl h
    · split
      · exact ⟨rfl, rfl, rfl, rfl⟩
      · exact ⟨rfl, rfl, rfl, rfl⟩
      · rename_i l hsink
        obtain ⟨l', f⟩ := l.write h.files (r.line h.clock ++ "\n")
        refine ⟨rfl, ?_, rfl, rfl⟩
        refine map_outline_updateHandler (h := { h with files := f }) fun y hy => ?_
        cases hx.symm.trans hy
        unfold outline
        rw [hsink]

theorem servesLike_foldl_give (row : List Nat) (h : Hub) (r : Record) :
    ServesLike h (row.foldl (fun g n => g.give r n) h) :=
  List.foldlRecOn (motive := ServesLike h) _ _ (.refl h)
    fun g hg n _ => hg.trans (servesLike_give g r n)

theorem deliver_of_eq_nil (hrow : (h.channel r.channel).handlers = []) :
    h.deliver r = { h with console := h.console ++
      if (Level.warning.number : Int) ≤ r.level then r.withRaised r.message ++ "\n" else "" } := by
  unfold deliver
  rw [hrow]
  dsimp only
  split
  · rw [← String.append_assoc]
    rfl
  · rw [String.append_empty]

theorem deliver_of_ne_nil (hrow : (h.channel r.channel).handlers ≠ []) :
    h.deliver r = (h.channel r.channel).handlers.foldl (fun g n => g.give r n) h := by
  unfold deliver
  split
  · rename_i hnone
    exact absurd hnone hrow
  · rfl

theorem servesLike_deliver (h : Hub) (r : Record) : ServesLike h (h.deliver r) := by
  by_cases hrow : (h.channel r.channel).handlers = []
  · rw [deliver_of_eq_nil hrow]
    exact ⟨rfl, rfl, rfl, rfl⟩
  · rw [deliver_of_ne_nil hrow]
    exact servesLike_foldl_give _ h r

theorem servesLike_foldl_deliver (records : List Record) (h : Hub) :
    ServesLike h (records.foldl deliver h) :=
  List.foldlRecOn (motive := ServesLike h) _ _ (.refl h)
    fun g hg r _ => hg.trans (servesLike_deliver g r)

/-! ### Blocks -/

theorem give_enter (h : Hub) (r : Record) (c : Context) (n : Nat) :
    (h.enter c).give r n = (h.give r n).enter c := by
  have hhandlers : (h.enter c).handlers = h.handlers := rfl
  unfold give
  rw [hhandlers]
  split
  · rfl
  · split
    · rfl
    · split <;> rfl

theorem foldl_give_enter (handlers : List Nat) (h : Hub) (r : Record) (c : Context) :
    handlers.foldl (fun g n => g.give r n) (h.enter c)
      = (handlers.foldl (fun g n => g.give r n) h).enter c := by
  induction handlers generalizing h with
  | nil => rfl
  | cons n rest ih => rw [List.foldl_cons, List.foldl_cons, give_enter, ih]

/-- What is written does not depend on the open blocks. -/
theorem deliver_enter (h : Hub) (r : Record) (c : Context) :
    (h.enter c).deliver r = (h.deliver r).enter c := by
  have hchannel : (h.enter c).channel r.channel = h.channel r.channel := rfl
  by_cases hrow : (h.channel r.channel).handlers = []
  · rw [deliver_of_eq_nil hrow, deliver_of_eq_nil (hchannel ▸ hrow)]
    rfl
  · rw [deliver_of_ne_nil hrow, deliver_of_ne_nil (hchannel ▸ hrow)]
    exact foldl_give_enter _ h r c

theorem leave_enter (h : Hub) (c : Context) : (h.enter c).leave = h := by
  unfold enter leave
  rw [List.dropLast_concat]

/-! ### Calls -/

section Calls

variable {message : String} {own : Context} {raised : Option Raised}

theorem write_cases (h : Hub) (channel : String) (level : Level) (message : String) (c : Context)
    (raised : Option Raised) : h.write channel level message c raised = h
      ∨ ∃ r, h.write channel level message c raised = h.deliver r := by
  unfold write
  split
  · exact .inr ⟨_, rfl⟩
  · exact .inl rfl

theorem write_of_takes (htakes : h.takes channel level.number = true) :
    h.write channel level message c raised
      = h.deliver ⟨channel, level.number, message, c, raised⟩ := if_pos htakes

theorem tell_of_isWritable (hc : c.isWritable = true) :
    h.tell channel level message c raised
      = (.ok (), h.write channel level (c.describe message) c raised) := if_pos hc

theorem tell_of_not_isWritable (hc : c.isWritable = false) :
    h.tell channel level message c raised = (.error .longInteger, h) :=
  if_neg (Bool.eq_false_iff.mp hc)

/-- A message that is told is one record at most, and none where it fails. -/
theorem tell_cases (h : Hub) (channel : String) (level : Level) (message : String) (c : Context)
    (raised : Option Raised) : (h.tell channel level message c raised).2 = h
      ∨ ∃ r, h.tell channel level message c raised = (.ok (), h.deliver r) := by
  cases hc : c.isWritable with
  | false => exact .inl (congrArg Prod.snd (tell_of_not_isWritable hc))
  | true =>
    rw [tell_of_isWritable hc]
    rcases write_cases h channel level (c.describe message) c raised with hsame | ⟨r, hr⟩
    · exact .inl hsame
    · exact .inr ⟨r, congrArg _ hr⟩

theorem log_of_takes (htakes : h.takes channel level.number = true) :
    h.log channel level message own = h.tell channel level message (h.contextWith own) none :=
  if_pos htakes

theorem log_of_not_takes (htakes : h.takes channel level.number = false) :
    h.log channel level message own = (.ok (), h) := if_neg (Bool.eq_false_iff.mp htakes)

/-- **A call hands one record over, or changes nothing.** -/
theorem log_cases (h : Hub) (channel : String) (level : Level) (message : String) (own : Context) :
    (h.log channel level message own).2 = h
      ∨ ∃ r, h.log channel level message own = (.ok (), h.deliver r) := by
  cases htakes : h.takes channel level.number with
  | false => exact .inl (congrArg Prod.snd (log_of_not_takes htakes))
  | true =>
    rw [log_of_takes htakes]
    exact tell_cases h channel level message _ none

theorem logRaised_cases (h : Hub) (channel message : String) (raised : Raised) (own : Context) :
    (h.logRaised channel message raised own).2 = h
      ∨ ∃ r, h.logRaised channel message raised own = (.ok (), h.deliver r) :=
  tell_cases h channel .error message _ (some raised)

/-- The values of all open blocks can be written into a message. -/
def BlocksAreWritable (h : Hub) : Prop := ∀ c ∈ h.blocks, c.isWritable = true

theorem blocksAreWritable_of_eq_nil (hblocks : h.blocks = []) : h.BlocksAreWritable := by
  unfold BlocksAreWritable
  rw [hblocks]
  exact List.forall_mem_nil _

theorem BlocksAreWritable.congr {g : Hub} (hblocks : h.BlocksAreWritable)
    (heq : g.blocks = h.blocks) : g.BlocksAreWritable := by
  unfold BlocksAreWritable
  rwa [heq]

theorem isWritable_contextWith (hblocks : h.BlocksAreWritable) (hown : own.isWritable = true) :
    (h.contextWith own).isWritable = true :=
  Context.isWritable_overlay (Context.isWritable_joined hblocks) hown

theorem blocksAreWritable_enter (hblocks : h.BlocksAreWritable) (hc : c.isWritable = true) :
    (h.enter c).BlocksAreWritable :=
  List.forall_mem_append.mpr ⟨hblocks, List.forall_mem_singleton.mpr hc⟩

/-- A message in which everything of its own can be written fails only for what is open. -/
theorem log_ok_or (hown : own.isWritable = true) :
    (h.log channel level message own).1 = .ok () ∨ ¬h.BlocksAreWritable := by
  refine Classical.or_iff_not_imp_right.mpr fun hblocks => ?_
  have hwritable := isWritable_contextWith (Classical.not_not.mp hblocks) hown
  cases htakes : h.takes channel level.number with
  | false => rw [log_of_not_takes htakes]
  | true => rw [log_of_takes htakes, tell_of_isWritable hwritable]

/-- A message within a block is that of a record with the block in its context. -/
theorem log_within (hlevel : h.level channel = .ok least) (hle : least.number ≤ level.number)
    (hwritable : ((h.enter c).contextWith own).isWritable = true) :
    (h.enter c).log channel level message own = (.ok (), (h.deliver ⟨channel, level.number,
      ((h.enter c).contextWith own).describe message, (h.enter c).contextWith own, none⟩).enter c)
    := by
  have htakes : (h.enter c).takes channel level.number = true :=
    takes_iff_of_level (h := h.enter c) hlevel |>.mpr hle
  rw [log_of_takes htakes, tell_of_isWritable hwritable, write_of_takes htakes, deliver_enter]

/-- What is left of a block with a message in it. -/
theorem blocks_leave_log (h : Hub) (c : Context) (channel : String) (level : Level)
    (message : String) (own : Context) :
    ((h.enter c).log channel level message own).2.leave.blocks = h.blocks := by
  rcases log_cases (h.enter c) channel level message own with hsame | ⟨r, hr⟩
  · rw [hsame, leave_enter]
  · rw [hr, deliver_enter, leave_enter]
    exact (servesLike_deliver h r).blocks

end Calls

end Winnow.Log.Hub
