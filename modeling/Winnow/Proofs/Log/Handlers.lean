/-
Winnow/Proofs/Log/Handlers.lean

The handlers that are attached to a channel, and what a new logger makes of
them.

A channel is a threshold and a row of handlers, and every operation is followed
through these two and through the times that each handler has been closed.
Attaching a row of handlers leaves out those that are attached already
(`handlers_foldl_attach`), so that the row of a new logger is attached without
its repetitions.  Detaching all handlers closes each of those that are not kept
(`getElem?_handlers_foldl_release`), once where no handler is attached twice
(`Sound`).  Together they give what is left when a logger takes its channel over
(`TakenOver`).

While they are detached, a list of handlers stays what it is, unless it is the one
in which the channel keeps its own: nothing is left in that one by the time when
the list is attached (`left`), so that its handlers are closed and lost
(`lost_of_kept`).  All else stays as it is (`around_newLogger`).
-/
import Winnow.Log.Logger

namespace Winnow.Log.Hub

variable {h g : Hub} {channel other : String} {c : Channel} {n k : Nat} {row : List Nat}
  {list : HandlerList}

/-! ### Channels -/

theorem channel_setChannel_self : (h.setChannel channel c).channel channel = c := by
  simp [Hub.channel, setChannel]

theorem channels_setChannel_of_ne (hne : other ≠ channel) :
    (h.setChannel channel c).channels other = h.channels other :=
  if_neg hne

theorem isSome_channels_setChannel : ((h.setChannel channel c).channels channel).isSome := by
  simp [setChannel]

theorem channel_congr (heq : g.channels other = h.channels other) :
    g.channel other = h.channel other := by
  unfold Hub.channel
  rw [heq]

theorem channel_setChannel_of_ne (hne : other ≠ channel) :
    (h.setChannel channel c).channel other = h.channel other :=
  channel_congr (channels_setChannel_of_ne hne)

/-- A channel keeps its threshold and its handlers when channels are opened. -/
theorem channel_openChannel (h : Hub) (name other : String) :
    ∃ above, (h.openChannel name).channel other = { h.channel other with above := above } := by
  unfold openChannel
  split
  · exact ⟨_, rfl⟩
  · rename_i hnone
    unfold Hub.channel
    dsimp only
    by_cases hname : other = name
    · subst hname
      rw [if_pos rfl, hnone]
      exact ⟨_, rfl⟩
    · rw [if_neg hname]
      cases h.channels other with
      | none => exact ⟨_, rfl⟩
      | some c =>
        rw [Option.map_some, Option.getD_some, Option.getD_some]
        unfold adopt
        split
        · exact ⟨_, rfl⟩
        · split <;> exact ⟨_, rfl⟩

theorem handlers_channel_openChannel (h : Hub) (name other : String) :
    ((h.openChannel name).channel other).handlers = (h.channel other).handlers := by
  obtain ⟨above, heq⟩ := channel_openChannel h name other
  rw [heq]

theorem threshold_channel_openChannel (h : Hub) (name other : String) :
    ((h.openChannel name).channel other).threshold = (h.channel other).threshold := by
  obtain ⟨above, heq⟩ := channel_openChannel h name other
  rw [heq]

theorem isSome_channels_openChannel_of_ne (hne : other ≠ channel) :
    ((h.openChannel channel).channels other).isSome = (h.channels other).isSome := by
  unfold openChannel
  split
  · rfl
  · dsimp only
    rw [if_neg hne, Option.isSome_map]

theorem handlers_openChannel (h : Hub) (name : String) :
    (h.openChannel name).handlers = h.handlers := by
  unfold openChannel
  split <;> rfl

/-! ### Rows without repetitions -/

theorem nodup_eraseDups : (row : List Nat) → row.eraseDups.Nodup
  | [] => by simp
  | m :: rest => by
    rw [List.eraseDups_cons, List.nodup_cons, List.mem_eraseDups]
    exact ⟨by simp, nodup_eraseDups _⟩
termination_by row => row.length
decreasing_by
  have hle := List.length_filter_le (fun k => !k == m) rest
  simp only [List.length_cons]
  omega

/-! ### Attaching and detaching -/

theorem attach_of_mem (hmem : n ∈ (h.channel channel).handlers) : h.attach channel n = h :=
  if_pos (List.contains_iff_mem.mpr hmem)

theorem attach_of_not_mem (hmem : n ∉ (h.channel channel).handlers) :
    h.attach channel n = h.setChannel channel
      { h.channel channel with handlers := (h.channel channel).handlers ++ [n] } :=
  if_neg fun hcontains => hmem (List.contains_iff_mem.mp hcontains)

theorem handlers_attach (h : Hub) (channel : String) (n : Nat) :
    (h.attach channel n).handlers = h.handlers := by
  unfold attach
  dsimp only
  split <;> rfl

theorem threshold_channel_attach (h : Hub) (channel : String) (n : Nat) :
    ((h.attach channel n).channel channel).threshold = (h.channel channel).threshold := by
  by_cases hmem : n ∈ (h.channel channel).handlers
  · rw [attach_of_mem hmem]
  · rw [attach_of_not_mem hmem, channel_setChannel_self]

theorem channels_attach_of_ne (hne : other ≠ channel) (n : Nat) :
    (h.attach channel n).channels other = h.channels other := by
  by_cases hmem : n ∈ (h.channel channel).handlers
  · rw [attach_of_mem hmem]
  · rw [attach_of_not_mem hmem, channels_setChannel_of_ne hne]

/-- A row of handlers is attached without those that are attached already, and without
repetitions. -/
theorem handlers_foldl_attach (row : List Nat) (h : Hub) (channel : String) :
    ((row.foldl (fun g n => g.attach channel n) h).channel channel).handlers
      = (h.channel channel).handlers
        ++ (row.filter (· ∉ (h.channel channel).handlers)).eraseDups := by
  induction row generalizing h with
  | nil => simp
  | cons n rest ih =>
    rw [List.foldl_cons, ih]
    by_cases hmem : n ∈ (h.channel channel).handlers
    · rw [attach_of_mem hmem, List.filter_cons_of_neg (by simpa using hmem)]
    · have hrest : rest.filter (· ∉ (h.channel channel).handlers ++ [n])
          = (rest.filter (· ∉ (h.channel channel).handlers)).filter (!· == n) := by
        rw [List.filter_filter]
        refine List.filter_congr fun m _ => ?_
        by_cases hn : m = n <;> simp [hn]
      rw [attach_of_not_mem hmem, channel_setChannel_self,
        List.filter_cons_of_pos (by simpa using hmem), List.eraseDups_cons, hrest,
        List.append_assoc, List.singleton_append]

theorem isSome_channels_attach (hopen : (h.channels channel).isSome) (n : Nat) :
    ((h.attach channel n).channels channel).isSome := by
  by_cases hmem : n ∈ (h.channel channel).handlers
  · rw [attach_of_mem hmem]
    exact hopen
  · rw [attach_of_not_mem hmem]
    exact isSome_channels_setChannel

theorem channels_foldl_attach_of_ne (hne : other ≠ channel) (row : List Nat) (h : Hub) :
    (row.foldl (fun g n => g.attach channel n) h).channels other = h.channels other :=
  List.foldlRecOn (motive := fun g : Hub => g.channels other = h.channels other) _ _ rfl
    fun _ hg n _ => (channels_attach_of_ne hne n).trans hg

theorem handlers_foldl_attach_eq (row : List Nat) (h : Hub) (channel : String) :
    (row.foldl (fun g n => g.attach channel n) h).handlers = h.handlers :=
  List.foldlRecOn (motive := fun g : Hub => g.handlers = h.handlers) _ _ rfl
    fun g hg n _ => (handlers_attach g channel n).trans hg

/-- What is left in a list of handlers when those of a channel have been detached. -/
def left (h : Hub) (channel : String) : HandlerList → List Nat
  | .own row => row
  | .kept other => if other = channel then [] else (h.channel other).handlers

theorem left_of_ne_kept (hne : list ≠ .kept channel) : h.left channel list = h.row list := by
  cases list with
  | own row => rfl
  | kept other => exact if_neg fun heq => hne (congrArg _ heq)

theorem left_kept : h.left channel (.kept channel) = [] := if_pos rfl

theorem mem_row_of_mem_left (hn : n ∈ h.left channel list) : n ∈ h.row list := by
  by_cases heq : list = .kept channel
  · rw [heq, left_kept] at hn
    cases hn
  · exact left_of_ne_kept heq ▸ hn

/-- Only the handlers of other channels count. -/
theorem left_congr
    (hothers : ∀ other ≠ channel, (g.channel other).handlers = (h.channel other).handlers)
    (list : HandlerList) : g.left channel list = h.left channel list := by
  cases list with
  | own row => rfl
  | kept other =>
    unfold left
    dsimp only
    split
    · rfl
    · rename_i hne
      exact hothers other hne

/-- A handler that has just been detached is in the list if it is among those that are left. -/
theorem mem_row_detach_iff :
    n ∈ (h.detach channel n).row list ↔ n ∈ h.left channel list := by
  by_cases heq : list = .kept channel
  · have hself : (h.detach channel n).row (.kept channel)
        = (h.channel channel).handlers.filter (· != n) :=
      congrArg Channel.handlers channel_setChannel_self
    rw [heq, left_kept, hself]
    simp
  · have hothers : (h.detach channel n).left channel list = h.left channel list :=
      left_congr (fun _ hne => congrArg Channel.handlers (channel_setChannel_of_ne hne)) list
    rw [← left_of_ne_kept heq, hothers]

/-- Detaches a handler, and closes it unless it is in a list by then. -/
def release (channel : String) (list : HandlerList) (h : Hub) (n : Nat) : Hub :=
  if ((h.detach channel n).row list).contains n then h.detach channel n
  else (h.detach channel n).updateHandler n Handler.close

theorem detachAll_eq (h : Hub) (channel : String) (list : HandlerList) :
    h.detachAll channel list = (h.channel channel).handlers.foldl (release channel list) h :=
  rfl

theorem channel_release_self (h : Hub) (channel : String) (list : HandlerList) (n : Nat) :
    (release channel list h n).channel channel
      = { h.channel channel with
          handlers := (h.channel channel).handlers.filter (· != n) } := by
  unfold release
  split <;> exact channel_setChannel_self

theorem channels_release_of_ne (hne : other ≠ channel) (list : HandlerList) (n : Nat) :
    (release channel list h n).channels other = h.channels other := by
  unfold release
  split <;> exact channels_setChannel_of_ne hne

theorem isSome_channels_release (h : Hub) (channel : String) (list : HandlerList) (n : Nat) :
    ((release channel list h n).channels channel).isSome := by
  unfold release
  split <;> exact isSome_channels_setChannel

theorem left_release (h : Hub) (channel : String) (list : HandlerList) (n : Nat) :
    (release channel list h n).left channel list = h.left channel list :=
  left_congr (fun _ hne => congrArg Channel.handlers
    (channel_congr (channels_release_of_ne hne list n))) list

theorem getElem?_handlers_release (h : Hub) (channel : String) (list : HandlerList) (n k : Nat) :
    (release channel list h n).handlers[k]?
      = if k = n ∧ k ∉ h.left channel list then (h.handlers[k]?).map Handler.close
        else h.handlers[k]? := by
  unfold release
  by_cases hkept : n ∈ h.left channel list
  · have hnot : ¬(k = n ∧ k ∉ h.left channel list) := fun hk => hk.2 (hk.1 ▸ hkept)
    rw [if_pos (List.contains_iff_mem.mpr (mem_row_detach_iff.mpr hkept)), if_neg hnot]
    rfl
  · rw [if_neg fun hcontains =>
      hkept (mem_row_detach_iff.mp (List.contains_iff_mem.mp hcontains))]
    unfold updateHandler
    rw [List.getElem?_modify]
    by_cases hk : k = n
    · subst hk
      rw [if_pos ⟨rfl, hkept⟩]
      simp [detach, setChannel]
    · rw [if_neg fun h => hk h.1]
      simp [detach, setChannel, Ne.symm hk]

theorem channels_foldl_release_of_ne (hne : other ≠ channel) (row : List Nat) (list : HandlerList)
    (h : Hub) : (row.foldl (release channel list) h).channels other = h.channels other :=
  List.foldlRecOn (motive := fun g : Hub => g.channels other = h.channels other) _ _ rfl
    fun _ hg n _ => (channels_release_of_ne hne list n).trans hg

theorem channel_foldl_release_self (row : List Nat) (list : HandlerList) (h : Hub)
    (channel : String) :
    (row.foldl (release channel list) h).channel channel
      = { h.channel channel with
          handlers := (h.channel channel).handlers.filter (· ∉ row) } := by
  induction row generalizing h with
  | nil =>
    have hall : (h.channel channel).handlers.filter (· ∉ []) = (h.channel channel).handlers :=
      List.filter_eq_self.mpr fun n _ => by simp
    rw [hall, List.foldl_nil]
  | cons n rest ih =>
    have hfilter : (((h.channel channel).handlers.filter (· != n)).filter (· ∉ rest))
        = (h.channel channel).handlers.filter (· ∉ n :: rest) := by
      rw [List.filter_filter]
      refine List.filter_congr fun m _ => ?_
      by_cases hn : m = n <;> simp [hn]
    rw [List.foldl_cons, ih, channel_release_self, hfilter]

/-- A row without repetitions is closed, but for what is left in the list. -/
theorem getElem?_handlers_foldl_release (hrow : row.Nodup) (list : HandlerList) (h : Hub)
    (k : Nat) : (row.foldl (release channel list) h).handlers[k]?
      = if k ∈ row ∧ k ∉ h.left channel list then (h.handlers[k]?).map Handler.close
        else h.handlers[k]? := by
  induction row generalizing h with
  | nil => simp
  | cons n rest ih =>
    obtain ⟨hn, hrest⟩ := List.nodup_cons.mp hrow
    rw [List.foldl_cons, ih hrest, getElem?_handlers_release, left_release]
    by_cases hk : k = n
    · subst hk
      rw [if_neg fun h => hn h.1]
      simp
    · simp [hk]

/-! ### Replacing handlers -/

theorem handlers_channel_detachAll (h : Hub) (channel : String) (list : HandlerList) :
    ((h.detachAll channel list).channel channel).handlers = [] := by
  rw [detachAll_eq, channel_foldl_release_self]
  exact List.filter_eq_nil_iff.mpr fun n hn => by simpa using hn

theorem channels_detachAll_of_ne (hne : other ≠ channel) (h : Hub) (list : HandlerList) :
    (h.detachAll channel list).channels other = h.channels other := by
  rw [detachAll_eq, channels_foldl_release_of_ne hne]

theorem row_detachAll (h : Hub) (channel : String) (list : HandlerList) :
    (h.detachAll channel list).row list = h.left channel list := by
  by_cases heq : list = .kept channel
  · rw [heq, left_kept]
    exact handlers_channel_detachAll h channel _
  · rw [← left_of_ne_kept heq]
    exact left_congr (fun _ hne => congrArg Channel.handlers
      (channel_congr (channels_detachAll_of_ne hne h list))) list

theorem replaceHandlers_eq (h : Hub) (channel : String) (list : HandlerList) :
    h.replaceHandlers channel list
      = (h.left channel list).foldl (fun g n => g.attach channel n) (h.detachAll channel list) := by
  unfold replaceHandlers
  dsimp only
  rw [row_detachAll]

theorem handlers_channel_replaceHandlers (h : Hub) (channel : String) (list : HandlerList) :
    ((h.replaceHandlers channel list).channel channel).handlers
      = (h.left channel list).eraseDups := by
  have hall : (h.left channel list).filter (· ∉ ([] : List Nat)) = h.left channel list :=
    List.filter_eq_self.mpr fun n _ => by simp
  rw [replaceHandlers_eq, handlers_foldl_attach, handlers_channel_detachAll, hall, List.nil_append]

theorem threshold_channel_replaceHandlers (h : Hub) (channel : String) (list : HandlerList) :
    ((h.replaceHandlers channel list).channel channel).threshold
      = (h.channel channel).threshold := by
  have hattach (row : List Nat) (g : Hub) :
      ((row.foldl (fun g n => g.attach channel n) g).channel channel).threshold
        = (g.channel channel).threshold :=
    List.foldlRecOn
      (motive := fun g' : Hub => (g'.channel channel).threshold = (g.channel channel).threshold)
      _ _ rfl fun g' hg n _ => (threshold_channel_attach g' channel n).trans hg
  rw [replaceHandlers_eq, hattach, detachAll_eq, channel_foldl_release_self]

theorem channels_replaceHandlers_of_ne (hne : other ≠ channel) (h : Hub) (list : HandlerList) :
    (h.replaceHandlers channel list).channels other = h.channels other := by
  rw [replaceHandlers_eq, channels_foldl_attach_of_ne hne, channels_detachAll_of_ne hne]

theorem isSome_channels_replaceHandlers (hopen : (h.channels channel).isSome) (list : HandlerList) :
    ((h.replaceHandlers channel list).channels channel).isSome := by
  rw [replaceHandlers_eq]
  refine List.foldlRecOn (motive := fun g : Hub => (g.channels channel).isSome) _ _ ?_
    fun _ hg n _ => isSome_channels_attach hg n
  rw [detachAll_eq]
  exact List.foldlRecOn (motive := fun g : Hub => (g.channels channel).isSome) _ _ hopen
    fun g _ n _ => isSome_channels_release g channel list n

theorem getElem?_handlers_replaceHandlers (hnodup : (h.channel channel).handlers.Nodup)
    (list : HandlerList) (k : Nat) :
    (h.replaceHandlers channel list).handlers[k]?
      = if k ∈ (h.channel channel).handlers ∧ k ∉ h.left channel list
        then (h.handlers[k]?).map Handler.close else h.handlers[k]? := by
  rw [replaceHandlers_eq, handlers_foldl_attach_eq, detachAll_eq,
    getElem?_handlers_foldl_release hnodup]

/-! ### Making a logger -/

/-- Handlers are attached at most once to a channel, and are there. -/
structure Sound (h : Hub) : Prop where
  nodup (name : String) : (h.channel name).handlers.Nodup
  lt {name : String} {n : Nat} : n ∈ (h.channel name).handlers → n < h.handlers.length

/-- What a new logger leaves: its channel with a threshold and its handlers, of which none comes
twice, and those closed that were attached before and that it does not have. -/
structure TakenOver (channel : String) (t : Threshold) (row : List Nat) (h g : Hub) : Prop where
  threshold : (g.channel channel).threshold = t
  attached : (g.channel channel).handlers = row.eraseDups
  threshold_of_ne {other : String} : other ≠ channel →
    (g.channel other).threshold = (h.channel other).threshold
  handlers_of_ne {other : String} : other ≠ channel →
    (g.channel other).handlers = (h.channel other).handlers
  isSome : (g.channels channel).isSome
  isSome_of_ne {other : String} : other ≠ channel →
    (g.channels other).isSome = (h.channels other).isSome
  handler (k : Nat) : g.handlers[k]? = if k ∈ (h.channel channel).handlers ∧ k ∉ row
    then (h.handlers[k]?).map Handler.close else h.handlers[k]?

/-- The list of handlers of a new logger: what it is given, and otherwise a new handler that
writes to the console. -/
def listFor (h : Hub) (handlers : Option HandlerList) : HandlerList :=
  handlers.getD (.own [h.handlers.length])

/-- The state in which the handlers of a new logger are there. -/
def supplied (h : Hub) : Option HandlerList → Hub
  | some _ => h
  | none => h.addConsole.2

theorem left_listFor_none (h : Hub) (channel : String) :
    h.left channel (h.listFor none) = [h.handlers.length] := rfl

theorem length_supplied_none (h : Hub) :
    (h.supplied none).handlers.length = h.handlers.length + 1 := List.length_append

theorem lt_supplied_none (h : Hub) :
    ∀ n ∈ [h.handlers.length], n < (h.supplied none).handlers.length := by
  rw [length_supplied_none]
  exact List.forall_mem_singleton.mpr (Nat.lt_succ_self _)

theorem lt_of_mem_left {handlers : Option HandlerList}
    (hrow : ∀ list ∈ handlers, ∀ n ∈ h.row list, n < h.handlers.length) (channel : String) :
    ∀ n ∈ h.left channel (h.listFor handlers), n < (h.supplied handlers).handlers.length := by
  cases handlers with
  | none => exact lt_supplied_none h
  | some list => exact fun n hn => hrow list rfl n (mem_row_of_mem_left hn)

theorem channel_supplied (h : Hub) (handlers : Option HandlerList) (name : String) :
    (h.supplied handlers).channel name = h.channel name := by
  cases handlers <;> rfl

/-- A channel that is open, with a threshold. -/
def tuned (h : Hub) (channel : String) (t : Threshold) : Hub :=
  (h.openChannel channel).setChannel channel
    { (h.openChannel channel).channel channel with threshold := t }

theorem listFor_tuned (h : Hub) (channel : String) (t : Threshold) (handlers : Option HandlerList) :
    (h.tuned channel t).listFor handlers = h.listFor handlers := by
  have hlist : (h.tuned channel t).handlers = h.handlers := handlers_openChannel h channel
  unfold listFor
  rw [hlist]

theorem supplied_tuned (h : Hub) (channel : String) (t : Threshold)
    (handlers : Option HandlerList) :
    (h.tuned channel t).supplied handlers = (h.supplied handlers).tuned channel t := by
  cases handlers with
  | some list => rfl
  | none =>
    have hopen : (h.openChannel channel).addConsole.2 = h.addConsole.2.openChannel channel := by
      unfold openChannel
      cases hchannel : h.channels channel <;> simp [addConsole, addSink, hchannel]
    unfold supplied tuned
    dsimp only
    rw [← hopen]
    rfl

theorem newLogger_eq {name level : Value} {t : Threshold} (hname : channelOf name = .ok channel)
    (hlevel : Threshold.ofValue level = .ok t) (handlers : Option HandlerList) :
    h.newLogger name level handlers
      = let g := ((h.supplied handlers).tuned channel t).replaceHandlers channel
          (h.listFor handlers)
        (.ok ⟨g.made, name, channel⟩, { g with made := g.made + 1 }) := by
  rw [← supplied_tuned, ← listFor_tuned h channel t]
  unfold newLogger
  rw [hname]
  dsimp only
  unfold setThreshold
  rw [hlevel]
  cases handlers <;> rfl

/-- A new logger takes its channel over. -/
theorem takenOver_replaceHandlers (hsound : h.Sound) (channel : String) (t : Threshold)
    (list : HandlerList) :
    TakenOver channel t (h.left channel list) h
      ((h.tuned channel t).replaceHandlers channel list) := by
  have hself : (h.tuned channel t).channel channel
      = { (h.openChannel channel).channel channel with threshold := t } := channel_setChannel_self
  have hattached (other : String) : ((h.tuned channel t).channel other).handlers
      = (h.channel other).handlers := by
    rw [← handlers_channel_openChannel h channel]
    by_cases hother : other = channel
    · rw [hother, hself]
    · rw [tuned, channel_setChannel_of_ne hother]
  have hleft : (h.tuned channel t).left channel list = h.left channel list :=
    left_congr (fun other _ => hattached other) list
  have hlist : (h.tuned channel t).handlers = h.handlers := handlers_openChannel h channel
  have helse {other : String} (hne : other ≠ channel) :
      ((h.tuned channel t).replaceHandlers channel list).channels other
        = (h.openChannel channel).channels other := by
    rw [channels_replaceHandlers_of_ne hne, tuned, channels_setChannel_of_ne hne]
  refine ⟨?_, ?_, fun hne => ?_, fun hne => ?_,
    isSome_channels_replaceHandlers isSome_channels_setChannel list, fun hne => ?_, fun k => ?_⟩
  · rw [threshold_channel_replaceHandlers, hself]
  · rw [handlers_channel_replaceHandlers, hleft]
  · rw [channel_congr (helse hne), threshold_channel_openChannel]
  · rw [channel_congr (helse hne), handlers_channel_openChannel]
  · rw [helse hne, isSome_channels_openChannel_of_ne hne]
  · have hnodup := hsound.nodup channel
    rw [← hattached] at hnodup
    rw [getElem?_handlers_replaceHandlers hnodup, hattached, hleft, hlist]

/-! ### Soundness -/

theorem Sound.addSink (hsound : h.Sound) (s : Sink) : (h.addSink s).2.Sound where
  nodup := hsound.nodup
  lt hmem := by
    have hlt := hsound.lt (h := h) hmem
    simp only [Hub.addSink, List.length_append, List.length_cons, List.length_nil]
    omega

theorem Sound.supplied (hsound : h.Sound) (handlers : Option HandlerList) :
    (h.supplied handlers).Sound := by
  cases handlers with
  | none => exact hsound.addSink .console
  | some list => exact hsound

/-- **A new logger takes its channel over**: it never fails where its name and its level are
fit. -/
theorem exists_newLogger (hsound : h.Sound) {name level : Value} {t : Threshold}
    (hname : channelOf name = .ok channel) (hlevel : Threshold.ofValue level = .ok t)
    (handlers : Option HandlerList) :
    ∃ l g, h.newLogger name level handlers = (.ok l, g) ∧ l.name = name ∧ l.channel = channel
      ∧ TakenOver channel t (h.left channel (h.listFor handlers)) (h.supplied handlers) g := by
  have hfrom := takenOver_replaceHandlers (hsound.supplied handlers) channel t
    (h.listFor handlers)
  have hleft : (h.supplied handlers).left channel (h.listFor handlers)
      = h.left channel (h.listFor handlers) :=
    left_congr (fun other _ => congrArg Channel.handlers (channel_supplied h handlers other)) _
  rw [hleft] at hfrom
  exact ⟨_, _, newLogger_eq hname hlevel handlers, rfl, rfl, hfrom.threshold, hfrom.attached,
    hfrom.threshold_of_ne, hfrom.handlers_of_ne, hfrom.isSome, hfrom.isSome_of_ne, hfrom.handler⟩

theorem TakenOver.isSome_handler {t : Threshold} (hto : TakenOver channel t row h g) (k : Nat) :
    (g.handlers[k]?).isSome = (h.handlers[k]?).isSome := by
  rw [hto.handler]
  split <;> simp

theorem TakenOver.length {t : Threshold} (hto : TakenOver channel t row h g) :
    g.handlers.length = h.handlers.length := by
  have hiff (k : Nat) : k < g.handlers.length ↔ k < h.handlers.length := by
    simpa using Bool.eq_iff_iff.mp (hto.isSome_handler k)
  exact Nat.le_antisymm (Nat.le_of_not_lt fun hlt => Nat.lt_irrefl _ ((hiff _).mp hlt))
    (Nat.le_of_not_lt fun hlt => Nat.lt_irrefl _ ((hiff _).mpr hlt))

theorem TakenOver.sound {t : Threshold} (hto : TakenOver channel t row h g) (hsound : h.Sound)
    (hrow : ∀ n ∈ row, n < h.handlers.length) : g.Sound where
  nodup name := by
    by_cases hname : name = channel
    · rw [hname, hto.attached]
      exact nodup_eraseDups row
    · rw [hto.handlers_of_ne hname]
      exact hsound.nodup name
  lt {name n} hmem := by
    rw [hto.length]
    by_cases hname : name = channel
    · rw [hname, hto.attached, List.mem_eraseDups] at hmem
      exact hrow n hmem
    · rw [hto.handlers_of_ne hname] at hmem
      exact hsound.lt hmem

/-- A new logger fails for its name or for its level, and has opened its channel in between. -/
theorem newLogger_cases (h : Hub) (name level : Value) (handlers : Option HandlerList) :
    (∃ channel t, channelOf name = .ok channel ∧ Threshold.ofValue level = .ok t)
      ∨ (∃ fault, h.newLogger name level handlers = (.error fault, h))
      ∨ ∃ channel fault, Threshold.ofValue level = .error fault
        ∧ h.newLogger name level handlers = (.error fault, h.openChannel channel) := by
  unfold newLogger
  cases hname : channelOf name with
  | error fault => exact .inr (.inl ⟨fault, rfl⟩)
  | ok channel =>
    unfold setThreshold
    cases hlevel : Threshold.ofValue level with
    | error fault => exact .inr (.inr ⟨channel, fault, rfl, rfl⟩)
    | ok t => exact .inl ⟨channel, t, rfl, rfl⟩

/-! ### What a new logger leaves alone -/

/-- A state without its channels and handlers. -/
def around (h : Hub) : Hub := { h with channels := fun _ => none, handlers := [], made := 0 }

theorem around_openChannel (h : Hub) (name : String) : (h.openChannel name).around = h.around := by
  unfold openChannel
  split <;> rfl

theorem around_attach (h : Hub) (channel : String) (k : Nat) :
    (h.attach channel k).around = h.around := by
  unfold attach
  dsimp only
  split <;> rfl

theorem around_release (h : Hub) (channel : String) (list : HandlerList) (k : Nat) :
    (release channel list h k).around = h.around := by
  unfold release
  split <;> rfl

theorem around_replaceHandlers (h : Hub) (channel : String) (list : HandlerList) :
    (h.replaceHandlers channel list).around = h.around := by
  have hdetached : (h.detachAll channel list).around = h.around := by
    rw [detachAll_eq]
    exact List.foldlRecOn (motive := fun g : Hub => g.around = h.around) _ _ rfl
      fun g hg k _ => (around_release g channel list k).trans hg
  rw [replaceHandlers_eq]
  exact List.foldlRecOn (motive := fun g : Hub => g.around = h.around) _ _ hdetached
    fun g hg k _ => (around_attach g channel k).trans hg

theorem around_newLogger (h : Hub) (name level : Value) (handlers : Option HandlerList) :
    (h.newLogger name level handlers).2.around = h.around := by
  rcases newLogger_cases h name level handlers with
    ⟨channel, t, hname, hlevel⟩ | ⟨fault, heq⟩ | ⟨channel, fault, -, heq⟩
  · have hsupplied : (h.supplied handlers).around = h.around := by cases handlers <;> rfl
    rw [newLogger_eq hname hlevel, ← hsupplied]
    exact (around_replaceHandlers _ _ _).trans (around_openChannel (h.supplied handlers) channel)
  · rw [heq]
  · rw [heq]
    exact around_openChannel h channel

/-! ### The logger of the program -/

/-- Asking for the logger of the program makes a new one, or changes nothing. -/
theorem globalLogger_cases (h : Hub) (name : Value) :
    h.globalLogger name = globalLogger.renew h name
      ∨ ∃ l, h.global = some l ∧ l.name.sameKey name = true
        ∧ h.globalLogger name = (.ok l, h) := by
  unfold globalLogger
  cases hglobal : h.global with
  | none => exact .inl rfl
  | some l =>
    by_cases hsame : l.name.sameKey name = true
    · exact .inr ⟨l, rfl, hsame, if_pos hsame⟩
    · exact .inl (if_neg hsame)

theorem blocks_globalLogger (h : Hub) (name : Value) :
    (h.globalLogger name).2.blocks = h.blocks := by
  rcases globalLogger_cases h name with heq | ⟨l, -, -, heq⟩
  · have haround := congrArg Hub.blocks (around_newLogger h name defaultLevel none)
    rw [heq, globalLogger.renew]
    rcases hnew : h.newLogger name defaultLevel none with ⟨_ | l, g⟩ <;>
    · rw [hnew] at haround
      exact haround
  · rw [heq]

end Winnow.Log.Hub
