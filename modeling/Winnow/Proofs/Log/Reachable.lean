/-
Winnow/Proofs/Log/Reachable.lean

The states of logging that a program can reach.

A program makes loggers, attaches and detaches handlers, sets thresholds, and
writes, in any order and with any outcome.  What it hands over is of some kind
(`Usage`): anything at all, or what logging is made for (`Usage.plain`).
Handlers are attached at most once in any state (`Reachable.sound`), and under
plain usage every logger has a level and every handler takes all records
(`Reachable.plain`).  Asking for the logger of the program, and making it from
settings, are made up of these steps (`Reachable.globalLogger`,
`Reachable.configure`).
-/
import Winnow.Proofs.Log.Delivery
import Winnow.Proofs.Log.Handlers

namespace Winnow.Log

/-- A value that stands for a level: the level, or its name in any case. -/
inductive Level.IsNamed (l : Level) : Value → Prop
  | level : IsNamed l (.scalar (.level l))
  | name {s : String} : Text.upper s = l.name → IsNamed l (.text s)

theorem Level.ofValue_of_isNamed {l : Level} {v : Value} (h : l.IsNamed v) :
    Threshold.ofValue v = .ok ⟨l.number, false⟩ := by
  cases h with
  | level => rfl
  | @name s hs =>
    have hfound : Level.ofName? l.name = some l := by cases l <;> decide
    have hnamed : levelNamed s = .ok l := by
      unfold levelNamed
      rw [hs]
      dsimp only
      rw [hfound]
    unfold Threshold.ofValue Value.text?
    dsimp only
    rw [hnamed]
    rfl

/-- What a program hands over: names of loggers, levels of loggers, among them all levels, and
least levels of handlers. -/
structure Usage where
  name : Value → Prop
  level : Value → Prop
  least : Value → Prop
  level_level (l : Level) : level (.scalar (.level l))

namespace Usage

/-- Anything at all. -/
def any : Usage := ⟨fun _ => True, fun _ => True, fun _ => True, fun _ => trivial⟩

/-- Names other than those of the root, levels or their names, and no least levels. -/
def plain : Usage where
  name v := ∃ s, v = .text s ∧ s ≠ "" ∧ s ≠ rootName
  level v := ∃ l : Level, l.IsNamed v
  least _ := False
  level_level l := ⟨l, .level⟩

end Usage

namespace Hub

variable {u : Usage} {h g : Hub} {channel other : String} {n : Nat}

/-- A channel of a logger that has been made. -/
def IsUsed (u : Usage) (h : Hub) (channel : String) : Prop :=
  (∃ name, u.name name ∧ channelOf name = .ok channel) ∧ (h.channels channel).isSome

/-- The states that a program reaches. -/
inductive Reachable (u : Usage) : Hub → Prop
  | initial (f : Files) : Reachable u (initial f)
  | addSink {h : Hub} (s : Sink) : Reachable u h → Reachable u (h.addSink s).2
  | setHandlerThreshold {h : Hub} (n : Nat) {level : Value} : Reachable u h → u.least level →
      Reachable u (h.setHandlerThreshold n level).2
  | newLogger {h : Hub} (name level : Value) (handlers : Option HandlerList) : Reachable u h →
      u.name name → u.level level → (∀ list ∈ handlers, ∀ n ∈ h.row list, n < h.handlers.length) →
      Reachable u (h.newLogger name level handlers).2
  | attach {h : Hub} {channel : String} {n : Nat} : Reachable u h → h.IsUsed u channel →
      n < h.handlers.length → Reachable u (h.attach channel n)
  | detach {h : Hub} {channel : String} (n : Nat) : Reachable u h → h.IsUsed u channel →
      Reachable u (h.detach channel n)
  | setThreshold {h : Hub} {channel : String} {level : Value} : Reachable u h →
      h.IsUsed u channel → u.level level → Reachable u (h.setThreshold channel level).2
  | setGlobal {h : Hub} (l : Option Logger) : Reachable u h → Reachable u { h with global := l }
  | log {h : Hub} (channel : String) (level : Level) (message : String) (own : Context) :
      Reachable u h → Reachable u (h.log channel level message own).2
  | logRaised {h : Hub} (channel message : String) (raised : Raised) (own : Context) :
      Reachable u h → Reachable u (h.logRaised channel message raised own).2
  | enter {h : Hub} (c : Context) : Reachable u h → Reachable u (h.enter c)
  | leave {h : Hub} : Reachable u h → Reachable u h.leave
  /-- Time passes, and files change. -/
  | outside {h : Hub} (clock : Int) (f : Files) : Reachable u h →
      Reachable u { h with clock := clock, files := f }

/-! ### Soundness -/

theorem Sound.congr (hsound : h.Sound) (hchannels : g.channels = h.channels)
    (hlength : g.handlers.length = h.handlers.length) : g.Sound where
  nodup name := by
    rw [channel_congr (congrFun hchannels name)]
    exact hsound.nodup name
  lt {name n} hmem := by
    rw [channel_congr (congrFun hchannels name)] at hmem
    exact hlength ▸ hsound.lt hmem

theorem sound_initial (f : Files) : (initial f).Sound := by
  have hnone (name : String) : ((initial f).channel name).handlers = [] := by
    unfold initial Hub.channel
    dsimp only
    split <;> rfl
  refine ⟨fun name => ?_, fun {name n} hmem => ?_⟩
  · rw [hnone]
    exact List.nodup_nil
  · rw [hnone] at hmem
    cases hmem

theorem Sound.setChannel (hsound : h.Sound) {c : Channel} (hnodup : c.handlers.Nodup)
    (hlt : ∀ n ∈ c.handlers, n < h.handlers.length) : (h.setChannel channel c).Sound where
  nodup name := by
    by_cases hname : name = channel
    · rw [hname, channel_setChannel_self]
      exact hnodup
    · rw [channel_setChannel_of_ne hname]
      exact hsound.nodup name
  lt {name n} hmem := by
    by_cases hname : name = channel
    · rw [hname, channel_setChannel_self] at hmem
      exact hlt n hmem
    · rw [channel_setChannel_of_ne hname] at hmem
      exact hsound.lt hmem

theorem Sound.openChannel (hsound : h.Sound) (channel : String) :
    (h.openChannel channel).Sound where
  nodup name := by
    rw [handlers_channel_openChannel]
    exact hsound.nodup name
  lt {name n} hmem := by
    rw [handlers_channel_openChannel] at hmem
    exact handlers_openChannel h channel ▸ hsound.lt hmem

theorem Sound.attach (hsound : h.Sound) (hn : n < h.handlers.length) :
    (h.attach channel n).Sound := by
  by_cases hmem : n ∈ (h.channel channel).handlers
  · rw [attach_of_mem hmem]
    exact hsound
  · rw [attach_of_not_mem hmem]
    refine hsound.setChannel (List.nodup_append.mpr ⟨hsound.nodup channel, by simp, ?_⟩) ?_
    · rintro k hk m hm rfl
      exact hmem (List.mem_singleton.mp hm ▸ hk)
    · intro k hk
      rcases List.mem_append.mp hk with hk | hk
      · exact hsound.lt hk
      · exact List.mem_singleton.mp hk ▸ hn

theorem Sound.detach (hsound : h.Sound) (channel : String) (n : Nat) :
    (h.detach channel n).Sound :=
  hsound.setChannel ((hsound.nodup channel).sublist List.filter_sublist)
    fun _ hk => hsound.lt (List.mem_filter.mp hk).1

theorem Sound.setThreshold (hsound : h.Sound) (channel : String) (level : Value) :
    (h.setThreshold channel level).2.Sound := by
  unfold Hub.setThreshold
  split
  · exact hsound.setChannel (hsound.nodup channel) fun _ hk => hsound.lt hk
  · exact hsound

theorem Sound.setHandlerThreshold (hsound : h.Sound) (n : Nat) (level : Value) :
    (h.setHandlerThreshold n level).2.Sound := by
  unfold Hub.setHandlerThreshold
  split
  · exact hsound.congr rfl (List.length_modify _ _ _)
  · exact hsound

theorem Sound.newLogger (hsound : h.Sound) (name level : Value) {handlers : Option HandlerList}
    (hrow : ∀ list ∈ handlers, ∀ n ∈ h.row list, n < h.handlers.length) :
    (h.newLogger name level handlers).2.Sound := by
  rcases newLogger_cases h name level handlers with
    ⟨channel, t, hname, hlevel⟩ | ⟨fault, heq⟩ | ⟨channel, fault, -, heq⟩
  · obtain ⟨l, g, heq, -, -, hto⟩ := exists_newLogger hsound hname hlevel handlers
    rw [heq]
    exact hto.sound (hsound.supplied handlers) (lt_of_mem_left hrow channel)
  · rw [heq]
    exact hsound
  · rw [heq]
    exact hsound.openChannel channel

theorem Sound.deliver (hsound : h.Sound) (r : Record) : (h.deliver r).Sound :=
  hsound.congr (servesLike_deliver h r).channels
    (by simpa using congrArg List.length (servesLike_deliver h r).handlers)

/-- What a call hands over at most is a record. -/
theorem Sound.call {o : Outcome Unit} (hsound : h.Sound)
    (hcall : o.2 = h ∨ ∃ r, o = (.ok (), h.deliver r)) : o.2.Sound := by
  rcases hcall with hsame | ⟨r, rfl⟩
  · exact hsame.symm ▸ hsound
  · exact hsound.deliver r

/-- **No handler is attached twice** in any state that a program reaches. -/
theorem Reachable.sound (hreach : h.Reachable u) : h.Sound := by
  induction hreach with
  | initial f => exact sound_initial f
  | addSink s _ ih => exact ih.addSink s
  | setHandlerThreshold n _ _ ih => exact ih.setHandlerThreshold n _
  | newLogger name level _ _ _ _ hrow ih => exact ih.newLogger name level hrow
  | attach _ _ hn ih => exact ih.attach hn
  | detach n _ _ ih => exact ih.detach _ n
  | setThreshold _ _ _ ih => exact ih.setThreshold _ _
  | setGlobal _ _ ih => exact ih.congr rfl rfl
  | log channel level message own _ ih => exact ih.call (log_cases _ channel level message own)
  | logRaised channel message raised own _ ih =>
    exact ih.call (logRaised_cases _ channel message raised own)
  | enter _ _ ih => exact ih.congr rfl rfl
  | leave _ ih => exact ih.congr rfl rfl
  | outside _ _ _ ih => exact ih.congr rfl rfl

/-! ### Steps made up of others -/

theorem channelOf_of_ne_empty {s : String} (hs : s ≠ "") : channelOf (.text s) = .ok s := by
  have hempty : (Value.text s).isEmpty = false := by simpa [Value.isEmpty, Scalar.isEmpty] using hs
  unfold channelOf
  rw [hempty]
  rfl

theorem Reachable.globalLogger {name : Value} (hreach : h.Reachable u) (hname : u.name name) :
    (h.globalLogger name).2.Reachable u := by
  rcases globalLogger_cases h name with heq | ⟨l, -, -, heq⟩
  · have hnew := hreach.newLogger name _ none hname (u.level_level .info) (by simp)
    rw [heq, globalLogger.renew]
    change ((h.newLogger name defaultLevel none).2).Reachable u at hnew
    rcases hmade : h.newLogger name defaultLevel none with ⟨_ | l, g⟩
    · rw [hmade] at hnew
      exact hnew
    · rw [hmade] at hnew
      exact hnew.setGlobal (some l)
  · rw [heq]
    exact hreach

theorem Reachable.fileHandler (hreach : h.Reachable u) (path : PathText) (maxBytes backups : Int) :
    (h.fileHandler path maxBytes backups).2.Reachable u := by
  unfold Hub.fileHandler
  split
  · exact (hreach.outside h.clock _).addSink _
  · exact hreach

/-- Making the logger of the program from settings fails before or after the logger is made, or
gives it a file or none. -/
theorem configure_cases {α : Type} [Shaped α] (h : Hub) (name : Value) (level file : α) :
    (∃ fault, h.configure name level file = (.error fault, h))
      ∨ ∃ l made g, levelOfSetting level = .ok l
        ∧ h.newLogger name (.scalar (.level l)) none = (made, g)
        ∧ ((∃ fault, h.configure name level file = (.error fault, g))
          ∨ ∃ logger g', made = .ok logger
            ∧ h.configure name level file = (.ok logger, { g' with global := some logger })
            ∧ ((Shaped.shape file).isEmpty = true ∧ g' = g
              ∨ (Shaped.shape file).isEmpty = false ∧ ∃ f logFile,
                g' = ({ g with files := f }.addSink (.file logFile)).2.attach logger.channel
                  g.handlers.length)) := by
  unfold Hub.configure
  cases hlevel : levelOfSetting level with
  | error fault => exact .inl ⟨fault, rfl⟩
  | ok l =>
    refine .inr ⟨l, (h.newLogger name (.scalar (.level l)) none).1,
      (h.newLogger name (.scalar (.level l)) none).2, rfl, rfl, ?_⟩
    dsimp only
    rcases h.newLogger name (.scalar (.level l)) none with ⟨fault | logger, g⟩
    · exact .inl ⟨fault, rfl⟩
    · dsimp only
      split
      · rename_i hempty
        exact .inr ⟨logger, g, rfl, rfl, .inl ⟨hempty, rfl⟩⟩
      · rename_i hempty
        cases pathOf file with
        | error fault => exact .inl ⟨fault, rfl⟩
        | ok path =>
          unfold Hub.fileHandler
          dsimp only
          rcases LogFile.open? g.files path LogFile.defaultMaxBytes LogFile.defaultBackups with
            fault | ⟨logFile, f⟩
          · exact .inl ⟨_, rfl⟩
          · exact .inr ⟨logger, _, rfl, rfl, .inr ⟨Bool.eq_false_iff.mpr hempty, f, logFile, rfl⟩⟩

theorem Reachable.configure {α : Type} [Shaped α] {name : Value} (hreach : h.Reachable u)
    (hname : u.name name) (level file : α) : (h.configure name level file).2.Reachable u := by
  rcases configure_cases h name level file with
    ⟨fault, heq⟩ | ⟨l, made, g, -, hmade, ⟨fault, heq⟩ | ⟨logger, g', rfl, heq, hg'⟩⟩
  · rw [heq]
    exact hreach
  all_goals
    have hnew := hreach.newLogger name _ none hname (u.level_level l) (by simp)
    rw [hmade] at hnew
    rw [heq]
  · exact hnew
  refine Reachable.setGlobal (some logger) ?_
  rcases hg' with ⟨-, rfl⟩ | ⟨-, f, logFile, rfl⟩
  · exact hnew
  refine ((hnew.outside g.clock f).addSink _).attach ?_ (by simp [Hub.addSink])
  rcases newLogger_cases h name (.scalar (.level l)) none with
    ⟨channel, t, hchannel, hlevel⟩ | ⟨fault, herror⟩ | ⟨channel, fault, -, herror⟩
  · obtain ⟨logger', g', heq', -, hto, htaken⟩ :=
      exists_newLogger hreach.sound hchannel hlevel none
    rw [hmade] at heq'
    cases heq'
    exact ⟨⟨name, hname, hto ▸ hchannel⟩, hto ▸ htaken.isSome⟩
  · rw [hmade] at herror
    cases herror
  · rw [hmade] at herror
    cases herror

/-! ### Plain usage -/

theorem level_of_threshold {l : Level} (ht : (h.channel channel).threshold = ⟨l.number, false⟩) :
    h.level channel = .ok l := by
  have hfound : Level.ofNumber? l.number = some l := by cases l <;> decide
  unfold Hub.level
  rw [ht]
  dsimp only
  rw [hfound]

theorem level_congr (ht : (g.channel channel).threshold = (h.channel other).threshold) :
    g.level channel = h.level other := by
  unfold Hub.level
  rw [ht]

/-- Every logger has a level, and every handler takes all records. -/
structure Plain (h : Hub) : Prop where
  least {n : Nat} {handler : Handler} : h.handlers[n]? = some handler → handler.least = 0
  level {name : String} : (h.channels name).isSome → name ≠ rootName → ∃ l, h.level name = .ok l

theorem plain_initial (f : Files) : (initial f).Plain where
  least hhandler := by cases hhandler
  level {name} hopen hroot := by
    unfold initial at hopen
    dsimp only at hopen
    rw [if_neg hroot] at hopen
    cases hopen

theorem Plain.congr (hplain : h.Plain) (hchannels : g.channels = h.channels)
    (houtline : g.handlers.map outline = h.handlers.map outline) : g.Plain where
  least {n handler} hhandler := by
    have hmap : (g.handlers.map outline)[n]? = some (outline handler) := by
      rw [List.getElem?_map, hhandler, Option.map_some]
    rw [houtline, List.getElem?_map, Option.map_eq_some_iff] at hmap
    obtain ⟨old, hold, heq⟩ := hmap
    have hleast : old.least = handler.least := congrArg (·.1) heq
    exact hleast ▸ hplain.least hold
  level {name} hopen hroot := by
    rw [hchannels] at hopen
    obtain ⟨l, hl⟩ := hplain.level hopen hroot
    exact ⟨l, (level_congr (channel_congr (congrFun hchannels name) ▸ rfl)).trans hl⟩

theorem Plain.addSink (hplain : h.Plain) (s : Sink) : (h.addSink s).2.Plain where
  least {n handler} hhandler := by
    rcases List.mem_append.mp (List.mem_of_getElem? hhandler) with hold | hnew
    · obtain ⟨k, hk⟩ := List.getElem?_of_mem hold
      exact hplain.least hk
    · rw [List.mem_singleton.mp hnew]
      rfl
  level hopen hroot := hplain.level hopen hroot

theorem Plain.setChannel (hplain : h.Plain) {c : Channel} (hopen : (h.channels channel).isSome)
    (ht : c.threshold = (h.channel channel).threshold
      ∨ ∃ l : Level, c.threshold = ⟨l.number, false⟩) :
    (h.setChannel channel c).Plain where
  least hhandler := hplain.least (h := h) hhandler
  level {name} hname hroot := by
    by_cases heq : name = channel
    · subst heq
      rcases ht with ht | ⟨l, ht⟩
      · obtain ⟨l, hl⟩ := hplain.level hopen hroot
        exact ⟨l, (level_congr (by rw [channel_setChannel_self, ht])).trans hl⟩
      · exact ⟨l, level_of_threshold (by rw [channel_setChannel_self, ht])⟩
    · rw [channels_setChannel_of_ne heq] at hname
      obtain ⟨l, hl⟩ := hplain.level hname hroot
      exact ⟨l, (level_congr (by rw [channel_setChannel_of_ne heq])).trans hl⟩

theorem TakenOver.plain {l : Level} {row : List Nat}
    (hto : TakenOver channel ⟨l.number, false⟩ row h g) (hplain : h.Plain) : g.Plain where
  least {n handler} hhandler := by
    rw [hto.handler] at hhandler
    split at hhandler
    · obtain ⟨old, hold, rfl⟩ := Option.map_eq_some_iff.mp hhandler
      have hleast : old.least = 0 := hplain.least hold
      exact hleast
    · exact hplain.least hhandler
  level {name} hname hroot := by
    by_cases heq : name = channel
    · exact ⟨l, level_of_threshold (heq ▸ hto.threshold)⟩
    · rw [hto.isSome_of_ne heq] at hname
      obtain ⟨l', hl⟩ := hplain.level hname hroot
      exact ⟨l', (level_congr (hto.threshold_of_ne heq)).trans hl⟩

theorem Plain.call {o : Outcome Unit} (hplain : h.Plain)
    (hcall : o.2 = h ∨ ∃ r, o = (.ok (), h.deliver r)) : o.2.Plain := by
  rcases hcall with hsame | ⟨r, rfl⟩
  · exact hsame.symm ▸ hplain
  · exact hplain.congr (servesLike_deliver h r).channels (servesLike_deliver h r).handlers

/-- **Every logger has a level and every handler takes all records** in any state that a program
reaches under plain usage. -/
theorem Reachable.plain (hreach : h.Reachable .plain) : h.Plain := by
  induction hreach with
  | initial f => exact plain_initial f
  | addSink s _ ih => exact ih.addSink s
  | setHandlerThreshold _ _ hleast => cases hleast
  | @newLogger h _ _ handlers hreach hname hlevel _ ih =>
    obtain ⟨s, rfl, hs, -⟩ := hname
    obtain ⟨l, hl⟩ := hlevel
    obtain ⟨logger, g, heq, -, -, hto⟩ := exists_newLogger hreach.sound (channelOf_of_ne_empty hs)
      (Level.ofValue_of_isNamed hl) handlers
    rw [heq]
    refine hto.plain ?_
    cases handlers with
    | none => exact ih.addSink .console
    | some row => exact ih
  | @attach h channel n _ hused _ ih =>
    by_cases hmem : n ∈ (h.channel channel).handlers
    · rw [attach_of_mem hmem]
      exact ih
    · rw [attach_of_not_mem hmem]
      exact ih.setChannel hused.2 (.inl rfl)
  | detach _ _ hused ih => exact ih.setChannel hused.2 (.inl rfl)
  | @setThreshold h channel _ _ hused hlevel ih =>
    obtain ⟨l, hl⟩ := hlevel
    unfold Hub.setThreshold
    rw [Level.ofValue_of_isNamed hl]
    exact ih.setChannel hused.2 (.inr ⟨l, rfl⟩)
  | setGlobal _ _ ih => exact ih.congr rfl rfl
  | log channel level message own _ ih => exact ih.call (log_cases _ channel level message own)
  | logRaised channel message raised own _ ih =>
    exact ih.call (logRaised_cases _ channel message raised own)
  | enter _ _ ih => exact ih.congr rfl rfl
  | leave _ ih => exact ih.congr rfl rfl
  | outside _ _ _ ih => exact ih.congr rfl rfl

end Hub

end Winnow.Log
