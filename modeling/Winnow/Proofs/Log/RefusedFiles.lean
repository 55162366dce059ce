/-
Winnow/Proofs/Log/RefusedFiles.lean

What is left when the logger of the program cannot be made.

Three things are done for a logger that is made from settings: its level is read, it
takes its channel over, and its file is opened.  A level that is none is found out
first, when nothing has happened yet.  A file that is refused (`FileRefused`), because
the setting is no path or because nothing can be opened there, is found out last, when
the channel has been taken over: it has the new level and a new handler that writes to
the console, and the handlers that it had are detached and closed (`Overtaken`).  Only
the logger of the program is still the one from before.

Main result: `overtaken_of_refused`.
-/
import Winnow.Proofs.Log.Global

namespace Winnow.Log.Hub

variable {h g : Hub} {channel : String} {n : String} {least : Level}

/-! ### A channel that has been taken over -/

/-- A channel has been given to a new logger of a level that writes to the console: its handlers
are detached and closed, no other channel and no other handler has changed, and neither have the
files and the logger of the program. -/
structure Overtaken (channel : String) (least : Level) (h g : Hub) : Prop where
  around : g.around = h.around
  level : g.level channel = .ok least
  attached : (g.channel channel).handlers = [h.handlers.length]
  console : g.handlers[h.handlers.length]? = some (.ofSink .console)
  handler {k : Nat} : k < h.handlers.length → g.handlers[k]? =
    if k ∈ (h.channel channel).handlers then (h.handlers[k]?).map Handler.close else h.handlers[k]?
  others {other : String} : other ≠ channel →
    (g.channel other).threshold = (h.channel other).threshold
      ∧ (g.channel other).handlers = (h.channel other).handlers

/-- Every handler that was attached has been detached and closed once more. -/
theorem Overtaken.closed (hover : Overtaken channel least h g) (hsound : h.Sound) {k : Nat}
    (hk : k ∈ (h.channel channel).handlers) :
    k ∉ (g.channel channel).handlers ∧ g.closings k = h.closings k + 1 := by
  have hlt := hsound.lt hk
  constructor
  · rw [hover.attached, List.mem_singleton]
    exact Nat.ne_of_lt hlt
  · unfold closings
    rw [hover.handler hlt, if_pos hk, List.getElem?_eq_getElem hlt]
    rfl

/-- A new logger that is given no handlers overtakes its channel. -/
theorem exists_overtaken (hsound : h.Sound) (n : String) (least : Level) :
    ∃ l g, h.newLogger (.text n) (.scalar (.level least)) none = (.ok l, g)
      ∧ Overtaken (channelNamed n) least h g := by
  have hlevel := Level.ofValue_of_isNamed (l := least) .level
  obtain ⟨l, g, heq, -, -, hto⟩ := exists_newLogger hsound (channelOf_text n) hlevel none
  rw [left_listFor_none] at hto
  have haround := around_newLogger h (.text n) (.scalar (.level least)) none
  rw [heq] at haround
  refine ⟨l, g, heq, haround, level_of_threshold hto.threshold, hto.attached, ?_, fun hk => ?_,
    fun hne => ⟨hto.threshold_of_ne hne, hto.handlers_of_ne hne⟩⟩
  · rw [hto.handler, if_neg fun hmem => hmem.2 (List.mem_singleton.mpr rfl)]
    exact List.getElem?_concat_length
  · rename_i k
    have hold : (h.supplied none).handlers[k]? = h.handlers[k]? := List.getElem?_append_left hk
    have hnew : k ∉ [h.handlers.length] := fun hmem => Nat.ne_of_lt hk (List.mem_singleton.mp hmem)
    have hattached : k ∈ ((h.supplied none).channel (channelNamed n)).handlers
        ∧ k ∉ [h.handlers.length] ↔ k ∈ (h.channel (channelNamed n)).handlers := and_iff_left hnew
    rw [hto.handler, hold]
    by_cases hk' : k ∈ (h.channel (channelNamed n)).handlers
    · rw [if_pos (hattached.mpr hk'), if_pos hk']
    · rw [if_neg fun hmem => hk' (hattached.mp hmem), if_neg hk']

/-! ### The file of a logger -/

section Settings

variable {α : Type} [Shaped α] {level file : α} {fault : Fault} {u : Usage}

/-- Why no file is opened for a setting that does not count as empty: it is no path, or nothing
can be opened there. -/
inductive FileRefused (f : Files) (file : α) : Fault → Prop
  | notPath {fault : Fault} : (Shaped.shape file).isEmpty = false →
      pathOf file = .error fault → FileRefused f file fault
  | notOpened {path : PathText} {fault : FileFault} : (Shaped.shape file).isEmpty = false →
      pathOf file = .ok path →
      LogFile.open? f path LogFile.defaultMaxBytes LogFile.defaultBackups = .error fault →
      FileRefused f file (.file fault)

theorem FileRefused.unique {f : Files} {other : Fault} (hfault : FileRefused f file fault)
    (hother : FileRefused f file other) : fault = other := by
  rcases hfault with ⟨-, hpath⟩ | ⟨-, hpath, hopen⟩ <;>
    rcases hother with ⟨-, hpath'⟩ | ⟨-, hpath', hopen'⟩ <;>
    cases hpath.symm.trans hpath'
  · rfl
  · cases hopen.symm.trans hopen'
    rfl

/-- A logger that has been made is the logger of the program, unless its file is refused. -/
theorem configure_cases_of_newLogger {l : Logger} (hleast : levelOfSetting level = .ok least)
    (hnew : h.newLogger (.text n) (.scalar (.level least)) none = (.ok l, g)) (file : α) :
    (∃ g', h.configure (.text n) level file = (.ok l, g'))
        ∧ (∀ fault, ¬FileRefused g.files file fault)
      ∨ ∃ fault, FileRefused g.files file fault
        ∧ h.configure (.text n) level file = (.error fault, g) := by
  unfold configure
  rw [hleast]
  dsimp only
  rw [hnew]
  dsimp only
  cases hempty : (Shaped.shape file).isEmpty with
  | true =>
    refine .inl ⟨⟨_, if_pos rfl⟩, ?_⟩
    rintro fault (⟨hne, -⟩ | ⟨hne, -, -⟩) <;> exact Bool.noConfusion (hempty.symm.trans hne)
  | false =>
    rw [if_neg Bool.false_ne_true]
    cases hpath : pathOf file with
    | error fault => exact .inr ⟨fault, .notPath hempty hpath, rfl⟩
    | ok path =>
      dsimp only
      unfold fileHandler
      cases hopen : LogFile.open? g.files path LogFile.defaultMaxBytes LogFile.defaultBackups with
      | error fault => exact .inr ⟨.file fault, .notOpened hempty hpath hopen, rfl⟩
      | ok opened =>
        refine .inl ⟨⟨_, rfl⟩, ?_⟩
        rintro fault (⟨-, hfault⟩ | ⟨-, hother, hfault⟩)
        · cases hpath.symm.trans hfault
        · cases hpath.symm.trans hother
          cases hopen.symm.trans hfault

/-- **A file that is refused is found out too late.**  From settings whose level is none no logger
is made and nothing changes.  With a level, a logger is made unless its file is refused; and where
the file is refused, no logger is made either, but its channel has been overtaken: the level is
the new one, what was attached is detached and closed, and a new handler is attached. -/
theorem overtaken_of_refused (hreach : h.Reachable u) (n : String) (level file : α) :
    (∀ fault, levelOfSetting level = .error fault →
      h.configure (.text n) level file = (.error fault, h))
    ∧ ∀ least, levelOfSetting level = .ok least →
      ((∀ fault, ¬FileRefused h.files file fault) →
        ∃ l g, h.configure (.text n) level file = (.ok l, g))
      ∧ ∀ fault, FileRefused h.files file fault →
        ∃ g, h.configure (.text n) level file = (.error fault, g)
          ∧ Overtaken (channelNamed n) least h g
          ∧ (g.channel (channelNamed n)).handlers ≠ (h.channel (channelNamed n)).handlers
          ∧ ∀ k ∈ (h.channel (channelNamed n)).handlers,
            k ∉ (g.channel (channelNamed n)).handlers ∧ g.closings k = h.closings k + 1 := by
  refine ⟨fun fault hlevel => ?_, fun least hleast => ?_⟩
  · unfold configure
    rw [hlevel]
  obtain ⟨l, g, hnew, hover⟩ := exists_overtaken hreach.sound n least
  have hfiles : g.files = h.files := congrArg (·.files) hover.around
  have hcases := configure_cases_of_newLogger hleast hnew file
  rw [hfiles] at hcases
  rcases hcases with ⟨⟨g', hok⟩, hopened⟩ | ⟨reason, hreason, herror⟩
  · exact ⟨fun _ => ⟨l, g', hok⟩, fun fault hrefused => absurd hrefused (hopened fault)⟩
  refine ⟨fun hopened => absurd hreason (hopened reason), fun fault hrefused => ?_⟩
  obtain rfl := hreason.unique hrefused
  refine ⟨g, herror, hover, fun hsame => ?_, fun k hk => hover.closed hreach.sound hk⟩
  -- the handler that writes to the console is a new one
  have hnew : h.handlers.length ∈ (h.channel (channelNamed n)).handlers := by
    rw [← hsame, hover.attached]
    exact List.mem_singleton.mpr rfl
  exact Nat.lt_irrefl _ (hreach.sound.lt hnew)

end Settings

/-- A logger for everything that keeps its records. -/
def keeper : Hub :=
  let h := (silent.addSink .capture).2
  (h.newLogger (.text "app") (.scalar (.level .debug)) (some (.own [0]))).2

theorem reachable_keeper : keeper.Reachable .any :=
  ((Reachable.initial _).addSink .capture).newLogger _ _ _ trivial trivial
    (by rintro list ⟨⟩; decide)

/-- A logger that keeps its records, made anew with a file in a folder that is not there: it takes
no more records below the ordinary level, and its handler is closed. -/
theorem overtaken_of_refused_keeper :
    ∃ fault, FileRefused keeper.files (Value.text "missing/app.log") fault
      ∧ ∃ g, keeper.configure (.text "app") (Value.text "INFO") (.text "missing/app.log")
          = (.error fault, g)
        ∧ keeper.level "app" = .ok .debug ∧ g.level "app" = .ok .info
        ∧ keeper.closings 0 = 0 ∧ g.closings 0 = 1 := by
  have hrefused : ∃ fault, FileRefused keeper.files (Value.text "missing/app.log") fault := by
    have hnot : (LogFile.open? keeper.files (.text "missing/app.log") LogFile.defaultMaxBytes
        LogFile.defaultBackups).isOk = false := by decide +kernel
    cases hopen : LogFile.open? keeper.files (.text "missing/app.log") LogFile.defaultMaxBytes
        LogFile.defaultBackups with
    | error fault => exact ⟨_, .notOpened rfl rfl hopen⟩
    | ok opened =>
      rw [hopen] at hnot
      cases hnot
  obtain ⟨fault, hrefused⟩ := hrefused
  have hleast : levelOfSetting (Value.text "INFO") = .ok .info := rfl
  obtain ⟨-, hknown⟩ := overtaken_of_refused reachable_keeper "app" (Value.text "INFO")
    (.text "missing/app.log")
  obtain ⟨g, heq, hover, -, hclosed⟩ := (hknown .info hleast).2 _ hrefused
  have hattached : 0 ∈ (keeper.channel "app").handlers := by decide +kernel
  exact ⟨fault, hrefused, g, heq, rfl, hover.level, rfl, (hclosed 0 hattached).2⟩

end Winnow.Log.Hub
