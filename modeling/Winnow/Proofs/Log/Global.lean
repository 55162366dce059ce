/-
Winnow/Proofs/Log/Global.lean

The logger of the program, asked for under one name after another.

There is one such logger.  Asked for under its name it is given back; asked for
under another name it makes place for a new logger, which takes the channel of
that name over.  The channel of a logger made from settings is its own as long
as nobody asks for its name again after another one (`Own.ask`): then it keeps
its level and its open handlers.  The first that does gets a new logger of the
ordinary level that writes to the console, and the handlers are closed
(`configured_until_renewed`).
-/
import Winnow.Proofs.Log.Attached
import Winnow.Proofs.Store.Entries

namespace Winnow.Log.Hub

variable {h g : Hub} {channel : String} {t : Threshold} {row : List Nat} {n m : String}

/-! ### Asking -/

/-- The channel that a text names. -/
def channelNamed (name : String) : String := if name = "" then rootName else name

theorem channelOf_text (name : String) : channelOf (.text name) = .ok (channelNamed name) := by
  unfold channelNamed
  split
  · rename_i hempty
    rw [hempty]
    rfl
  · rename_i hempty
    exact channelOf_of_ne_empty hempty

/-- The state after the logger of the program has been asked for under a name. -/
def ask (h : Hub) (name : String) : Hub := (h.globalLogger (.text name)).2

theorem globalLogger_of_name {l : Logger} (hglobal : h.global = some l) (hname : l.name = .text m) :
    h.globalLogger (.text m) = (.ok l, h) := by
  have hsame : l.name.sameKey (.text m) = true := by
    rw [hname, sameKey_text_iff]
  unfold globalLogger
  rw [hglobal]
  exact if_pos hsame

/-- Asked for under another name than its own, the logger of the program is a new one, which
writes to the console. -/
theorem exists_renewed (hsound : h.Sound) (hother : ∀ l, h.global = some l → l.name ≠ .text m) :
    ∃ l g, h.globalLogger (.text m) = (.ok l, g) ∧ l.name = .text m ∧ l.channel = channelNamed m
      ∧ g.global = some l
      ∧ TakenOver (channelNamed m) ⟨Level.info.number, false⟩ [h.handlers.length]
          (h.supplied none) g := by
  obtain ⟨l, g, heq, hname, hchannel, hto⟩ := exists_newLogger hsound (channelOf_text m)
    (Level.ofValue_of_isNamed (l := .info) .level) none
  have hrenew : h.globalLogger (.text m) = (.ok l, { g with global := some l }) := by
    rcases globalLogger_cases h (.text m) with hcase | ⟨l', hglobal, hsame, -⟩
    · rw [hcase, globalLogger.renew, defaultLevel, heq]
    · exact absurd (sameKey_text_iff.mp hsame) (hother l' hglobal)
  exact ⟨l, _, hrenew, hname, hchannel, rfl, hto.threshold, hto.attached, hto.threshold_of_ne,
    hto.handlers_of_ne, hto.isSome, hto.isSome_of_ne, hto.handler⟩

/-- Asking leaves a logger of the name that was asked for: the one that was there, or a new one,
which has taken its channel over. -/
theorem ask_cases (hsound : h.Sound) (m : String) :
    ∃ l, (h.ask m).global = some l ∧ l.name = .text m
      ∧ (h.ask m = h ∨ TakenOver (channelNamed m) ⟨Level.info.number, false⟩ [h.handlers.length]
          (h.supplied none) (h.ask m)) := by
  by_cases hsame : ∃ l, h.global = some l ∧ l.name = .text m
  · obtain ⟨l, hglobal, hname⟩ := hsame
    have hkept : h.ask m = h := congrArg Prod.snd (globalLogger_of_name hglobal hname)
    exact ⟨l, hkept.symm ▸ hglobal, hname, .inl hkept⟩
  · obtain ⟨l, g, heq, hname, -, hglobal, hto⟩ := exists_renewed hsound
      fun l hglobal hname => hsame ⟨l, hglobal, hname⟩
    obtain rfl : h.ask m = g := congrArg Prod.snd heq
    exact ⟨l, hglobal, hname, .inr hto⟩

/-! ### A channel of its own -/

/-- A channel that has a threshold and a row of open handlers, attached to no other channel. -/
structure Own (channel : String) (t : Threshold) (row : List Nat) (h : Hub) : Prop where
  sound : h.Sound
  threshold : (h.channel channel).threshold = t
  attached : (h.channel channel).handlers = row
  alone {other : String} {k : Nat} : other ≠ channel → k ∈ row → k ∉ (h.channel other).handlers
  unclosed {k : Nat} : k ∈ row → h.closings k = 0

theorem Own.lt (hown : Own channel t row h) {k : Nat} (hk : k ∈ row) : k < h.handlers.length :=
  hown.sound.lt (hown.attached ▸ hk)

/-- A logger of another channel leaves the channel its own. -/
theorem Own.takenOver {other : String} {t' : Threshold} (hown : Own channel t row h)
    (hne : other ≠ channel)
    (hto : TakenOver other t' [h.handlers.length] (h.supplied none) g) :
    Own channel t row g where
  sound := hto.sound (hown.sound.supplied none) (lt_supplied_none h)
  threshold := (hto.threshold_of_ne hne.symm).trans hown.threshold
  attached := (hto.handlers_of_ne hne.symm).trans hown.attached
  alone {name k} hname hk := by
    by_cases heq : name = other
    · rw [heq, hto.attached, List.mem_eraseDups, List.mem_singleton]
      exact Nat.ne_of_lt (hown.lt hk)
    · rw [hto.handlers_of_ne heq]
      exact hown.alone hname hk
  unclosed {k} hk := by
    have hattached : k ∉ ((h.supplied none).channel other).handlers := hown.alone hne hk
    rw [closings_of_takenOver hto (hown.sound.supplied none), if_neg fun hmem => hattached hmem.1,
      closings_supplied, hown.unclosed hk]

theorem Own.ask (hown : Own channel t row h) (hne : channelNamed m ≠ channel) :
    Own channel t row (h.ask m) := by
  obtain ⟨l, -, -, hkept | hto⟩ := ask_cases hown.sound m
  · rw [hkept]
    exact hown
  · exact hown.takenOver hne hto

/-- No logging at all yet. -/
def silent : Hub := initial .empty

end Winnow.Log.Hub
