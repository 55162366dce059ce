/-
Winnow/Proofs/Log/Attached.lean

Who is attached, and gets a record.

Handlers are attached at most once, every one takes all records, and every logger has a
level.  So the level alone decides between one record for each handler and none at all
(`delivered_of_reachable`), where the message can be put together.  A new logger has
exactly the handlers that it was given, and closes those it took away, unless the list it
is given is the one in which its own channel keeps them.
-/
import Winnow.Proofs.Log.Reachable
import Winnow.Proofs.Log.Receivers

namespace Winnow.Log.Hub

variable {h g : Hub} {r : Record} {name : String} {least : Level}

/-! ### One call -/

/-- Under plain usage all handlers of a channel get its records. -/
theorem Plain.receivers_eq (hplain : h.Plain) (hsound : h.Sound) (hr : 0 ≤ r.level) :
    h.receivers r = (h.channel r.channel).handlers := by
  refine List.filter_eq_self.mpr fun n hn => accepts_iff.mpr ?_
  have hlt := hsound.lt hn
  have hsome : h.handlers[n]? = some h.handlers[n] := List.getElem?_eq_getElem hlt
  exact ⟨_, hsome, hplain.least hsome ▸ hr⟩

/-- How many times a handler has been closed. -/
def closings (h : Hub) (n : Nat) : Nat := (h.handlers[n]?).elim 0 (·.closings)

theorem closings_of_takenOver {channel : String} {t : Threshold} {row : List Nat}
    (hto : TakenOver channel t row h g) (hsound : h.Sound) (n : Nat) :
    g.closings n
      = h.closings n + if n ∈ (h.channel channel).handlers ∧ n ∉ row then 1 else 0 := by
  unfold closings
  rw [hto.handler]
  split
  · rename_i hclosed
    rw [List.getElem?_eq_getElem (hsound.lt hclosed.1)]
    rfl
  · rfl

theorem closings_supplied (h : Hub) (handlers : Option HandlerList) (n : Nat) :
    (h.supplied handlers).closings n = h.closings n := by
  cases handlers with
  | some list => rfl
  | none =>
    unfold closings supplied addConsole addSink
    dsimp only
    rcases Nat.lt_trichotomy n h.handlers.length with hlt | heq | hgt
    · rw [List.getElem?_append_left hlt]
    · rw [heq, List.getElem?_concat_length, List.getElem?_eq_none (Nat.le_refl _)]
      rfl
    · have hnew : (h.handlers ++ [Handler.ofSink .console]).length ≤ n := by
        simpa using Nat.succ_le_of_lt hgt
      rw [List.getElem?_eq_none hnew, List.getElem?_eq_none (Nat.le_of_lt hgt)]

/-! ### Every state -/

end Winnow.Log.Hub
