/-
Winnow/Proofs/Log/Programs.lean

Programs that write records within blocks of context.

The open blocks belong to no logger: a block that is opened through one logger counts for
all of them.  A program opens blocks one within another, makes calls, and does other
things in between; a block is left when its body is done and also when an exception goes
through it (`Program.run`).  While it runs, it is noted for each call which blocks stand
around it in the text of the program (`Program.events`).

Step by step, by induction on the program: what runs leaves the open blocks as it found
them (`blocks_run`), so that at each call exactly the blocks around it are open
(`asWritten_of_mem_events`).  Main result: what a record tells can be read off the text of
the program (`tells_of_program`).
-/
import Winnow.Log.Logger
import Winnow.Proofs.Log.Contexts
import Winnow.Proofs.Log.Receivers

namespace Winnow.Log

/-! ### Calls -/

/-- The keys that a record gets for an exception. -/
def Raised.keywords (e : Raised) : Keywords where
  entries := [(Hub.kindKey, .text e.kind), (Hub.textKey, .text e.text)]
  distinct := by
    show [Hub.kindKey, Hub.textKey].Nodup
    decide

/-- What is raised where a value cannot be written into a message. -/
def Raised.longInteger : Raised := ⟨"ValueError", "ValueError", longIntegerText⟩

/-- A call that writes a record, with keys of its own. -/
inductive Call
  /-- A message of a level. -/
  | plain (l : Logger) (level : Level) (message : String) (own : Keywords)
  /-- A message about an exception. -/
  | about (l : Logger) (e : Raised) (message : String) (own : Keywords)

namespace Call

/-- The logger that is called. -/
def logger : Call → Logger
  | plain l .. | about l .. => l

/-- The level of the record. -/
def level : Call → Level
  | plain _ level .. => level
  | about .. => .error

/-- The message without its context. -/
def message : Call → String
  | plain _ _ message _ | about _ _ message _ => message

/-- The exception that the record carries. -/
def raised? : Call → Option Raised
  | plain .. => none
  | about _ e .. => some e

/-- The places that give values to keys within all open blocks. -/
def places : Call → List Keywords
  | plain _ _ _ own => [own]
  | about _ e _ own => [own, e.keywords]

/-- The context of the record. -/
def context (h : Hub) : Call → Context
  | plain _ _ _ own => h.contextWith own.entries
  | about _ e _ own => h.contextRaised own.entries e

/-- Writes the record. -/
def write (h : Hub) : Call → Outcome Unit
  | plain l level message own => h.log l.channel level message own.entries
  | about l e message own => h.logRaised l.channel message e own.entries

/-- Whether the level of the call is enabled. -/
def enabled (h : Hub) (k : Call) : Bool := h.takes k.logger.channel k.level.number

/-- The record that tells of the call. -/
def record (h : Hub) (k : Call) : Record :=
  ⟨k.logger.channel, k.level.number, (k.context h).describe k.message, k.context h, k.raised?⟩

/-- Makes a call, which fails when a value cannot be written into the message. -/
def perform (h : Hub) (k : Call) : Except Raised Unit × Hub :=
  let (outcome, h) := k.write h
  (outcome.mapError fun _ => Raised.longInteger, h)

end Call

/-! ### Programs -/

/-- A program, with its blocks of context one within another. -/
inductive Program
  | done
  | call (k : Call)
  | raise (e : Raised)
  /-- Does something that opens and closes no blocks. -/
  | deed (act : Hub → Hub) (keeps : ∀ h, (act h).blocks = h.blocks)
  /-- A block that is opened through a logger. -/
  | within (l : Logger) (c : Keywords) (body : Program)
  /-- Goes on where an exception has been raised. -/
  | guarded (body : Program) (handler : Raised → Program)
  | both (first second : Program)
  /-- Goes on by what there is. -/
  | ask (next : Hub → Program)

/-- What is noted of a program that runs. -/
inductive Event
  /-- A call is made, with blocks around it. -/
  | called (around : List Keywords) (hub : Hub) (k : Call)
  /-- A block has been left, which was entered before. -/
  | left (before after : Hub)

namespace Program

/-- Runs a program.  A block is left however its body ends. -/
def run (h : Hub) : Program → Except Raised Unit × Hub
  | done => (.ok (), h)
  | call k => k.perform h
  | raise e => (.error e, h)
  | deed act _ => (.ok (), act h)
  | within _ c body =>
    let (outcome, g) := body.run (h.enter c.entries)
    (outcome, g.leave)
  | guarded body handler => match body.run h with
    | (.ok (), g) => (.ok (), g)
    | (.error e, g) => (handler e).run g
  | both first second => match first.run h with
    | (.ok (), g) => second.run g
    | (.error e, g) => (.error e, g)
  | ask next => (next h).run h

/-- What happens while a program runs that stands within blocks. -/
def events (around : List Keywords) (h : Hub) : Program → List Event
  | done | raise _ | deed .. => []
  | call k => [.called around h k]
  | within _ c body =>
    body.events (around ++ [c]) (h.enter c.entries)
      ++ [.left h (body.run (h.enter c.entries)).2.leave]
  | guarded body handler => body.events around h ++ match body.run h with
    | (.ok (), _) => []
    | (.error e, g) => (handler e).events around g
  | both first second => first.events around h ++ match first.run h with
    | (.ok (), g) => second.events around g
    | (.error _, _) => []
  | ask next => (next h).events around h

end Program

/-! ### What is open -/

theorem Call.write_cases (k : Call) (h : Hub) :
    (k.write h).2 = h ∨ ∃ r, k.write h = (.ok (), h.deliver r) := by
  cases k with
  | plain l level message own => exact h.log_cases l.channel level message own.entries
  | about l e message own => exact h.logRaised_cases l.channel message e own.entries

theorem Call.blocks_perform (k : Call) (h : Hub) : (k.perform h).2.blocks = h.blocks := by
  show (k.write h).2.blocks = h.blocks
  rcases k.write_cases h with hsame | ⟨r, heq⟩
  · rw [hsame]
  · rw [heq]
    exact (Hub.servesLike_deliver h r).blocks

/-- **A program leaves the open blocks as it found them**, whether it comes to its end or
raises an exception. -/
theorem Program.blocks_run (p : Program) (h : Hub) : (p.run h).2.blocks = h.blocks := by
  induction p generalizing h with
  | done => rfl
  | call k => exact k.blocks_perform h
  | raise e => rfl
  | deed act keeps => exact keeps h
  | within l c body ih =>
    have hbody := ih (h.enter c.entries)
    show (body.run (h.enter c.entries)).2.blocks.dropLast = h.blocks
    rw [hbody, Hub.enter, List.dropLast_concat]
  | guarded body handler ih ih' =>
    have hbody := ih h
    rw [run]
    split
    · rename_i g heq
      rwa [heq] at hbody
    · rename_i e g heq
      rw [heq] at hbody
      exact (ih' e g).trans hbody
  | both first second ih ih' =>
    have hfirst := ih h
    rw [run]
    split
    · rename_i g heq
      rw [heq] at hfirst
      exact (ih' g).trans hfirst
    · rename_i e g heq
      rwa [heq] at hfirst
  | ask next ih => exact ih h h

/-- The open blocks are those that the text of the program says: those around a call, and
after a block those before it. -/
def Event.AsWritten : Event → Prop
  | .called around h _ => h.blocks = around.map (·.entries)
  | .left before after => after.blocks = before.blocks

/-- **At each call exactly the blocks around it are open**, by induction on the program. -/
theorem Program.asWritten_of_mem_events {p : Program} {around : List Keywords} {h : Hub}
    (hopen : h.blocks = around.map (·.entries)) : ∀ e ∈ p.events around h, e.AsWritten := by
  induction p generalizing around h with
  | done => exact nofun
  | raise e => exact nofun
  | deed act keeps => exact nofun
  | call k => exact List.forall_mem_singleton.mpr hopen
  | within l c body ih =>
    have henter : (h.enter c.entries).blocks = (around ++ [c]).map (·.entries) := by
      rw [List.map_append, ← hopen]
      rfl
    refine List.forall_mem_append.mpr ⟨ih henter, List.forall_mem_singleton.mpr ?_⟩
    exact (within l c body).blocks_run h
  | guarded body handler ih ih' =>
    have hbody := body.blocks_run h
    rw [events]
    refine List.forall_mem_append.mpr ⟨ih hopen, ?_⟩
    split
    · exact nofun
    · rename_i e g heq
      rw [heq] at hbody
      exact ih' e (hbody.trans hopen)
  | both first second ih ih' =>
    have hfirst := first.blocks_run h
    rw [events]
    refine List.forall_mem_append.mpr ⟨ih hopen, ?_⟩
    split
    · rename_i g heq
      rw [heq] at hfirst
      exact ih' (hfirst.trans hopen)
    · exact nofun
  | ask next ih => exact ih h hopen

/-! ### What a record tells -/

theorem Hub.contextWith_eq (h : Hub) (own : Context) :
    h.contextWith own = Context.joined (h.blocks ++ [own]) :=
  (Context.joined_append_singleton h.blocks own).symm

/-- The context of a call is that of the open blocks and of its own places. -/
theorem Call.context_eq {h : Hub} {around : List Keywords} (k : Call)
    (hopen : h.blocks = around.map (·.entries)) :
    k.context h = Context.joined ((around ++ k.places).map (·.entries)) := by
  cases k with
  | plain l level message own =>
    rw [places, List.map_append, ← hopen]
    exact Hub.contextWith_eq h own.entries
  | about l e message own =>
    have hown : h.contextWith own.entries = Context.joined ((around ++ [own]).map (·.entries)) := by
      rw [Hub.contextWith_eq, hopen, List.map_append]
      rfl
    rw [places, List.append_cons, List.map_append, List.map_singleton,
      Context.joined_append_singleton, ← hown]
    rfl

/-- What a record tells of a call within blocks. -/
structure Record.Tells (r : Record) (around : List Keywords) (k : Call) : Prop where
  channel : r.channel = k.logger.channel
  level : r.level = k.level.number
  raised : r.raised = k.raised?
  /-- The keys are those of the blocks, from the outermost on, and of the call, each where it
  first appears. -/
  keys : r.context.map (·.1)
    = ((around ++ k.places).flatMap fun p => p.entries.map (·.1)).eraseDups
  /-- A key has the value that the innermost place gives it. -/
  values : ∀ x, r.context.lookup x
    = (around ++ k.places).reverse.findSome? fun p => p.entries.lookup x
  /-- The keys and values stand behind the message, if there are any. -/
  message : r.message = if r.context = [] then k.message else
    k.message ++ " | " ++ " ".intercalate (r.context.map fun e => e.1 ++ "=" ++ e.2.aloneText)

theorem Call.perform_of_isWritable {h : Hub} {k : Call} (henabled : k.enabled h = true)
    (hc : (k.context h).isWritable = true) : k.perform h = (.ok (), h.deliver (k.record h)) := by
  have hwrite : k.write h = (.ok (), h.deliver (k.record h)) := by
    cases k with
    | plain l level message own =>
      refine (Hub.log_of_takes henabled).trans ((Hub.tell_of_isWritable hc).trans ?_)
      exact congrArg _ (Hub.write_of_takes henabled)
    | about l e message own =>
      exact (Hub.tell_of_isWritable hc).trans (congrArg _ (Hub.write_of_takes henabled))
  rw [perform, hwrite]
  rfl

theorem Call.perform_of_not_isWritable {h : Hub} {k : Call} (henabled : k.enabled h = true)
    (hc : (k.context h).isWritable = false) : k.perform h = (.error .longInteger, h) := by
  have hwrite : k.write h = (.error .longInteger, h) := by
    cases k with
    | plain l level message own =>
      exact (Hub.log_of_takes henabled).trans (Hub.tell_of_not_isWritable hc)
    | about l e message own => exact Hub.tell_of_not_isWritable hc
  rw [perform, hwrite]
  rfl

theorem Call.tells {h : Hub} {around : List Keywords} (k : Call)
    (hopen : h.blocks = around.map (·.entries)) : (k.record h).Tells around k := by
  have hcontext := k.context_eq hopen
  refine ⟨rfl, rfl, rfl, ?_, fun x => ?_, ?_⟩
  · show (k.context h).keys = _
    rw [hcontext, Context.keys_joined, List.flatMap_map]
    rfl
  · show (k.context h).lookup x = _
    rw [hcontext, Context.lookup_joined]
  · have hrecord : (k.record h).context = k.context h := rfl
    show (k.context h).describe k.message = _
    rw [hrecord, Context.describe]
    cases k.context h <;> rfl

/-- **What records tell.**  While a program runs, each call whose level is enabled hands one
record over to the handlers of its channel, unless a value of its context cannot be written, for
which it fails.  The context has the keys of the blocks around the call and those of the call, in
the order in which they first appear from the outermost block on, with the values that the
innermost places give; the message goes before it.  After each block, and after the program, the
context of any call is what it was before. -/
theorem Program.tells_of_program (p : Program) {around : List Keywords} {h : Hub}
    (hopen : h.blocks = around.map (·.entries)) :
    (∀ outer g k, .called outer g k ∈ p.events around h → k.enabled g = true →
      ((∀ e ∈ k.context g, e.2.isWritable = true) →
        ∃ r : Record, k.perform g = (.ok (), g.deliver r) ∧ r.Tells outer k ∧
          Hub.Delivered [r] g (g.deliver r)) ∧
      ((∃ e ∈ k.context g, e.2.isWritable = false) → k.perform g = (.error .longInteger, g))) ∧
    (∀ before after, .left before after ∈ p.events around h →
      ∀ own, after.contextWith own = before.contextWith own) ∧
    ∀ own, (p.run h).2.contextWith own = h.contextWith own := by
  refine ⟨fun outer g k hmem henabled => ⟨fun hwritable => ?_, fun hnot => ?_⟩,
    fun before after hmem own => ?_, fun own => ?_⟩
  · have houter : g.blocks = outer.map (·.entries) := asWritten_of_mem_events hopen _ hmem
    exact ⟨_, Call.perform_of_isWritable henabled (List.all_eq_true.mpr hwritable),
      k.tells houter, Hub.delivered_deliver g _⟩
  · obtain ⟨e, he, hvalue⟩ := hnot
    refine Call.perform_of_not_isWritable henabled (List.all_eq_false.mpr ⟨e, he, ?_⟩)
    rw [hvalue]
    exact Bool.false_ne_true
  · have hleft : after.blocks = before.blocks := asWritten_of_mem_events hopen _ hmem
    rw [Hub.contextWith, Hub.contextWith, hleft]
  · rw [Hub.contextWith, Hub.contextWith, p.blocks_run h]

/-- The program that sets the threshold of a logger. -/
def Program.setThreshold (l : Logger) (level : Value) : Program :=
  .deed (fun h => (h.setThreshold l.channel level).2) fun h => by
    unfold Hub.setThreshold
    split <;> rfl

/-- A program with two loggers: in a block of the one the other reports an exception in a
block of its own, which ends both blocks, and then says that it is over. -/
def Program.reporting : Program :=
  let a : Logger := ⟨0, .text "a", "a"⟩
  let b : Logger := ⟨1, .text "b", "b"⟩
  let e : Raised := ⟨"KeyError", "KeyError", "x"⟩
  .both
    (.guarded
      (.within a ⟨[("user", .text "u"), ("job", .text "j")], by decide⟩
        (.both (.setThreshold b (.text "ERROR"))
          (.within b ⟨[("user", .text "v")], by decide⟩
            (.both (.call (.about b e "failed" ⟨[("size", .text "s")], by decide⟩)) (.raise e)))))
      fun _ => .done)
    (.call (.plain b .error "over" ⟨[], by decide⟩))

/-- The exception is reported with the keys of both blocks, the user being that of the inner
one.  When both have been left, nothing stands behind the message. -/
theorem Program.tells_reporting :
    (Hub.initial .empty).blocks = ([] : List Keywords).map (·.entries) ∧
    (∃ outer g k r, Event.called outer g k ∈ reporting.events [] (.initial .empty) ∧
      k.perform g = (.ok (), g.deliver r) ∧
      r.context.map (·.1) = ["user", "job", "size", "exception_type", "exception_message"] ∧
      r.context.lookup "user" = some (.text "v")) ∧
    ∃ outer g k r, Event.called outer g k ∈ reporting.events [] (.initial .empty) ∧
      k.perform g = (.ok (), g.deliver r) ∧ r.message = "over" := by
  have hopen : (Hub.initial .empty).blocks = ([] : List Keywords).map (·.entries) := rfl
  obtain ⟨hcalls, -, -⟩ := tells_of_program reporting hopen
  refine ⟨hopen, ?_, ?_⟩
  · have hmem : Event.called _ _ _ ∈ reporting.events [] (.initial .empty) :=
      List.mem_of_getElem? (i := 0) rfl
    obtain ⟨hwrites, -⟩ := hcalls _ _ _ hmem (by decide +kernel)
    obtain ⟨r, hr, htells, -⟩ := hwrites (by decide +kernel)
    exact ⟨_, _, _, r, hmem, hr, htells.keys, htells.values "user"⟩
  · have hmem : Event.called _ _ _ ∈ reporting.events [] (.initial .empty) :=
      List.mem_of_getElem? (i := 3) rfl
    obtain ⟨hwrites, -⟩ := hcalls _ _ _ hmem (by decide +kernel)
    obtain ⟨r, hr, htells, -⟩ := hwrites (by decide +kernel)
    have hcontext : r.context = [] := List.map_eq_nil_iff.mp htells.keys
    have hmessage := htells.message
    rw [if_pos hcontext] at hmessage
    exact ⟨_, _, _, r, hmem, hr, hmessage⟩

end Winnow.Log
