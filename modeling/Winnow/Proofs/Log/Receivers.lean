/-
Winnow/Proofs/Log/Receivers.lean

Who gets a record.

A record goes to those handlers of its channel whose own threshold it reaches, its
receivers, one after another: each of them keeps it or writes it once.  Which these
are does not change while records are handed over (`ServesLike`), because a handler
that gets a record stays what it is but for its file.  So what one record leaves
(`delivered_deliver`) gives what a whole row of records leaves, by induction on the
row (`delivered_foldl_deliver`).
-/
import Winnow.Proofs.Log.Delivery

namespace Winnow.Log.Hub

variable {h g : Hub} {r : Record} {n k : Nat} {row : List Nat} {rs : List Record}

/-! ### One handler -/

/-- Whether a handler keeps the records that it gets. -/
def keeps (h : Hub) (n : Nat) : Bool :=
  match (h.handlers[n]?).map outline with
  | some (_, _, some true) => true
  | _ => false

/-- Whether a handler writes the records that it gets to the console. -/
def prints (h : Hub) (n : Nat) : Bool :=
  match (h.handlers[n]?).map outline with
  | some (_, _, some false) => true
  | _ => false

/-- Whether a handler is there and takes a record. -/
def accepts (h : Hub) (r : Record) (n : Nat) : Bool :=
  match (h.handlers[n]?).map outline with
  | some (least, _) => least ≤ r.level
  | none => false

theorem accepts_iff : h.accepts r n = true ↔
    ∃ handler, h.handlers[n]? = some handler ∧ handler.least ≤ r.level := by
  unfold accepts
  cases h.handlers[n]? <;> simp [outline]

/-- The handlers that get a record, in their order. -/
def receivers (h : Hub) (r : Record) : List Nat :=
  (h.channel r.channel).handlers.filter (h.accepts r)

theorem give_of_not_accepts (hnot : h.accepts r n = false) : h.give r n = h := by
  unfold give
  split
  · rfl
  · rename_i x hx
    refine if_pos (Int.not_le.mp fun hle => ?_)
    rw [accepts_iff.mpr ⟨x, hx, hle⟩] at hnot
    cases hnot

theorem records_give (haccepts : h.accepts r n = true) :
    (h.give r n).records = h.records ++ if h.keeps n then [(n, r)] else [] := by
  obtain ⟨x, hx, hle⟩ := accepts_iff.mp haccepts
  unfold give keeps
  rw [hx]
  dsimp only
  rw [if_neg (Int.not_lt.mpr hle), Option.map_some]
  unfold outline
  cases x.sink <;> simp [print, updateHandler]

theorem console_give (haccepts : h.accepts r n = true) :
    (h.give r n).console = h.console ++ if h.prints n then r.line h.clock ++ "\n" else "" := by
  obtain ⟨x, hx, hle⟩ := accepts_iff.mp haccepts
  unfold give prints
  rw [hx]
  dsimp only
  rw [if_neg (Int.not_lt.mpr hle), Option.map_some]
  unfold outline
  cases x.sink <;> simp [print, updateHandler, String.append_assoc]

theorem getElem?_handlers_give_of_ne (hk : k ≠ n) (h : Hub) (r : Record) :
    (h.give r n).handlers[k]? = h.handlers[k]? := by
  unfold give
  split
  · rfl
  · split
    · rfl
    · split
      · rfl
      · rfl
      · simp [updateHandler, Ne.symm hk]

namespace ServesLike

theorem outline_eq (hlike : ServesLike h g) (n : Nat) :
    (g.handlers[n]?).map outline = (h.handlers[n]?).map outline := by
  rw [← List.getElem?_map, ← List.getElem?_map, hlike.handlers]

theorem keeps_eq (hlike : ServesLike h g) : g.keeps = h.keeps := by
  funext n
  unfold keeps
  rw [hlike.outline_eq]

theorem prints_eq (hlike : ServesLike h g) : g.prints = h.prints := by
  funext n
  unfold prints
  rw [hlike.outline_eq]

theorem accepts_eq (hlike : ServesLike h g) (r : Record) : g.accepts r = h.accepts r := by
  funext n
  unfold accepts
  rw [hlike.outline_eq]

theorem receivers_eq (hlike : ServesLike h g) (r : Record) : g.receivers r = h.receivers r := by
  unfold receivers
  rw [hlike.channel_eq, hlike.accepts_eq]

end ServesLike

/-! ### A row of handlers -/

theorem foldl_give_filter (row : List Nat) (h : Hub) (r : Record) :
    row.foldl (fun g n => g.give r n) h
      = (row.filter (h.accepts r)).foldl (fun g n => g.give r n) h := by
  induction row generalizing h with
  | nil => rfl
  | cons n rest ih =>
    -- who takes the record is the same after the first handler as before it
    have haccepts := (servesLike_give h r n).accepts_eq r
    rw [List.foldl_cons, ih, haccepts]
    cases hn : h.accepts r n with
    | true => rw [List.filter_cons_of_pos hn, List.foldl_cons]
    | false => rw [List.filter_cons_of_neg (Bool.eq_false_iff.mp hn), give_of_not_accepts hn]

theorem records_foldl_give (haccepts : ∀ n ∈ row, h.accepts r n = true) :
    (row.foldl (fun h n => h.give r n) h).records
      = h.records ++ (row.filter h.keeps).map fun n => (n, r) := by
  induction row generalizing h with
  | nil => simp
  | cons n rest ih =>
    obtain ⟨hn, hrest⟩ := List.forall_mem_cons.mp haccepts
    have hlike := servesLike_give h r n
    rw [← hlike.accepts_eq r] at hrest
    rw [List.foldl_cons, ih hrest, records_give hn, hlike.keeps_eq, List.filter_cons]
    split <;> simp

theorem console_foldl_give (haccepts : ∀ n ∈ row, h.accepts r n = true) :
    (row.foldl (fun h n => h.give r n) h).console
      = h.console ++ String.join ((row.filter h.prints).map fun _ => r.line h.clock ++ "\n") := by
  induction row generalizing h with
  | nil => simp [String.join]
  | cons n rest ih =>
    obtain ⟨hn, hrest⟩ := List.forall_mem_cons.mp haccepts
    have hlike := servesLike_give h r n
    rw [← hlike.accepts_eq r] at hrest
    rw [List.foldl_cons, ih hrest, console_give hn, hlike.prints_eq, hlike.clock, List.filter_cons]
    split <;> simp [String.append_assoc]

theorem getElem?_handlers_foldl_give (hn : n ∉ row) (h : Hub) (r : Record) :
    (row.foldl (fun h n => h.give r n) h).handlers[n]? = h.handlers[n]? :=
  List.foldlRecOn (motive := fun g : Hub => g.handlers[n]? = h.handlers[n]?) _ _ rfl
    fun g hg m hm => (getElem?_handlers_give_of_ne (fun heq : n = m => hn (heq ▸ hm)) g r).trans hg

/-! ### Records -/

/-- Gives a record to its receivers, one after another. -/
def serve (h : Hub) (r : Record) : Hub := (h.receivers r).foldl (fun g n => g.give r n) h

/-- What handlers keep of a record, with their numbers. -/
def kept (h : Hub) (r : Record) : List (Nat × Record) :=
  ((h.receivers r).filter h.keeps).map fun n => (n, r)

/-- What is written to the console for a record: its line by each receiver that writes there, and
where its channel has no handlers the message of a warning or worse. -/
def printed (h : Hub) (r : Record) : String :=
  match (h.channel r.channel).handlers with
  | [] => if (Level.warning.number : Int) ≤ r.level then r.withRaised r.message ++ "\n" else ""
  | _ => String.join (((h.receivers r).filter h.prints).map fun _ => r.line h.clock ++ "\n")

/-- Records have gone to their receivers, one record after another and to one receiver after
another, and to no other handler: those that keep records keep each once, in their order, and
those that write to the console write it once. -/
structure Delivered (rs : List Record) (h g : Hub) : Prop where
  served : (∀ r ∈ rs, (h.channel r.channel).handlers ≠ []) → g = rs.foldl serve h
  records : g.records = h.records ++ rs.flatMap h.kept
  console : g.console = h.console ++ String.join (rs.map h.printed)
  others {n : Nat} : (∀ r ∈ rs, n ∉ h.receivers r) → g.handlers[n]? = h.handlers[n]?

theorem deliver_eq_serve (hrow : (h.channel r.channel).handlers ≠ []) :
    h.deliver r = h.serve r :=
  (deliver_of_ne_nil hrow).trans (foldl_give_filter _ h r)

theorem receivers_eq_nil (hrow : (h.channel r.channel).handlers = []) : h.receivers r = [] := by
  unfold receivers
  rw [hrow]
  rfl

theorem records_deliver (h : Hub) (r : Record) : (h.deliver r).records = h.records ++ h.kept r := by
  by_cases hrow : (h.channel r.channel).handlers = []
  · rw [deliver_of_eq_nil hrow, kept, receivers_eq_nil hrow]
    exact (List.append_nil _).symm
  · rw [deliver_eq_serve hrow]
    exact records_foldl_give fun n hn => (List.mem_filter.mp hn).2

theorem console_deliver (h : Hub) (r : Record) :
    (h.deliver r).console = h.console ++ h.printed r := by
  unfold printed
  split
  · rename_i hrow
    rw [deliver_of_eq_nil hrow]
  · rename_i hrow
    rw [deliver_eq_serve hrow]
    exact console_foldl_give fun n hn => (List.mem_filter.mp hn).2

theorem getElem?_handlers_deliver (hn : n ∉ h.receivers r) :
    (h.deliver r).handlers[n]? = h.handlers[n]? := by
  by_cases hrow : (h.channel r.channel).handlers = []
  · rw [deliver_of_eq_nil hrow]
  · rw [deliver_eq_serve hrow]
    exact getElem?_handlers_foldl_give hn h r

theorem ServesLike.kept_eq (hlike : ServesLike h g) : g.kept = h.kept := by
  funext r
  unfold kept
  rw [hlike.receivers_eq, hlike.keeps_eq]

theorem ServesLike.printed_eq (hlike : ServesLike h g) : g.printed = h.printed := by
  funext r
  unfold printed
  rw [hlike.channel_eq, hlike.receivers_eq, hlike.prints_eq, hlike.clock]

/-- **A row of records goes to the receivers**, by induction on the row: each record leaves the
receivers of the next what they were. -/
theorem delivered_foldl_deliver (rs : List Record) (h : Hub) :
    Delivered rs h (rs.foldl deliver h) := by
  induction rs generalizing h with
  | nil => exact ⟨fun _ => rfl, by simp, by simp [String.join], fun _ => rfl⟩
  | cons r rest ih =>
    have hlike := servesLike_deliver h r
    obtain ⟨hserved, hrecords, hconsole, hothers⟩ := ih (h.deliver r)
    have hrows (hall : ∀ r' ∈ r :: rest, (h.channel r'.channel).handlers ≠ []) :
        ∀ r' ∈ rest, ((h.deliver r).channel r'.channel).handlers ≠ [] := fun r' hr' => by
      rw [hlike.channel_eq]
      exact hall r' (List.mem_cons_of_mem _ hr')
    refine ⟨fun hall => ?_, ?_, ?_, fun hnone => ?_⟩
    · rw [List.foldl_cons, List.foldl_cons, ← deliver_eq_serve (hall r List.mem_cons_self)]
      exact hserved (hrows hall)
    · rw [List.foldl_cons, hrecords, records_deliver, hlike.kept_eq, List.append_assoc,
        List.flatMap_cons]
    · rw [List.foldl_cons, hconsole, console_deliver, hlike.printed_eq, String.append_assoc,
        List.map_cons, String.join_cons]
    · obtain ⟨hr, hrest⟩ := List.forall_mem_cons.mp hnone
      rw [List.foldl_cons, hothers fun r' hr' => hlike.receivers_eq r' ▸ hrest r' hr',
        getElem?_handlers_deliver hr]

theorem delivered_deliver (h : Hub) (r : Record) : Delivered [r] h (h.deliver r) :=
  delivered_foldl_deliver [r] h

end Winnow.Log.Hub
