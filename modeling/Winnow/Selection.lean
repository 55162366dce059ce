/-
Winnow/Selection.lean

Choosing among resources on request.

A sieve holds a predicate and a source of resources.  Nothing is drawn from the
source until a resource is asked for (`Sieve.next`); then resources are drawn and
tested one after another up to the first that the predicate accepts, and that one
is handed over.  A request ends without a resource where the source does, or where
a test fails; a sieve whose test has failed draws nothing any more.

`Sieve.take` makes a number of requests and stops where one brings no resource.
-/
import Winnow.Predicate.Evaluation

namespace Winnow

/-- A selection under way. -/
structure Sieve where
  predicate : Predicate
  /-- The resources that may still be drawn. -/
  source : List Resource
  /-- How many resources were drawn. -/
  drawn : Nat
  /-- The courses of the tests, in the order in which they were made. -/
  trials : List Trial

/-- What a request brings. -/
inductive Reply
  /-- The resource at a position of the source. -/
  | item (r : Resource) (position : Nat)
  /-- Nothing, for the source is at its end. -/
  | nothing
  /-- Nothing, for a test failed. -/
  | failure (fault : TrialFault)

/-- What a row of requests has brought. -/
structure Selection where
  /-- The resources handed over, each with its position, in order. -/
  kept : List (Resource × Nat)
  /-- The failure that ended it, if one did. -/
  failure : Option TrialFault
  /-- How many resources were drawn. -/
  drawn : Nat
  /-- The courses of the tests, in the order in which they were made. -/
  trials : List Trial

/-- The probes asked, in order. -/
def Selection.asked (s : Selection) : List String := s.trials.flatMap Trial.asked

namespace Sieve

/-- A sieve from which nothing was asked yet. -/
def start (p : Predicate) (resources : List Resource) : Sieve := ⟨p, resources, 0, []⟩

/-- Draws from a source up to the first resource that is accepted. -/
def nextOf (p : Predicate) (drawn : Nat) (trials : List Trial) :
    List Resource → Reply × Sieve
  | [] => (.nothing, ⟨p, [], drawn, trials⟩)
  | r :: rest =>
    let trial := p.evaluate r
    match trial.outcome with
    | .ok true => (.item r drawn, ⟨p, rest, drawn + 1, trials ++ [trial]⟩)
    | .ok false => nextOf p (drawn + 1) (trials ++ [trial]) rest
    | .error fault => (.failure fault, ⟨p, [], drawn + 1, trials ++ [trial]⟩)

/-- Asks for a resource. -/
def next (s : Sieve) : Reply × Sieve := nextOf s.predicate s.drawn s.trials s.source

/-- What the requests up to now come to, when they have brought some resources. -/
def selection (s : Sieve) (kept : List (Resource × Nat)) (failure : Option TrialFault) :
    Selection :=
  ⟨kept, failure, s.drawn, s.trials⟩

/-- Asks for `n` resources, one after another, when some were brought before. -/
def takeAfter (kept : List (Resource × Nat)) : Nat → Sieve → Selection
  | 0, s => s.selection kept none
  | n + 1, s =>
    match s.next with
    | (.item r position, later) => takeAfter (kept ++ [(r, position)]) n later
    | (.nothing, later) => later.selection kept none
    | (.failure fault, later) => later.selection kept (some fault)

/-- Asks for `n` resources, one after another. -/
def take (n : Nat) (s : Sieve) : Selection := takeAfter [] n s

end Sieve

/-- Selects from resources until `limit` of them are kept, or from all of them when
there is no limit: then more is asked for than there is. -/
def Predicate.select (p : Predicate) (limit : Option Nat) (resources : List Resource) : Selection :=
  (Sieve.start p resources).take (limit.getD (resources.length + 1))

end Winnow
