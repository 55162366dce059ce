/-
Winnow/Predicate/Basic.lean

Predicates on resources, and chains of stages.

A predicate compares one attribute with one literal, holds when one of several
predicates holds, holds when another does not, is a chain, or is a probe: a
test from elsewhere whose answers are given and whose asking is recorded.

A chain is a row of stages.  Each stage is anchored at an attribute, may follow
a parent, and may have a predicate of its own.  It accepts a resource when its
parent does and its own predicate does; the parent is asked first, and the own
predicate only after the parent has said yes.  A parent has to be a chain: with
any other predicate before its stages a chain answers nothing and asks nothing.

`Predicate.judge` and `Chain.judge` say what the course of a test is, by recursion
on what is tested with: children are asked from left to right up to the first that
decides.  The way in which tests are made is `Predicate.evaluate`.
-/
import Winnow.Attribute
import Winnow.Predicate.Trial

namespace Winnow

mutual

/-- A test of resources. -/
inductive Predicate
  /-- One attribute compared with one literal. -/
  | literal (subject : Attribute) (operation : Operation) (text : String)
  /-- Holds when a member holds, so never without members. -/
  | anyOf (members : List Predicate)
  /-- Holds when the inner predicate does not. -/
  | negation (inner : Predicate)
  /-- A chain, used as a test. -/
  | chain (c : Chain)
  /-- A test from elsewhere, with its answer to each resource or its failure. -/
  | probe (label : String) (answer : Resource → Except String Bool)

/-- A stage with what comes before it. -/
inductive Chain
  | stage (anchor : Attribute) (parent own : Option Predicate)

end

/-- One stage of a chain, without the stages before it. -/
structure Stage where
  anchor : Attribute
  own : Option Predicate

/-- The name of the form of a predicate. -/
def Predicate.form : Predicate → String
  | .literal .. => "StringPredicate"
  | .anyOf _ => "AnyOf"
  | .negation _ => "Not"
  | .chain _ => "AttributeFilter"
  | .probe .. => "Spy"

/-! ### Parts of a chain -/

namespace Chain

/-- The chain that accepts everything and is anchored at an attribute. -/
def start (anchor : Attribute) : Chain := .stage anchor none none

/-- The attribute of the last stage. -/
def anchor : Chain → Attribute
  | stage a _ _ => a

/-- What comes before the last stage. -/
def parent : Chain → Option Predicate
  | stage _ p _ => p

mutual
/-- The stages, the root first. -/
def stages : Chain → Except TrialFault (List Stage)
  | stage a p own => (stagesBefore p).map fun before => before ++ [⟨a, own⟩]

/-- The stages of a parent, the root first. -/
def stagesBefore : Option Predicate → Except TrialFault (List Stage)
  | none => .ok []
  | some (.chain c) => c.stages
  | some p => .error (.notStage p.form)
end

end Chain

/-! ### Tests -/

mutual

/-- The course of a test by a predicate. -/
def Predicate.judge (r : Resource) : Predicate → Trial
  | .literal a o s => .decided (a.accepts o r s)
  | .anyOf members => judgeAny r members
  | .negation inner => (inner.judge r).negate
  | .chain c => c.judge r
  | .probe label answer => ⟨[label], (answer r).mapError .probe⟩

/-- The course of a test by predicates of which one must hold. -/
def judgeAny (r : Resource) : List Predicate → Trial
  | [] => .decided false
  | p :: ps => (p.judge r).orElse (judgeAny r ps)

/-- The course of a test by a chain. -/
def Chain.judge (r : Resource) : Chain → Trial
  | .stage _ parent own => (judgeParent r parent).andThen (judgeOwn r own)

/-- The course of a test by the parent of a stage. -/
def judgeParent (r : Resource) : Option Predicate → Trial
  | none => .decided true
  | some (.chain c) => c.judge r
  | some p => .failed (.notStage p.form)

/-- The course of a test by the predicate of a stage. -/
def judgeOwn (r : Resource) : Option Predicate → Trial
  | none => .decided true
  | some p => p.judge r

end

/-! ### Sameness -/

mutual

/-- Whether two predicates are built alike.  A probe is like no other. -/
def Predicate.same : Predicate → Predicate → Bool
  | .literal a o s, .literal b p t => a == b && o == p && s == t
  | .anyOf ps, .anyOf qs => sameMembers ps qs
  | .negation p, .negation q => p.same q
  | .chain c, .chain d => c.same d
  | _, _ => false

/-- Whether two rows of predicates are built alike, place by place. -/
def sameMembers : List Predicate → List Predicate → Bool
  | [], [] => true
  | p :: ps, q :: qs => p.same q && sameMembers ps qs
  | _, _ => false

/-- Whether two chains are built alike. -/
def Chain.same : Chain → Chain → Bool
  | .stage a p own, .stage b q other => a == b && samePart p q && samePart own other

/-- Whether two parents, or the own predicates of two stages, are built
alike. -/
def samePart : Option Predicate → Option Predicate → Bool
  | none, none => true
  | some p, some q => p.same q
  | _, _ => false

end

/-- One literal predicate for each of several texts, of which one must hold. -/
def Predicate.anyLiteral (a : Attribute) (o : Operation) (texts : List String) : Predicate :=
  .anyOf (texts.map (.literal a o))

end Winnow
