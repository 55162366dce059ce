/-
Winnow/Text/Ranges.lean

Sets of code points given by closed ranges, the shape in which a property of
characters is written down.
-/

namespace Winnow.Text

/-- Closed ranges of code points. -/
abbrev Ranges := List (Nat × Nat)

/-- Whether some range holds the code point. -/
def Ranges.covers (ranges : Ranges) (n : Nat) : Bool :=
  ranges.any fun r => r.1 ≤ n && n ≤ r.2

@[simp] theorem Ranges.covers_nil (n : Nat) : Ranges.covers [] n = false := rfl

@[simp] theorem Ranges.covers_cons (r : Nat × Nat) (ranges : Ranges) (n : Nat) :
    Ranges.covers (r :: ranges) n = ((r.1 ≤ n && n ≤ r.2) || Ranges.covers ranges n) := rfl

end Winnow.Text
