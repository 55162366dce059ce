/-
Winnow/Proofs/Chain/IgnoringCase.lean

What ignoring case does to a filter.

An operation asks for an occurrence of the literal in the text of the attribute:
at its beginning, at its end, anywhere, or as the whole (`test_eq_true_iff`).
Where case is ignored, text and literal are put into lower case each as a whole.
An occurrence of the literal stays one as long as the text treats the capital
sigmas of the literal as the literal alone does (`KeepsSigmas`); then a filter
that ignores case accepts what the filter that regards case accepts
(`test_ignoringCase`).

It need not do so elsewhere: a sigma that ends the literal becomes a final one
there and a medial one in the middle of a word, so that ignoring case can lose a
match (`not_accepts_of_caseSensitive`).

Between two filters that both ignore case there is nothing to lose.  ASCII letters
may change their case in the literal and in the text, and the literal may be put
into lower case beforehand (`evaluate_literal_of_recased`).
-/
import Winnow.Predicate.Evaluation
import Winnow.Proofs.Chain.Building
import Winnow.Proofs.Text.Recasing

namespace Winnow

open Text (Recased capitalSigma endsWord lower lowerAmid lowerAmid_append lowerAmid_eq_iff
  length_lowerAmid lower_lower toList_lower)

/-! ### Occurrences -/

theorem holdsText_eq_true_iff {inner text : List Char} :
    holdsText inner text = true ↔ ∃ before after, text = before ++ inner ++ after := by
  have hwithin : holdsText inner text = true ↔ inner <:+: text := by
    induction text with
    | nil => simp [holdsText]
    | cons c rest ih => rw [holdsText, Bool.or_eq_true, List.isPrefixOf_iff_prefix, ih,
        List.infix_cons_iff]
  rw [hwithin]
  exact ⟨fun ⟨before, after, h⟩ => ⟨before, after, h.symm⟩,
    fun ⟨before, after, h⟩ => ⟨before, after, h.symm⟩⟩

namespace Operation

/-- What an operation lets stand before and after the literal. -/
def Leaves : Operation → (before after : List Char) → Prop
  | starts, before, _ => before = []
  | ends, _, after => after = []
  | contains, _, _ => True
  | equals, before, after => before = [] ∧ after = []

/-- A literal occurs in a text as an operation asks for it, between two parts of
the text. -/
structure Occurs (o : Operation) (text literal before after : List Char) : Prop where
  split : text = before ++ literal ++ after
  leaves : o.Leaves before after

/-- **An operation asks for an occurrence** of the literal in the text. -/
theorem test_eq_true_iff {o : Operation} {text literal : String} :
    o.test text literal = true ↔
      ∃ before after, o.Occurs text.toList literal.toList before after := by
  cases o with
  | starts =>
    rw [test, List.isPrefixOf_iff_prefix]
    constructor
    · rintro ⟨after, h⟩
      exact ⟨[], after, h.symm, rfl⟩
    · rintro ⟨before, after, h, rfl⟩
      exact ⟨after, h.symm⟩
  | ends =>
    rw [test, List.isSuffixOf_iff_suffix]
    constructor
    · rintro ⟨before, h⟩
      exact ⟨before, [], by rw [List.append_nil, h], rfl⟩
    · rintro ⟨before, after, h, rfl⟩
      exact ⟨before, by rw [h, List.append_nil]⟩
  | contains =>
    rw [test, holdsText_eq_true_iff]
    constructor
    · rintro ⟨before, after, h⟩
      exact ⟨before, after, h, trivial⟩
    · rintro ⟨before, after, h, -⟩
      exact ⟨before, after, h⟩
  | equals =>
    rw [test, beq_iff_eq, ← String.toList_inj]
    constructor
    · intro h
      exact ⟨[], [], by rw [h, List.nil_append, List.append_nil], rfl, rfl⟩
    · rintro ⟨before, after, h, rfl, rfl⟩
      rw [h, List.nil_append, List.append_nil]

end Operation

/-! ### Occurrences in lower case -/

/-- Between two texts each capital sigma of a literal ends a word just if it does
so in the literal alone. -/
def KeepsSigmas (before after literal : List Char) : Prop :=
  ∀ left right, literal = left ++ capitalSigma :: right →
    endsWord (left.reverse ++ before.reverse) (right ++ after) = endsWord left.reverse right

theorem lowerAmid_eq_alone_iff {before after literal : List Char} :
    lowerAmid before.reverse after literal = lowerAmid [] [] literal
      ↔ KeepsSigmas before after literal := by
  rw [lowerAmid_eq_iff]
  simp only [List.append_nil]
  rfl

theorem keepsSigmas_of_notMem {before after literal : List Char} (h : capitalSigma ∉ literal) :
    KeepsSigmas before after literal := by
  intro left right hsplit
  rw [hsplit] at h
  exact absurd (List.mem_append_right left List.mem_cons_self) h

theorem keepsSigmas_nil (literal : List Char) : KeepsSigmas [] [] literal := by
  intro left right _
  rw [List.reverse_nil, List.append_nil, List.append_nil]

namespace Operation

variable {o : Operation} {text literal : String} {before after : List Char}

theorem toList_lower_of_split (h : text.toList = before ++ literal.toList ++ after) :
    ∃ front back, (lower text).toList
        = front ++ lowerAmid before.reverse after literal.toList ++ back ∧
      (before = [] → front = []) ∧ (after = [] → back = []) := by
  refine ⟨lowerAmid [] (literal.toList ++ after) before,
    lowerAmid (literal.toList.reverse ++ before.reverse) [] after, ?_, ?_, ?_⟩
  · rw [toList_lower, h, lowerAmid_append, lowerAmid_append]
    simp only [List.append_nil, List.reverse_append]
  · rintro rfl
    rfl
  · rintro rfl
    rfl

/-- An occurrence stays one in lower case where the capital sigmas are kept. -/
theorem test_lower_of_occurs (h : o.Occurs text.toList literal.toList before after)
    (hsigmas : KeepsSigmas before after literal.toList) :
    o.test (lower text) (lower literal) = true := by
  obtain ⟨front, back, hsplit, hfront, hback⟩ := toList_lower_of_split h.split
  rw [lowerAmid_eq_alone_iff.mpr hsigmas, ← toList_lower] at hsplit
  refine test_eq_true_iff.mpr ⟨front, back, hsplit, ?_⟩
  have hleaves := h.leaves
  cases o with
  | starts => exact hfront hleaves
  | ends => exact hback hleaves
  | contains => trivial
  | equals => exact ⟨hfront hleaves.1, hback hleaves.2⟩

/-- At a fixed place an occurrence stays one only where the capital sigmas are
kept: the lower case of the literal is as long there as alone. -/
theorem test_lower_iff_of_occurs (ho : o ≠ .contains)
    (h : o.Occurs text.toList literal.toList before after) :
    o.test (lower text) (lower literal) = true ↔ KeepsSigmas before after literal.toList := by
  refine ⟨fun htest => lowerAmid_eq_alone_iff.mp ?_, test_lower_of_occurs h⟩
  obtain ⟨front, back, hsplit, hfront, hback⟩ := toList_lower_of_split h.split
  obtain ⟨front', back', hsplit', hleaves'⟩ := test_eq_true_iff.mp htest
  rw [toList_lower literal] at hsplit'
  have hleaves := h.leaves
  have hlength : (lowerAmid before.reverse after literal.toList).length
      = (lowerAmid [] [] literal.toList).length := length_lowerAmid
  have heq := hsplit.symm.trans hsplit'
  cases o with
  | starts =>
    rw [hfront hleaves, hleaves', List.nil_append, List.nil_append] at heq
    exact (List.append_inj heq hlength).1
  | ends =>
    rw [hback hleaves, hleaves', List.append_nil, List.append_nil] at heq
    exact (List.append_inj' heq hlength).2
  | contains => exact absurd rfl ho
  | equals =>
    rw [hfront hleaves.1, hback hleaves.2, hleaves'.1, hleaves'.2] at heq
    simpa only [List.nil_append, List.append_nil] using heq

end Operation

/-! ### Filters that ignore case -/

namespace Facet

/-- The entry point at a text of resources with regard to case. -/
def caseSensitive : Facet → EntryPoint
  | name => .selector .caseSensitiveNames
  | path => .selector .caseSensitivePaths

/-- The entry point at a text of resources without regard to case. -/
def ignoringCase : Facet → EntryPoint
  | name => .selector .names
  | path => .selector .paths

/-- The text of a resource. -/
def read : Facet → Resource → String
  | name, r => r.name
  | path, r => r.path

theorem accepts_caseSensitive (f : Facet) (o : Operation) (r : Resource) (l : String) :
    f.caseSensitive.anchor.accepts o r l = o.test (f.read r) l := by
  cases f <;> rfl

theorem accepts_ignoringCase (f : Facet) (o : Operation) (r : Resource) (l : String) :
    f.ignoringCase.anchor.accepts o r l = o.test (lower (f.read r)) (lower l) := by
  cases f <;> rfl

end Facet

/-- A filter of one plain call, and what its test comes to. -/
theorem test_plainCall (e : EntryPoint) (o : Operation) (literals : List String) (r : Resource) :
    ∃ c, e.build [⟨⟨o, false⟩, literals⟩] = .ok c ∧
      c.test r = .decided (literals.any fun l => e.anchor.accepts o r l) := by
  refine ⟨_, build_eq e _, ?_⟩
  rw [test_foldl_extend, List.all_cons, List.all_nil, Bool.and_true, Step.meets]
  simp only [Bool.bne_false]

/-- **When ignoring case keeps a match.**  Take the same plain call with the same
literals at a text of resources, once with and once without regard to case.  If a
literal occurs in the text as the operation asks for it, and the text treats the
capital sigmas of the literal as the literal alone does, the filter without regard
to case accepts the resource.  So it accepts all that the other filter accepts
where the operation is equality or no literal has a capital sigma.  For a single
literal whose place is fixed the condition is exact. -/
theorem test_ignoringCase (f : Facet) (o : Operation) (literals : List String) (r : Resource) :
    ∃ sensitive ignoring : Chain, ∃ a b : Bool,
      f.caseSensitive.build [⟨⟨o, false⟩, literals⟩] = .ok sensitive ∧
      f.ignoringCase.build [⟨⟨o, false⟩, literals⟩] = .ok ignoring ∧
      sensitive.test r = .decided a ∧ ignoring.test r = .decided b ∧
      (a = true ↔ ∃ l ∈ literals, ∃ before after,
        o.Occurs (f.read r).toList l.toList before after) ∧
      ((∃ l ∈ literals, ∃ before after, o.Occurs (f.read r).toList l.toList before after ∧
        KeepsSigmas before after l.toList) → b = true) ∧
      (o = .equals ∨ (∀ l ∈ literals, capitalSigma ∉ l.toList) → a = true → b = true) ∧
      ∀ l before after, literals = [l] → o ≠ .contains →
        o.Occurs (f.read r).toList l.toList before after →
        (b = true ↔ KeepsSigmas before after l.toList) := by
  obtain ⟨sensitive, hsensitive, ha⟩ := test_plainCall f.caseSensitive o literals r
  obtain ⟨ignoring, hignoring, hb⟩ := test_plainCall f.ignoringCase o literals r
  simp only [Facet.accepts_caseSensitive] at ha
  simp only [Facet.accepts_ignoringCase] at hb
  have hsome : (literals.any fun l => o.test (f.read r) l) = true ↔ ∃ l ∈ literals,
      ∃ before after, o.Occurs (f.read r).toList l.toList before after := by
    rw [List.any_eq_true]
    simp only [Operation.test_eq_true_iff]
  have hkept : (∃ l ∈ literals, ∃ before after,
      o.Occurs (f.read r).toList l.toList before after ∧ KeepsSigmas before after l.toList) →
      (literals.any fun l => o.test (lower (f.read r)) (lower l)) = true := by
    rintro ⟨l, hl, before, after, hoccurs, hsigmas⟩
    exact List.any_eq_true.mpr ⟨l, hl, Operation.test_lower_of_occurs hoccurs hsigmas⟩
  refine ⟨sensitive, ignoring, _, _, hsensitive, hignoring, ha, hb, hsome, hkept, ?_, ?_⟩
  · intro hcase hmatch
    obtain ⟨l, hl, before, after, hoccurs⟩ := hsome.mp hmatch
    refine hkept ⟨l, hl, before, after, hoccurs, ?_⟩
    rcases hcase with rfl | hnone
    · -- nothing stands around a literal that is the whole text
      obtain ⟨rfl, rfl⟩ := hoccurs.leaves
      exact keepsSigmas_nil _
    · exact keepsSigmas_of_notMem (hnone l hl)
  · rintro l before after rfl ho hoccurs
    rw [List.any_cons, List.any_nil, Bool.or_false]
    exact Operation.test_lower_iff_of_occurs ho hoccurs

/-- **Ignoring case can lose a match.**  The literal `ΑΣ` begins the name `ΑΣΑ`, but in
lower case it is `ας` and the name is `ασα`. -/
theorem not_accepts_of_caseSensitive : ¬ ∀ (f : Facet) (o : Operation) (literals : List String)
    (r : Resource) (sensitive ignoring : Chain) (b : Bool),
    f.caseSensitive.build [⟨⟨o, false⟩, literals⟩] = .ok sensitive →
    f.ignoringCase.build [⟨⟨o, false⟩, literals⟩] = .ok ignoring →
    sensitive.test r = .decided true → ignoring.test r = .decided b → b = true := by
  intro hwidens
  let r : Resource := ⟨"ΑΣΑ", "/ΑΣΑ"⟩
  obtain ⟨sensitive, hsensitive, ha⟩ := test_plainCall Facet.name.caseSensitive .starts ["ΑΣ"] r
  obtain ⟨ignoring, hignoring, hb⟩ := test_plainCall Facet.name.ignoringCase .starts ["ΑΣ"] r
  have haccepted : sensitive.test r = .decided true :=
    ha.trans (congrArg Trial.decided (by decide))
  have hrejected : ignoring.test r = .decided false :=
    hb.trans (congrArg Trial.decided (by decide +kernel))
  cases hwidens .name .starts _ r _ _ _ hsensitive hignoring haccepted hrejected

/-! ### Recasings -/

theorem Attribute.accepts_of_ignoresCase {a : Attribute} (ha : a.ignoresCase = true)
    (o : Operation) (r : Resource) (literal : String) :
    a.accepts o r literal = o.test (lower (a.get r)) (lower literal) := by
  rw [accepts, fold, fold, if_pos ha, if_pos ha]

/-- **Ignoring case, recasings are alike.**  A comparison that ignores case answers
the same when ASCII letters change their case in the literal, in the text of the
attribute, or in both, and when the literal is put into lower case. -/
theorem evaluate_literal_of_recased {a : Attribute} (ha : a.ignoresCase = true) (o : Operation)
    {l k : String} {r q : Resource} (hl : Recased l k) (hr : Recased (a.get r) (a.get q)) :
    ∃ b, (Predicate.literal a o l).evaluate r = .decided b ∧
      (Predicate.literal a o k).evaluate q = .decided b ∧
      (Predicate.literal a o (lower l)).evaluate r = .decided b := by
  simp only [Predicate.evaluate, Attribute.accepts_of_ignoresCase ha]
  refine ⟨o.test (lower (a.get r)) (lower l), rfl, ?_, ?_⟩
  · rw [hl.lower_eq, hr.lower_eq]
  · rw [lower_lower]

/-- The literal `aΣ` ends the name `xaΣ` as `AΣ` ends `XAΣ`: with the letter before it in
either case, the sigma ends a word. -/
theorem evaluate_literal_finalSigma :
    Attribute.nameIgnoringCase.ignoresCase = true ∧ Recased "aΣ" "AΣ" ∧ Recased "xaΣ" "XAΣ" ∧
      (Predicate.literal .nameIgnoringCase .ends "AΣ").evaluate ⟨"XAΣ", "/XAΣ"⟩
        = .decided true := by
  have hl : Recased "aΣ" "AΣ" := by decide
  have hr : Recased "xaΣ" "XAΣ" := by decide
  refine ⟨rfl, hl, hr, ?_⟩
  obtain ⟨b, hb, hrecased, -⟩ := evaluate_literal_of_recased
    (a := .nameIgnoringCase) (r := ⟨"xaΣ", "/xaΣ"⟩) (q := ⟨"XAΣ", "/XAΣ"⟩) rfl .ends hl hr
  have htrue : (Predicate.literal .nameIgnoringCase .ends "aΣ").evaluate ⟨"xaΣ", "/xaΣ"⟩
      = .decided true := by
    simp only [Predicate.evaluate]
    exact congrArg Trial.decided (by decide +kernel)
  rw [hrecased, ← hb, htrue]

end Winnow
