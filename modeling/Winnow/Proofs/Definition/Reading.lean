/-
Winnow/Proofs/Definition/Reading.lean

What comes of reading a filter definition.

The chain of a value is built in a second pass, which looks all names up again
without a check.  In a value of the grammar it misses nothing
(`ofChecked_of_isDefinition`), and it gives the chain that the entry point of the
selector and the steps, taken as calls, build (`Definition.build`).  Any other
value is refused before, with a fault that is reported as bad input; where the
first fault is in a step, the fault names the index of that step.  The only
other fault is that of an integer too long for the message, and values that can
be written have none.

Main result: `ofDefinition_of_isWritable`.
-/
import Winnow.Proofs.Chain.Building
import Winnow.Proofs.Definition.Grammar
import Winnow.Proofs.Store.Entries

namespace Winnow

open Shaped (shape)

variable {α : Type} [Shaped α]

/-! ### The chain of a definition -/

/-- The chain of a definition, built by calls from an entry point. -/
def Definition.build : Definition → Except DefinitionFault Chain
  | preset .hidden => (EntryPoint.selector .names).build [⟨⟨.starts, false⟩, [hiddenMark]⟩]
  | preset .nonHidden => (EntryPoint.selector .names).build [⟨⟨.starts, true⟩, [hiddenMark]⟩]
  | custom on steps => (EntryPoint.selector on).build steps

theorem definition_build_eq (d : Definition) : d.build = .ok d.chain := by
  cases d with
  | preset p => cases p <;> exact build_eq _ _
  | custom on steps => exact build_eq _ _

/-! ### Building without a check -/

theorem arguments_of_isLiterals {v : α} {texts : List String} (h : IsLiterals v texts) :
    ∃ items, Chain.arguments? v = some items ∧ literalsOf items = .ok texts := by
  cases h with
  | single hv =>
    refine ⟨[v], ?_, literalsFrom_eq_ok_iff.mpr (.cons hv .nil)⟩
    unfold Chain.arguments?
    rw [hv]
  | @several items _ hv hitems =>
    refine ⟨items, ?_, literalsFrom_eq_ok_iff.mpr hitems⟩
    unfold Chain.arguments?
    rw [hv]

theorem addStep_of_isStep {v : α} {s : Step} (h : IsStep v s) (c : Chain) :
    c.addStep v = .ok (s.extend c) := by
  obtain ⟨values, hv, hvalues⟩ := h.written
  obtain ⟨items, hitems, hliterals⟩ := arguments_of_isLiterals hvalues
  have hcall : (Value.text s.call.name).text?.bind Call.ofName? = some s.call :=
    call_ofName?_eq_some_iff.mpr rfl
  unfold Chain.addStep
  rw [hv]
  simp only [hcall, hitems, hliterals]
  rfl

theorem addSteps_of_areSteps {items : List α} {steps : List Step}
    (h : List.Forall₂ IsStep items steps) (c : Chain) :
    c.addSteps items = .ok (steps.foldl Step.extend c) := by
  induction h generalizing c with
  | nil => rfl
  | cons hfirst _ ih =>
    rw [Chain.addSteps, addStep_of_isStep hfirst]
    exact ih _

theorem startOf_of_namesSelector {entries : List (Value × α)} {on : Selector}
    (h : NamesSelector entries on) : Chain.startOf entries = .ok on.chain := by
  unfold Chain.startOf
  cases h with
  | absent hfind => rw [hfind]
  | @present v _ hfind hv =>
    have hname : (shape v).text?.bind Selector.ofName? = some on := by
      rw [hv]
      exact selector_ofName?_eq_some_iff.mpr rfl
    rw [hfind]
    simp only [hname]

theorem stepsOf_of_holdsSteps {entries : List (Value × α)} {steps : List Step}
    (h : HoldsSteps entries steps) :
    ∃ items, Chain.stepsOf entries = .ok items ∧ List.Forall₂ IsStep items steps := by
  unfold Chain.stepsOf
  cases h with
  | absent hfind =>
    rw [hfind]
    exact ⟨[], rfl, .nil⟩
  | @present _ items _ hfind hv _ hitems =>
    rw [hfind, Option.map_some, hv]
    exact ⟨items, rfl, hitems⟩

/-- Building never misses anything in a value of the grammar: all names are ones
that are looked up, and all parts have the form that is taken for granted. -/
theorem ofChecked_of_isDefinition {v : α} {d : Definition} (h : IsDefinition v d) :
    Chain.ofChecked v = .ok d.chain := by
  unfold Chain.ofChecked
  cases h with
  | @preset p hv =>
    have hname : Preset.ofName? p.name = some p := preset_ofName?_eq_some_iff.mpr rfl
    rw [hv]
    simp only [hname]
    rfl
  | custom hv _ hon hsteps =>
    obtain ⟨items, hitems, hall⟩ := stepsOf_of_holdsSteps hsteps
    rw [hv]
    simp only [startOf_of_namesSelector hon, hitems]
    exact addSteps_of_areSteps hall _

/-! ### Values that give a chain -/

theorem ofDefinition_of_isDefinition {v : α} {d : Definition} (h : IsDefinition v d) :
    Chain.ofDefinition v = d.build := by
  unfold Chain.ofDefinition
  rw [definition_ofValue_eq_ok_iff.mpr h, definition_build_eq]
  exact ofChecked_of_isDefinition h

/-- Only the check can fail. -/
theorem ofDefinition_eq_error_iff {v : α} {fault : DefinitionFault} :
    Chain.ofDefinition v = .error fault ↔ Definition.ofValue v = .error fault := by
  cases hd : Definition.ofValue v with
  | error other =>
    have hother : Chain.ofDefinition v = .error other := by
      unfold Chain.ofDefinition
      rw [hd]
      rfl
    rw [hother, Except.error.injEq, Except.error.injEq]
  | ok d =>
    rw [ofDefinition_of_isDefinition (definition_ofValue_eq_ok_iff.mp hd), definition_build_eq]
    exact ⟨nofun, nofun⟩

/-- A value gives a chain exactly when it is in the grammar. -/
theorem ofDefinition_isOk_iff {v : α} :
    (∃ c, Chain.ofDefinition v = .ok c) ↔ ∃ d, IsDefinition v d := by
  constructor
  · rintro ⟨c, hc⟩
    cases hd : Definition.ofValue v with
    | ok d => exact ⟨d, definition_ofValue_eq_ok_iff.mp hd⟩
    | error fault =>
      rw [ofDefinition_eq_error_iff.mpr hd] at hc
      cases hc
  · rintro ⟨d, hd⟩
    exact ⟨d.chain, by rw [ofDefinition_of_isDefinition hd, definition_build_eq]⟩

/-! ### The first faulty step -/

/-- Where the fields are good, the first item that is no step decides, and its
index is part of the fault. -/
theorem ofValue_of_faultyStep {v list item : α} {entries : List (Value × α)}
    {before after : List α} (hv : shape v = .mapping entries) (honly : OnlyFields entries)
    (hon : ∃ on, NamesSelector entries on)
    (hsteps : Entries.find? (.text Definition.stepsField) entries = some list)
    (hlist : shape list = .list (before ++ item :: after))
    (hlength : (before ++ item :: after).length ≤ stepLimit)
    (hbefore : ∀ x ∈ before, ∃ s, IsStep x s) (hitem : ∀ s, ¬ IsStep item s) :
    ∃ fault, Step.ofValue item = .error fault ∧
      Definition.ofValue v = .error (fault.inStep before.length) := by
  obtain ⟨on, hon⟩ := hon
  obtain ⟨fault, hfault, hfrom⟩ := listFrom_of_faulty 0 after hbefore hitem
  refine ⟨fault, hfault, ?_⟩
  have hstepsOf : Definition.stepsOf entries = .error (fault.inStep before.length) := by
    unfold Definition.stepsOf
    rw [hsteps, Option.map_some, hlist]
    simp only [Nat.not_lt.mpr hlength, if_false]
    rw [hfrom, Nat.zero_add]
  unfold Definition.ofValue
  rw [hv]
  simp only [unknownKeys_eq_nil_iff.mpr honly, selectorOf_eq_ok_iff.mpr hon, hstepsOf]
  rfl

/-! ### Values that can be written -/

theorem areWritable_iff {vs : List Value} :
    Value.areWritable vs = true ↔ ∀ v ∈ vs, v.isWritable = true := by
  induction vs with
  | nil => simp [Value.areWritable]
  | cons v rest ih => simp [Value.areWritable, ih]

theorem entriesAreWritable_iff {entries : List (Value × Value)} :
    Value.entriesAreWritable entries = true
      ↔ ∀ e ∈ entries, e.1.isWritable = true ∧ e.2.isWritable = true := by
  induction entries with
  | nil => simp [Value.entriesAreWritable]
  | cons e rest ih => simp [Value.entriesAreWritable, ih]

theorem value_eq_mapping_of_shape {v : Value} {entries : List (Value × Value)}
    (h : shape v = .mapping entries) : v = .mapping entries := by
  cases v <;> cases h
  rfl

theorem value_eq_list_of_shape {v : Value} {items : List Value} (h : shape v = .list items) :
    v = .list items := by
  cases v <;> cases h
  rfl

/-! ### Faults that are reported -/

namespace DefinitionFault

/-- A fault is reported as bad input. -/
def IsReported (fault : DefinitionFault) : Prop := fault.code? = some .invalidInput

theorem isReported_inStep {fault : DefinitionFault} (h : fault.IsReported) (index : Nat) :
    (fault.inStep index).IsReported := by
  cases fault <;> first | rfl | cases h

theorem inStep_of_isReported {fault : DefinitionFault} (h : fault.IsReported) (index : Nat) :
    fault.inStep index = .badStep index fault := by
  cases fault <;> first | rfl | cases h

theorem naming_of_isWritable {v : α} (h : Shaped.isWritable v = true) (fault : DefinitionFault) :
    naming v fault = fault := if_pos h

end DefinitionFault

open DefinitionFault

theorem isReported_of_literalsFrom {position : Nat} {items : List α} {fault : DefinitionFault}
    (h : literalsFrom position items = .error fault) : fault.IsReported := by
  induction items generalizing position with
  | nil => cases h
  | cons v vs ih =>
    rw [literalsFrom] at h
    split at h
    · cases h
      rfl
    · rcases except_bind_eq_error_iff.mp h with h | ⟨rest, -, h⟩
      · exact ih h
      · cases h

theorem isReported_of_literals? {call : Call} {v : α} {fault : DefinitionFault}
    (h : Step.literals? call v = .error fault) : fault.IsReported := by
  rcases except_bind_eq_error_iff.mp h with h | ⟨texts, -, h⟩
  · unfold Step.rawLiterals at h
    split at h
    · cases h
    · exact isReported_of_literalsFrom h
    · cases h
      rfl
  · split at h
    · cases h
      rfl
    · cases h

theorem isReported_of_step {v : Value} {fault : DefinitionFault} (hv : v.isWritable = true)
    (h : Step.ofValue v = .error fault) : fault.IsReported := by
  unfold Step.ofValue at h
  split at h
  · rename_i name values hshape
    have hname : name.isWritable = true := by
      rw [value_eq_mapping_of_shape hshape] at hv
      exact (entriesAreWritable_iff.mp hv (name, values) List.mem_cons_self).1
    split at h
    · rw [naming_of_isWritable hname] at h
      cases h
      rfl
    · rcases except_bind_eq_error_iff.mp h with h | ⟨literals, -, h⟩
      · exact isReported_of_literals? h
      · cases h
  · cases h
    rfl
  · cases h
    rfl

theorem isReported_of_listFrom {index : Nat} {items : List Value} {fault : DefinitionFault}
    (hitems : ∀ x ∈ items, x.isWritable = true) (h : Step.listFrom index items = .error fault) :
    fault.IsReported := by
  induction items generalizing index with
  | nil => cases h
  | cons v vs ih =>
    rw [Step.listFrom] at h
    split at h
    · rename_i inner hinner
      injection h with h
      subst h
      exact isReported_inStep (isReported_of_step (hitems v List.mem_cons_self) hinner) index
    · rcases except_bind_eq_error_iff.mp h with h | ⟨rest, -, h⟩
      · exact ih (fun x hx => hitems x (List.mem_cons_of_mem _ hx)) h
      · cases h

theorem isReported_of_selectorOf {entries : List (Value × Value)} {fault : DefinitionFault}
    (hentries : Value.entriesAreWritable entries = true)
    (h : Definition.selectorOf entries = .error fault) : fault.IsReported := by
  unfold Definition.selectorOf at h
  split at h
  · cases h
  · rename_i v hfind
    obtain ⟨k, hk, -⟩ := Entries.mem_of_find? hfind
    have hv : v.isWritable = true := (entriesAreWritable_iff.mp hentries (k, v) hk).2
    split at h
    · rw [naming_of_isWritable hv] at h
      cases h
      rfl
    · cases h

theorem isReported_of_stepsOf {entries : List (Value × Value)} {fault : DefinitionFault}
    (hentries : Value.entriesAreWritable entries = true)
    (h : Definition.stepsOf entries = .error fault) : fault.IsReported := by
  unfold Definition.stepsOf at h
  split at h
  · cases h
  · rename_i items hfind
    obtain ⟨v, hv, hitems⟩ := Option.map_eq_some_iff.mp hfind
    obtain ⟨k, hk, -⟩ := Entries.mem_of_find? hv
    have hwritable : v.isWritable = true := (entriesAreWritable_iff.mp hentries (k, v) hk).2
    rw [value_eq_list_of_shape hitems] at hwritable
    split at h
    · cases h
      rfl
    · exact isReported_of_listFrom (areWritable_iff.mp hwritable) h
  · cases h
    rfl

/-- A value that can be written is refused only with a fault that is
reported. -/
theorem isReported_of_ofValue {v : Value} {fault : DefinitionFault} (hv : v.isWritable = true)
    (h : Definition.ofValue v = .error fault) : fault.IsReported := by
  unfold Definition.ofValue at h
  split at h
  · split at h
    · cases h
      rfl
    · cases h
  · rename_i entries hshape
    have hentries : Value.entriesAreWritable entries = true := by
      rwa [value_eq_mapping_of_shape hshape] at hv
    split at h
    · rcases except_bind_eq_error_iff.mp h with h | ⟨on, -, h⟩
      · exact isReported_of_selectorOf hentries h
      · rcases except_bind_eq_error_iff.mp h with h | ⟨steps, -, h⟩
        · exact isReported_of_stepsOf hentries h
        · cases h
    · have hkeys : Value.areWritable (Definition.unknownKeys entries) = true := by
        rw [areWritable_iff]
        intro k hk
        obtain ⟨e, he, rfl⟩ := List.mem_map.mp (List.mem_filter.mp hk).1
        exact (entriesAreWritable_iff.mp hentries e he).1
      injection h with h
      subst h
      rw [Definition.unknownFault, if_pos hkeys]
      rfl
  · cases h
    rfl

/-! ### What comes of a value -/

/-- **Reading a definition**: a value that can be written gives a chain exactly
when it is in the grammar, and then the chain that the calls build.  Otherwise
it is refused as bad input, with the index of the first faulty step where the
fault is in the steps. -/
theorem ofDefinition_of_isWritable (v : Value) (hv : v.isWritable = true) :
    ((∃ c, Chain.ofDefinition v = .ok c) ↔ ∃ d, IsDefinition v d) ∧
    (∀ d, IsDefinition v d → Chain.ofDefinition v = d.build) ∧
    (∀ fault, Chain.ofDefinition v = .error fault → fault.code? = some .invalidInput) ∧
    (∀ entries before item after, v = .mapping entries → OnlyFields entries →
      (∃ on, NamesSelector entries on) →
      Entries.find? (.text Definition.stepsField) entries = some (.list (before ++ item :: after)) →
      (before ++ item :: after).length ≤ stepLimit →
      (∀ x ∈ before, ∃ s, IsStep x s) → (∀ s, ¬ IsStep item s) →
      ∃ inner fault, Step.ofValue item = .error inner ∧ Chain.ofDefinition v = .error fault ∧
        fault.message = s!"Invalid step at index {before.length}: {inner.message}") := by
  refine ⟨ofDefinition_isOk_iff, fun d hd => ofDefinition_of_isDefinition hd, ?_, ?_⟩
  · intro fault hfault
    exact isReported_of_ofValue hv (ofDefinition_eq_error_iff.mp hfault)
  · intro entries before item after hmapping honly hon hsteps hlength hbefore hitem
    have hshape : shape v = .mapping entries := by rw [hmapping]; rfl
    obtain ⟨inner, hinner, hvalue⟩ :=
      ofValue_of_faultyStep hshape honly hon hsteps rfl hlength hbefore hitem
    have hinnerReported : inner.IsReported := by
      obtain ⟨k, hk, -⟩ := Entries.mem_of_find? hsteps
      rw [hmapping] at hv
      have hlist := (entriesAreWritable_iff.mp hv _ hk).2
      have hmem : item ∈ before ++ item :: after := List.mem_append_right _ List.mem_cons_self
      exact isReported_of_step (areWritable_iff.mp hlist item hmem) hinner
    rw [inStep_of_isReported hinnerReported] at hvalue
    exact ⟨inner, _, hinner, ofDefinition_eq_error_iff.mpr hvalue, rfl⟩

/-- The first step is good, and the second has a number in the place of its
literals. -/
theorem ofDefinition_of_numberInSecondStep :
    (Value.mapping [(.text "on", .text "paths"), (.text "steps", .list [
      .mapping [(.text "ending", .list [.text ".java", .text ".kt"])],
      .mapping [(.text "not_containing", .integer 7)]])]).isWritable = true ∧
    ∃ fault, Chain.ofDefinition (Value.mapping [(.text "on", .text "paths"), (.text "steps", .list [
      .mapping [(.text "ending", .list [.text ".java", .text ".kt"])],
      .mapping [(.text "not_containing", .integer 7)]])]) = .error fault ∧
      fault.code? = some .invalidInput ∧
      fault.message = "Invalid step at index 1: "
        ++ "Values for 'not_containing' must be a string or list of strings" := by
  have hv : (Value.mapping [(.text "on", .text "paths"), (.text "steps", .list [
      .mapping [(.text "ending", .list [.text ".java", .text ".kt"])],
      .mapping [(.text "not_containing", .integer 7)]])]).isWritable = true := by decide +kernel
  have hfirst : IsStep (Value.mapping [(.text "ending", .list [.text ".java", .text ".kt"])])
      ⟨⟨.ends, false⟩, [".java", ".kt"]⟩ := step_ofValue_eq_ok_iff.mp rfl
  have hsecond : Step.ofValue (Value.mapping [(.text "not_containing", .integer 7)])
      = .error (.literalsNotList ⟨.contains, true⟩) := rfl
  obtain ⟨-, -, hcode, hindex⟩ := ofDefinition_of_isWritable _ hv
  obtain ⟨inner, fault, hinner, hfault, hmessage⟩ := hindex _ [_] _ [] rfl
    (by simp [OnlyFields, Definition.onField, Definition.stepsField])
    ⟨.paths, .present (v := Value.text "paths") rfl rfl⟩ rfl (by decide)
    (fun x hx => ⟨_, (List.mem_singleton.mp hx) ▸ hfirst⟩)
    (fun s hs => by rw [step_ofValue_eq_ok_iff.mpr hs] at hsecond; cases hsecond)
  rw [hsecond] at hinner
  injection hinner with hinner
  subst hinner
  exact ⟨hv, fault, hfault, hcode fault hfault, hmessage⟩

end Winnow
