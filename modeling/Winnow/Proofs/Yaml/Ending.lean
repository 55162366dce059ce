/-
Winnow/Proofs/Yaml/Ending.lean

A document is read to the end of its text.

Where nothing can be read behind a text, its last token says why (`Lexer.run_of_ending`): the
last step of the lexer stands at the end of the text, and a step that comes there looks
at what is behind.  The nodes are read from token to token, so what is left of the tokens
is always an end of them (`Leaves`); this is shown for all kinds of nodes at once, by
induction on the fuel that they share (`ReadsOn`).  A document that has been read leaves
the end of the stream, which is then the last token.

Main result: a supply from which a document is loaded has no fault behind its text
(`ending_of_load`).
-/
import Winnow.Proofs.Outcome
import Winnow.Yaml.Document

namespace Winnow.Yaml

/-! ### Tokens -/

namespace Lexer

variable {l next : Lexer} {c : Cursor} {ending : Option Fault} {fault : Fault} {fuel : Nat}

theorem cursor_unwind (column : Int) (l : Lexer) : (l.unwind column).cursor = l.cursor := by
  have hclose (outer : List Int) :
      ∀ l : Lexer, (unwind.close column outer l).cursor = l.cursor := by
    induction outer with
    | nil => exact fun _ => rfl
    | cons i rest ih =>
      intro l
      rw [unwind.close]
      split
      · exact ih _
      · rfl
  unfold unwind
  split
  · rfl
  · exact hclose l.outer l

theorem cursor_dropPossible (h : l.dropPossible = .ok next) : next.cursor = l.cursor := by
  unfold dropPossible at h
  split at h
  · split at h
    · cases h
    · cases h
      rfl
  · cases h
    rfl

theorem cursor_endStream (h : l.endStream = .ok next) : next.cursor = l.cursor := by
  obtain ⟨dropped, hdrop, h⟩ := except_bind_eq_ok_iff.mp h
  cases h
  exact (cursor_dropPossible hdrop).trans (cursor_unwind _ l)

/-- The last step stands at the end of the text. -/
theorem isEnd_of_step (h : l.step = .ok (next, false)) : next.cursor.isEnd = true := by
  obtain ⟨l₁, -, h⟩ := except_bind_eq_ok_iff.mp h
  obtain ⟨l₂, -, h⟩ := except_bind_eq_ok_iff.mp h
  dsimp only at h
  split at h
  · rename_i hnone
    obtain ⟨last, hlast, h⟩ := except_bind_eq_ok_iff.mp h
    cases h
    rw [cursor_endStream hlast]
    exact List.isEmpty_iff.mpr (List.head?_eq_none_iff.mp hnone)
  · obtain ⟨read, -, h⟩ := except_bind_eq_ok_iff.mp h
    cases h

/-- **The last token** of a text behind which nothing can be read says why. -/
theorem run_of_ending (l : Lexer) (fault : Fault) (fuel : Nat) :
    ∃ ts f, l.run (some fault) fuel = ts ++ [.broken f] := by
  induction fuel generalizing l with
  | zero => exact ⟨_, _, rfl⟩
  | succ fuel ih =>
    rw [run]
    dsimp only
    split
    · exact ⟨_, _, rfl⟩
    · rename_i next goesOn hstep
      split
      · exact ⟨_, _, rfl⟩
      · rename_i hbehind
        cases goesOn with
        | true => exact ih next
        | false =>
          rw [if_pos (isEnd_of_step hstep)] at hbehind
          cases hbehind

end Lexer

variable {α β : Type} {ts rest : List Token}

/-! ### What is left of tokens -/

/-- What is left of tokens when something has been read is an end of them. -/
def Leaves (ts : List Token) (x : Except Fault (α × Reading)) : Prop :=
  ∀ a r, x = .ok (a, r) → r.tokens <:+ ts

namespace Leaves

variable {x : Except Fault (α × Reading)} {f : α × Reading → Except Fault (β × Reading)}

theorem error (fault : Fault) : Leaves ts (.error fault : Except Fault (α × Reading)) := nofun

theorem ok {a : α} {r : Reading} (h : r.tokens <:+ ts) : Leaves ts (.ok (a, r)) := by
  intro b q heq
  cases heq
  exact h

theorem mono (hx : Leaves rest x) (h : rest <:+ ts) : Leaves ts x :=
  fun a r heq => (hx a r heq).trans h

theorem bind (hx : Leaves ts x) (hf : ∀ a r, Leaves r.tokens (f (a, r))) :
    Leaves ts (x >>= f) := by
  intro b q heq
  obtain ⟨⟨a, r⟩, hxa, heq⟩ := except_bind_eq_ok_iff.mp heq
  exact (hf a r b q heq).trans (hx a r hxa)

theorem behind {y : Except Fault α} {g : α → Except Fault (β × Reading)}
    (hg : ∀ a, y = .ok a → Leaves ts (g a)) : Leaves ts (y >>= g) := by
  intro b q heq
  obtain ⟨a, hy, heq⟩ := except_bind_eq_ok_iff.mp heq
  exact hg a hy b q heq

end Leaves

variable {h : Handles} {place : Place} {r : Reading} {p : Properties} {fuel : Nat}

/-! ### Steps -/

theorem leaves_scalar (r : Reading) (p : Properties) (text : String) (isPlain : Bool)
    (ts : List Token) : Leaves ts (r.scalar p text isPlain ts) :=
  .behind fun _ _ => .ok (List.suffix_refl ts)

theorem leaves_missing (r : Reading) : Leaves r.tokens r.missing := leaves_scalar r _ _ _ _

theorem leaves_begin (r : Reading) (p : Properties) (own : Tag) (empty : Content)
    (ts : List Token) : Leaves ts (r.begin p own empty ts) :=
  .behind fun _ _ => .ok (List.suffix_refl ts)

/-- A part of a flow collection is read behind a comma, the first one without it. -/
theorem leaves_afterFirst {part : Reading → Except Fault (α × Reading)} (isFirst : Bool)
    (r : Reading) (hpart : ∀ r, Leaves r.tokens (part r)) :
    Leaves r.tokens (if isFirst = true then (do let r ← .ok r; part r)
      else (do let r ← r.afterComma; part r)) := by
  split
  · exact hpart r
  · refine .behind fun q hq => ?_
    unfold Reading.afterComma at hq
    split at hq
    · rename_i ts htokens
      cases hq
      rw [htokens]
      exact (hpart (r.resume ts)).mono (List.suffix_cons _ ts)
    · cases hq

/-- A collection is begun, its parts are read, and it is given them. -/
theorem leaves_collection {read : Reading → Except Fault (α × Reading)}
    (hread : ∀ r, Leaves r.tokens (read r)) (r : Reading) (p : Properties) (own : Tag)
    (empty : Content) (content : α → Content) (ts : List Token) :
    Leaves ts (do
      let (n, r) ← r.begin p own empty ts
      let (parts, r) ← read r
      .ok (n, r.fill n (content parts))) := by
  exact .bind (leaves_begin r p own empty ts) fun n r =>
    .bind (hread r) fun parts r => .ok (List.suffix_refl _)

theorem readProperties_suffix (hread : readProperties h ts = .ok (p, rest)) : rest <:+ ts := by
  unfold readProperties at hread
  split at hread
  · obtain ⟨tag, -, hread⟩ := except_bind_eq_ok_iff.mp hread
    cases hread
    exact ⟨[_, _], rfl⟩
  · cases hread
    exact ⟨[_], rfl⟩
  · obtain ⟨tag, -, hread⟩ := except_bind_eq_ok_iff.mp hread
    cases hread
    exact ⟨[_, _], rfl⟩
  · cases hread
  · obtain ⟨tag, -, hread⟩ := except_bind_eq_ok_iff.mp hread
    cases hread
    exact ⟨[_], rfl⟩
  · cases hread
    exact List.suffix_refl _

theorem readDirectives_suffix {hasVersion : Bool} {defined : Handles}
    (hread : readDirectives hasVersion defined ts = .ok (h, rest)) : rest <:+ ts := by
  fun_induction readDirectives hasVersion defined ts with
  | case1 => cases hread
  | case2 _ _ _ _ _ _ ih => exact (ih hread).trans (List.suffix_cons _ _)
  | case3 => cases hread
  | case4 _ _ _ _ _ _ ih => exact (ih hread).trans (List.suffix_cons _ _)
  | case5 _ _ _ ih => exact (ih hread).trans (List.suffix_cons _ _)
  | case6 =>
    cases hread
    exact List.suffix_refl _

/-! ### Nodes -/

/-- With so much fuel, what is left behind a node, its parts and its entries is an end of the
tokens. -/
structure ReadsOn (fuel : Nat) : Prop where
  node (h : Handles) (place : Place) (r : Reading) : Leaves r.tokens (readNode h place fuel r)
  nodeBefore (stops : List Token) (h : Handles) (place : Place) (r : Reading) :
    Leaves r.tokens (readNodeBefore stops h place fuel r)
  value (stops : List Token) (h : Handles) (place : Place) (r : Reading) :
    Leaves r.tokens (readValue stops h place fuel r)
  items (h : Handles) (r : Reading) : Leaves r.tokens (readItems h fuel r)
  itemsAtKey (h : Handles) (r : Reading) : Leaves r.tokens (readItemsAtKey h fuel r)
  entries (h : Handles) (r : Reading) : Leaves r.tokens (readEntries h fuel r)
  flowItems (h : Handles) (isFirst : Bool) (r : Reading) :
    Leaves r.tokens (readFlowItems h isFirst fuel r)
  flowEntries (h : Handles) (isFirst : Bool) (r : Reading) :
    Leaves r.tokens (readFlowEntries h isFirst fuel r)

theorem readsOn_zero : ReadsOn 0 where
  node h place r := by rw [readNode]; exact .error _
  nodeBefore stops h place r := by rw [readNodeBefore]; exact .error _
  value stops h place r := by rw [readValue]; exact .error _
  items h r := by rw [readItems]; exact .error _
  itemsAtKey h r := by rw [readItemsAtKey]; exact .error _
  entries h r := by rw [readEntries]; exact .error _
  flowItems h isFirst r := by rw [readFlowItems]; exact .error _
  flowEntries h isFirst r := by rw [readFlowEntries]; exact .error _

namespace ReadsOn

theorem leaves_node (ih : ReadsOn fuel) (h : Handles) (place : Place) (r : Reading) :
    Leaves r.tokens (readNode h place (fuel + 1) r) := by
  rw [readNode]
  split
  · rename_i name ts htokens
    rw [htokens]
    exact .behind fun n _ => .ok (List.suffix_cons _ _)
  · refine .behind fun found hfound => ?_
    obtain ⟨p, ts⟩ := found
    refine .mono ?_ (readProperties_suffix hfound)
    dsimp only
    split
    · exact .error _
    · exact (leaves_scalar r p _ _ _).mono (List.suffix_cons _ _)
    · exact (leaves_collection (ih.flowItems h true) r p _ _ _ _).mono (List.suffix_cons _ _)
    · exact (leaves_collection (ih.flowEntries h true) r p _ _ _ _).mono (List.suffix_cons _ _)
    · split
      · exact leaves_collection (ih.itemsAtKey h) r p _ _ _ _
      · split
        · exact (leaves_collection (ih.items h) r p _ _ _ _).mono (List.suffix_cons _ _)
        · split
          · exact (leaves_collection (ih.entries h) r p _ _ _ _).mono (List.suffix_cons _ _)
          · split
            · exact leaves_scalar r p _ _ _
            · exact .error _
    · exact .error _

theorem leaves_nodeBefore (ih : ReadsOn fuel) (stops : List Token) (h : Handles) (place : Place)
    (r : Reading) : Leaves r.tokens (readNodeBefore stops h place (fuel + 1) r) := by
  rw [readNodeBefore]
  split
  · exact leaves_missing r
  · exact ih.node h place r

theorem leaves_value (ih : ReadsOn fuel) (stops : List Token) (h : Handles) (place : Place)
    (r : Reading) : Leaves r.tokens (readValue stops h place (fuel + 1) r) := by
  rw [readValue]
  split
  · rename_i ts htokens
    rw [htokens]
    exact (ih.nodeBefore stops h place (r.resume ts)).mono (List.suffix_cons _ _)
  · exact leaves_missing r

theorem leaves_items (ih : ReadsOn fuel) (h : Handles) (r : Reading) :
    Leaves r.tokens (readItems h (fuel + 1) r) := by
  rw [readItems]
  split
  · rename_i ts htokens
    rw [htokens]
    refine .mono ?_ (List.suffix_cons _ ts)
    exact .bind (ih.nodeBefore _ h _ (r.resume ts)) fun item r =>
      .bind (ih.items h r) fun items r => .ok (List.suffix_refl _)
  · rename_i ts htokens
    rw [htokens]
    exact .ok (List.suffix_cons _ ts)
  · exact .error _

theorem leaves_itemsAtKey (ih : ReadsOn fuel) (h : Handles) (r : Reading) :
    Leaves r.tokens (readItemsAtKey h (fuel + 1) r) := by
  rw [readItemsAtKey]
  split
  · rename_i ts htokens
    rw [htokens]
    refine .mono ?_ (List.suffix_cons _ ts)
    exact .bind (ih.nodeBefore _ h _ (r.resume ts)) fun item r =>
      .bind (ih.itemsAtKey h r) fun items r => .ok (List.suffix_refl _)
  · exact .ok (List.suffix_refl _)

theorem leaves_entries (ih : ReadsOn fuel) (h : Handles) (r : Reading) :
    Leaves r.tokens (readEntries h (fuel + 1) r) := by
  rw [readEntries]
  split
  · rename_i ts htokens
    rw [htokens]
    refine .mono ?_ (List.suffix_cons _ ts)
    exact .bind (ih.nodeBefore _ h _ (r.resume ts)) fun key r =>
      .bind (ih.value _ h _ r) fun value r =>
        .bind (ih.entries h r) fun entries r => .ok (List.suffix_refl _)
  · rename_i ts htokens
    rw [htokens]
    exact .ok (List.suffix_cons _ ts)
  · exact .error _

theorem leaves_flowItems (ih : ReadsOn fuel) (h : Handles) (isFirst : Bool) (r : Reading) :
    Leaves r.tokens (readFlowItems h isFirst (fuel + 1) r) := by
  rw [readFlowItems]
  split
  · rename_i ts htokens
    rw [htokens]
    exact .ok (List.suffix_cons _ ts)
  · extract_lets stops item
    -- a comma is passed first, unless this is the first item
    refine leaves_afterFirst isFirst r fun r => ?_
    show Leaves r.tokens (item r)
    unfold item
    split
    · rename_i ts htokens
      rw [htokens]
      exact .ok (List.suffix_cons _ ts)
    · rename_i ts htokens
      rw [htokens]
      refine .mono ?_ (List.suffix_cons _ ts)
      refine .bind (leaves_begin r _ _ _ ts) fun n r => ?_
      exact .bind (ih.nodeBefore _ h _ r) fun key r =>
        .bind (ih.value _ h _ r) fun value r =>
          .bind (ih.flowItems h false (r.fill n _)) fun items r => .ok (List.suffix_refl _)
    · exact .bind (ih.node h _ r) fun item r =>
        .bind (ih.flowItems h false r) fun items r => .ok (List.suffix_refl _)

theorem leaves_flowEntries (ih : ReadsOn fuel) (h : Handles) (isFirst : Bool) (r : Reading) :
    Leaves r.tokens (readFlowEntries h isFirst (fuel + 1) r) := by
  rw [readFlowEntries]
  split
  · rename_i ts htokens
    rw [htokens]
    exact .ok (List.suffix_cons _ ts)
  · extract_lets stops entry
    refine leaves_afterFirst isFirst r fun r => ?_
    show Leaves r.tokens (entry r)
    unfold entry
    split
    · rename_i ts htokens
      rw [htokens]
      exact .ok (List.suffix_cons _ ts)
    · rename_i ts htokens
      rw [htokens]
      refine .mono ?_ (List.suffix_cons _ ts)
      exact .bind (ih.nodeBefore _ h _ (r.resume ts)) fun key r =>
        .bind (ih.value _ h _ r) fun value r =>
          .bind (ih.flowEntries h false r) fun entries r => .ok (List.suffix_refl _)
    · exact .bind (ih.node h _ r) fun key r =>
        .bind (leaves_missing r) fun value r =>
          .bind (ih.flowEntries h false r) fun entries r => .ok (List.suffix_refl _)

end ReadsOn

/-- **Reading goes on** from token to token. -/
theorem readsOn (fuel : Nat) : ReadsOn fuel := by
  induction fuel with
  | zero => exact readsOn_zero
  | succ fuel ih =>
    exact ⟨ih.leaves_node, ih.leaves_nodeBefore, ih.leaves_value, ih.leaves_items,
      ih.leaves_itemsAtKey, ih.leaves_entries, ih.leaves_flowItems, ih.leaves_flowEntries⟩

/-! ### Documents -/

theorem leaves_readExplicit (fuel : Nat) (r : Reading) :
    Leaves r.tokens (readExplicit fuel r) := by
  refine .behind fun found hfound => ?_
  obtain ⟨h, ts⟩ := found
  refine .mono ?_ (readDirectives_suffix hfound)
  dsimp only
  split
  · rename_i ts
    refine .mono ?_ (List.suffix_cons _ ts)
    split
    · exact leaves_missing (r.resume ts)
    · exact (readsOn fuel).node h _ (r.resume ts)
  · exact .error _

theorem leaves_readDocument (fuel : Nat) (r : Reading) :
    Leaves r.tokens (readDocument fuel r) := by
  unfold readDocument
  split
  · exact leaves_readExplicit fuel r
  · exact (readsOn fuel).node _ _ r

/-- Behind a document that has been read the stream ends. -/
theorem suffix_of_ofTokens? {found : Option (Nat × Graph)} (h : Graph.ofTokens? ts = .ok found) :
    [Token.streamEnd] <:+ ts := by
  unfold Graph.ofTokens? at h
  split at h
  · exact List.suffix_refl _
  · obtain ⟨⟨n, r⟩, hread, h⟩ := except_bind_eq_ok_iff.mp h
    dsimp only at h
    split at h
    · rename_i hend
      rw [← hend]
      exact (List.dropWhile_suffix _).trans (leaves_readDocument _ _ n r hread)
    · cases h

/-- **A text behind which nothing can be read** holds no document. -/
theorem ending_of_load {x : Supply} {s t : Store} {item : Item} (h : x.load s = .ok (item, t)) :
    x.ending = none := by
  obtain ⟨found, htokens, -⟩ := except_bind_eq_ok_iff.mp h
  obtain ⟨front, hend⟩ := suffix_of_ofTokens? htokens
  cases hending : x.ending with
  | none => rfl
  | some fault =>
    obtain ⟨ts, f, hrun⟩ := Lexer.run_of_ending (.start x.text) fault (x.text.length + 2)
    unfold Supply.tokens at hend
    rw [hending, hrun] at hend
    cases (List.append_inj' hend rfl).2

end Winnow.Yaml
