/-
Winnow/Proofs/Settings/LoadedFiles.lean

What comes of loading a settings file.

A path is looked up first (`Files.lookUp`); then the bytes of the file are read as a
document.  If this gives a mapping, the mapping takes the place of one layer, and nothing
else changes (`Registry.LayerReplaced`).  Otherwise the registry stays as it is, and the
fault is reported with a code or without one (`Registry.Refuses`).

Main result: what is found at the path and what its bytes give decide which of these it is
(`Registry.loadFile_cases`).  A fault in the form of the document has a code, and any other
fault in the content has none.  A file that is no text is never loaded, for a document is
read to its end; and if the file is no longer than one piece, the fault has no code.
-/
import Winnow.Proofs.Settings.Order
import Winnow.Proofs.Settings.Twins
import Winnow.Proofs.Yaml.Ending
import Winnow.Proofs.Yaml.Undecodable

namespace Winnow

/-! ### Looking up a path -/

/-- What a path leads to, nothing included, if it can be looked up. -/
def Files.lookUp (f : Files) (path : String) : Except LoadFault (Option Entry) := do
  let p ← f.placeOf (.text path)
  let shown : PathText := .text (Text.textOfBytes (f.shownPath p))
  if (Text.textBytes path).contains 0 then .error (.badPath ⟨.zeroByte, shown⟩)
  else match f.reach p with
    | .error .longName => .error (.badPath ⟨.longName, shown⟩)
    | .error _ => .ok none
    | .ok place => .ok (f.entry? place)

variable {f : Files} {path : String} {fault : LoadFault} {s : Store}

theorem Files.code?_of_lookUp (h : f.lookUp path = .error fault) : fault.code? = none := by
  obtain hplace | ⟨p, -, h⟩ := except_bind_eq_error_iff.mp h
  · unfold placeOf at hplace
    dsimp only at hplace
    split at hplace
    · cases hplace
    · split at hplace
      · cases hplace
      · split at hplace
        · cases hplace
        · split at hplace
          all_goals
            cases hplace
            rfl
  · dsimp only at h
    split at h
    · cases h
      rfl
    · split at h <;> cases h
      rfl

/-- **Reading a settings file** is looking up its path, and then reading what is there. -/
theorem Setting.readFile_eq (f : Files) (path : String) (s : Store) :
    ∃ shown, readFile f path s = (f.lookUp path).bind fun
      | none => .error (.notFound path)
      | some .folder => .error (.unreadable path ⟨.folder, shown⟩)
      | some (.file number) => readDocument path (f.content number) s := by
  unfold readFile Files.lookUp
  cases f.placeOf (.text path) with
  | error fault => exact ⟨.text path, rfl⟩
  | ok p =>
    refine ⟨.text (Text.textOfBytes (f.shownPath p)), ?_⟩
    dsimp only [bind, Except.bind]
    split
    · rfl
    · cases f.reach p with
      | error cause => cases cause <;> rfl
      | ok place =>
        rcases hentry : f.entry? place with _ | (_ | number) <;> simp only [hentry]

namespace Registry

variable {r : Registry} {n : Nat} {source : Source} {bytes : List UInt8}

/-! ### Loading -/

/-- A mapping has taken the place of the layer of a source.  Nothing else has changed. -/
structure LayerReplaced (r : Registry) (n : Nat) (source : Source) (item : Item) (q : Registry) :
    Prop where
  layer : q.layers n source = some item
  sources : ∀ other ≠ source, q.layers n other = r.layers n other
  settings : ∀ m ≠ n, q.layers m = r.layers m
  watchers : r.SameWatchers q
  global : q.global = r.global
  /-- What was there is there and as it was, so each other layer reads as before. -/
  objects : r.store.GrowsTo q.store

theorem layerReplaced_setLayers (hn : n < r.settings.length) (source : Source) (item : Item)
    (hgrows : r.store.GrowsTo s) :
    r.LayerReplaced n source item (r.setLayers n ((r.layers n).update source (some item)) s) := by
  have hlayers := layers_setLayers_of_lt hn ((r.layers n).update source (some item)) s
  refine ⟨?_, fun other hne => ?_, fun m hne => ?_, sameWatchers_setLayers r n _ _, rfl, hgrows⟩
  · rw [hlayers]
    exact if_pos rfl
  · rw [hlayers]
    exact if_neg hne
  · show (((r.settings.modify n _)[m]?).map (·.layers)).getD .none = _
    rw [List.getElem?_modify]
    simp only [if_neg hne.symm, id_map']
    rfl

/-- Loading a file comes to a fault, which is reported with a code or without one, and changes
nothing. -/
def Refuses (r : Registry) (n : Nat) (f : Files) (path : String) (source : Source)
    (fault : LoadFault) (code : Option ErrorCode) : Prop :=
  r.loadFile n f path source = (.error (.load fault), r) ∧ fault.code? = code

theorem refuses_of_readFile (h : Setting.readFile f path r.store = .error fault) (n : Nat)
    (source : Source) : r.Refuses n f path source fault fault.code? := by
  refine ⟨?_, rfl⟩
  rw [loadFile, Layers.loadFile, h]
  rfl

/-- Loading a file does what the document in its bytes asks for: a mapping takes the place of the
layer, and anything else is refused.  What the document is, is what `Yaml.Supply.load` reads, at
any depth of nesting. -/
def LoadsDocument (r : Registry) (n : Nat) (f : Files) (path : String) (source : Source)
    (bytes : List UInt8) : Prop :=
  match (Yaml.Supply.ofBytes bytes).load r.store with
  | .ok (item, s) =>
    if (s.entries? item).isSome then
      ∃ q, r.loadFile n f path source = (.ok (), q) ∧ q.store = s ∧
        r.LayerReplaced n source item q
    else r.Refuses n f path source (.notMapping path) (some .invalidInput)
  | .error .malformed => r.Refuses n f path source (.malformed path) (some .invalidInput)
  | .error fault => r.Refuses n f path source (.badContent fault) none

theorem loadsDocument_of_lookUp (hr : r.Sound) (hn : n < r.settings.length) {number : Nat}
    (h : f.lookUp path = .ok (some (.file number))) (source : Source) :
    r.LoadsDocument n f path source (f.content number) := by
  obtain ⟨shown, hread⟩ := Setting.readFile_eq f path r.store
  rw [h] at hread
  change Setting.readFile f path r.store = Setting.readDocument path (f.content number) r.store
    at hread
  unfold Setting.readDocument at hread
  unfold LoadsDocument
  split
  · rename_i item s hload
    rw [hload] at hread
    dsimp only at hread
    split
    · rename_i hmapping
      rw [if_pos hmapping] at hread
      refine ⟨r.setLayers n ((r.layers n).update source (some item)) s, ?_, rfl,
        layerReplaced_setLayers hn source item (Yaml.load_sound hr.store hload).1⟩
      rw [loadFile, Layers.loadFile, hread]
      rfl
    · rename_i hmapping
      rw [if_neg hmapping] at hread
      exact refuses_of_readFile hread n source
  · rename_i hload
    rw [hload] at hread
    exact refuses_of_readFile hread n source
  · rename_i fault hne hload
    rw [hload] at hread
    refine refuses_of_readFile (hread.trans ?_) n source
    cases fault with
    | malformed => exact absurd rfl hne
    | _ => rfl

/-- What a file is loaded for is what is read in its bytes. -/
theorem exists_load_of_loadFile (hr : r.Sound) (hn : n < r.settings.length) {number : Nat}
    (hlookUp : f.lookUp path = .ok (some (.file number))) {q : Registry}
    (h : r.loadFile n f path source = (.ok (), q)) :
    ∃ item, (Yaml.Supply.ofBytes (f.content number)).load r.store = .ok (item, q.store) ∧
      r.LayerReplaced n source item q := by
  have hloads := loadsDocument_of_lookUp hr hn hlookUp source
  unfold LoadsDocument at hloads
  split at hloads
  · rename_i item s hload
    split at hloads
    · obtain ⟨q', heq, rfl, hreplaced⟩ := hloads
      cases h.symm.trans heq
      exact ⟨item, hload, hreplaced⟩
    · cases h.symm.trans hloads.1
  · cases h.symm.trans hloads.1
  · cases h.symm.trans hloads.1

/-- No document is read from bytes that are not those of a text. -/
theorem LoadsDocument.refuses (h : r.LoadsDocument n f path source bytes)
    (htext : ¬ Text.IsText bytes) :
    r.Refuses n f path source (.malformed path) (some .invalidInput) ∨
      ∃ fault, r.Refuses n f path source (.badContent fault) none := by
  unfold LoadsDocument at h
  split at h
  · rename_i item s hload
    have hending := Yaml.Supply.ending_ofBytes htext
    rw [Yaml.ending_of_load hload] at hending
    cases hending
  · exact .inl h
  · exact .inr ⟨_, h⟩

/-- Where nothing can be read, there is no token in front of the fault. -/
theorem LoadsDocument.refuses_short (h : r.LoadsDocument n f path source bytes)
    (hbytes : bytes.length ≤ Text.Intake.leastPiece) (htext : ¬ Text.IsText bytes) :
    ∃ fault, r.Refuses n f path source (.badContent (.notText fault)) none := by
  obtain ⟨fault, hsupply⟩ := Yaml.Supply.exists_ofBytes hbytes htext
  have hload : (Yaml.Supply.failed (.notText fault)).load r.store = .error (.notText fault) := rfl
  unfold LoadsDocument at h
  rw [hsupply, hload] at h
  exact ⟨fault, h⟩

/-- **What comes of loading a settings file.**  If the path cannot be looked up, the fault has no
code; if nothing or a folder is there, it has one.  The bytes of a file are read as a document: a
mapping takes the place of the layer, and nothing else changes; anything else and a fault in the
form of the document are reported with a code; and every other fault in the content has none.
A file whose bytes are not those of a text is always refused, and without a code if it is no
longer than one piece. -/
theorem loadFile_cases (hr : r.Sound) (hn : n < r.settings.length) (f : Files) (path : String)
    (source : Source) :
    match f.lookUp path with
    | .error fault => r.Refuses n f path source fault none
    | .ok none => r.Refuses n f path source (.notFound path) (some .notFound)
    | .ok (some .folder) => ∃ shown,
      r.Refuses n f path source (.unreadable path ⟨.folder, shown⟩) (some .internalError)
    | .ok (some (.file number)) =>
      r.LoadsDocument n f path source (f.content number)
      ∧ (¬ Text.IsText (f.content number) →
        (r.Refuses n f path source (.malformed path) (some .invalidInput) ∨
          ∃ fault, r.Refuses n f path source (.badContent fault) none)
        ∧ ((f.content number).length ≤ Text.Intake.leastPiece →
          ∃ fault, r.Refuses n f path source (.badContent (.notText fault)) none)) := by
  obtain ⟨shown, hread⟩ := Setting.readFile_eq f path r.store
  split
  · rename_i fault hlookUp
    rw [hlookUp] at hread
    rw [← Files.code?_of_lookUp hlookUp]
    exact refuses_of_readFile hread n source
  · rename_i hlookUp
    rw [hlookUp] at hread
    exact refuses_of_readFile hread n source
  · rename_i hlookUp
    rw [hlookUp] at hread
    exact ⟨shown, refuses_of_readFile hread n source⟩
  · rename_i number hlookUp
    have hloads := loadsDocument_of_lookUp hr hn hlookUp source
    exact ⟨hloads, fun htext =>
      ⟨hloads.refuses htext, fun hbytes => hloads.refuses_short hbytes htext⟩⟩

/-- A home with a settings file in which a byte begins no character. -/
def spoiled : Files where
  home := [.ofText "home"]
  homeText := "/home"
  entries := [([.ofText "home"], .folder), ([.ofText "home", .ofText "r.yaml"], .file 1)]
  contents := #[[], [0x61, 0x3A, 0x20, 0xFF, 0x0A]]
  users := []

/-- The spoiled file is no text, and loading it comes to a fault without a code. -/
theorem loadFile_cases_spoiled :
    (empty.add spoiled none none).2.Sound ∧ 0 < (empty.add spoiled none none).2.settings.length ∧
      spoiled.lookUp "r.yaml" = .ok (some (.file 1)) ∧ ¬ Text.IsText (spoiled.content 1) ∧
      ∃ fault, (empty.add spoiled none none).2.Refuses 0 spoiled "r.yaml" .file
        (.badContent (.notText fault)) none := by
  have hsound := add_sound sound_empty spoiled none none
  have hlength : 0 < (empty.add spoiled none none).2.settings.length := by decide
  have hlookUp : spoiled.lookUp "r.yaml" = .ok (some (.file 1)) := by decide +kernel
  have htext : ¬ Text.IsText (spoiled.content 1) := by decide
  have hcases := loadFile_cases hsound hlength spoiled "r.yaml" .file
  rw [hlookUp] at hcases
  exact ⟨hsound, hlength, hlookUp, htext, (hcases.2 htext).2 (by decide)⟩

end Registry

end Winnow
