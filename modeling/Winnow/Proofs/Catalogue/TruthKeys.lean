/-
Winnow/Proofs/Catalogue/TruthKeys.lean

Definitions written with a plain `on`.

In a settings file the word `on` without quotation marks is a truth value, as a key
too (`scalar?_of_plain_on`).  A definition that is written with it has this truth
value among its keys, in the place of the field of the selector.  It is refused, and
nothing is built of what comes with it (`loadFrom_of_truthKey`).

So from what is written to what is refused: where a document that has been loaded has
such a definition among its filters, the reading of the filters fails
(`loadFrom_of_plain_on`).
-/
import Winnow.Proofs.Catalogue.Sections
import Winnow.Proofs.Settings.LoadedFiles
import Winnow.Proofs.Yaml.Written

namespace Winnow

open Shaped (shape)

/-! ### The plain word -/

/-- The plain word `on` is a truth value, whatever stands around it. -/
theorem Yaml.Build.scalar?_of_plain_on (b : Yaml.Build) (n : Nat)
    (h : b.graph.vertex? n = some ⟨Yaml.Graph.scalarTag .none Definition.onField true,
      .text Definition.onField⟩) :
    b.scalar? n (b.graph.tag n) = some (.ok (Scalar.truth true)) := by
  have htag : b.graph.tag n = .truth := by
    rw [Yaml.Graph.tag, h]
    decide +kernel
  have htext : b.text n = .ok Definition.onField := by
    rw [Yaml.Build.text, Yaml.Build.textTo, h]
  have htruth : Yaml.readTruth Definition.onField = .ok true := by decide +kernel
  have hscalar : b.scalar? n .truth = some (b.text n >>= fun text =>
      Yaml.readTruth text >>= fun x => .ok (Scalar.truth x)) := rfl
  rw [htag, hscalar, htext]
  show some (Yaml.readTruth Definition.onField >>= fun x => .ok (Scalar.truth x)) = _
  rw [htruth]
  rfl

namespace Yaml.Graph

variable {g : Graph} {n : Nat} {x : Scalar}

/-- Whether a node is the word `on` without quotation marks. -/
def isPlainOn (g : Graph) (n : Nat) : Bool :=
  match g.vertex? n with
  | some ⟨tag, .text word⟩ =>
    tag == scalarTag .none Definition.onField true && word == Definition.onField
  | _ => false

/-- Whether a node is a mapping with the plain word `on` for a key. -/
def hasPlainOn (g : Graph) (n : Nat) : Bool :=
  match g.vertex? n with
  | some ⟨.mapping, .mapping written⟩ => written.any fun e => g.isPlainOn e.1
  | _ => false

theorem Reads.eq_truth (h : g.Reads n x) (hn : g.isPlainOn n = true) : x = .truth true := by
  obtain ⟨b, rfl, hscalar⟩ := h
  unfold isPlainOn at hn
  split at hn
  · rename_i tag word hvertex
    rw [Bool.and_eq_true, beq_iff_eq, beq_iff_eq] at hn
    obtain ⟨rfl, rfl⟩ := hn
    cases hscalar.symm.trans (b.scalar?_of_plain_on n hvertex)
    rfl
  · cases hn

end Yaml.Graph

/-! ### Definitions -/

variable {α : Type} [Shaped α]

namespace Definition

/-- Whether a value is a mapping in which the only key that is no field is the truth
value for yes. -/
def hasTruthKey (v : α) : Bool :=
  match shape v with
  | .mapping entries => match unknownKeys entries with
    | [.scalar (.truth true)] => true
    | _ => false
  | _ => false

/-- The fault of such a definition. -/
def truthFault : DefinitionFault := .unknownFields ["True"]

theorem ofValue_of_truthKey {v : α} (h : hasTruthKey v = true) :
    ofValue v = .error truthFault := by
  unfold hasTruthKey at h
  split at h
  · rename_i entries hshape
    split at h
    · rename_i hkeys
      have htexts : [Value.aloneText (.truth true)].mergeSort = ["True"] := by decide +kernel
      unfold ofValue
      rw [hshape]
      simp only [hkeys]
      exact congrArg (Except.error ∘ DefinitionFault.unknownFields) htexts
    · cases h
  · cases h

theorem exists_fault_of_unknownKey {v : α} {entries : List (Value × α)}
    (hshape : shape v = .mapping entries) {key : Value} (hkey : key ∈ entries.map (·.1))
    (htext : key.text? = none) : ∃ fault, ofValue v = .error fault := by
  have hunknown : key ∈ unknownKeys entries := by
    refine List.mem_filter.mpr ⟨hkey, ?_⟩
    rw [htext]
    rfl
  unfold ofValue
  rw [hshape]
  dsimp only
  split
  · rename_i hnone
    rw [hnone] at hunknown
    cases hunknown
  · exact ⟨_, rfl⟩

/-- A definition that is written with a plain `on` is refused. -/
theorem exists_fault_of_plain_on {g : Yaml.Graph} {met : List (Nat × Item)} {t : Store}
    (h : g.Shows met t) {n : Nat} {i : Item} (hn : met.lookup n = some i)
    (hplain : g.hasPlainOn n = true) : ∃ fault, ofValue (⟨t, i⟩ : Stored) = .error fault := by
  unfold Yaml.Graph.hasPlainOn at hplain
  split at hplain
  · rename_i written hvertex
    obtain ⟨e, he, hon⟩ := List.any_eq_true.mp hplain
    obtain ⟨own, hown, hrow⟩ := h.mappings n i written hn hvertex
    obtain ⟨x, hx, key, hkey, hsame⟩ := hrow.exists_key he
    cases (h.scalars e.1 x hx).eq_truth hon
    have hshape : shape (⟨t, i⟩ : Stored) = .mapping (Stored.entriesIn t own) :=
      Stored.shape_eq_mapping_iff.mpr ⟨own, hown, rfl⟩
    refine exists_fault_of_unknownKey hshape (by rwa [Stored.entriesIn, List.map_map]) ?_
    -- a number may be the same key as the truth value, but no text is
    refine Option.eq_none_iff_forall_ne_some.mpr fun word hword => ?_
    cases value_text?_eq_some_iff.mp hword
    rcases hsame with hsame | hsame <;> cases hsame
  · cases hplain

end Definition

namespace Catalogue

open Log (Hub Logger)

variable {r : Registry} {n : Nat} {before after : List (Value × Stored)} {d : Stored}
  {c : Catalogue} {name : String}

/-- **A definition with the key that a plain `on` stands for is refused.**  The reading
ends there with a fault that is reported, and no filters are given.  (What is reported may
also be that an open block of context cannot be written.) -/
theorem loadFrom_of_truthKey
    (hsection : shape (definitionsIn r n) = .mapping (before ++ (.text name, d) :: after))
    (hbefore : List.Forall₂ Defines before c) (hname : filterName (.text name) = .ok name)
    (hd : Definition.hasTruthKey d = true) (logger : Option Logger) (h : Hub) :
    ∃ h', Yields h (loadFrom r n logger h)
      (.error (.badFilter (.text name) Definition.truthFault), h') := by
  have hbad : entry (.text name) d = .error Definition.truthFault := by
    unfold entry Chain.ofDefinition
    rw [hname, Definition.ofValue_of_truthKey hd]
    rfl
  exact load_of_bad hsection hbefore rfl hbad rfl logger h

/-- Files among which there is one with a text, for settings. -/
def filesWith (text : String) : Files :=
  match (Files.initial [] "" []).write (.text "resfilter.yaml") (Text.textBytes text) with
  | .ok f => f
  | .error _ => .initial [] "" []

/-- The settings of a file in which two filters are written down. -/
def twoWritten : Registry :=
  (Registry.empty.add (filesWith
    ("resfilter:\n  filters:\n    sources:\n      on: paths\n      steps:\n"
      ++ "        - ending: [\".java\", \".kt\"]\n        - not_containing: test\n"
      ++ "    dotfiles: hidden\n")) (some "resfilter.yaml") none).2

/-- Whether the first of the definitions has this name and a plain `on` in it. -/
def startsWithTruthKey (name : String) (v : Stored) : Bool :=
  match shape v with
  | .mapping ((.scalar (.text key), d) :: _) => key == name && Definition.hasTruthKey d
  | _ => false

theorem exists_of_startsWithTruthKey {v : Stored} (h : startsWithTruthKey name v = true) :
    ∃ d rest, shape v = .mapping ((.text name, d) :: rest) ∧ Definition.hasTruthKey d = true := by
  unfold startsWithTruthKey at h
  split at h
  · rename_i key d rest hshape
    rw [Bool.and_eq_true, beq_iff_eq] at h
    obtain ⟨rfl, hd⟩ := h
    exact ⟨d, rest, hshape, hd⟩
  · cases h

theorem loadFrom_of_truthKey_sources :
    ∃ h', loadFrom twoWritten 0 none (.initial .empty)
      = (.error (.badFilter (.text "sources") Definition.truthFault), h') := by
  have hcheck : startsWithTruthKey "sources" (definitionsIn twoWritten 0) = true := by
    decide +kernel
  obtain ⟨d, rest, hshape, hd⟩ := exists_of_startsWithTruthKey hcheck
  have hsection : shape (definitionsIn twoWritten 0)
      = .mapping ([] ++ (.text "sources", d) :: rest) := hshape
  obtain ⟨h', hyields⟩ := loadFrom_of_truthKey hsection .nil rfl hd none (.initial .empty)
  exact ⟨h', hyields.eq (Hub.blocksAreWritable_of_eq_nil rfl)⟩

/-- What is said about it does not name the word that was written. -/
example : (DefinitionFault.badFilter (.text "sources") Definition.truthFault).message
    = "Invalid filter 'sources': Unknown filter definition fields: True" := by decide +kernel

/-! ### Settings files -/

section Written

variable {q : Registry} {f : Files} {path : String} {number root m : Nat} {source : Source}
  {g : Yaml.Graph}

/-- What is found for the filters, where they are in the document of a file that has been loaded
and no layer above it has anything for them. -/
theorem exists_definition_of_loadFile (hr : r.Sound) (hn : n < r.settings.length)
    (hlookUp : f.lookUp path = .ok (some (.file number)))
    (hload : r.loadFile n f path source = (.ok (), q))
    (hgraph : Yaml.Graph.ofTokens? (Yaml.Supply.ofBytes (f.content number)).tokens
      = .ok (some (root, g)))
    (hunmerged : g.isUnmerged = true)
    (habove : ∀ higher, source.rank < higher.rank →
      (q.layers n).at? q.store Setting.filters higher = none)
    (hwritten : g.find? root (Setting.filters ++ [name]) = some m) :
    ∃ met i entries, g.Shows met q.store ∧ met.lookup m = some i ∧
      shape (definitionsIn q n) = .mapping entries ∧ (.text name, ⟨q.store, i⟩) ∈ entries := by
  obtain ⟨item, hitem, hreplaced⟩ := Registry.exists_load_of_loadFile hr hn hlookUp hload
  have hbuild : Yaml.build g root r.store = .ok (item, q.store) := by
    unfold Yaml.Supply.load at hitem
    rw [hgraph] at hitem
    exact hitem
  obtain ⟨met, hroot, hshows⟩ := Yaml.Graph.shows_of_build hunmerged hbuild
  obtain ⟨i, hi, hm⟩ := hshows.find? hroot hwritten
  -- the definition lies in the section of the filters, and this is what is found
  rw [Store.find?_append] at hi
  obtain ⟨top, htop, hi⟩ := Option.bind_eq_some_iff.mp hi
  rw [Store.find?_cons] at hi
  obtain ⟨next, hnext, hi⟩ := Option.bind_eq_some_iff.mp hi
  cases hi
  obtain ⟨own, hown, hfind⟩ := Option.bind_eq_some_iff.mp hnext
  obtain ⟨a, rfl, -⟩ := Store.entries?_eq_some_iff.mp hown
  have hitemAt : (q.layers n).itemAt? q.store Setting.filters source = some (.object a) := by
    rw [Layers.itemAt?, hreplaced.layer, Option.bind_some, htop]
  have hfound : q.find? n Setting.filters = some (source, .object a) :=
    Layers.find?_eq_some_iff.mpr ⟨Layers.at?_eq_some_iff.mpr ⟨hitemAt, rfl⟩, habove⟩
  obtain ⟨k, hmem, hsame⟩ := Entries.mem_of_find? hfind
  cases sameKey_text_iff.mp hsame
  refine ⟨met, i, Stored.entriesIn q.store own, hshows, hm, ?_, List.mem_map_of_mem hmem⟩
  rw [definitionsIn_of_find? hfound]
  exact Stored.shape_eq_mapping_iff.mpr ⟨own, hown, rfl⟩

/-- **No filters are given for a settings file with a plain `on`.**  Let a document that has
been loaded have a definition of a filter that is written with the plain word for a key, and
let the layers above have nothing for the filters.  Then the reading of the filters fails,
wherever the definition stands among them. -/
theorem loadFrom_of_plain_on (hr : r.Sound) (hn : n < r.settings.length)
    (hlookUp : f.lookUp path = .ok (some (.file number)))
    (hload : r.loadFile n f path source = (.ok (), q))
    (hgraph : Yaml.Graph.ofTokens? (Yaml.Supply.ofBytes (f.content number)).tokens
      = .ok (some (root, g)))
    (hunmerged : g.isUnmerged = true)
    (habove : ∀ higher, source.rank < higher.rank →
      (q.layers n).at? q.store Setting.filters higher = none)
    (hwritten : g.find? root (Setting.filters ++ [name]) = some m)
    (hplain : g.hasPlainOn m = true) (logger : Option Logger) (h : Hub) :
    ∃ fault h', loadFrom q n logger h = (.error fault, h') := by
  obtain ⟨met, i, entries, hshows, hm, hshape, hmem⟩ :=
    exists_definition_of_loadFile hr hn hlookUp hload hgraph hunmerged habove hwritten
  obtain ⟨fault, hfault⟩ := Definition.exists_fault_of_plain_on hshows hm hplain
  rcases houtcome : loadFrom q n logger h with ⟨fault | c, h'⟩
  · exact ⟨fault, h', rfl⟩
  · -- a filter for each definition is what there cannot be
    obtain ⟨entries', hshape', hall⟩ := forall₂_of_load houtcome
    cases hshape.symm.trans hshape'
    obtain ⟨filter, -, hdefines⟩ := exists_mem_of_forall₂ hall hmem
    obtain ⟨definition, hok, -⟩ := except_bind_eq_ok_iff.mp hdefines.chain
    cases hfault.symm.trans hok

/-- Such a definition in one line. -/
example : (match Yaml.Graph.ofTokens? (Yaml.Supply.ofBytes
      (Text.textBytes "resfilter: {filters: {sources: {on: paths}}}")).tokens with
    | .ok (some (root, g)) =>
      g.isUnmerged && (g.find? root (Setting.filters ++ ["sources"])).any g.hasPlainOn
    | _ => false) = true := by decide +kernel

end Written

end Catalogue

end Winnow
