import FeatureLines.Marshal.Context
import FeatureLines.Proofs.Marshal.BuiltIn
import FeatureLines.Proofs.Marshal.Frame
import FeatureLines.Proofs.Results

/-!
# The features of a writing

Without kept texts, what a writing adds to the example depends on nothing but what a marshaller can see: it is the list
`Writing.features`, and running the writing puts the list behind the features of the open namespace (`At.run`). A writing
that keeps no text is `Writing.Forgets`; an ordinary one keeps none for a feature that does not ask for it.
-/

namespace FeatureLines

open Number

/-- A feature with a weight, unless the weight is that of no feature. -/
def weightedFeatures (hash : UInt64) (weight : Double) : List HashedFeature :=
  if Context.isKept (weight.convert .single) then [⟨hash, weight.convert .single⟩] else []

/-- The elements of a dense vector from an offset on. -/
def elementFeatures (engine : Engine) (space index : UInt64) : List Double → List HashedFeature
  | [] => []
  | weight :: rest =>
    weightedFeatures (engine.hashIndex space index) weight ++ elementFeatures engine space (index + 1) rest

/-- A dense vector, with its anchor if it has one. -/
def denseFeatures (engine : Engine) (space : UInt64) (anchor : Bool) (weights : List Double) : List HashedFeature :=
  if anchor then ⟨engine.hashIndex space 0, .one _⟩ :: elementFeatures engine space 1 weights
  else elementFeatures engine space 0 weights

namespace Writing

/-- The features that a writing adds to a namespace, when every text is made anew. -/
def features (engine : Engine) (text : Bool) (space : UInt64) : Writing → List HashedFeature
  | done => []
  | indicator name next => ⟨engine.hashFeature name space, .one _⟩ :: next.features engine text space
  | weighted name weight next =>
    weightedFeatures (engine.hashFeature name space) weight ++ next.features engine text space
  | dense anchor weights next => denseFeatures engine space anchor weights ++ next.features engine text space
  | preallocate _ next => next.features engine text space
  | render rendering next => (next rendering.text).features engine text space
  | remember _ _ rendering next => (next rendering.text).features engine text space
  | look next => (next ⟨engine, text, some space⟩).features engine text space
  | report _ next => next.features engine text space

def Forgets (engine : Engine) (text : Bool) (space : UInt64) : Writing → Prop
  | done => True
  | indicator _ next => next.Forgets engine text space
  | weighted _ _ next => next.Forgets engine text space
  | dense _ _ next => next.Forgets engine text space
  | preallocate _ next => next.Forgets engine text space
  | render rendering next => (next rendering.text).Forgets engine text space
  | remember feature _ rendering next => feature.dictify = false ∧ (next rendering.text).Forgets engine text space
  | look next => (next ⟨engine, text, some space⟩).Forgets engine text space
  | report _ next => next.Forgets engine text space

variable {engine : Engine} {text : Bool} {space : UInt64}

/-- An ordinary writing keeps no text, unless its feature asks for it. -/
lemma Ordinary.forgets {feature : Feature} (off : feature.dictify = false) {w : Writing} (ordinary : w.Ordinary feature) :
    w.Forgets engine text space := by
  induction w with
  | done => trivial
  | indicator name next ih => exact ih ordinary.2
  | weighted name weight next ih => exact ih ordinary.2
  | dense anchor weights next ih => exact ih ordinary
  | preallocate additional next ih => exact ih ordinary
  | render rendering next ih => exact ih _ (ordinary _)
  | remember kept site rendering next ih => exact ⟨ordinary.1 ▸ off, ih _ (ordinary.2 _)⟩
  | look next => exact ordinary.elim
  | report event next ih => exact ih ordinary

end Writing

/-- A namespace with more features behind its own. -/
def HashedNamespace.extend (n : HashedNamespace) (features : List HashedFeature) : HashedNamespace :=
  { n with features := n.features ++ features }

namespace HashedNamespace

@[simp] lemma extend_nil (n : HashedNamespace) : n.extend [] = n := by
  cases n
  simp [extend]

/-- Features that come in two parts are those of both, in order. -/
@[simp] lemma extend_extend (n : HashedNamespace) (features features' : List HashedFeature) :
    (n.extend features).extend features' = n.extend (features ++ features') := by
  simp [extend]

end HashedNamespace

namespace Context

variable {engine : Engine} {text : Bool} {natives : List Example} {space : UInt64} {b : Builder} {n : HashedNamespace}
  {c : Context}

/-- A context that keeps no texts, with the lines that are finished. -/
structure Forgetful (engine : Engine) (text : Bool) (natives : List Example) (c : Context) : Prop where
  engine_eq : c.engine = engine
  text_eq : c.text = text
  natives_eq : c.natives = natives
  dictifyAll : c.dictifyAll = false

/-- In a namespace of a context that keeps no texts, `n` has been built behind `b`. -/
structure At (engine : Engine) (text : Bool) (natives : List Example) (space : UInt64) (b : Builder)
    (n : HashedNamespace) (c : Context) : Prop extends Forgetful engine text natives c where
  current : ∃ before, c.current = some ⟨space, before⟩
  builder : c.builder = some { b with current := some n }

/-- In an open namespace, a weight that is kept makes a feature and a token, and one that is not kept makes neither. -/
lemma addWeighted_eq (c : Context) {opened : OpenNamespace} (current : c.current = some opened) (name : String)
    (weight : Double) :
    c.addWeighted name weight =
      if isKept (weight.convert .single) = true then
        ((c.narrow name weight).1.addHashed ((c.narrow name weight).1.engine.hashFeature name opened.hash)
          (weight.convert .single)).addToken
            (name ++ ":" ++ (c.narrow name weight).1.floatFormat.text (weight.convert .single))
      else (c.narrow name weight).1 := by
  unfold addWeighted
  rw [current]
  rfl

/-- Elements of a vector are counted whether they are kept or not. -/
lemma addElements_cons (c : Context) (space index : UInt64) (weight : Double) (rest : List Double) :
    c.addElements space index (weight :: rest) =
      (if isKept (weight.convert .single) = true then
        (c.narrow "dense" weight).1.addIndex space index (weight.convert .single)
      else (c.narrow "dense" weight).1).addElements space (index + 1) rest := rfl

namespace At

/-- Tokens are for the text only. -/
lemma addToken (h : c.At engine text natives space b n) (token : String) : (c.addToken token).At engine text natives space b n := by
  unfold Context.addToken
  split
  · exact ⟨⟨h.engine_eq, h.text_eq, h.natives_eq, h.dictifyAll⟩, h.current, h.builder⟩
  · exact h

/-- A feature goes behind those of the open namespace. -/
lemma addHashed (h : c.At engine text natives space b n) (hash : UInt64) (weight : Single) :
    (c.addHashed hash weight).At engine text natives space b (n.extend [⟨hash, weight⟩]) :=
  ⟨⟨h.engine_eq, h.text_eq, h.natives_eq, h.dictifyAll⟩, h.current, by rw [Context.addHashed, h.builder]; rfl⟩

/-- A warning about a weight that is out of range concerns no feature. -/
lemma narrow (h : c.At engine text natives space b n) (name : String) (weight : Double) :
    (c.narrow name weight).1.At engine text natives space b n := by
  unfold Context.narrow
  simp only
  split
  · exact ⟨⟨h.engine_eq, h.text_eq, h.natives_eq, h.dictifyAll⟩, h.current, h.builder⟩
  · exact h

/-- An indicator is the hash of its name, with the weight one. -/
lemma addIndicator (h : c.At engine text natives space b n) (name : String) :
    (c.addIndicator name).At engine text natives space b (n.extend [⟨engine.hashFeature name space, .one _⟩]) := by
  obtain ⟨before, current⟩ := h.current
  unfold Context.addIndicator
  rw [current, h.engine_eq]
  exact (h.addHashed _ _).addToken _

/-- A weight that is kept makes one feature, and other weights make none. -/
lemma addWeighted (h : c.At engine text natives space b n) (name : String) (weight : Double) :
    (c.addWeighted name weight).At engine text natives space b
      (n.extend (weightedFeatures (engine.hashFeature name space) weight)) := by
  obtain ⟨before, current⟩ := h.current
  have narrowed := h.narrow name weight
  unfold weightedFeatures
  rw [c.addWeighted_eq current]
  by_cases kept : isKept (weight.convert .single) = true
  · rw [if_pos kept, if_pos kept, narrowed.engine_eq]
    exact (narrowed.addHashed _ _).addToken _
  · rwa [if_neg kept, if_neg kept, HashedNamespace.extend_nil]

/-- The elements of a vector are hashed by their positions. -/
lemma addElements (h : c.At engine text natives space b n) (index : UInt64) (weights : List Double) :
    (c.addElements space index weights).At engine text natives space b (n.extend (elementFeatures engine space index weights)) := by
  induction weights generalizing c n index with
  | nil => rwa [elementFeatures, HashedNamespace.extend_nil]
  | cons weight weights ih =>
    have narrowed := h.narrow "dense" weight
    unfold elementFeatures weightedFeatures
    rw [← HashedNamespace.extend_extend, addElements_cons]
    by_cases kept : isKept (weight.convert .single) = true
    · rw [if_pos kept, if_pos kept]
      refine ih ?_ _
      unfold addIndex
      rw [narrowed.engine_eq]
      exact (narrowed.addHashed _ _).addToken _
    · rw [if_neg kept, if_neg kept, HashedNamespace.extend_nil]
      exact ih narrowed _

/-- A vector makes the features of its elements, before them the anchor if there is one. -/
lemma addDense (h : c.At engine text natives space b n) (anchor : Bool) (weights : List Double) :
    (c.addDense anchor weights).At engine text natives space b (n.extend (denseFeatures engine space anchor weights)) := by
  obtain ⟨before, current⟩ := h.current
  unfold Context.addDense denseFeatures
  rw [current]
  simp only
  split
  · have anchored : (c.addIndex space 0 (.one _)).At engine text natives space b
        (n.extend [⟨engine.hashIndex space 0, .one _⟩]) := by
      unfold addIndex
      rw [h.engine_eq]
      exact (h.addHashed _ _).addToken _
    have elements := anchored.addElements 1 weights
    rwa [HashedNamespace.extend_extend] at elements
  · exact h.addElements 0 weights

/-- A rendering concerns no feature. -/
lemma render (h : c.At engine text natives space b n) (rendering : Rendering) :
    (c.render rendering).1.At engine text natives space b n := by
  unfold Context.render
  cases rendering.counted with
  | none => exact h
  | some serial => exact ⟨⟨h.engine_eq, h.text_eq, h.natives_eq, h.dictifyAll⟩, h.current, h.builder⟩

/-- A text that is not kept is made. -/
lemma remember_eq (h : c.At engine text natives space b n) {feature : Feature} (off : feature.dictify = false) (site : Site)
    (rendering : Rendering) : c.remember feature site rendering = c.render rendering := by
  unfold Context.remember
  rw [h.dictifyAll, off]
  rfl

/-- All that a marshaller can see of a context is its engine, its form and the open namespace. -/
lemma view (h : c.At engine text natives space b n) : c.view = ⟨engine, text, some space⟩ := by
  obtain ⟨before, current⟩ := h.current
  rw [Context.view, h.engine_eq, h.text_eq, current]
  rfl

lemma preallocate (h : c.At engine text natives space b n) (additional : Nat) :
    (c.preallocate additional).At engine text natives space b n :=
  ⟨⟨h.engine_eq, h.text_eq, h.natives_eq, h.dictifyAll⟩, h.current, by rw [Context.preallocate, h.builder]; rfl⟩

/-- A writing puts its features behind those of the open namespace. -/
theorem run (h : c.At engine text natives space b n) {w : Writing} (forgets : w.Forgets engine text space) :
    (c.run w).At engine text natives space b (n.extend (w.features engine text space)) := by
  induction w generalizing c n with
  | done => rwa [Context.run, Writing.features, HashedNamespace.extend_nil]
  | indicator name next ih =>
    have rest := ih (h.addIndicator name) forgets
    rwa [HashedNamespace.extend_extend] at rest
  | weighted name weight next ih =>
    have rest := ih (h.addWeighted name weight) forgets
    rwa [HashedNamespace.extend_extend] at rest
  | dense anchor weights next ih =>
    have rest := ih (h.addDense anchor weights) forgets
    rwa [HashedNamespace.extend_extend] at rest
  | preallocate additional next ih => exact ih (h.preallocate additional) forgets
  | render rendering next ih => exact ih _ (h.render rendering) forgets
  | remember feature site rendering next ih =>
    rw [Context.run, h.remember_eq forgets.1]
    exact ih _ (h.render rendering) forgets.2
  | look next ih =>
    rw [Context.run, h.view]
    exact ih _ h forgets
  | report event next ih =>
    exact ih (c := c.record event) ⟨⟨h.engine_eq, h.text_eq, h.natives_eq, h.dictifyAll⟩, h.current, h.builder⟩ forgets

end At

/-- In a line of a context that keeps no texts, `b` has been built, and no namespace is open. -/
structure Started (engine : Engine) (text : Bool) (natives : List Example) (b : Builder) (c : Context) : Prop extends
    Forgetful engine text natives c where
  current : c.current = none
  builder : c.builder = some b
  closed : b.current = none

/-- No line is started in a context that keeps no texts. -/
structure Resting (engine : Engine) (text : Bool) (natives : List Example) (c : Context) : Prop extends
    Forgetful engine text natives c where
  current : c.current = none
  builder : c.builder = none

/-- A started line has an empty example. -/
lemma Resting.startLine (h : c.Resting engine text natives) :
    c.startLine.Started engine text natives (.ofExample engine.newExample) := by
  unfold Context.startLine
  rw [h.builder]
  exact ⟨⟨h.engine_eq, h.text_eq, h.natives_eq, h.dictifyAll⟩, h.current, by rw [← h.engine_eq]; rfl, rfl⟩

namespace Started

variable (h : c.Started engine text natives b)

include h

/-- An opened namespace has no features. -/
lemma beginNamespace (space : Namespace) :
    (c.beginNamespace space).At engine text natives (engine.hashSpace space.fullName) b
      ⟨space.index, engine.hashSpace space.fullName, []⟩ := by
  have builder := builder_beginNamespace h.builder h.closed space
  rw [h.engine_eq] at builder
  refine ⟨⟨h.engine_eq, h.text_eq, h.natives_eq, h.dictifyAll⟩, ⟨c.line, ?_⟩, builder⟩
  rw [Context.beginNamespace, h.engine_eq]

/-- A finished line stands behind the others. -/
lemma endLine : c.endLine.Resting engine text (natives ++ [⟨b.label, b.closed, b.leased⟩]) := by
  rw [endLine_eq h.current h.builder h.closed]
  exact ⟨⟨h.engine_eq, h.text_eq, congrArg (· ++ _) h.natives_eq, h.dictifyAll⟩, h.current, rfl⟩

/-- The label is what the engine reads. -/
lemma writeLabel {label : String} {c' : Context} (ok : c.writeLabel label = .ok c') :
    ∃ parsed, engine.readLabel label.toList = .ok parsed ∧ c'.Started engine text natives (b.setLabel parsed) := by
  obtain ⟨parsed, accepted, rfl⟩ := Except.map_eq_ok.1 ok
  rw [h.engine_eq] at accepted
  exact ⟨parsed, accepted, ⟨h.engine_eq, h.text_eq, h.natives_eq, h.dictifyAll⟩, h.current, by rw [h.builder]; rfl, h.closed⟩

end Started

/-- A namespace that is closed is kept if it has features. -/
lemma At.endNamespace (h : c.At engine text natives space b n) :
    c.endNamespace.Started engine text natives
      { b with closed := b.closed ++ (if n.features.isEmpty then [] else [n]), current := none } := by
  obtain ⟨before, current⟩ := h.current
  have builder := builder_endNamespace current h.builder
  unfold Context.endNamespace at builder ⊢
  rw [current] at builder ⊢
  exact ⟨⟨h.engine_eq, h.text_eq, h.natives_eq, h.dictifyAll⟩, rfl, builder, rfl⟩

end Context

namespace Handle

/-- The features that a marshaller writes for a value alone: to a new example with nothing but the namespace. -/
def alone (h : Handle) (engine : Engine) (text : Bool) (space : Namespace) (feature : Feature) (cell : Cell) :
    List HashedFeature :=
  let c := { Context.new engine {} .compact with text }.startLine.beginNamespace space
  (((c.run (h.write space feature cell)).builder.bind Builder.current).map HashedNamespace.features).getD []

/-- Alone, a marshaller writes the features of its writing. -/
lemma alone_eq_features {h : Handle} {engine : Engine} {text : Bool} {space : Namespace} {feature : Feature} {cell : Cell}
    (forgets : (h.write space feature cell).Forgets engine text (engine.hashSpace space.fullName)) :
    h.alone engine text space feature cell =
      (h.write space feature cell).features engine text (engine.hashSpace space.fullName) := by
  have resting : ({ Context.new engine {} .compact with text } : Context).Resting engine text [] :=
    ⟨⟨rfl, rfl, rfl, rfl⟩, rfl, rfl⟩
  have ran := (resting.startLine.beginNamespace space).run forgets
  unfold alone
  simp only
  rw [ran.builder]
  rfl

end Handle

end FeatureLines
