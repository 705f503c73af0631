import FeatureLines.Proofs.Marshal.Features
import FeatureLines.Proofs.Marshal.Mirror
import FeatureLines.Proofs.Number.Texts
import FeatureLines.Proofs.Serializer.Exclusive
import FeatureLines.Proofs.Serializer.Plan

/-!
# Dense vectors

The entries of a vector are its weights with their positions, but for the weights that are left out; an anchor is an
entry at offset zero and moves the others up by one (`DenseEntry.ofVector`). A dense vector adds its entries to the open
namespace, in both forms, and nothing else (`Context.addDense_eq`). No two entries have one slot
(`DenseEntry.nodup_slots`), and a vector without entries leaves no namespace.

Main statement: `LinePlan.writes_dense`.
-/

namespace FeatureLines

open Number Text

/-- An entry of a dense vector. -/
structure DenseEntry where
  offset : Nat
  weight : Single
deriving DecidableEq

namespace DenseEntry

/-- The weights that are kept, each at its position, counted from a first one on. -/
def ofWeights (first : Nat) (weights : List Double) : List DenseEntry :=
  (weights.zipIdx first).filterMap fun (weight, offset) =>
    if Context.isKept (weight.convert .single) then some ⟨offset, weight.convert .single⟩ else none

/-- The entries of a vector. An anchor has the offset zero. -/
def ofVector (anchor : Bool) (weights : List Double) : List DenseEntry :=
  if anchor then ⟨0, .one _⟩ :: ofWeights 1 weights else ofWeights 0 weights

/-- The offset as a machine word. -/
def index (e : DenseEntry) : UInt64 := .ofNat e.offset

def feature (engine : Engine) (space : UInt64) (e : DenseEntry) : HashedFeature :=
  ⟨engine.hashIndex space e.index, e.weight⟩

/-- The word of an entry on a line. -/
def word (format : FloatFormat) (e : DenseEntry) : String := toString e.index.toNat ++ ":" ++ format.text e.weight

lemma ofWeights_cons (first : Nat) (weight : Double) (rest : List Double) :
    ofWeights first (weight :: rest) =
      (if Context.isKept (weight.convert .single) = true then [⟨first, weight.convert .single⟩] else []) ++
        ofWeights (first + 1) rest := by
  unfold ofWeights
  rw [List.zipIdx_cons, List.filterMap_cons]
  split <;> simp_all

end DenseEntry

/-! ## What a vector writes -/

namespace Context

variable {c : Context} {space : UInt64}

/-- A context with entries added to the open namespace, in both forms, and with events. -/
def withEntries (c : Context) (space : UInt64) (entries : List DenseEntry) (events : List Event) : Context :=
  { c with
    builder := c.builder.map fun b =>
      { b with current := b.current.map (·.extend (entries.map (DenseEntry.feature c.engine space))) }
    line := if c.text then c.line ++ String.join (entries.map fun e => " " ++ e.word c.floatFormat) else c.line
    events := c.events ++ events }

/-- The warnings of finite weights that are infinite as weights of the engine. -/
def overflows (c : Context) (weights : List Double) : List Event :=
  (weights.filter fun weight => c.precisionWarnings && weight.isFinite && (weight.convert .single).isInfinite).map
    (.overflow "dense")

/-- Without entries there are only the events. -/
lemma withEntries_nil (c : Context) (space : UInt64) (events : List Event) :
    c.withEntries space [] events = { c with events := c.events ++ events } := by
  unfold withEntries
  cases c
  simp [String.join]

lemma withEntries_withEntries (c : Context) (space : UInt64) (entries entries' : List DenseEntry)
    (events events' : List Event) :
    (c.withEntries space entries events).withEntries space entries' events' =
      c.withEntries space (entries ++ entries') (events ++ events') := by
  unfold withEntries
  cases shown : c.text <;> simp [Function.comp_def, String.append_assoc]

lemma narrow_eq_withEntries (c : Context) (space : UInt64) (weight : Double) :
    (c.narrow "dense" weight).1 = c.withEntries space [] (c.overflows [weight]) := by
  rw [withEntries_nil, narrow, overflows]
  cases warned : c.precisionWarnings && weight.isFinite && (weight.convert .single).isInfinite <;> simp [warned, record]

lemma addIndex_eq_withEntries (c : Context) (space : UInt64) (e : DenseEntry) :
    c.addIndex space e.index e.weight = c.withEntries space [e] [] := by
  unfold addIndex addToken addHashed withEntries
  cases shown : c.text <;>
    simp [String.join, DenseEntry.feature, DenseEntry.word, Builder.addFeature, HashedNamespace.extend,
      String.append_assoc]

lemma overflows_withEntries (c : Context) (space : UInt64) (entries : List DenseEntry) (events : List Event)
    (weights : List Double) : (c.withEntries space entries events).overflows weights = c.overflows weights := rfl

lemma overflows_cons (c : Context) (weight : Double) (rest : List Double) :
    c.overflows (weight :: rest) = c.overflows [weight] ++ c.overflows rest := by
  unfold overflows
  rw [← List.map_append, ← List.filter_append, List.singleton_append]

/-- Elements add their entries. A weight that is left out has taken its position. -/
lemma addElements_eq (c : Context) (space : UInt64) (first : Nat) (weights : List Double) :
    c.addElements space (.ofNat first) weights =
      c.withEntries space (DenseEntry.ofWeights first weights) (c.overflows weights) := by
  induction weights generalizing c first with
  | nil =>
    have unchanged := c.withEntries_nil space []
    rw [List.append_nil] at unchanged
    exact unchanged.symm
  | cons weight rest ih =>
    have next : UInt64.ofNat first + 1 = .ofNat (first + 1) := by simp
    rw [addElements_cons, next, ih, DenseEntry.ofWeights_cons, overflows_cons, narrow_eq_withEntries c space]
    split
    · have added := addIndex_eq_withEntries (c.withEntries space [] (c.overflows [weight])) space
        ⟨first, weight.convert .single⟩
      unfold DenseEntry.index at added
      rw [added, withEntries_withEntries, withEntries_withEntries]
      rfl
    · rw [withEntries_withEntries]
      rfl

/-- A dense vector adds its entries to the open namespace, and warnings, and changes nothing else. -/
theorem addDense_eq {opened : OpenNamespace} (current : c.current = some opened) (anchor : Bool)
    (weights : List Double) :
    c.addDense anchor weights =
      c.withEntries opened.hash (DenseEntry.ofVector anchor weights) (c.overflows weights) := by
  unfold addDense DenseEntry.ofVector
  rw [current]
  cases anchor with
  | false => exact addElements_eq c opened.hash 0 weights
  | true =>
    have anchored : c.addIndex opened.hash 0 (.one _) = c.withEntries opened.hash [⟨0, .one _⟩] [] :=
      addIndex_eq_withEntries c opened.hash ⟨0, .one _⟩
    have elements := addElements_eq (c.withEntries opened.hash [⟨0, .one _⟩] []) opened.hash 1 weights
    rw [withEntries_withEntries, overflows_withEntries, ← anchored] at elements
    exact elements

end Context

/-! ## Offsets and words -/

namespace DenseEntry

variable {anchor : Bool} {weights : List Double} {e : DenseEntry}

/-- The offsets are those of the weights, in order, but for some. -/
lemma offset_ofWeights_sublist (first : Nat) (weights : List Double) :
    ((ofWeights first weights).map offset).Sublist (List.range' first weights.length) := by
  induction weights generalizing first with
  | nil => exact .slnil
  | cons weight rest ih =>
    rw [ofWeights_cons, List.length_cons, List.range'_succ]
    split
    · exact (ih (first + 1)).cons_cons first
    · exact (ih (first + 1)).cons first

lemma offset_ofVector_sublist (anchor : Bool) (weights : List Double) :
    ((ofVector anchor weights).map offset).Sublist (List.range (weights.length + 1)) := by
  unfold ofVector
  cases anchor with
  | false =>
    rw [List.range_succ, List.range_eq_range']
    exact (offset_ofWeights_sublist 0 weights).trans (List.sublist_append_left _ _)
  | true =>
    rw [List.range_eq_range', List.range'_succ]
    exact (offset_ofWeights_sublist 1 weights).cons_cons 0

lemma isKept_of_mem_ofWeights {first : Nat} (mem : e ∈ ofWeights first weights) : Context.isKept e.weight = true := by
  obtain ⟨⟨weight, offset⟩, -, entry⟩ := List.mem_filterMap.1 mem
  simp only at entry
  split at entry
  · rename_i kept
    cases entry
    exact kept
  · cases entry

lemma isKept_of_mem (mem : e ∈ ofVector anchor weights) : Context.isKept e.weight = true := by
  unfold ofVector at mem
  cases anchor with
  | false => exact isKept_of_mem_ofWeights mem
  | true =>
    rcases List.mem_cons.1 mem with rfl | mem
    · decide
    · exact isKept_of_mem_ofWeights mem

/-- Offsets up to the greatest machine word are machine words. -/
lemma toNat_index (short : weights.length < 2 ^ 64) (mem : e ∈ ofVector anchor weights) : e.index.toNat = e.offset := by
  have bound := (offset_ofVector_sublist anchor weights).mem (List.mem_map_of_mem mem)
  rw [List.mem_range] at bound
  exact UInt64.toNat_ofNat_of_lt' (show e.offset < 2 ^ 64 by omega)

/-- Slots that are counted from the hash of the namespace are different. -/
lemma nodup_slots (short : weights.length < 2 ^ 64) (space : UInt64) :
    ((ofVector anchor weights).map fun e => space + e.index).Nodup := by
  have offsets : ((ofVector anchor weights).map offset).Nodup :=
    (offset_ofVector_sublist anchor weights).nodup List.nodup_range
  refine List.Nodup.map_on (fun e mem e' mem' same => ?_) (List.Nodup.of_map offset offsets)
  have index : e.index = e'.index := (UInt64.add_right_inj space).1 same
  have offset : e.offset = e'.offset := by
    rw [← toNat_index short mem, ← toNat_index short mem', index]
  exact List.inj_on_of_nodup_map offsets mem mem' offset

/-- The word of an entry is read as its offset with its weight. -/
lemma read_word (format : FloatFormat) (mem : e ∈ ofVector anchor weights) :
    Token.read (e.word format).toList = .ok ⟨(toString e.index.toNat).toList, e.weight⟩ := by
  have number : e.weight.isNan = false := by
    have kept := isKept_of_mem mem
    simp only [Context.isKept, Bool.and_eq_true, Bool.not_eq_true'] at kept
    exact kept.2
  have nocolon : ':' ∉ (format.text e.weight).toList := fun colon =>
    absurd (format.needsEscape_of_mem_text number colon) (by decide)
  have whole : (e.word format).toList = (toString e.index.toNat).toList ++ ':' :: (format.text e.weight).toList := by
    simp [word]
  rw [whole, Token.read_weighted _ nocolon (format.read_text number)]

/-- A vector of weights that are all left out has no entries, if it has no anchor. -/
lemma ofVector_eq_nil (left : ∀ weight ∈ weights, Context.isKept (weight.convert .single) = false) :
    ofVector false weights = [] := by
  refine List.filterMap_eq_nil_iff.2 fun ⟨weight, offset⟩ mem => ?_
  have known : weight ∈ weights := List.fst_mem_of_mem_zipIdx mem
  simp [left weight known]

end DenseEntry

/-! ## Blocks of a dense vector -/

namespace Context

variable {c : Context}

/-- A weight that overflows is kept. -/
lemma overflows_eq_nil {weights : List Double} (left : ∀ weight ∈ weights, isKept (weight.convert .single) = false) :
    c.overflows weights = [] := by
  have kept (x : Single) (infinite : x.isInfinite = true) : isKept x = true := by
    cases x with
    | nan => cases infinite
    | signed negative code =>
      have last : code.val = Format.single.infinity := by simpa [Binary.isInfinite] using infinite
      have positive : code.val ≠ 0 := by rw [last]; decide
      simp [isKept, Binary.isZero, Binary.isNan, positive]
  unfold overflows
  rw [List.map_eq_nil_iff, List.filter_eq_nil_iff]
  intro weight mem warned
  simp only [Bool.and_eq_true] at warned
  have none := left weight mem
  rw [kept _ warned.2] at none
  cases none

/-- A namespace that closes as it was opened leaves no trace. -/
lemma endNamespace_beginNamespace (current : c.current = none) (closed : ∀ b ∈ c.builder, b.current = none)
    (space : Namespace) : (c.beginNamespace space).endNamespace = c := by
  unfold beginNamespace endNamespace
  cases c
  cases current
  rename_i builder _ _ _ _ _
  cases builder with
  | none => simp
  | some b =>
    cases b
    cases closed _ rfl
    simp [Builder.openNamespace, Builder.closeNamespace]

end Context

namespace Block

variable {b : Block} {s : Step} {c : Context}

/-- A dense block has one step and makes no room of its own. -/
lemma emit_singleton (dense : b.dense = true) (one : b.steps = [s]) (root : Record) (c : Context) :
    b.emit root c = (s.emit b.runtime root (c.beginNamespace b.runtime)).endNamespace := by
  have room : b.room = 0 := by rw [Block.room, if_pos dense]
  unfold emit
  simp only [if_pos room, one]
  rfl

/-- A dense block whose step writes nothing leaves no namespace. -/
lemma emit_of_idle (dense : b.dense = true) (one : b.steps = [s]) {root : Record} (current : c.current = none)
    (closed : ∀ builder ∈ c.builder, builder.current = none)
    (idle : s.emit b.runtime root (c.beginNamespace b.runtime) = c.beginNamespace b.runtime) : b.emit root c = c := by
  rw [emit_singleton dense one, idle, Context.endNamespace_beginNamespace current closed]

end Block

namespace Handle

/-- The built-in marshaller of a dense vector makes room for its entries and writes them. -/
lemma write_dense {type : ValueType} {h : Handle} (dense : type.form.shape = .dense) (found : builtIn? type = some h)
    (space : Namespace) (feature : Feature) {site : Site} (stored : site.type = type) (items : List Scalar) :
    h.write space feature (.leaf site (.items items)) = writeDense feature (.leaf site (.items items)) := by
  unfold builtIn? at found
  simp only [dense] at found
  cases found
  exact if_pos stored

/-- Room that is made is nothing that is written. -/
lemma run_writeDense (feature : Feature) (site : Site) (items : List Scalar) (c : Context) :
    c.run (writeDense feature (.leaf site (.items items))) =
      c.addDense feature.addAnchor (items.map Scalar.weight) := by
  have room (count : Nat) : c.preallocate count = c := by
    unfold Context.preallocate Builder.preallocate
    rw [Option.map_id']
  rw [writeDense, Context.run, room]
  rfl

end Handle

/-- Where its value is a vector, a dense feature adds the entries to the open namespace. -/
lemma Step.emit_vector {s : Step} (dense : s.descriptor.shape = .dense)
    (builtIn : Handle.builtIn? s.descriptor.type = some s.handle) {root : Record} {site : Site} {items : List Scalar}
    (present : s.descriptor.value? root = some (.leaf site (.items items))) (stored : site.type = s.descriptor.type)
    (space : Namespace) {c : Context} {opened : OpenNamespace} (current : c.current = some opened) :
    s.emit space root c =
      c.withEntries opened.hash (DenseEntry.ofVector s.descriptor.addAnchor (items.map Scalar.weight))
        (c.overflows (items.map Scalar.weight)) := by
  rw [emit, present]
  simp only
  rw [Handle.write_dense dense builtIn _ _ stored, Handle.run_writeDense]
  exact Context.addDense_eq current s.descriptor.addAnchor (items.map Scalar.weight)

namespace LinePlan

variable {cat : Catalogue} {r : Registry} {id : Nat} {p : LinePlan}

/-- A dense feature has a dense block to itself. -/
lemma compile_alone (compiled : LinePlan.compile cat r id = .ok p) {b : Block} (mem : b ∈ p.blocks) {s : Step}
    (of : s ∈ b.steps) (dense : s.descriptor.shape = .dense) : b.dense = true ∧ b.steps = [s] := by
  have separates := compile_separates compiled
  have marked : b.dense = true := by
    rw [← (separates.placed b mem s of).2, Descriptor.isDense, dense]
    rfl
  obtain ⟨only, steps⟩ := List.length_eq_one_iff.1 (separates.alone b mem marked)
  rw [steps] at of ⊢
  rw [List.mem_singleton.1 of]
  exact ⟨marked, rfl⟩

/-- A dense feature that is written by the built-in marshaller has its namespace to itself. Where its value is missing
it writes nothing, and no namespace. Where its value is a vector, it adds to whichever namespace is open the entries of
the vector, in both forms, and nothing else. The words of the entries are read as their offsets and weights. The offsets
are exact, and by the usual slots no two entries meet, the anchor included. If all the weights are left out and there is
no anchor, no namespace is left. -/
theorem writes_dense (compiled : LinePlan.compile cat r id = .ok p) {b : Block} (mem : b ∈ p.blocks) {s : Step}
    (of : s ∈ b.steps) (dense : s.descriptor.shape = .dense)
    (builtIn : Handle.builtIn? s.descriptor.type = some s.handle) (root : Record) :
    b.steps = [s] ∧
      (s.descriptor.value? root = none →
        ∀ c, s.emit b.runtime root c = c ∧
          (c.current = none → (∀ builder ∈ c.builder, builder.current = none) → b.emit root c = c)) ∧
      ∀ site items, s.descriptor.value? root = some (.leaf site (.items items)) → site.type = s.descriptor.type →
        let weights := items.map Scalar.weight
        let entries := DenseEntry.ofVector s.descriptor.addAnchor weights
        (∀ c opened, c.current = some opened →
          s.emit b.runtime root c = c.withEntries opened.hash entries (c.overflows weights)) ∧
        (∀ e ∈ entries, ∀ format : FloatFormat,
          Token.read (e.word format).toList = .ok ⟨(toString e.index.toNat).toList, e.weight⟩) ∧
        (items.length < 2 ^ 64 →
          (∀ e ∈ entries, e.index.toNat = e.offset) ∧
            ∀ engine : Engine, (∀ space offset, engine.hashIndex space offset = space + offset) →
              ∀ space, (entries.map fun e => engine.hashIndex space e.index).Nodup) ∧
        (s.descriptor.addAnchor = false → (∀ w ∈ weights, Context.isKept (w.convert .single) = false) →
          ∀ c, c.current = none → (∀ builder ∈ c.builder, builder.current = none) → b.emit root c = c) := by
  obtain ⟨marked, one⟩ := compile_alone compiled mem of dense
  refine ⟨one, fun missing c => ?_, fun site items present stored => ?_⟩
  · have nothing (c : Context) : s.emit b.runtime root c = c := by rw [Step.emit, missing]
    exact ⟨nothing c, fun current closed => Block.emit_of_idle marked one current closed (nothing _)⟩
  · intro weights entries
    have written : ∀ c opened, c.current = some opened →
        s.emit b.runtime root c = c.withEntries opened.hash entries (c.overflows weights) :=
      fun _ _ current => Step.emit_vector dense builtIn present stored b.runtime current
    refine ⟨written, fun e mem format => DenseEntry.read_word format mem, fun short => ?_,
      fun bare left c current closed => Block.emit_of_idle marked one current closed ?_⟩
    · have short : weights.length < 2 ^ 64 := by rwa [List.length_map]
      refine ⟨fun e mem => DenseEntry.toNat_index short mem, fun engine usual space => ?_⟩
      simp only [usual]
      exact DenseEntry.nodup_slots short space
    · have none : entries = [] := by
        change DenseEntry.ofVector s.descriptor.addAnchor weights = []
        rw [bare, DenseEntry.ofVector_eq_nil left]
      rw [written _ _ rfl, none, Context.overflows_eq_nil left, Context.withEntries_nil, List.append_nil]

/-- The stock of a shop, with an anchor and without its second element, which is zero. -/
theorem writes_dense_shop :
    let stock := Shop.step Shop.stock "DenseMarshaller" Handle.writeDense
    let entries : List DenseEntry := [⟨0, .one _⟩, ⟨1, .ofInt _ 5⟩, ⟨3, .ofInt _ 7⟩]
    (∀ c opened, c.current = some opened →
      stock.emit (.make (some "dense") none) (Shop.record none) c =
        c.withEntries opened.hash entries (c.overflows [.ofInt _ 5, .ofInt _ 0, .ofInt _ 7])) ∧
      entries.map (DenseEntry.word .compact) = ["0:1", "1:5", "3:7"] ∧
      ∀ space, (entries.map fun e => (Engine.reference 0).hashIndex space e.index).Nodup := by
  intro stock entries
  have compiled : LinePlan.compile Shop.catalogue .empty 0 = .ok (Shop.plan .native).line :=
    Except.bind_eq_ok.2 ⟨_, Shop.extract_eq, Except.bind_eq_ok.2 ⟨_, Shop.groupFeatures_eq, rfl⟩⟩
  have block : ⟨.make (some "dense") none, true, [stock]⟩ ∈ (Shop.plan .native).line.blocks :=
    .tail _ (.tail _ (.head _))
  obtain ⟨-, -, present⟩ := writes_dense compiled block (.head _) rfl rfl (Shop.record none)
  obtain ⟨written, -, exact, -⟩ := present ⟨2, Shop.numbers⟩ _ rfl rfl
  have listed : DenseEntry.ofVector true ([.integer 5, .integer 0, .integer 7].map Scalar.weight) = entries := by
    decide +kernel
  rw [← listed]
  exact ⟨written, by decide +kernel, (exact (by decide)).2 (.reference 0) fun _ _ => rfl⟩

end LinePlan

end FeatureLines
