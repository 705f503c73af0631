import FeatureLines.Proofs.Marshal.BuiltIn
import FeatureLines.Marshal.Context

/-!
# Kept texts

A kept text is given for every value that is stored at its site from then on, so it is right for as long as a site stands
for one text. Two contexts are `Context.Twins` when they agree in all that they give out, and the texts that either of them
keeps are those that their sites stand for. Twins stay so (`Twins.run`) under writings that are `Writing.Twin`: these do the
same, and may differ in which texts they ask to be kept. Nothing is asked of a text that is not kept: whether one is, is told
by the feature and by whether the context keeps those of all features. What a built-in marshaller writes for a feature that
keeps texts and for the same one that keeps none are twins (`Handle.twin_builtIn`, `Handle.twin_enumerizing`).
-/

namespace FeatureLines

open Number Text

/-- Two writings do the same in two contexts, which keep the texts of all features or not. Every text that is kept in either
of them is the one that its site stands for. -/
inductive Writing.Twin (texts : Site → String) (all all' : Bool) : Writing → Writing → Prop
  | done : Twin texts all all' .done .done
  | indicator (name : String) {next next' : Writing} (rest : Twin texts all all' next next') :
    Twin texts all all' (.indicator name next) (.indicator name next')
  | weighted (name : String) (weight : Double) {next next' : Writing} (rest : Twin texts all all' next next') :
    Twin texts all all' (.weighted name weight next) (.weighted name weight next')
  | dense (anchor : Bool) (weights : List Double) {next next' : Writing} (rest : Twin texts all all' next next') :
    Twin texts all all' (.dense anchor weights next) (.dense anchor weights next')
  | preallocate (additional : Nat) {next next' : Writing} (rest : Twin texts all all' next next') :
    Twin texts all all' (.preallocate additional next) (.preallocate additional next')
  | render (rendering : Rendering) {next next' : String → Writing}
    (rest : ∀ made, Twin texts all all' (next made) (next' made)) :
    Twin texts all all' (.render rendering next) (.render rendering next')
  | remember (feature feature' : Feature) (site : Site) (rendering : Rendering) {next next' : String → Writing}
    (told : (all || feature.dictify) = true → rendering.text = texts site)
    (told' : (all' || feature'.dictify) = true → rendering.text = texts site)
    (rest : Twin texts all all' (next rendering.text) (next' rendering.text)) :
    Twin texts all all' (.remember feature site rendering next) (.remember feature' site rendering next')
  | look {next next' : View → Writing} (rest : ∀ view, Twin texts all all' (next view) (next' view)) :
    Twin texts all all' (.look next) (.look next')
  | report (event : Event) {next next' : Writing} (rest : Twin texts all all' next next') :
    Twin texts all all' (.report event next) (.report event next')

namespace Context

/-- What a context gives out: neither the texts that it keeps nor what happened besides. -/
def given (c : Context) : Context := { c with memo := [], dictifyAll := false, events := [] }

/-- The texts that a context keeps are those that their sites stand for. -/
def Keeps (texts : Site → String) (c : Context) : Prop := ∀ site text, c.memo.lookup site = some text → text = texts site

/-- Two contexts, which keep the texts of all features or not, give out the same and keep no text that is not the one of its
site. -/
structure Twins (texts : Site → String) (all all' : Bool) (c d : Context) : Prop where
  given : c.given = d.given
  left : c.Keeps texts
  right : d.Keeps texts
  leftAll : c.dictifyAll = all
  rightAll : d.dictifyAll = all'

/-- An operation that kept texts play no part in. -/
structure IsPlain (f : Context → Context) : Prop where
  given : ∀ c, (f c).given = (f c.given).given
  memo : ∀ c, (f c).memo = c.memo
  dictifyAll : ∀ c, (f c).dictifyAll = c.dictifyAll

namespace IsPlain

/-- Doing nothing is plain. -/
lemma id : IsPlain fun c => c := ⟨fun _ => rfl, fun _ => rfl, fun _ => rfl⟩

/-- One plain operation after another is plain. -/
lemma comp {f g : Context → Context} (first : IsPlain f) (second : IsPlain g) : IsPlain fun c => g (f c) where
  given c := by rw [second.given (f c), first.given c, ← second.given]
  memo c := by rw [second.memo, first.memo]
  dictifyAll c := by rw [second.dictifyAll, first.dictifyAll]

/-- An operation may be chosen by anything that a context gives out. -/
lemma choose {β : Type} (see : Context → β) (same : ∀ c, see c = see c.given) {f : β → Context → Context}
    (each : ∀ seen, IsPlain (f seen)) : IsPlain fun c => f (see c) c where
  given c := by rw [(each (see c)).given c, same c]
  memo c := (each (see c)).memo c
  dictifyAll c := (each (see c)).dictifyAll c

/-- An operation may be chosen by whether a context gives something out, and by what it is. -/
lemma of_option {β : Type} {f e : Context → Context} {g : β → Context → Context} (see : Context → Option β)
    (same : ∀ c, see c = see c.given) (absent : ∀ c, see c = none → f c = e c)
    (present : ∀ c seen, see c = some seen → f c = g seen c) (idle : IsPlain e) (each : ∀ seen, IsPlain (g seen)) :
    IsPlain f := by
  constructor
  · intro c
    have found := same c
    cases seen : see c with
    | none => rw [absent c seen, absent c.given (by rw [← found, seen]), idle.given c]
    | some b => rw [present c b seen, present c.given b (by rw [← found, seen]), (each b).given c]
  · intro c
    cases seen : see c with
    | none => rw [absent c seen, idle.memo c]
    | some b => rw [present c b seen, (each b).memo c]
  · intro c
    cases seen : see c with
    | none => rw [absent c seen, idle.dictifyAll c]
    | some b => rw [present c b seen, (each b).dictifyAll c]

/-- The kept texts play no part in what happens besides. -/
lemma record (event : Event) : IsPlain (Context.record · event) := ⟨fun _ => rfl, fun _ => rfl, fun _ => rfl⟩

/-- The kept texts play no part in making room for features. -/
lemma preallocate (additional : Nat) : IsPlain (Context.preallocate · additional) := ⟨fun _ => rfl, fun _ => rfl, fun _ => rfl⟩

/-- The kept texts play no part in adding a feature to the example. -/
lemma addHashed (hash : UInt64) (weight : Single) : IsPlain (Context.addHashed · hash weight) :=
  ⟨fun _ => rfl, fun _ => rfl, fun _ => rfl⟩

/-- Whether a token is put to the line is told by whether there is a text form, which is given out. -/
lemma addToken (token : String) : IsPlain (Context.addToken · token) := by
  apply choose Context.text (fun _ => rfl) (f := fun text c => if text then { c with line := c.line ++ " " ++ token } else c)
  intro text
  cases text <;> exact ⟨fun _ => rfl, fun _ => rfl, fun _ => rfl⟩

/-- Whether a weight is warned of is told by the setting for warnings, which is given out. -/
lemma narrow (name : String) (weight : Double) : IsPlain fun c => (c.narrow name weight).1 := by
  apply choose Context.precisionWarnings (fun _ => rfl) (f := fun warnings c =>
    if warnings && weight.isFinite && (weight.convert .single).isInfinite then c.record (.overflow name weight) else c)
  intro warnings
  split
  · exact record _
  · exact id

/-- A feature by its name alone is hashed in the open namespace, which is given out. -/
lemma addIndicator (name : String) : IsPlain (Context.addIndicator · name) := by
  apply of_option Context.current (fun _ => rfl)
    (g := fun space c => (c.addHashed (c.engine.hashFeature name space.hash) (.one _)).addToken name)
  · intro c closed
    rw [Context.addIndicator, closed]
  · intro c space opened
    rw [Context.addIndicator, opened]
  · exact id
  · intro space
    apply choose Context.engine (fun _ => rfl) (f := fun engine c =>
      (c.addHashed (engine.hashFeature name space.hash) (.one _)).addToken name)
    exact fun _ => (addHashed _ _).comp (addToken _)

/-- A feature with a weight is written in the format that is given out. -/
lemma addWeighted (name : String) (weight : Double) : IsPlain (Context.addWeighted · name weight) := by
  have kept (hash : UInt64) (weight : Single) : IsPlain fun c =>
      (c.addHashed (c.engine.hashFeature name hash) weight).addToken (name ++ ":" ++ c.floatFormat.text weight) := by
    apply choose (fun c => (c.engine, c.floatFormat)) (fun _ => rfl) (f := fun seen c =>
      (c.addHashed (seen.1.hashFeature name hash) weight).addToken (name ++ ":" ++ seen.2.text weight))
    exact fun _ => (addHashed _ _).comp (addToken _)
  apply of_option Context.current (fun _ => rfl) (g := fun space c =>
    if isKept (weight.convert .single) then
      ((c.narrow name weight).1.addHashed ((c.narrow name weight).1.engine.hashFeature name space.hash)
        (weight.convert .single)).addToken (name ++ ":" ++ (c.narrow name weight).1.floatFormat.text (weight.convert .single))
    else (c.narrow name weight).1)
  · intro c closed
    rw [Context.addWeighted, closed]
  · intro c space opened
    rw [Context.addWeighted, opened]
    rfl
  · exact id
  · intro space
    split
    · exact (narrow name weight).comp (kept space.hash _)
    · exact narrow name weight

/-- An element of a dense vector is hashed and written by what is given out as well. -/
lemma addIndex (space index : UInt64) (weight : Single) : IsPlain (Context.addIndex · space index weight) := by
  apply choose (fun c => (c.engine, c.floatFormat)) (fun _ => rfl) (f := fun seen c =>
    (c.addHashed (seen.1.hashIndex space index) weight).addToken (toString index.toNat ++ ":" ++ seen.2.text weight))
  exact fun _ => (addHashed _ _).comp (addToken _)

/-- The elements of a dense vector are plain one by one. -/
lemma addElements (space index : UInt64) (weights : List Double) :
    IsPlain (Context.addElements · space index weights) := by
  induction weights generalizing index with
  | nil => exact id
  | cons weight weights ih =>
    have narrowed := narrow "dense" weight
    by_cases kept : isKept (weight.convert .single) = true
    · have step := (narrowed.comp (addIndex space index (weight.convert .single))).comp (ih (index + 1))
      simpa [Context.addElements, Context.narrow, kept] using step
    · have step := narrowed.comp (ih (index + 1))
      simpa [Context.addElements, Context.narrow, kept] using step

/-- A dense vector is its anchor, if it has one, and its elements. -/
lemma addDense (anchor : Bool) (weights : List Double) : IsPlain (Context.addDense · anchor weights) := by
  apply of_option Context.current (fun _ => rfl) (g := fun space c =>
    if anchor then (c.addIndex space.hash 0 (.one _)).addElements space.hash 1 weights
    else c.addElements space.hash 0 weights)
  · intro c closed
    rw [Context.addDense, closed]
  · intro c space opened
    rw [Context.addDense, opened]
  · exact id
  · intro space
    split
    · exact (addIndex space.hash 0 (.one _)).comp (addElements space.hash 1 weights)
    · exact addElements space.hash 0 weights

/-- Making a text is not looking for a kept one. -/
lemma render (rendering : Rendering) : IsPlain fun c => (c.render rendering).1 := by
  unfold Context.render
  cases rendering.counted with
  | none => exact id
  | some serial => exact record _

/-- Opening a namespace is plain. -/
lemma beginNamespace (space : Namespace) : IsPlain (Context.beginNamespace · space) := ⟨fun _ => rfl, fun _ => rfl, fun _ => rfl⟩

/-- Closing a namespace is plain, whether or not it has features. -/
lemma endNamespace : IsPlain Context.endNamespace := by
  apply of_option Context.current (fun _ => rfl) (g := fun space c =>
    { c with
      current := none
      builder := (c.builder.map Builder.closeNamespace).map (·.1)
      line := if ((c.builder.map Builder.closeNamespace).map (·.2)).getD 0 = 0 then space.before else c.line })
  · intro c closed
    rw [Context.endNamespace, closed]
  · intro c space opened
    rw [Context.endNamespace, opened]
  · exact id
  · exact fun _ => ⟨fun _ => rfl, fun _ => rfl, fun _ => rfl⟩

/-- A line is ended by what is built of it. -/
lemma endLine : IsPlain Context.endLine := by
  have finished (builder : Builder) : IsPlain fun c =>
      { c with
        builder := none
        natives := c.natives ++ [builder.finish]
        texts := if c.text then c.texts ++ [c.line] else c.texts
        line := if c.text then "" else c.line } := ⟨fun _ => rfl, fun _ => rfl, fun _ => rfl⟩
  have same (c : Context) : c.endNamespace.builder = c.given.endNamespace.builder := by
    show c.endNamespace.given.builder = c.given.endNamespace.given.builder
    rw [endNamespace.given]
  apply of_option (fun c => c.endNamespace.builder) same (e := Context.endNamespace) (g := fun builder c =>
    { c.endNamespace with
      builder := none
      natives := c.endNamespace.natives ++ [builder.finish]
      texts := if c.endNamespace.text then c.endNamespace.texts ++ [c.endNamespace.line] else c.endNamespace.texts
      line := if c.endNamespace.text then "" else c.endNamespace.line })
  · intro c unstarted
    simp only [Context.endLine, unstarted]
  · intro c builder started
    simp only [Context.endLine, started]
  · exact endNamespace
  · exact fun builder => endNamespace.comp (finished builder)

/-- A line is started after the one before has been ended. -/
lemma startLine : IsPlain Context.startLine := by
  have started : IsPlain fun c => { c with builder := some (.ofExample c.engine.newExample), line := "" } :=
    ⟨fun _ => rfl, fun _ => rfl, fun _ => rfl⟩
  have ended : IsPlain fun c => if c.builder.isSome then c.endLine else c := by
    apply choose (fun c => c.builder.isSome) (fun _ => rfl) (f := fun started c => if started then c.endLine else c)
    intro started
    cases started with
    | false => exact id
    | true => exact endLine
  exact ended.comp started

end IsPlain

variable {texts : Site → String} {all all' : Bool} {c d : Context}

/-- The text that is made of a value is given for it, as long as it is the one of its site if it is kept. -/
lemma remember_spec (keeps : c.Keeps texts) (feature : Feature) {site : Site} {rendering : Rendering}
    (told : (c.dictifyAll || feature.dictify) = true → rendering.text = texts site) :
    (c.remember feature site rendering).2 = rendering.text ∧ (c.remember feature site rendering).1.Keeps texts ∧
      (c.remember feature site rendering).1.given = c.given ∧
      (c.remember feature site rendering).1.dictifyAll = c.dictifyAll := by
  have rendered : (c.render rendering).1.given = c.given := by
    unfold render
    cases rendering.counted <;> rfl
  have plain := IsPlain.render rendering
  unfold remember
  split
  · rename_i kept
    cases found : c.memo.lookup site with
    | some text => exact ⟨(keeps site text found).trans (told kept).symm, keeps, rfl, rfl⟩
    | none =>
      refine ⟨rfl, fun other text kept' => ?_, rendered, plain.dictifyAll c⟩
      -- the text made just now is in front of those that were kept before
      simp only [plain.memo c, List.lookup_cons] at kept'
      split at kept'
      · rename_i same
        rw [eq_of_beq same, ← Option.some.inj kept']
        exact told kept
      · exact keeps other text kept'
  · exact ⟨rfl, fun other text kept => keeps other text (plain.memo c ▸ kept), rendered, plain.dictifyAll c⟩

namespace Twins

/-- A plain operation keeps contexts twins. -/
lemma step {f : Context → Context} (plain : IsPlain f) (h : Twins texts all all' c d) :
    Twins texts all all' (f c) (f d) where
  given := by rw [plain.given c, plain.given d, h.given]
  left site text kept := h.left site text (plain.memo c ▸ kept)
  right site text kept := h.right site text (plain.memo d ▸ kept)
  leftAll := (plain.dictifyAll c).trans h.leftAll
  rightAll := (plain.dictifyAll d).trans h.rightAll

/-- What twins give out can be seen in either. -/
lemma see {β : Type} (see : Context → β) (same : ∀ c, see c = see c.given) (h : Twins texts all all' c d) :
    see c = see d := by
  rw [same c, same d, h.given]

/-- Twin writings keep contexts twins. -/
theorem run {w w' : Writing} (twin : Writing.Twin texts all all' w w') (h : Twins texts all all' c d) :
    Twins texts all all' (c.run w) (d.run w') := by
  induction twin generalizing c d with
  | done => exact h
  | indicator name _ ih => exact ih (h.step (.addIndicator name))
  | weighted name weight _ ih => exact ih (h.step (.addWeighted name weight))
  | dense anchor weights _ ih => exact ih (h.step (.addDense anchor weights))
  | preallocate additional _ ih => exact ih (h.step (.preallocate additional))
  | render rendering _ ih => exact ih rendering.text (h.step (.render rendering))
  | remember feature feature' site rendering told told' _ ih =>
    obtain ⟨left, keeps, given, all⟩ := remember_spec h.left feature (h.leftAll ▸ told)
    obtain ⟨right, keeps', given', all'⟩ := remember_spec h.right feature' (h.rightAll ▸ told')
    rw [Context.run, Context.run, left, right]
    exact ih ⟨by rw [given, given', h.given], keeps, keeps', all.trans h.leftAll, all'.trans h.rightAll⟩
  | look _ ih =>
    -- a view shows nothing that twins may differ in
    have seen : c.view = d.view := h.see Context.view fun _ => rfl
    rw [Context.run, Context.run, ← seen]
    exact ih c.view h
  | report event _ ih => exact ih (h.step (.record event))

/-- A label is accepted in both or refused in both for one reason. -/
lemma writeLabel (h : Twins texts all all' c d) (label : String) :
    (∃ c' d', c.writeLabel label = .ok c' ∧ d.writeLabel label = .ok d' ∧ Twins texts all all' c' d') ∨
      ∃ failure, c.writeLabel label = .error failure ∧ d.writeLabel label = .error failure := by
  have engine : c.engine = d.engine := h.see Context.engine fun _ => rfl
  unfold Context.writeLabel
  rw [← engine]
  cases c.engine.readLabel label.toList with
  | error failure => exact .inr ⟨failure, rfl, rfl⟩
  | ok parsed =>
    have plain : IsPlain fun c =>
        { c with
          builder := c.builder.map (·.setLabel parsed)
          line := if c.text then c.line ++ String.ofList (trim label.toList) else c.line } :=
      ⟨fun _ => rfl, fun _ => rfl, fun _ => rfl⟩
    have labelled := h.step plain
    rw [← engine] at labelled
    exact .inl ⟨_, _, rfl, rfl, labelled⟩

/-- Twins give out the same output. -/
lemma finish (h : Twins texts all all' c d) : c.finish = d.finish :=
  (h.step .endLine).see
    (fun c => (⟨c.natives, if c.text then some ("\n".intercalate c.texts) else none, c.multiLine⟩ : Output)) fun _ => rfl

end Twins

end Context

/-! ## Built-in marshallers -/

variable {texts : Site → String} {all all' : Bool} {cell : Cell} {type : ValueType} {h : Handle}

namespace Writing.Twin

/-- Two twins after two others are twins. -/
lemma followedBy {w w' after after' : Writing} (first : w.Twin texts all all' w')
    (second : after.Twin texts all all' after') : (w.followedBy after).Twin texts all all' (w'.followedBy after') := by
  induction first with
  | done => exact second
  | indicator name _ ih => exact .indicator name ih
  | weighted name weight _ ih => exact .weighted name weight ih
  | dense anchor weights _ ih => exact .dense anchor weights ih
  | preallocate additional _ ih => exact .preallocate additional ih
  | render rendering _ ih => exact .render rendering ih
  | remember feature feature' site rendering told told' _ ih => exact .remember feature feature' site rendering told told' ih
  | look _ ih => exact .look ih
  | report event _ ih => exact .report event ih

/-- A writing for each of some items has a twin if that of every item has. -/
lemma forEach {α : Type} {write : α → Writing} (each : ∀ item, (write item).Twin texts all all' (write item))
    (items : List α) : (Writing.forEach write items).Twin texts all all' (Writing.forEach write items) := by
  induction items with
  | nil => exact .done
  | cons item items ih => exact (each item).followedBy ih

end Writing.Twin

/-- If the values of a type have texts, the text of the value is the one that its site stands for. -/
def Cell.Tells (texts : Site → String) (type : ValueType) (cell : Cell) : Prop :=
  Handle.hasRendering type = true → (Handle.renderingAs type cell).text = texts cell.site

namespace Handle

/-- If a text is kept in either of two contexts, for all features or for this one, it is the one that the site stands for. -/
def Told (texts : Site → String) (all all' : Bool) (type : ValueType) (feature : Feature) (cell : Cell) : Prop :=
  (all || all' || feature.dictify) = true → (renderingAs type cell).text = texts cell.site

/-- The text is that of its site if the first context keeps it. -/
lemma Told.left {feature : Feature} (told : Told texts all all' type feature cell) :
    (all || feature.dictify) = true → (renderingAs type cell).text = texts cell.site := fun kept =>
  told (by rw [Bool.or_right_comm, kept, Bool.true_or])

/-- The text is that of its site if the second context keeps it, where the feature itself asks for nothing. -/
lemma Told.right {feature : Feature} (told : Told texts all all' type feature cell) :
    (all' || false) = true → (renderingAs type cell).text = texts cell.site := fun kept => by
  rw [Bool.or_false] at kept
  exact told (by rw [kept, Bool.or_true, Bool.true_or])

/-- Numbers are written without texts. -/
lemma twin_numeric (feature : Feature) (cell : Cell) :
    (writeNumeric feature cell).Twin texts all all' (writeNumeric { feature with dictify := false } cell) := by
  unfold writeNumeric
  split
  · split
    · exact .indicator _ .done
    · exact .done
    · exact .weighted _ _ .done
  · exact .done

/-- Variants are written by their tokens, without texts. -/
lemma twin_variant (feature : Feature) (cell : Cell) :
    (writeVariant feature cell).Twin texts all all' (writeVariant { feature with dictify := false } cell) := by
  unfold writeVariant
  split
  · simp only
    split
    · exact .indicator _ .done
    · exact .done
  · exact .done

/-- Dense vectors are written without texts. -/
lemma twin_dense (feature : Feature) (cell : Cell) :
    (writeDense feature cell).Twin texts all all' (writeDense { feature with dictify := false } cell) := by
  unfold writeDense
  split
  · exact .preallocate _ (.dense _ _ .done)
  · exact .done

/-- The texts of a dictionary's keys are made anew each time. -/
lemma twin_dictionary (cell : Cell) : (writeDictionary cell).Twin texts all all' (writeDictionary cell) := by
  unfold writeDictionary
  split
  · exact .preallocate _ (.forEach (fun entry => .render _ fun key => .weighted _ _ .done) _)
  · exact .done

/-- The texts of a bag's items are made anew each time. -/
lemma twin_bag (cell : Cell) : (writeBag cell).Twin texts all all' (writeBag cell) := by
  unfold writeBag
  split
  · refine .preallocate _ (.forEach (fun item => .render _ fun text => ?_) _)
    split
    · exact .done
    · exact .indicator _ .done
  · exact .done

/-- A displayed value is written by its text, kept or not. -/
lemma twin_display {feature : Feature} (told : Told texts all all' type feature cell) (own : cell.site.type = type) :
    (writeDisplay feature cell).Twin texts all all' (writeDisplay { feature with dictify := false } cell) := by
  have left := told.left
  have right := told.right
  unfold renderingAs at left right
  rw [if_pos own] at left right
  unfold writeDisplay
  split
  · exact .remember _ _ _ _ left right (.forEach (fun token => .indicator token .done) _)
  · exact .done

/-- A handle that is bound to another type reports the path of the feature, and both have the same. -/
lemma twin_write {feature feature' : Feature} {space : Namespace} (path : feature'.path = feature.path)
    (marshal : (∀ type, h.bound = some type → cell.site.type = type) →
      (h.marshal space feature cell).Twin texts all all' (h.marshal space feature' cell)) :
    (h.write space feature cell).Twin texts all all' (h.write space feature' cell) := by
  unfold write
  split
  · rename_i unbound
    exact marshal fun type bound => by cases unbound.symm.trans bound
  · rename_i type bound
    split
    · rename_i own
      refine marshal fun type' bound' => ?_
      cases bound.symm.trans bound'
      exact own
    · rw [path]
      exact .report _ .done

/-- What a built-in marshaller writes is the same for a feature for which no texts are kept. Only displayed values have
any. -/
theorem twin_builtIn (found : builtIn? type = some h) {feature : Feature}
    (told : type.form.shape = .display → Told texts all all' type feature cell) (space : Namespace) :
    (h.write space feature cell).Twin texts all all' (h.write space { feature with dictify := false } cell) := by
  refine twin_write rfl fun own => ?_
  unfold builtIn? at found
  simp only at found
  split at found
  · cases found; exact twin_numeric feature cell
  · cases found; exact twin_variant feature cell
  · cases found; exact twin_dense feature cell
  · cases found; exact twin_dictionary cell
  · cases found; exact twin_bag cell
  · rename_i shape
    cases found
    exact twin_display (told shape) (own type rfl)
  · cases found
  · cases found

/-- What an enumerizing marshaller writes is the same for a feature for which no texts are kept. -/
theorem twin_enumerizing (found : enumerizing? type = some h) {feature : Feature}
    (told : Told texts all all' type feature cell) (space : Namespace) :
    (h.write space feature cell).Twin texts all all' (h.write space { feature with dictify := false } cell) := by
  refine twin_write rfl fun _ => ?_
  unfold enumerizing? at found
  split at found
  · cases found
    exact .remember _ _ _ _ told.left told.right (.indicator _ .done)
  · cases found

end Handle

end FeatureLines
