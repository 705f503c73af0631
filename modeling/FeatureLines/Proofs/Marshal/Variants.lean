import FeatureLines.Proofs.Marshal.Memo
import FeatureLines.Schema.Descriptor

/-!
# Tokens of variants

A value of an enumeration is one feature, on either of two ways: the built-in marshaller looks up the token that was made
beforehand for the variant, and the enumerizing one renders the variant's name and makes the token from it. Both give the
name of the feature and the escaped name of the variant (`Descriptor.exists_writesVariants`), whether the name is rendered or
taken from the kept texts.
-/

namespace FeatureLines

open Number Text

namespace Context

/-- A namespace is open in the example, so that features go somewhere. -/
structure IsOpen (c : Context) (space : OpenNamespace) (b : Builder) (n : HashedNamespace) : Prop where
  current : c.current = some space
  builder : c.builder = some b
  namespaces : b.current = some n

/-- Exactly one feature of weight one was written for a token: it is the last of the open namespace, the token is the last
on the line, and nothing else is changed but the kept texts. -/
def Gains (token : String) (c c' : Context) : Prop :=
  ∀ space b n, c.IsOpen space b n → ∃ memo,
    c' = { c with
      memo
      builder := some { b with
        current := some { n with features := n.features ++ [⟨c.engine.hashFeature token space.hash, .one _⟩] } }
      line := if c.text then c.line ++ " " ++ token else c.line }

/-- The text that is kept for a site, if there is one, is the one that the site stands for. -/
def KeepsAt (site : Site) (text : String) (c : Context) : Prop := ∀ kept, c.memo.lookup site = some kept → kept = text

lemma gains_addIndicator (c : Context) (memo : List (Site × String)) (token : String) :
    c.Gains token (({ c with memo } : Context).addIndicator token) := by
  rintro space b n ⟨current, builder, namespaces⟩
  refine ⟨memo, ?_⟩
  cases text : c.text <;> simp [addIndicator, current, addToken, addHashed, builder, Builder.addFeature, namespaces]

/-- Kept texts play no part in a feature that is written. -/
lemma addIndicator_memo (c : Context) (memo : List (Site × String)) (token : String) :
    ({ c with memo } : Context).addIndicator token = { c.addIndicator token with memo } := by
  obtain ⟨_, text, _, _, _, _, _, _, current, _, _, _, _⟩ := c
  cases current <;> cases text <;> rfl

/-- The text of a variant, which is made without a trace, or taken from the kept ones. -/
lemma exists_remember_eq {c : Context} {feature : Feature} {site : Site} {text : String} (keeps : c.KeepsAt site text) :
    ∃ memo, c.remember feature site ⟨text, none⟩ = ({ c with memo }, text) := by
  unfold remember
  split
  · cases found : c.memo.lookup site with
    | some kept => exact ⟨c.memo, by rw [keeps kept found]⟩
    | none => exact ⟨(site, text) :: c.memo, rfl⟩
  · exact ⟨c.memo, rfl⟩

end Context

namespace Descriptor

/-- The token of a variant: the name of the feature and the escaped name of the variant. -/
def variantToken (d : Descriptor) (name : String) : String := d.name ++ escape name

variable {d : Descriptor} {names : List String} {h : Handle} {site : Site} {i : Nat} {name : String}

/-- The built-in marshaller writes the token that was made for the variant. -/
lemma write_builtIn (chosen : Handle.builtIn? d.type = some h) (form : d.type.form = .enumeration names)
    (own : site.type = d.type) (found : names[i]? = some name) (space : Namespace) :
    h.write space d.feature (.leaf site (.variant i)) = .indicator (d.variantToken name) .done := by
  have shape : d.type.form.shape = .enumeration := by rw [form]; rfl
  have token : d.feature.variantTokens[i]? = some (d.variantToken name) := by
    simp [feature, form, Form.variants, variantToken, found]
  simp only [Handle.builtIn?, shape] at chosen
  cases chosen
  simp only [Handle.write, Cell.site, own, if_true, Handle.writeVariant, token]

/-- The enumerizing marshaller makes the token from the text of the variant. -/
lemma write_enumerizing (chosen : Handle.enumerizing? d.type = some h) (form : d.type.form = .enumeration names)
    (own : site.type = d.type) (found : names[i]? = some name) (space : Namespace) :
    h.write space d.feature (.leaf site (.variant i)) =
      .remember d.feature site ⟨name, none⟩ fun text => .indicator (d.variantToken text) .done := by
  have rendering : Handle.renderingAs d.type (.leaf site (.variant i)) = ⟨name, none⟩ := by
    simp [Handle.renderingAs, Cell.site, own, form, Form.variants, found]
  unfold Handle.enumerizing? at chosen
  split at chosen
  · cases chosen
    simp only [Handle.write, rendering]
    rfl
  · cases chosen

/-- Values at sites, written one after the other. -/
def writeVariants (d : Descriptor) (h : Handle) (space : Namespace) (values : List (Site × Nat)) (c : Context) : Context :=
  values.foldl (fun c value => c.run (h.write space d.feature (.leaf value.1 (.variant value.2)))) c

/-- Both marshallers write the variants of an enumeration with these names as one feature for each, by the same token. -/
structure WritesVariants (d : Descriptor) (names : List String) (builtIn enumerizing : Handle) : Prop where
  gains {site : Site} {i : Nat} {name : String} (own : site.type = d.type) (found : names[i]? = some name)
    (space : Namespace) (c : Context) :
    c.Gains (d.variantToken name) (c.run (builtIn.write space d.feature (.leaf site (.variant i))))
  /-- This is so whether no text is kept for the value, or the one that was made for it. -/
  gainsRendered {site : Site} {i : Nat} {name : String} (own : site.type = d.type) (found : names[i]? = some name)
    (space : Namespace) {c : Context} (keeps : c.KeepsAt site name) :
    c.Gains (d.variantToken name) (c.run (enumerizing.write space d.feature (.leaf site (.variant i))))
  /-- Any number of values, each site of which stands for one variant, gives the same on both ways. -/
  runs {values : List (Site × Nat)} {texts : Site → String}
    (each : ∀ value ∈ values, value.1.type = d.type ∧ names[value.2]? = some (texts value.1)) (space : Namespace)
    {c : Context} (keeps : c.Keeps texts) :
    ∃ memo, writeVariants d enumerizing space values c = { writeVariants d builtIn space values c with memo }

lemma run_enumerizing (chosen : Handle.enumerizing? d.type = some h) (form : d.type.form = .enumeration names)
    (own : site.type = d.type) (found : names[i]? = some name) (space : Namespace) {c : Context}
    (keeps : c.KeepsAt site name) :
    ∃ memo, c.remember d.feature site ⟨name, none⟩ = ({ c with memo }, name) ∧
      c.run (h.write space d.feature (.leaf site (.variant i))) =
        ({ c with memo } : Context).addIndicator (d.variantToken name) := by
  obtain ⟨memo, eq⟩ : ∃ memo, c.remember d.feature site ⟨name, none⟩ = _ := Context.exists_remember_eq keeps
  refine ⟨memo, eq, ?_⟩
  rw [write_enumerizing chosen form own found, Context.run, eq]
  rfl

/-- One value after the other: the texts that are kept on the way are those of their sites. -/
lemma exists_writeVariants_eq {h' : Handle} (builtIn : Handle.builtIn? d.type = some h)
    (enumerizing : Handle.enumerizing? d.type = some h') (form : d.type.form = .enumeration names)
    {values : List (Site × Nat)} {texts : Site → String}
    (each : ∀ value ∈ values, value.1.type = d.type ∧ names[value.2]? = some (texts value.1)) (space : Namespace)
    (c : Context) (memo : List (Site × String)) (keeps : ({ c with memo } : Context).Keeps texts) :
    ∃ memo', writeVariants d h' space values { c with memo } = { writeVariants d h space values c with memo := memo' } := by
  induction values generalizing c memo with
  | nil => exact ⟨memo, rfl⟩
  | cons value values ih =>
    obtain ⟨⟨own, found⟩, each⟩ := List.forall_mem_cons.1 each
    obtain ⟨memo', remembered, eq⟩ := run_enumerizing enumerizing form own found space (keeps value.1)
    have told : (⟨texts value.1, none⟩ : Rendering).text = texts value.1 := rfl
    have keeps' := (Context.remember_spec keeps d.feature fun _ => told).2.1
    rw [remembered] at keeps'
    have next := ih each (c.addIndicator (d.variantToken (texts value.1))) memo' keeps'
    unfold writeVariants at next ⊢
    rw [List.foldl_cons, List.foldl_cons, eq, write_builtIn builtIn form own found space]
    rw [← Context.addIndicator_memo] at next
    exact next

lemma writesVariants {h' : Handle} (builtIn : Handle.builtIn? d.type = some h)
    (enumerizing : Handle.enumerizing? d.type = some h') (form : d.type.form = .enumeration names) :
    d.WritesVariants names h h' where
  gains own found space c := by
    rw [write_builtIn builtIn form own found]
    exact c.gains_addIndicator c.memo _
  gainsRendered own found space c keeps := by
    obtain ⟨memo, -, eq⟩ := run_enumerizing enumerizing form own found space keeps
    rw [eq]
    exact c.gains_addIndicator memo _
  runs each space c keeps := exists_writeVariants_eq builtIn enumerizing form each space c c.memo keeps

/-- For an enumeration there are both marshallers. -/
theorem exists_writesVariants (form : d.type.form = .enumeration names) :
    ∃ builtIn enumerizing, Handle.builtIn? d.type = some builtIn ∧ Handle.enumerizing? d.type = some enumerizing ∧
      d.WritesVariants names builtIn enumerizing := by
  have shape : d.type.form.shape = .enumeration := by rw [form]; rfl
  have builtIn : ∃ builtIn, Handle.builtIn? d.type = some builtIn := by simp [Handle.builtIn?, shape]
  have enumerizing : ∃ enumerizing, Handle.enumerizing? d.type = some enumerizing := by
    simp [Handle.enumerizing?, Handle.hasRendering, shape]
  obtain ⟨builtIn, chosen⟩ := builtIn
  obtain ⟨enumerizing, chosen'⟩ := enumerizing
  exact ⟨builtIn, enumerizing, chosen, chosen', writesVariants chosen chosen' form⟩

end Descriptor

end FeatureLines
