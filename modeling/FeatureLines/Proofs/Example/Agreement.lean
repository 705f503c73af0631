import Mathlib.Algebra.Order.Group.Int
import Mathlib.Data.Int.ConditionallyCompleteOrder
import Mathlib.Data.List.Forall2
import Mathlib.Order.WithBot
import FeatureLines.Proofs.Number.Rounding
import FeatureLines.Proofs.Results
import FeatureLines.Serializer.Validation

/-!
# What it means that examples agree

Two examples agree when their labels are equal as numbers, and position by position their namespaces have one header and
the same features in any order, the weights taken as numbers (`Example.Agrees`). The comparison of examples works
differently: it sorts features by an order that separates the two zeros, and then compares them in place by an equality
that does not. That comparison finds no difference exactly for examples that agree and in which every number is one
(`Example.differences_eq_nil`), since the order of features follows that of what they stand for (`HashedFeature.key`), and
a list in order is determined by its members.

Main statement: `Example.differences_exact`, with the same for the two forms of an output.
-/

namespace FeatureLines

open Number

/-! ## Numbers -/

/-- The number that a floating-point number stands for, in units; NaN stands above all numbers. -/
def Number.Binary.number {f : Format} : Binary f → WithTop Int
  | .nan => ⊤
  | .signed negative code => ((if negative then -(f.units code : Int) else f.units code : Int) : WithTop Int)

namespace Number.Binary

variable {f : Format}

/-- Exactly NaN stands above all numbers. -/
lemma isNan_iff {x : Binary f} : x.isNan = false ↔ x.number ≠ ⊤ := by
  cases x <;> simp [isNan, number]

/-- Numbers are compared as what they stand for, and NaN with nothing. -/
lemma eqNumber_iff {x y : Binary f} : x.eqNumber y = true ↔ x.isNan = false ∧ x.number = y.number := by
  cases x with
  | nan => simp [eqNumber, isNan]
  | signed n c =>
    cases y with
    | nan => simp [eqNumber, isNan, number]
    | signed m d =>
      have same : f.units c = f.units d ↔ c = d := f.units_strictMono.injective.eq_iff.trans Fin.ext_iff.symm
      have zero : f.units c = 0 ↔ c.val = 0 := by
        simpa only [f.units_zero] using f.units_strictMono.injective.eq_iff (a := c.val) (b := 0)
      simp only [eqNumber, isNan, number, WithTop.coe_inj, Bool.and_eq_true, Bool.or_eq_true, beq_iff_eq, true_and,
        ← same, ← zero]
      cases n <;> cases m <;> simp <;> omega

/-- The order that separates the zeros refines the order of numbers. -/
lemma number_mono {x y : Binary f} (le : x.orderKey ≤ y.orderKey) : x.number ≤ y.number := by
  cases y with
  | nan => exact le_top
  | signed m d =>
    have bound := d.isLt
    cases x with
    | nan =>
      simp only [orderKey] at le
      cases m <;> simp only at le <;> omega
    | signed n c =>
      have mono {a b : Nat} (h : a ≤ b) := f.units_strictMono.monotone h
      simp only [number, WithTop.coe_le_coe]
      cases n <;> cases m <;> simp only [orderKey, Bool.false_eq_true, if_false, if_true] at le ⊢
      · exact_mod_cast mono (by omega)
      · omega
      · omega
      · have := mono (show d.val ≤ c.val by omega)
        omega

end Number.Binary

/-! ## Labels -/

namespace ParsedLabel

/-- No number of the label is NaN. -/
def IsNumeric : ParsedLabel → Prop
  | simple label weight => label.isNan = false ∧ weight.isNan = false
  | bandit _ cost probability => cost.isNan = false ∧ probability.isNan = false
  | shared => True

/-- Labels of one kind with the same numbers. -/
def Agrees : ParsedLabel → ParsedLabel → Prop
  | simple label weight, simple label' weight' => label.number = label'.number ∧ weight.number = weight'.number
  | bandit action cost probability, bandit action' cost' probability' =>
    action = action' ∧ cost.number = cost'.number ∧ probability.number = probability'.number
  | shared, shared => True
  | _, _ => False

/-- Labels compare equal exactly when they agree and no number of them is NaN. -/
lemma eqNumber_iff {a b : ParsedLabel} : a.eqNumber b = true ↔ a.IsNumeric ∧ a.Agrees b := by
  cases a <;> cases b <;> simp [eqNumber, IsNumeric, Agrees, Binary.eqNumber_iff] <;> tauto

lemma Agrees.refl (a : ParsedLabel) : a.Agrees a := by
  cases a <;> simp [Agrees]

lemma Agrees.symm {a b : ParsedLabel} (h : a.Agrees b) : b.Agrees a := by
  cases a <;> cases b <;> simp only [Agrees] at h ⊢ <;> simp [h]

lemma Agrees.trans {a b c : ParsedLabel} (h : a.Agrees b) (h' : b.Agrees c) : a.Agrees c := by
  cases a <;> cases b <;> cases c <;> simp only [Agrees] at h h' ⊢ <;> simp [h, h']

/-- What agrees with a label without NaN has no NaN either. -/
lemma Agrees.isNumeric {a b : ParsedLabel} (h : a.Agrees b) (numeric : a.IsNumeric) : b.IsNumeric := by
  cases a <;> cases b <;> simp only [Agrees, IsNumeric, Binary.isNan_iff] at h numeric ⊢ <;> simp_all

end ParsedLabel

/-- Lines have the same label exactly when both have none, or both have labels that agree and have no NaN. -/
lemma sameLabel_iff {a b : Option ParsedLabel} :
    sameLabel a b = true ↔ (∀ label ∈ a, label.IsNumeric) ∧ Option.Rel ParsedLabel.Agrees a b := by
  cases a with
  | none =>
    cases b with
    | none => exact iff_of_true rfl ⟨fun _ none => (nomatch none), .none⟩
    | some _ => exact iff_of_false Bool.false_ne_true fun h => nomatch h.2
  | some _ =>
    cases b with
    | none => exact iff_of_false Bool.false_ne_true fun h => nomatch h.2
    | some _ =>
      refine ParsedLabel.eqNumber_iff.trans ⟨fun ⟨numeric, agrees⟩ => ⟨?_, .some agrees⟩, fun ⟨numeric, agrees⟩ => ?_⟩
      · rintro _ ⟨⟩
        exact numeric
      · cases agrees with
        | some agrees => exact ⟨numeric _ rfl, agrees⟩

/-! ## Features -/

namespace HashedFeature

/-- What a feature stands for: the hash of its name, and its weight as a number. -/
def key (f : HashedFeature) : UInt64 × WithTop Int := (f.hash, f.weight.number)

/-- Features are ordered by hash first, then by weight. -/
lemma le_iff {a b : HashedFeature} :
    a.le b = true ↔ a.hash.toNat < b.hash.toNat ∨
      a.hash.toNat = b.hash.toNat ∧ a.weight.orderKey ≤ b.weight.orderKey := by
  simp [le, UInt64.lt_iff_toNat_lt, UInt64.toNat_inj]

lemma le_trans (a b c : HashedFeature) (ab : a.le b = true) (bc : b.le c = true) : a.le c = true := by
  rw [le_iff] at ab bc ⊢
  omega

lemma le_total (a b : HashedFeature) : (a.le b || b.le a) = true := by
  rw [Bool.or_eq_true, le_iff, le_iff]
  omega

/-- The order of what features stand for. -/
def KeyLE (a b : UInt64 × WithTop Int) : Prop := a.1.toNat < b.1.toNat ∨ a.1.toNat = b.1.toNat ∧ a.2 ≤ b.2

/-- Features that precede each other stand for the same. -/
lemma KeyLE.antisymm {a b : UInt64 × WithTop Int} (ab : KeyLE a b) (ba : KeyLE b a) : a = b := by
  rcases ab with less | ⟨hash, number⟩
  · rcases ba with less' | ⟨hash', -⟩ <;> omega
  · rcases ba with less' | ⟨-, number'⟩
    · omega
    · exact Prod.ext (UInt64.toNat_inj.1 hash) (number.antisymm number')

/-- The order of features is one of what they stand for. -/
lemma key_mono {a b : HashedFeature} (h : a.le b = true) : KeyLE a.key b.key := by
  rcases le_iff.1 h with less | ⟨hash, order⟩
  · exact .inl less
  · exact .inr ⟨hash, Binary.number_mono order⟩

/-- Features are the same exactly when they stand for the same and their weight is not NaN. -/
lemma same_iff {a b : HashedFeature} : a.same b = true ↔ a.weight.isNan = false ∧ a.key = b.key := by
  simp only [same, key, Bool.and_eq_true, beq_iff_eq, Binary.eqNumber_iff, Prod.mk.injEq]
  tauto

/-- Lists are the same feature by feature when they stand for the same, and nothing in them is NaN. -/
lemma sameList_iff {as bs : List HashedFeature} :
    sameList same as bs = true ↔ (∀ f ∈ as, f.weight.isNan = false) ∧ as.map key = bs.map key := by
  induction as generalizing bs with
  | nil => cases bs <;> simp [sameList]
  | cons a as ih =>
    cases bs with
    | nil => simp [sameList]
    | cons b bs =>
      simp only [sameList, Bool.and_eq_true, same_iff, ih, List.forall_mem_cons, List.map_cons, List.cons.injEq]
      tauto

end HashedFeature

/-! ## Namespaces -/

namespace HashedNamespace

/-- No weight is NaN. -/
def IsNumeric (n : HashedNamespace) : Prop := ∀ f ∈ n.features, f.weight.isNan = false

/-- One header, and the same features up to their order. -/
structure Agrees (a b : HashedNamespace) : Prop where
  index : a.index = b.index
  hash : a.hash = b.hash
  features : (a.features.map HashedFeature.key).Perm (b.features.map HashedFeature.key)

lemma Agrees.refl (a : HashedNamespace) : a.Agrees a := ⟨rfl, rfl, .refl _⟩

lemma Agrees.symm {a b : HashedNamespace} (h : a.Agrees b) : b.Agrees a :=
  ⟨h.index.symm, h.hash.symm, h.features.symm⟩

lemma Agrees.trans {a b c : HashedNamespace} (h : a.Agrees b) (h' : b.Agrees c) : a.Agrees c :=
  ⟨h.index.trans h'.index, h.hash.trans h'.hash, h.features.trans h'.features⟩

/-- Whether a weight is NaN shows in what the features stand for. -/
lemma isNumeric_iff {n : HashedNamespace} :
    n.IsNumeric ↔ ∀ key ∈ n.features.map HashedFeature.key, key.2 ≠ ⊤ := by
  simp only [IsNumeric, Binary.isNan_iff, List.forall_mem_map, HashedFeature.key]

/-- A namespace that agrees with one without NaN has no NaN either. -/
lemma Agrees.isNumeric {a b : HashedNamespace} (h : a.Agrees b) (numeric : a.IsNumeric) : b.IsNumeric := by
  rw [isNumeric_iff] at numeric ⊢
  exact fun key mem => numeric key (h.features.mem_iff.2 mem)

/-- What sorted features stand for is in order. -/
lemma pairwise_sorted (n : HashedNamespace) : (n.sorted.map HashedFeature.key).Pairwise HashedFeature.KeyLE :=
  (List.pairwise_mergeSort HashedFeature.le_trans HashedFeature.le_total n.features).map _
    fun _ _ => HashedFeature.key_mono

/-- Sorted features stand for the same exactly when the features do, in any order. -/
lemma map_key_sorted_eq_iff {a b : HashedNamespace} :
    a.sorted.map HashedFeature.key = b.sorted.map HashedFeature.key ↔
      (a.features.map HashedFeature.key).Perm (b.features.map HashedFeature.key) := by
  have left := (List.mergeSort_perm a.features HashedFeature.le).map HashedFeature.key
  have right := (List.mergeSort_perm b.features HashedFeature.le).map HashedFeature.key
  constructor
  · intro same
    exact left.symm.trans ((List.Perm.of_eq same).trans right)
  · intro same
    exact (left.trans (same.trans right.symm)).eq_of_pairwise (fun _ _ _ _ => HashedFeature.KeyLE.antisymm)
      a.pairwise_sorted b.pairwise_sorted

/-- Between namespaces no difference is found exactly when they agree and all weights are numbers. -/
lemma betweenNamespaces?_eq_none {position : Nat} {a b : HashedNamespace} :
    Difference.betweenNamespaces? position a b = none ↔ a.IsNumeric ∧ a.Agrees b := by
  have members : (∀ f ∈ a.sorted, f.weight.isNan = false) ↔ a.IsNumeric :=
    forall_congr' fun f => by rw [sorted, (List.mergeSort_perm a.features HashedFeature.le).mem_iff]
  unfold Difference.betweenNamespaces?
  split
  · rename_i header
    refine iff_of_false (by simp) fun ⟨_, agrees⟩ => ?_
    simp [agrees.index, agrees.hash] at header
  · rename_i header
    have header : a.index = b.index ∧ a.hash = b.hash := by simpa using header
    split
    · rename_i same
      obtain ⟨numeric, keys⟩ := HashedFeature.sameList_iff.1 same
      exact iff_of_true rfl ⟨members.1 numeric, header.1, header.2, map_key_sorted_eq_iff.1 keys⟩
    · rename_i other
      refine iff_of_false (by simp) fun ⟨numeric, agrees⟩ => other ?_
      exact HashedFeature.sameList_iff.2 ⟨members.2 numeric, map_key_sorted_eq_iff.2 agrees.features⟩

end HashedNamespace

/-! ## Examples -/

namespace Example

/-- No number in the label and no weight is NaN. -/
structure IsNumeric (e : Example) : Prop where
  label : ∀ label ∈ e.label, label.IsNumeric
  namespaces : ∀ n ∈ e.namespaces, n.IsNumeric

/-- Labels that are equal as numbers, and namespaces that agree position by position. -/
structure Agrees (a b : Example) : Prop where
  label : Option.Rel ParsedLabel.Agrees a.label b.label
  namespaces : List.Forall₂ HashedNamespace.Agrees a.namespaces b.namespaces

lemma Agrees.refl (a : Example) : a.Agrees a := by
  refine ⟨?_, List.forall₂_same.2 fun n _ => .refl n⟩
  cases a.label with
  | none => exact .none
  | some label => exact .some (.refl label)

lemma Agrees.symm {a b : Example} (h : a.Agrees b) : b.Agrees a := by
  obtain ⟨label, namespaces⟩ := h
  refine ⟨?_, (namespaces.imp fun _ _ => HashedNamespace.Agrees.symm).flip⟩
  generalize a.label = x, b.label = y at label
  cases label with
  | none => exact .none
  | some agrees => exact .some agrees.symm

lemma Agrees.trans {a b c : Example} (h : a.Agrees b) (h' : b.Agrees c) : a.Agrees c := by
  obtain ⟨label, namespaces⟩ := h
  obtain ⟨label', namespaces'⟩ := h'
  constructor
  · generalize a.label = x, b.label = y, c.label = z at label label'
    cases label with
    | none => exact label'
    | some agrees =>
      cases label' with
      | some agrees' => exact .some (agrees.trans agrees')
  · generalize a.namespaces = x, b.namespaces = y, c.namespaces = z at namespaces namespaces'
    induction namespaces generalizing z with
    | nil => exact namespaces'
    | cons agrees _ ih =>
      cases namespaces' with
      | cons agrees' rest' => exact .cons (agrees.trans agrees') (ih _ rest')

/-- An example that agrees with one without NaN has no NaN either. -/
lemma Agrees.isNumeric {a b : Example} (h : a.Agrees b) (numeric : a.IsNumeric) : b.IsNumeric := by
  obtain ⟨label, namespaces⟩ := h
  constructor
  · intro l mem
    have numeric := numeric.label
    generalize a.label = x, b.label = y at label numeric mem
    cases label with
    | none => cases mem
    | some agrees =>
      cases mem
      exact agrees.isNumeric (numeric _ rfl)
  · intro n mem
    obtain ⟨i, lt, rfl⟩ := List.getElem_of_mem mem
    have lt' := namespaces.length_eq ▸ lt
    exact (namespaces.get lt' lt).isNumeric (numeric.namespaces _ (List.getElem_mem lt'))

end Example

/-! ## Comparisons -/

/-- Between lists of one length no difference is found exactly when they agree namespace by namespace and all weights are
numbers. -/
lemma Difference.betweenAll_eq_nil {as bs : List HashedNamespace} (length : as.length = bs.length) {position : Nat} :
    betweenAll position as bs = [] ↔
      (∀ n ∈ as, n.IsNumeric) ∧ List.Forall₂ HashedNamespace.Agrees as bs := by
  induction as generalizing bs position with
  | nil =>
    cases bs with
    | nil => simp [betweenAll]
    | cons => cases length
  | cons a as ih =>
    cases bs with
    | nil => cases length
    | cons b bs =>
      simp only [betweenAll, List.append_eq_nil_iff, Option.toList_eq_nil_iff, HashedNamespace.betweenNamespaces?_eq_none,
        ih (Nat.succ.inj length), List.forall_mem_cons, List.forall₂_cons]
      tauto

/-- No difference is found exactly between examples that agree and in which all numbers are numbers. -/
theorem Example.differences_eq_nil {a b : Example} : a.differences b = [] ↔ a.IsNumeric ∧ a.Agrees b := by
  unfold differences
  rw [List.append_eq_nil_iff, List.append_eq_nil_iff]
  constructor
  · rintro ⟨⟨label, count⟩, namespaces⟩
    have same : sameLabel a.label b.label = true := by
      by_contra other
      simp [other] at label
    have length : a.namespaces.length = b.namespaces.length := by
      by_contra other
      simp [other] at count
    obtain ⟨numeric, agrees⟩ := sameLabel_iff.1 same
    obtain ⟨numeric', agrees'⟩ := (Difference.betweenAll_eq_nil length).1 namespaces
    exact ⟨⟨numeric, numeric'⟩, agrees, agrees'⟩
  · rintro ⟨⟨numeric, numeric'⟩, agrees, agrees'⟩
    have length := agrees'.length_eq
    refine ⟨⟨?_, ?_⟩, (Difference.betweenAll_eq_nil length).2 ⟨numeric', agrees'⟩⟩
    · rw [if_pos (sameLabel_iff.2 ⟨numeric, agrees⟩)]
    · rw [if_pos length]

namespace Output

variable {engine : Engine}

/-- A line of text says the same as an example. -/
def LineAgrees (engine : Engine) (line : List Char) (native : Example) : Prop :=
  native.IsNumeric ∧ ∃ e, Line.read engine line = .ok e ∧ e.Agrees native

/-- No line differs from its text exactly when each line is without NaN and agrees with what its text is read as. -/
lemma lineDifferences_eq_nil {texts : List (List Char)} {natives : List Example} (length : texts.length = natives.length)
    (position : Nat) :
    lineDifferences engine position texts natives = .ok [] ↔ List.Forall₂ (LineAgrees engine) texts natives := by
  induction texts generalizing natives position with
  | nil =>
    cases natives with
    | nil => simp [lineDifferences]
    | cons => cases length
  | cons text texts ih =>
    cases natives with
    | nil => cases length
    | cons native natives =>
      rw [List.forall₂_cons, ← ih (Nat.succ.inj length) (position + 1)]
      rw [lineDifferences]
      constructor
      · intro ok
        obtain ⟨e, read, rest⟩ := Except.bind_eq_ok.1 ok
        obtain ⟨others, later, none⟩ := Except.bind_eq_ok.1 rest
        obtain ⟨here, rfl⟩ := List.append_eq_nil_iff.1 (Except.ok.inj none)
        obtain ⟨numeric, agrees⟩ := Example.differences_eq_nil.1 (List.map_eq_nil_iff.1 here)
        exact ⟨⟨agrees.isNumeric numeric, e, read, agrees⟩, later⟩
      · rintro ⟨⟨numeric, e, read, agrees⟩, later⟩
        have none := Example.differences_eq_nil.2 ⟨agrees.symm.isNumeric numeric, agrees⟩
        refine Except.bind_eq_ok.2 ⟨e, read, Except.bind_eq_ok.2 ⟨[], later, ?_⟩⟩
        rw [none]
        rfl

/-- The two forms of an output are found to agree exactly if there is a text, and it has the lines that were built. -/
theorem crossValidate_isClean (engine : Engine) (o : Output) :
    (∃ report, o.crossValidate engine = .ok report ∧ report.isClean = true) ↔
      ∃ text, o.text = some text ∧
        List.Forall₂ (LineAgrees engine) (Text.split (· == '\n') text.toList) o.lines := by
  unfold crossValidate
  cases o.text with
  | none => simp
  | some text =>
    simp only [Option.some.injEq, exists_eq_left']
    generalize Text.split (· == '\n') text.toList = texts
    constructor
    · rintro ⟨report, ok, clean⟩
      obtain ⟨differences, found, made⟩ := Except.bind_eq_ok.1 ok
      cases made
      obtain ⟨counts, rfl⟩ := List.append_eq_nil_iff.1 (List.isEmpty_iff.1 clean)
      have length : texts.length = o.lines.length := by
        by_contra other
        simp [other] at counts
      exact (lineDifferences_eq_nil length 0).1 found
    · intro agree
      have none := (lineDifferences_eq_nil agree.length_eq 0).2 agree
      refine ⟨⟨o.lines.length, []⟩, ?_, rfl⟩
      simp only [if_pos agree.length_eq, none]
      rfl

end Output

/-- The comparison of examples finds exactly the real disagreements: there is no difference if and only if both examples
are without NaN and agree. So on examples without NaN the absence of differences is an equivalence relation, and the two
forms of an output are found to agree if and only if the text has as many lines as were built, and each is read as an
example that agrees with the one at its position. -/
theorem Example.differences_exact :
    (∀ a b : Example, a.differences b = [] ↔ a.IsNumeric ∧ b.IsNumeric ∧ a.Agrees b) ∧
      Equivalence (fun a b : { e : Example // e.IsNumeric } => a.val.differences b.val = []) ∧
      ∀ (engine : Engine) (o : Output),
        (∃ report, o.crossValidate engine = .ok report ∧ report.isClean = true) ↔
          ∃ text, o.text = some text ∧
            List.Forall₂ (fun line native => native.IsNumeric ∧ ∃ e, Line.read engine line = .ok e ∧ e.Agrees native)
              (Text.split (· == '\n') text.toList) o.lines := by
  have exactly (a b : Example) : a.differences b = [] ↔ a.IsNumeric ∧ b.IsNumeric ∧ a.Agrees b :=
    differences_eq_nil.trans ⟨fun ⟨numeric, agrees⟩ => ⟨numeric, agrees.isNumeric numeric, agrees⟩,
      fun ⟨numeric, _, agrees⟩ => ⟨numeric, agrees⟩⟩
  refine ⟨exactly, ⟨fun a => ?_, fun {a b} h => ?_, fun {a b c} h h' => ?_⟩, fun engine o => o.crossValidate_isClean engine⟩
  · exact (exactly _ _).2 ⟨a.property, a.property, .refl _⟩
  · exact (exactly _ _).2 ⟨b.property, a.property, ((exactly _ _).1 h).2.2.symm⟩
  · exact (exactly _ _).2 ⟨a.property, c.property, ((exactly _ _).1 h).2.2.trans ((exactly _ _).1 h').2.2⟩

/-- Neither the order of features nor the sign of a zero counts. -/
example :
    Example.differences ⟨none, [⟨'a', 1, [⟨3, .signed false 1⟩, ⟨2, .signed true 0⟩, ⟨2, .signed false 0⟩]⟩], false⟩
      ⟨none, [⟨'a', 1, [⟨2, .signed true 0⟩, ⟨2, .signed true 0⟩, ⟨3, .signed false 1⟩]⟩], true⟩ = [] := by
  cbv

end FeatureLines
