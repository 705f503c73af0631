import FeatureLines.Proofs.First
import FeatureLines.Proofs.Marshal.Mirror
import FeatureLines.Proofs.Text.Spacing

/-!
# The grammar of lines

A line is put together from a head and from segments, each behind a bar (`Line.Written`), in exactly one way
(`Line.written_iff`). What reading gives depends on the head and on the segments alone: a segment is read as its words
are, and leaves a namespace if one of its tokens is kept (`Line.read_of_written`). So reading accepts the lines whose
head and words are good, gives the namespaces with tokens that are kept, reports the first fault from the left, and
makes no difference between lines that are put together from the same parts, segments without features aside
(`Line.read_grammar`).
-/

namespace FeatureLines

open Number Text

variable {engine : Engine} {line word : List Char} {failure : Error}

/-! ## Words -/

namespace Token

/-- A word spells a token: without a colon one of weight one, and else the one whose weight is the number behind the
last colon. -/
inductive Spells : List Char → Token → Prop
  | bare {name : List Char} (nocolon : ':' ∉ name) : Spells name ⟨name, .one _⟩
  | weighted {name literal : List Char} {weight : Single} (nocolon : ':' ∉ literal)
      (number : Binary.read .single literal = .ok weight) : Spells (name ++ ':' :: literal) ⟨name, weight⟩

/-- What is wrong with a word: behind its last colon there is no number. -/
inductive Fault : List Char → Error → Prop
  | weight {name literal : List Char} {cause : DecimalError} (nocolon : ':' ∉ literal)
      (bad : Binary.read .single literal = .error cause) :
      Fault (name ++ ':' :: literal) (.parse (String.ofList (name ++ ':' :: literal)) cause)

/-- A word has no colon, or a last one. -/
lemma colon_cases (word : List Char) : ':' ∉ word ∨ ∃ name literal, ':' ∉ literal ∧ word = name ++ ':' :: literal := by
  by_cases colon : ':' ∈ word
  · obtain ⟨behind, before, cut, nocolon⟩ := List.eq_append_cons_of_mem (List.mem_reverse.2 colon)
    refine .inr ⟨before.reverse, behind.reverse, fun mem => nocolon (List.mem_reverse.1 mem), ?_⟩
    rw [← List.reverse_reverse word, cut]
    simp
  · exact .inl colon

/-- A word is refused when what stands behind its last colon is not a number. -/
lemma read_misspelled (name : List Char) {literal : List Char} {cause : DecimalError} (nocolon : ':' ∉ literal)
    (bad : Binary.read .single literal = .error cause) :
    read (name ++ ':' :: literal) = .error (.parse (String.ofList (name ++ ':' :: literal)) cause) := by
  unfold read
  rw [splitAtLast_append_cons name nocolon]
  simp only [bad]

/-- A word that spells a token is read as the token. -/
lemma read_of_spells {token : Token} (spells : Spells word token) : read word = .ok token := by
  cases spells with
  | bare nocolon => exact read_indicator nocolon
  | weighted nocolon number => exact read_weighted _ nocolon number

/-- A word with a fault is refused with it. -/
lemma read_of_fault (fault : Fault word failure) : read word = .error failure := by
  cases fault with
  | weight nocolon bad => exact read_misspelled _ nocolon bad

/-- A word spells a token, or something is wrong with it. -/
lemma spells_or_fault (word : List Char) : (∃ token, Spells word token) ∨ ∃ failure, Fault word failure := by
  rcases colon_cases word with nocolon | ⟨name, literal, nocolon, rfl⟩
  · exact .inl ⟨_, .bare nocolon⟩
  · cases number : Binary.read .single literal with
    | ok weight => exact .inl ⟨_, .weighted nocolon number⟩
    | error cause => exact .inr ⟨_, .weight nocolon number⟩

/-- Exactly the words that spell a token are read. -/
lemma read_eq_ok {token : Token} : read word = .ok token ↔ Spells word token := by
  refine ⟨fun ok => ?_, read_of_spells⟩
  rcases spells_or_fault word with ⟨other, spells⟩ | ⟨failure, fault⟩
  · rw [read_of_spells spells] at ok
    cases ok
    exact spells
  · rw [read_of_fault fault] at ok
    cases ok

/-- Exactly the words with a fault are refused. -/
lemma read_eq_error : read word = .error failure ↔ Fault word failure := by
  refine ⟨fun error => ?_, read_of_fault⟩
  rcases spells_or_fault word with ⟨token, spells⟩ | ⟨other, fault⟩
  · rw [read_of_spells spells] at error
    cases error
  · rw [read_of_fault fault] at error
    cases error
    exact fault

/-- A word is good if and only if it has a number behind its last colon, or no colon. -/
lemma no_fault_iff :
    (¬∃ failure, Fault word failure) ↔
      ∀ name literal, word = name ++ ':' :: literal → ':' ∉ literal →
        ∃ weight, Binary.read .single literal = .ok weight := by
  constructor
  · rintro good name literal rfl nocolon
    cases number : Binary.read .single literal with
    | ok weight => exact ⟨weight, rfl⟩
    | error cause => exact absurd ⟨_, .weight nocolon number⟩ good
  · rintro numbers ⟨failure, fault⟩
    cases fault with
    | weight nocolon bad =>
      obtain ⟨weight, number⟩ := numbers _ _ rfl nocolon
      rw [bad] at number
      cases number

end Token

/-! ## Segments -/

namespace Line

/-- What stands behind a bar: the name of a namespace and words. -/
structure Segment where
  name : List Char
  words : List (List Char)

namespace Segment

variable {s : Segment} {text : List Char}

/-- The text of a segment is its name, directly behind the bar, and its words with blanks between them. The name may be
empty. -/
inductive Written (s : Segment) : List Char → Prop
  | intro {body : List Char} (nonblank : ∀ c ∈ s.name, isBlank c = false) (ends : Ends body)
      (spaced : Spaced s.words body) : Written s (s.name ++ body)

/-- The features of the tokens in a namespace, those of weight zero or NaN left out. -/
def features (engine : Engine) (s : Segment) (tokens : List Token) : List HashedFeature :=
  (tokens.filter Token.isKept).map fun t =>
    ⟨engine.hashFeature (String.ofList t.name) (engine.hashSpace (String.ofList s.name)), t.weight⟩

@[simp] lemma features_nil : s.features engine [] = [] := rfl

lemma features_cons_of_isKept {token : Token} (kept : token.isKept = true) (tokens : List Token) :
    s.features engine (token :: tokens) =
      ⟨engine.hashFeature (String.ofList token.name) (engine.hashSpace (String.ofList s.name)), token.weight⟩ ::
        s.features engine tokens := by
  unfold features
  rw [List.filter_cons_of_pos kept, List.map_cons]

lemma features_cons_of_not_isKept {token : Token} (idle : ¬token.isKept = true) (tokens : List Token) :
    s.features engine (token :: tokens) = s.features engine tokens := by
  unfold features
  rw [List.filter_cons_of_neg idle]

/-- The namespace with some features, and none without features. -/
def namespaces (engine : Engine) (s : Segment) (features : List HashedFeature) : List HashedNamespace :=
  if features.isEmpty then [] else [⟨indexOf s.name, engine.hashSpace (String.ofList s.name), features⟩]

/-- Reads a segment: the namespace that it leaves, if any. -/
def read (engine : Engine) (s : Segment) : Except Error (List HashedNamespace) :=
  (s.words.mapM Token.read).map fun tokens => s.namespaces engine (s.features engine tokens)

/-- The segment that a text is. -/
def ofText (text : List Char) : Segment := ⟨nameOf text, Text.words (text.dropWhile (!isBlank ·))⟩

/-- A text is one segment only. -/
lemma written_iff : s.Written text ↔ s = ofText text := by
  constructor
  · rintro ⟨nonblank, ends, spaced⟩
    rename_i body
    have name : nameOf (s.name ++ body) = s.name := by
      rw [nameOf, List.takeWhile_append_of_pos fun c mem => by rw [nonblank c mem]; rfl]
      cases body with
      | nil => rw [List.takeWhile_nil, List.append_nil]
      | cons c body => rw [List.takeWhile_cons_of_neg (by simp [ends c rfl]), List.append_nil]
    have rest : (s.name ++ body).dropWhile (!isBlank ·) = body := by
      rw [List.dropWhile_append_of_pos fun c mem => by rw [nonblank c mem]; rfl]
      cases body with
      | nil => rfl
      | cons c body => rw [List.dropWhile_cons_of_neg (by simp [ends c rfl])]
    rw [ofText, name, rest, ← spaced_iff.1 spaced]
  · rintro rfl
    have whole : (ofText text).Written (nameOf text ++ text.dropWhile (!isBlank ·)) :=
      .intro (fun c mem => not_isBlank_of_mem_takeWhile mem) (ends_dropWhile text) (spaced_words _)
    rwa [nameOf, List.takeWhile_append_dropWhile] at whole

end Segment

/-- The words of a segment add the features of their tokens to the open namespace. -/
lemma addWords_eq_map (engine : Engine) {b : Builder} {n : HashedNamespace} (s : Segment)
    (current : b.current = some n) (ws : List (List Char)) :
    addWords engine (engine.hashSpace (String.ofList s.name)) b ws =
      (ws.mapM Token.read).map fun tokens =>
        { b with current := some { n with features := n.features ++ s.features engine tokens } } := by
  induction ws generalizing b n with
  | nil =>
    cases b
    cases current
    rw [addWords, List.mapM_nil]
    exact congrArg Except.ok (by simp)
  | cons word ws ih =>
    rw [addWords, List.mapM_cons, Except.map_bind]
    refine congrArg _ (funext fun token => ?_)
    rw [Except.map_bind]
    cases kept : token.isKept with
    | true =>
      rw [if_pos rfl, ih (by rw [Builder.addFeature, current]; rfl)]
      cases ws.mapM Token.read with
      | error failure => rfl
      | ok tokens => exact congrArg Except.ok (by simp [Segment.features_cons_of_isKept kept, Builder.addFeature])
    | false =>
      rw [if_neg (by simp), ih current]
      cases ws.mapM Token.read with
      | error failure => rfl
      | ok tokens => exact congrArg Except.ok (by simp [Segment.features_cons_of_not_isKept, kept])

/-- A segment adds what reading it gives to what was closed before. -/
lemma addSegment_eq_read {b : Builder} (closed : b.current = none) (text : List Char) :
    addSegment engine b text =
      ((Segment.ofText text).read engine).map fun spaces => { b with closed := b.closed ++ spaces } := by
  let space := engine.hashSpace (String.ofList (nameOf text))
  have opened := addWords_eq_map engine (Segment.ofText text) (b := b.openNamespace (indexOf (nameOf text)) space) rfl
    (Segment.ofText text).words
  rw [addSegment_eq_map]
  change (addWords engine _ _ _).map _ = _
  refine (congrArg _ opened).trans ?_
  rw [Except.map_map, Segment.read, Except.map_map, Builder.openNamespace,
    Builder.closeNamespace_of_current_eq_none closed]
  refine congrFun (congrArg _ (funext fun tokens => ?_)) _
  simp only [Function.comp_apply, Builder.closeNamespace, List.nil_append, Segment.namespaces, closed]
  split
  · rw [List.append_nil]
  · rfl

/-- Segments are added as each is read alone. -/
lemma addSegments_eq_read {b : Builder} (closed : b.current = none) (texts : List (List Char)) :
    addSegments engine b texts =
      ((texts.map Segment.ofText).mapM (Segment.read engine)).map fun spaces =>
        { b with closed := b.closed ++ spaces.flatten } := by
  induction texts generalizing b with
  | nil =>
    cases b
    rw [addSegments, List.map_nil, List.mapM_nil]
    exact congrArg Except.ok (by simp)
  | cons text texts ih =>
    rw [addSegments, addSegment_eq_read closed, List.map_cons, List.mapM_cons]
    cases (Segment.ofText text).read engine with
    | error failure => rfl
    | ok spaces =>
      change addSegments engine { b with closed := b.closed ++ spaces } texts = _
      rw [ih (b := { b with closed := b.closed ++ spaces }) closed]
      cases (texts.map Segment.ofText).mapM (Segment.read engine) with
      | error failure => rfl
      | ok others => exact congrArg Except.ok (by simp)

/-! ## Lines -/

/-- A line is put together from a head, with blanks around it, and segments, each behind a bar. -/
def Written (head : List Char) (segments : List Segment) (line : List Char) : Prop :=
  ∃ front texts, Barred front texts line ∧ Padded head front ∧ List.Forall₂ Segment.Written segments texts

/-- The label that a head stands for. A head that is empty stands for none. -/
inductive Labels (engine : Engine) : List Char → Option ParsedLabel → Prop
  | none : Labels engine [] none
  | some {head : List Char} {label : ParsedLabel} (ne : head ≠ []) (accepted : engine.readLabel head = .ok label) :
      Labels engine head (some label)

/-- What is wrong with a head: it is neither empty nor a label. -/
def HeadFault (engine : Engine) (head : List Char) (failure : Error) : Prop :=
  head ≠ [] ∧ ∃ cause, engine.readLabel head = .error cause ∧ failure = .label cause

/-- What segments leave: a namespace for each one with a token that is kept, and nothing for the others. -/
inductive Reads (engine : Engine) : List Segment → List HashedNamespace → Prop
  | nil : Reads engine [] []
  | kept {s : Segment} {tokens : List Token} {segments : List Segment} {namespaces : List HashedNamespace}
      (spelled : List.Forall₂ Token.Spells s.words tokens) (some : s.features engine tokens ≠ [])
      (others : Reads engine segments namespaces) :
      Reads engine (s :: segments)
        (⟨indexOf s.name, engine.hashSpace (String.ofList s.name), s.features engine tokens⟩ :: namespaces)
  | idle {s : Segment} {tokens : List Token} {segments : List Segment} {namespaces : List HashedNamespace}
      (spelled : List.Forall₂ Token.Spells s.words tokens) (none : s.features engine tokens = [])
      (others : Reads engine segments namespaces) : Reads engine (s :: segments) namespaces

/-- The second segments are the first with others put between them whose words all spell tokens that are left out. -/
inductive Idles : List Segment → List Segment → Prop
  | nil : Idles [] []
  | same {segments segments' : List Segment} (s : Segment) (others : Idles segments segments') :
      Idles (s :: segments) (s :: segments')
  | idle {s : Segment} {tokens : List Token} {segments segments' : List Segment}
      (spelled : List.Forall₂ Token.Spells s.words tokens)
      (none : ∀ t ∈ tokens, t.isKept = false) (others : Idles segments segments') : Idles segments (s :: segments')

variable {head : List Char} {segments : List Segment}

/-- A line is put together from its parts in one way. -/
theorem written_iff :
    Written head segments line ↔
      head = trim ((split (· == '|') line).headD []) ∧ segments = (split (· == '|') line).tail.map Segment.ofText := by
  have cut (texts : List (List Char)) :
      List.Forall₂ Segment.Written segments texts ↔ segments = texts.map Segment.ofText := by
    rw [← List.forall₂_eq_eq_eq, List.forall₂_map_right_iff]
    exact ⟨fun all => all.imp fun _ _ => Segment.written_iff.1, fun all => all.imp fun _ _ => Segment.written_iff.2⟩
  constructor
  · rintro ⟨front, texts, barred, padded, written⟩
    obtain ⟨rfl, rfl⟩ := barred_iff.1 barred
    exact ⟨padded_iff.1 padded, (cut _).1 written⟩
  · rintro ⟨rfl, rfl⟩
    exact ⟨_, _, barred_iff.2 ⟨rfl, rfl⟩, padded_iff.2 rfl, (cut _).2 rfl⟩

/-- Reads a head without blanks around it. -/
def readHead (engine : Engine) (head : List Char) : Except Error (Option ParsedLabel) :=
  if head = [] then .ok none else ((engine.readLabel head).mapError .label).map some

/-- The head is read without the blanks around it. -/
lemma addHead_eq_map (front : List Char) :
    addHead engine (.ofExample engine.newExample) front =
      (readHead engine (trim front)).map fun label => ⟨label, [], none, engine.leases⟩ := by
  unfold addHead readHead
  cases trim front with
  | nil => rfl
  | cons c head =>
    rw [if_neg (List.cons_ne_nil c head), Except.map_map]
    rfl

/-- What reading a line gives depends on the parts that it is put together from. -/
theorem read_of_written (written : Written head segments line) :
    read engine line = do
      let label ← readHead engine head
      let spaces ← segments.mapM (Segment.read engine)
      return ⟨label, spaces.flatten, engine.leases⟩ := by
  obtain ⟨rfl, rfl⟩ := written_iff.1 written
  unfold read
  rw [addHead_eq_map]
  cases readHead engine (trim ((split (· == '|') line).headD [])) with
  | error failure => rfl
  | ok label =>
    change (addSegments engine ⟨label, [], none, engine.leases⟩ _ >>= _) = _
    rw [addSegments_eq_read rfl]
    cases ((split (· == '|') line).tail.map Segment.ofText).mapM (Segment.read engine) <;> rfl

/-- A head is read as the label that it stands for. -/
lemma readHead_eq_ok {label : Option ParsedLabel} : readHead engine head = .ok label ↔ Labels engine head label := by
  unfold readHead
  split
  · rename_i empty
    subst empty
    constructor
    · rintro ⟨⟩
      exact .none
    · intro labels
      cases labels with
      | none => rfl
      | some ne _ => exact absurd rfl ne
  · rename_i ne
    constructor
    · intro ok
      obtain ⟨parsed, accepted, rfl⟩ := Except.map_eq_ok.1 ok
      exact .some ne (Except.mapError_eq_ok.1 accepted)
    · intro labels
      cases labels with
      | none => exact absurd rfl ne
      | some _ accepted => exact Except.map_eq_ok.2 ⟨_, Except.mapError_eq_ok.2 accepted, rfl⟩

/-- A head is refused for the fault that it has. -/
lemma reports_readHead : (readHead engine head).Reports [HeadFault engine head] := by
  intro failure
  rw [First.singleton_iff, HeadFault, readHead]
  split
  · rename_i empty
    exact ⟨nofun, fun ⟨ne, _⟩ => absurd empty ne⟩
  · rename_i ne
    rw [and_iff_right ne, Except.map_eq_error]
    cases engine.readLabel head with
    | ok label => exact ⟨nofun, nofun⟩
    | error cause =>
      exact ⟨fun same => ⟨cause, rfl, (Except.error.inj same).symm⟩, fun ⟨_, same, eq⟩ => by cases same; rw [eq]; rfl⟩

/-- A segment is refused for the first of its words that has a fault. -/
lemma Segment.reports_read (s : Segment) : (s.read engine).Reports (s.words.map Token.Fault) := by
  have words : (s.words.mapM Token.read).Reports (s.words.flatMap fun word => [Token.Fault word]) :=
    Except.Reports.mapM fun word _ failure => by rw [First.singleton_iff, Token.read_eq_error]
  rw [← List.map_eq_flatMap] at words
  exact fun failure => Except.map_eq_error.trans (words failure)

/-- A segment is read when each of its words spells a token. -/
lemma Segment.read_eq_ok {s : Segment} {spaces : List HashedNamespace} :
    s.read engine = .ok spaces ↔
      ∃ tokens, List.Forall₂ Token.Spells s.words tokens ∧ s.namespaces engine (s.features engine tokens) = spaces := by
  rw [Segment.read, Except.map_eq_ok]
  refine exists_congr fun tokens => and_congr_left' ?_
  rw [Except.mapM_eq_ok]
  exact ⟨fun all => all.imp fun _ _ => Token.read_eq_ok.1, fun all => all.imp fun _ _ => Token.read_eq_ok.2⟩

/-- The namespaces of segments are those of each, one after the other. -/
lemma reads_iff {namespaces : List HashedNamespace} :
    Reads engine segments namespaces ↔
      ∃ spaces, segments.mapM (Segment.read engine) = .ok spaces ∧ spaces.flatten = namespaces := by
  constructor
  · intro reads
    induction reads with
    | nil => exact ⟨[], rfl, rfl⟩
    | kept spelled some _ ih =>
      obtain ⟨spaces, ok, rfl⟩ := ih
      refine ⟨[_] :: spaces, ?_, rfl⟩
      rw [Except.mapM_eq_ok] at ok ⊢
      exact .cons (Segment.read_eq_ok.2 ⟨_, spelled, by simp [Segment.namespaces, some]⟩) ok
    | idle spelled none _ ih =>
      obtain ⟨spaces, ok, rfl⟩ := ih
      refine ⟨[] :: spaces, ?_, rfl⟩
      rw [Except.mapM_eq_ok] at ok ⊢
      exact .cons (Segment.read_eq_ok.2 ⟨_, spelled, by simp [Segment.namespaces, none]⟩) ok
  · rintro ⟨spaces, ok, rfl⟩
    rw [Except.mapM_eq_ok] at ok
    induction ok with
    | nil => exact .nil
    | cons first _ ih =>
      obtain ⟨tokens, spelled, rfl⟩ := Segment.read_eq_ok.1 first
      rw [List.flatten_cons, Segment.namespaces]
      split
      · rename_i none
        exact .idle spelled (List.isEmpty_iff.1 none) ih
      · rename_i some
        exact .kept spelled (by simpa using some) ih

/-- A segment whose tokens are all left out leaves no namespace. -/
lemma Segment.read_of_idle {s : Segment} {tokens : List Token} (spelled : List.Forall₂ Token.Spells s.words tokens)
    (none : ∀ t ∈ tokens, t.isKept = false) : s.read engine = .ok [] := by
  have features : s.features engine tokens = [] := by
    rw [Segment.features, List.filter_eq_nil_iff.2 fun t mem => by simp [none t mem], List.map_nil]
  exact Segment.read_eq_ok.2 ⟨tokens, spelled, by rw [features]; rfl⟩

/-- Segments without features add nothing to what others leave, and no fault. -/
lemma Idles.map_flatten {segments' : List Segment} (idles : Idles segments segments') :
    (segments'.mapM (Segment.read engine)).map List.flatten =
      (segments.mapM (Segment.read engine)).map List.flatten := by
  have step (s : Segment) (segments : List Segment) :
      ((s :: segments).mapM (Segment.read engine)).map List.flatten =
        s.read engine >>= fun spaces =>
          ((segments.mapM (Segment.read engine)).map List.flatten).map (spaces ++ ·) := by
    rw [List.mapM_cons, Except.map_bind]
    refine congrArg _ (funext fun spaces => ?_)
    rw [Except.map_bind, Except.map_map]
    cases segments.mapM (Segment.read engine) <;> rfl
  induction idles with
  | nil => rfl
  | same s _ ih => rw [step, step, ih]
  | idle spelled none _ ih =>
    rw [step, Segment.read_of_idle spelled none, ih]
    exact Except.map_id' _

/-- A line is read by its head first, then by its segments from the left. -/
lemma read_eq_bind (written : Written head segments line) :
    read engine line = readHead engine head >>= fun label =>
      ((segments.mapM (Segment.read engine)).map List.flatten).map fun namespaces =>
        ⟨label, namespaces, engine.leases⟩ := by
  rw [read_of_written written]
  refine congrArg _ (funext fun label => ?_)
  cases segments.mapM (Segment.read engine) <;> rfl

/-- A line is read exactly when its head stands for a label or nothing, and its words spell tokens. -/
lemma read_eq_ok_iff (written : Written head segments line) {e : Example} :
    read engine line = .ok e ↔
      Labels engine head e.label ∧ Reads engine segments e.namespaces ∧ e.leased = engine.leases := by
  rw [read_eq_bind written, Except.bind_eq_ok]
  constructor
  · rintro ⟨label, first, rest⟩
    obtain ⟨namespaces, others, rfl⟩ := Except.map_eq_ok.1 rest
    exact ⟨readHead_eq_ok.1 first, reads_iff.2 (Except.map_eq_ok.1 others), rfl⟩
  · rintro ⟨labels, reads, leased⟩
    refine ⟨e.label, readHead_eq_ok.2 labels, Except.map_eq_ok.2 ⟨_, Except.map_eq_ok.2 (reads_iff.1 reads), ?_⟩⟩
    rw [← leased]

/-- Reading a line reports what is wrong with the head, and then what is wrong with the words in order. -/
lemma reports_read (written : Written head segments line) :
    (read engine line).Reports (HeadFault engine head :: (segments.flatMap (·.words)).map Token.Fault) := by
  have words : (segments.mapM (Segment.read engine)).Reports (segments.flatMap fun s => s.words.map Token.Fault) :=
    Except.Reports.mapM fun s _ => s.reports_read
  have opening : (readHead engine head).Reports [HeadFault engine head] := reports_readHead
  have whole := opening.bind fun label _ =>
    words.bind fun spaces _ => Except.Reports.ok (⟨label, spaces.flatten, engine.leases⟩ : Example)
  rw [read_of_written written, List.map_flatMap]
  rwa [List.append_nil] at whole

/-- Reading a line succeeds if and only if nothing is wrong with it. -/
lemma exists_read_iff (written : Written head segments line) :
    (∃ e, read engine line = .ok e) ↔
      (head = [] ∨ ∃ label, engine.readLabel head = .ok label) ∧
        ∀ s ∈ segments, ∀ word ∈ s.words, ∀ name literal, word = name ++ ':' :: literal → ':' ∉ literal →
          ∃ weight, Binary.read .single literal = .ok weight := by
  have succeeds : (∃ e, read engine line = .ok e) ↔ ¬∃ failure, read engine line = .error failure := by
    cases read engine line <;> simp
  have accepted : (¬∃ failure, HeadFault engine head failure) ↔
      head = [] ∨ ∃ label, engine.readLabel head = .ok label := by
    unfold HeadFault
    by_cases empty : head = []
    · simp [empty]
    · cases engine.readLabel head <;> simp [empty]
  rw [succeeds, exists_congr (reports_read written), First.exists_iff, List.exists_mem_cons_iff, not_or, accepted]
  refine and_congr_right' ?_
  simp only [← Token.no_fault_iff, not_exists, not_and, List.forall_mem_map, List.forall_mem_flatMap]

/-- A line is put together from a head and segments in exactly one way. Reading it succeeds if and only if the head is
empty or a label and every word with a colon has a number behind its last one. It then gives the label and the
namespaces of the segments with tokens that are kept. Otherwise it reports the first fault from the left. A line that is
put together from the same parts, or with more segments without features, is read as the same. -/
theorem read_grammar (engine : Engine) (line : List Char) :
    ∃ head segments,
      (∀ head' segments', Written head' segments' line ↔ head' = head ∧ segments' = segments) ∧
      ((∃ e, read engine line = .ok e) ↔
        (head = [] ∨ ∃ label, engine.readLabel head = .ok label) ∧
          ∀ s ∈ segments, ∀ word ∈ s.words, ∀ name literal, word = name ++ ':' :: literal → ':' ∉ literal →
            ∃ weight, Binary.read .single literal = .ok weight) ∧
      (∀ e, read engine line = .ok e ↔
        Labels engine head e.label ∧ Reads engine segments e.namespaces ∧ e.leased = engine.leases) ∧
      (∀ failure, read engine line = .error failure ↔
        First (HeadFault engine head :: (segments.flatMap (·.words)).map Token.Fault) failure) ∧
      ∀ line' segments', Written head segments' line' → Idles segments segments' →
        read engine line' = read engine line := by
  obtain ⟨head, segments, written⟩ : ∃ head segments, Written head segments line := ⟨_, _, written_iff.2 ⟨rfl, rfl⟩⟩
  refine ⟨head, segments, fun head' segments' => ?_, exists_read_iff written, fun e => read_eq_ok_iff written,
    reports_read written, fun line' segments' other idles => ?_⟩
  · obtain ⟨rfl, rfl⟩ := written_iff.1 written
    exact written_iff
  · rw [read_eq_bind written, read_eq_bind other, idles.map_flatten]

end Line

end FeatureLines
