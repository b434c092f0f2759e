import Memoize.Proofs.Types.Additive
import Memoize.TypeRules

/-!
# Lifetimes in types without offences

Which lifetimes a type can have in which no offence is found. `Phrase.hidden` lists the parts that
the search for offences does not look into: function types, the parameters and results of callables,
unparsed tokens and plain words. A lifetime other than `'static` that stands anywhere else is
reported (`Phrase.hidden_or_reported`), so that all lifetimes of a type without offences stand in
hidden parts (`Phrase.bears_iff`). The same is true of the lifetimes that no binder of the type
declares (`Phrase.strays_iff`), since a binder that is not hidden declares only what is reported.

## Implementation notes

A binder is not a phrase of its own, but stands in a row with what it binds: the word `for`, a
bracket, the parameters and a bracket. `Phrase.anyStrays` reads a row from its beginning and keeps
track of how far a binder is opened and of whether the lifetime is bound; a plus sign ends what a
binder binds.
-/

namespace Memoize

open TokenTree

namespace TokenTree

mutual

/-- Whether a tree has a lifetime in it. -/
def bears (x : String) : TokenTree → Bool
  | leaf t => t.word == .lifetime x
  | group _ _ body => anyBears x body

/-- Whether a stream has a lifetime in it, within groups as well. -/
def anyBears (x : String) : List TokenTree → Bool
  | [] => false
  | t :: rest => bears x t || anyBears x rest

end

@[simp] theorem anyBears_nil (x : String) : anyBears x [] = false := by simp [anyBears]

@[simp] theorem anyBears_cons (x : String) (t : TokenTree) (ts : List TokenTree) :
    anyBears x (t :: ts) = (t.bears x || anyBears x ts) := by simp [anyBears]

@[simp] theorem bears_leaf (x : String) (t : Token) :
    (leaf t).bears x = (t.word == .lifetime x) := by simp [bears]

@[simp] theorem bears_group (x : String) (d : Delimiter) (s : Option Span) (ts : List TokenTree) :
    (group d s ts).bears x = anyBears x ts := by simp [bears]

/-- A concatenation has the lifetimes of its parts. -/
@[simp] theorem anyBears_append (x : String) (s t : List TokenTree) :
    anyBears x (s ++ t) = (anyBears x s || anyBears x t) := by
  induction s with
  | nil => simp
  | cons a s ih => simp [ih, Bool.or_assoc]

/-- Having a lifetime is found in parts. -/
theorem additive_bears (x : String) : Additive fun ts => anyBears x ts = true where
  not_nil := by simp
  append_iff s t := by simp
  group_iff d span ts := by simp
  not_mark c joint span := by simp

end TokenTree

namespace Phrase

/-! ### Parts that are not looked into -/

mutual

/-- The parts of a phrase that the search for offences does not look into, or refuses as a whole
because of what they are. -/
def hidden : Phrase → List Phrase
  | word t => [word t]
  | raw ts => [raw ts]
  | lifetime _ => []
  | group _ _ parts => allHidden parts
  | seq parts => allHidden parts
  | named leading head rest => leading.map word ++ word head :: allHidden rest
  | reference amp _ mutable target => word amp :: mutable.toList.map word ++ hidden target
  | implTrait parts => [implTrait parts]
  | hole t => [hole t]
  | wrapped _ _ inner => hidden inner
  | shielded parts => [shielded parts]
  | receiver shown implied =>
    allHidden shown ++ if impliesPlainly shown implied then [] else hidden implied
  | late clause between => hidden clause ++ hidden between
  | entry _ value comma => hidden value ++ comma.toList.map word
  | lifetimesFirst entries => allHidden entries

/-- The parts of phrases in a row that the search for offences does not look into. -/
def allHidden : List Phrase → List Phrase
  | [] => []
  | p :: rest => hidden p ++ allHidden rest

end

/-- The report of a lifetime as borrowed data. -/
def ReportsLifetime (x : String) (d : Diagnostic) : Prop :=
  ∃ t : Token, t.word = .lifetime x ∧ d = Refusal.borrowed.at_ [.leaf t]

/-- A lifetime other than `'static` is reported. -/
theorem reported_of_lifetime {x : String} (hx : x ≠ "static") {t : Token}
    (ht : t.word = .lifetime x) : ∃ d ∈ lifetimeOffence t, ReportsLifetime x d := by
  refine ⟨Refusal.borrowed.at_ [.leaf t], ?_, t, ht, rfl⟩
  simp [lifetimeOffence, ht, hx]

/-- A lifetime stands in one of several parts, or it is among the reports. -/
def Accounted (x : String) (parts : List Phrase) (reports : List Diagnostic) : Prop :=
  (∃ q ∈ parts, anyBears x q.tokens = true) ∨ ∃ d ∈ reports, ReportsLifetime x d

/-- More parts and more reports account for what some account for. -/
theorem Accounted.mono {x : String} {ps qs : List Phrase} {ds es : List Diagnostic}
    (h : Accounted x ps ds) (hparts : ps ⊆ qs) (hreports : ds ⊆ es) : Accounted x qs es :=
  h.imp (fun ⟨q, hq, hx⟩ => ⟨q, hparts hq, hx⟩) fun ⟨d, hd, hx⟩ => ⟨d, hreports hd, hx⟩

/-- A part accounts for its lifetimes. -/
theorem Accounted.of_mem {x : String} {p : Phrase} {ps : List Phrase} (hp : p ∈ ps)
    (h : anyBears x p.tokens = true) (ds : List Diagnostic) : Accounted x ps ds :=
  Or.inl ⟨p, hp, h⟩

/-- Words in a row account for their lifetimes. -/
theorem Accounted.of_leaves {x : String} {ts : List Token} (h : anyBears x (ts.map leaf) = true)
    {ps : List Phrase} (hps : ts.map word ⊆ ps) (ds : List Diagnostic) : Accounted x ps ds := by
  obtain ⟨t, ht, h⟩ := ((additive_bears x).leaves_iff ts).mp h
  exact .of_mem (hps (List.mem_map_of_mem ht)) (by rwa [tokens]) ds

section Reported

variable {x : String}

/-- Hidden words are printed. -/
theorem bears_of_leaf {ts : List Token} {q : Phrase} (hq : q ∈ ts.map word)
    (h : anyBears x q.tokens = true) : anyBears x (ts.map leaf) = true := by
  obtain ⟨t, ht, rfl⟩ := List.mem_map.mp hq
  exact ((additive_bears x).leaves_iff ts).mpr ⟨t, ht, by rwa [tokens] at h⟩

/-- A lifetime other than `'static` is reported where it is looked at. -/
theorem accounted_lifetime (hx : x ≠ "static") {t : Token} (h : t.word = .lifetime x)
    (ps : List Phrase) : Accounted x ps (lifetimeOffence t) := by
  refine Or.inr ⟨Refusal.borrowed.at_ [.leaf t], ?_, t, h, rfl⟩
  simp [lifetimeOffence, h, hx]

mutual

/-- A lifetime other than `'static` stands in a hidden part, or it is reported. -/
theorem hidden_or_reported (hx : x ≠ "static") (forbidSelf : Bool) (p : Phrase)
    (h : anyBears x p.tokens = true) : Accounted x (hidden p) (offences forbidSelf p) := by
  cases p with
  | word t => exact .of_mem (List.mem_singleton_self _) h _
  | raw ts => exact .of_mem (List.mem_singleton_self _) h _
  | lifetime t =>
    rw [offences]
    exact accounted_lifetime hx (by simpa [tokens] using h) _
  | group d s parts =>
    rw [hidden, offences]
    exact allHidden_or_reported hx forbidSelf parts (by simpa [tokens] using h)
  | seq parts =>
    rw [hidden, offences]
    exact allHidden_or_reported hx forbidSelf parts (by simpa [tokens] using h)
  | named leading head rest =>
    rw [hidden, offences]
    simp only [tokens, anyBears_append, anyBears_cons, Bool.or_eq_true] at h
    rcases h with hleading | hhead | hrest
    · exact .of_leaves hleading (List.subset_append_left _ _) _
    · exact .of_mem (p := word head) (by simp) (by simpa [tokens] using hhead) _
    · refine (allHidden_or_reported hx forbidSelf rest hrest).mono ?_ (List.subset_append_right _ _)
      exact List.subset_append_of_subset_right _ (List.subset_cons_self _ _)
  | reference amp region mutable target =>
    rw [hidden, offences.eq_def]
    simp only [tokens, anyBears_append, anyBears_cons, Bool.or_eq_true] at h
    rcases h with hamp | hregion | hmutable | htarget
    · exact .of_mem (p := word amp) (by simp) (by simpa [tokens] using hamp) _
    · cases region with
      | none => simp at hregion
      | some t =>
        refine (accounted_lifetime hx (by simpa using hregion) _).mono (List.Subset.refl _) ?_
        exact List.subset_append_left _ _
    · refine .of_leaves hmutable ?_ _
      exact List.subset_cons_of_subset _ (List.subset_append_left _ _)
    · refine (hidden_or_reported hx forbidSelf target htarget).mono ?_
        (List.subset_append_right _ _)
      exact List.subset_cons_of_subset _ (List.subset_append_right _ _)
  | implTrait parts => exact .of_mem (List.mem_singleton_self _) h _
  | hole t => exact .of_mem (List.mem_singleton_self _) h _
  | wrapped d s inner =>
    rw [hidden, offences]
    exact hidden_or_reported hx forbidSelf inner (by simpa [tokens] using h)
  | shielded parts => exact .of_mem (List.mem_singleton_self _) h _
  | receiver shown implied =>
    rw [hidden, offences]
    simp only [tokens, anyBears_append, Bool.or_eq_true] at h
    rcases h with hshown | himplied
    · exact (allHidden_or_reported hx forbidSelf shown hshown).mono (List.subset_append_left _ _)
        (List.subset_append_left _ _)
    · cases hplain : impliesPlainly shown implied with
      | true => simp [hplain] at himplied
      | false =>
        have hwritten : anyBears x implied.tokens = true := by
          rw [hplain, if_neg Bool.false_ne_true, (additive_bears x).append_iff] at himplied
          exact himplied.resolve_left ((additive_bears x).not_sign ":")
        exact (hidden_or_reported hx forbidSelf implied hwritten).mono
          (List.subset_append_right _ _)
          (List.subset_append_right _ _)
  | late clause between =>
    rw [hidden, offences]
    simp only [tokens, anyBears_append, Bool.or_eq_true] at h
    rcases h with hbetween | hclause
    · exact (hidden_or_reported hx forbidSelf between hbetween).mono (List.subset_append_right _ _)
        (List.subset_append_right _ _)
    · exact (hidden_or_reported hx forbidSelf clause hclause).mono (List.subset_append_left _ _)
        (List.subset_append_left _ _)
  | entry l value comma =>
    rw [hidden, offences]
    simp only [tokens, anyBears_append, Bool.or_eq_true] at h
    rcases h with hvalue | hcomma
    · exact (hidden_or_reported hx forbidSelf value hvalue).mono (List.subset_append_left _ _)
        (List.Subset.refl _)
    · exact .of_leaves hcomma (List.subset_append_right _ _) _
  | lifetimesFirst entries =>
    rw [hidden, offences]
    rw [tokens] at h
    exact allHidden_or_reported hx forbidSelf entries
      (((additive_bears x).arrange_iff entries).mp h)

/-- Lifetimes other than `'static` stand in hidden parts, or they are reported. -/
theorem allHidden_or_reported (hx : x ≠ "static") (forbidSelf : Bool) (ps : List Phrase)
    (h : anyBears x (allTokens ps) = true) :
    Accounted x (allHidden ps) (allOffences forbidSelf ps) := by
  cases ps with
  | nil => simp at h
  | cons p rest =>
    rw [allHidden, allOffences]
    simp only [allTokens_cons, anyBears_append, Bool.or_eq_true] at h
    rcases h with hp | hrest
    · exact (hidden_or_reported hx forbidSelf p hp).mono (List.subset_append_left _ _)
        (List.subset_append_left _ _)
    · exact (allHidden_or_reported hx forbidSelf rest hrest).mono (List.subset_append_right _ _)
        (List.subset_append_right _ _)

end

mutual

/-- The lifetimes of a hidden part are printed. -/
theorem bears_of_hidden (p : Phrase) {q : Phrase} (hq : q ∈ hidden p)
    (h : anyBears x q.tokens = true) : anyBears x p.tokens = true := by
  cases p with
  | lifetime t => cases hq
  | word t =>
    obtain rfl := List.mem_singleton.mp hq
    exact h
  | raw ts =>
    obtain rfl := List.mem_singleton.mp hq
    exact h
  | implTrait parts =>
    obtain rfl := List.mem_singleton.mp hq
    exact h
  | hole t =>
    obtain rfl := List.mem_singleton.mp hq
    exact h
  | shielded parts =>
    obtain rfl := List.mem_singleton.mp hq
    exact h
  | group d s parts => simpa [tokens] using allBears_of_allHidden parts hq h
  | seq parts => simpa [tokens] using allBears_of_allHidden parts hq h
  | wrapped d s inner => simpa [tokens] using bears_of_hidden inner hq h
  | lifetimesFirst entries =>
    rw [tokens]
    exact ((additive_bears x).arrange_iff entries).mpr (allBears_of_allHidden entries hq h)
  | named leading head rest =>
    simp only [hidden, List.mem_append, List.mem_cons] at hq
    simp only [tokens, anyBears_append, anyBears_cons, Bool.or_eq_true]
    rcases hq with hleading | rfl | hrest
    · exact Or.inl (bears_of_leaf hleading h)
    · exact Or.inr (Or.inl (by simpa [tokens] using h))
    · exact Or.inr (Or.inr (allBears_of_allHidden rest hrest h))
  | reference amp region mutable target =>
    simp only [hidden, List.cons_append, List.mem_append, List.mem_cons] at hq
    simp only [tokens, anyBears_append, anyBears_cons, Bool.or_eq_true]
    rcases hq with rfl | hmutable | htarget
    · exact Or.inl (by simpa [tokens] using h)
    · exact Or.inr (Or.inr (Or.inl (bears_of_leaf hmutable h)))
    · exact Or.inr (Or.inr (Or.inr (bears_of_hidden target htarget h)))
  | receiver shown implied =>
    simp only [hidden, List.mem_append] at hq
    simp only [tokens, anyBears_append, Bool.or_eq_true]
    rcases hq with hshown | himplied
    · exact Or.inl (allBears_of_allHidden shown hshown h)
    · cases hplain : impliesPlainly shown implied with
      | true => simp [hplain] at himplied
      | false =>
        rw [hplain, if_neg Bool.false_ne_true] at himplied
        rw [if_neg Bool.false_ne_true, anyBears_append, Bool.or_eq_true]
        exact Or.inr (Or.inr (bears_of_hidden implied himplied h))
  | late clause between =>
    simp only [hidden, List.mem_append] at hq
    simp only [tokens, anyBears_append, Bool.or_eq_true]
    rcases hq with hclause | hbetween
    · exact Or.inr (bears_of_hidden clause hclause h)
    · exact Or.inl (bears_of_hidden between hbetween h)
  | entry l value comma =>
    simp only [hidden, List.mem_append] at hq
    simp only [tokens, anyBears_append, Bool.or_eq_true]
    rcases hq with hvalue | hcomma
    · exact Or.inl (bears_of_hidden value hvalue h)
    · exact Or.inr (bears_of_leaf hcomma h)

/-- The lifetimes of the hidden parts of a row are printed. -/
theorem allBears_of_allHidden (ps : List Phrase) {q : Phrase} (hq : q ∈ allHidden ps)
    (h : anyBears x q.tokens = true) : anyBears x (allTokens ps) = true := by
  cases ps with
  | nil => cases hq
  | cons p rest =>
    simp only [allHidden, List.mem_append] at hq
    rw [allTokens_cons, anyBears_append, Bool.or_eq_true]
    rcases hq with hp | hrest
    · exact Or.inl (bears_of_hidden p hp h)
    · exact Or.inr (allBears_of_allHidden rest hrest h)

end

/-- A phrase without offences has a lifetime other than `'static` exactly if a hidden part has it.
-/
theorem bears_iff (hx : x ≠ "static") {forbidSelf : Bool} {p : Phrase}
    (h : offences forbidSelf p = []) :
    anyBears x p.tokens = true ↔ ∃ q ∈ hidden p, anyBears x q.tokens = true := by
  constructor
  · intro hbears
    rcases hidden_or_reported hx forbidSelf p hbears with hhidden | ⟨d, hd, -⟩
    · exact hhidden
    · rw [h] at hd
      cases hd
  · rintro ⟨q, hq, hbears⟩
    exact bears_of_hidden p hq hbears

end Reported

/-! ### Lifetimes that no binder declares -/

/-- How far a binder is opened at a place of a row. -/
inductive Opening where
  | closed
  /-- After the word `for`. -/
  | word
  /-- After the word and the bracket: the parameters come next. -/
  | bracket
  deriving DecidableEq

/-- How far a binder is opened after a further phrase of the row. -/
def Opening.after (o : Opening) : Phrase → Opening
  | .word ⟨.name "for", _⟩ => .word
  | .word ⟨.mark '<' _, _⟩ => if o = .word then .bracket else .closed
  | _ => .closed

/-- Whether a parameter of a binder, with its comma, declares a lifetime. -/
def declaresOne (x : String) : Phrase → Bool
  | .seq (.seq (_ :: .lifetime t :: _) :: _) => t.word == .lifetime x
  | _ => false

/-- Whether the parameters of a binder declare a lifetime. -/
def declares (x : String) : Phrase → Bool
  | .seq params => params.any (declaresOne x)
  | _ => false

/-- Whether a lifetime is bound from a phrase of a row on: by the binder whose parameters the phrase
is, and as before it otherwise. After a plus sign it is bound as around the row. -/
def boundFrom (x : String) (around bound : Bool) (o : Opening) (p : Phrase) : Bool :=
  match o, p with
  | .bracket, p => bound || declares x p
  | _, .word ⟨.mark '+' _, _⟩ => around
  | _, _ => bound

mutual

/-- Whether a phrase has a lifetime that no binder in it declares, and that is not bound around it.
-/
def strays (x : String) (bound : Bool) : Phrase → Bool
  | word t => !bound && t.word == .lifetime x
  | raw ts => !bound && anyBears x ts
  | lifetime t => !bound && t.word == .lifetime x
  | group _ _ parts => anyStrays x bound bound .closed parts
  | seq parts => anyStrays x bound bound .closed parts
  | named leading head rest =>
    (!bound && anyBears x (leading.map leaf)) || (!bound && head.word == .lifetime x) ||
      anyStrays x bound bound .closed rest
  | reference amp region mutable target =>
    (!bound && (amp.word == .lifetime x || anyBears x (region.toList.map leaf) ||
      anyBears x (mutable.toList.map leaf))) || strays x bound target
  | implTrait parts => anyStrays x bound bound .closed parts
  | hole t => !bound && t.word == .lifetime x
  | wrapped _ _ inner => strays x bound inner
  | shielded parts => anyStrays x bound bound .closed parts
  | receiver shown implied =>
    anyStrays x bound bound .closed shown ||
      (!impliesPlainly shown implied && strays x bound implied)
  | late clause between => strays x bound clause || strays x bound between
  | entry _ value comma => strays x bound value || (!bound && anyBears x (comma.toList.map leaf))
  | lifetimesFirst entries => anyStrays x bound bound .closed entries

/-- Whether a row has a lifetime that no binder in it declares, and that is not bound `around` it.
At the place in question the lifetime may be `bound`, and a binder opened. -/
def anyStrays (x : String) (around bound : Bool) (o : Opening) : List Phrase → Bool
  | [] => false
  | p :: rest =>
    strays x (boundFrom x around bound o p) p ||
      anyStrays x around (boundFrom x around bound o p) (o.after p) rest

end

section Strays

variable {x : String} {forbidSelf : Bool}

/-- A lifetime that is not reported is `'static`. -/
theorem ne_lifetime_of_offence (hx : x ≠ "static") {t : Token} (h : lifetimeOffence t = []) :
    (t.word == .lifetime x) = false := by
  unfold lifetimeOffence at h
  split at h
  · rename_i hstatic
    simp [hstatic, Ne.symm hx]
  · cases h

/-- The offences of a row are those of its phrases. -/
theorem offences_of_mem {ps : List Phrase} (h : allOffences forbidSelf ps = []) {p : Phrase}
    (hp : p ∈ ps) : offences forbidSelf p = [] := by
  induction ps with
  | nil => cases hp
  | cons q rest ih =>
    rw [allOffences, List.append_eq_nil_iff] at h
    rcases List.mem_cons.mp hp with rfl | hp
    · exact h.1
    · exact ih h.2 hp

/-- A binder without offence declares nothing but `'static`. -/
theorem declares_eq_false (hx : x ≠ "static") {p : Phrase} (h : offences forbidSelf p = []) :
    declares x p = false := by
  unfold declares
  split
  · rename_i params
    rw [offences] at h
    refine List.any_eq_false.mpr fun param hparam => ?_
    have hclean := offences_of_mem h hparam
    unfold declaresOne
    split
    · rename_i attributes t bounds comma
      simp only [offences, allOffences, List.append_eq_nil_iff] at hclean
      simp [ne_lifetime_of_offence hx hclean.1.2.1]
    · exact Bool.false_ne_true
  · rfl

/-- Words have the lifetimes that one of them is. -/
theorem exists_stray_word (ts : List Token) :
    (∃ q ∈ ts.map word, strays x false q = true) ↔ anyBears x (ts.map leaf) = true := by
  rw [(additive_bears x).leaves_iff]
  constructor
  · rintro ⟨q, hq, h⟩
    obtain ⟨t, ht, rfl⟩ := List.mem_map.mp hq
    exact ⟨t, ht, by simpa [strays] using h⟩
  · rintro ⟨t, ht, h⟩
    exact ⟨word t, List.mem_map_of_mem ht, by simpa [strays] using h⟩

mutual

/-- In a phrase without offences the lifetimes that no binder declares are those of its hidden
parts. -/
theorem strays_iff (hx : x ≠ "static") (p : Phrase) (h : offences forbidSelf p = []) :
    strays x false p = true ↔ ∃ q ∈ hidden p, strays x false q = true := by
  cases p with
  | word t => simp [hidden]
  | raw ts => simp [hidden]
  | implTrait parts => simp [hidden]
  | hole t => simp [hidden]
  | shielded parts => simp [hidden]
  | lifetime t =>
    rw [offences] at h
    simp [hidden, strays, ne_lifetime_of_offence hx h]
  | group d s parts =>
    rw [offences] at h
    simpa only [strays, hidden] using anyStrays_iff hx .closed parts h
  | seq parts =>
    rw [offences] at h
    simpa only [strays, hidden] using anyStrays_iff hx .closed parts h
  | lifetimesFirst entries =>
    rw [offences] at h
    simpa only [strays, hidden] using anyStrays_iff hx .closed entries h
  | wrapped d s inner =>
    rw [offences] at h
    simpa only [strays, hidden] using strays_iff hx inner h
  | named leading head rest =>
    rw [offences, List.append_eq_nil_iff] at h
    have hleading := exists_stray_word (x := x) leading
    have hrest := anyStrays_iff hx .closed rest h.2
    simp only [hidden, List.mem_append, List.mem_cons, or_and_right, exists_or, exists_eq_left,
      hleading, ← hrest]
    simp [strays, or_assoc]
  | reference amp region mutable target =>
    rw [offences.eq_def, List.append_eq_nil_iff] at h
    have hregion : anyBears x (region.toList.map leaf) = false := by
      cases region with
      | none => cases h.1
      | some t => simp [ne_lifetime_of_offence hx h.1]
    have hmutable := exists_stray_word (x := x) mutable.toList
    have htarget := strays_iff hx target h.2
    simp only [hidden, List.cons_append, List.mem_append, List.mem_cons, or_and_right, exists_or,
      exists_eq_left, hmutable, ← htarget]
    simp [strays, hregion, or_assoc]
  | receiver shown implied =>
    rw [offences, List.append_eq_nil_iff] at h
    have hshown := anyStrays_iff hx .closed shown h.1
    have himplied := strays_iff hx implied h.2
    simp only [strays, hidden, List.mem_append, or_and_right, exists_or, ← hshown,
      Bool.or_eq_true]
    cases impliesPlainly shown implied with
    | true => simp
    | false => simp [himplied]
  | late clause between =>
    rw [offences, List.append_eq_nil_iff] at h
    have hclause := strays_iff hx clause h.1
    have hbetween := strays_iff hx between h.2
    simp only [strays, hidden, List.mem_append, or_and_right, exists_or, ← hclause, ← hbetween,
      Bool.or_eq_true]
  | entry l value comma =>
    rw [offences] at h
    have hvalue := strays_iff hx value h
    have hcomma := exists_stray_word (x := x) comma.toList
    simp only [strays, hidden, List.mem_append, or_and_right, exists_or, ← hvalue, hcomma,
      Bool.or_eq_true, Bool.not_false, Bool.true_and]

/-- In a row without offences the lifetimes that no binder declares are those of its hidden parts.
-/
theorem anyStrays_iff (hx : x ≠ "static") (o : Opening) (ps : List Phrase)
    (h : allOffences forbidSelf ps = []) :
    anyStrays x false false o ps = true ↔ ∃ q ∈ allHidden ps, strays x false q = true := by
  cases ps with
  | nil => simp [anyStrays, allHidden]
  | cons p rest =>
    rw [allOffences, List.append_eq_nil_iff] at h
    have hbound : boundFrom x false false o p = false := by
      unfold boundFrom
      split
      · simpa using declares_eq_false hx h.1
      · rfl
      · rfl
    have hp := strays_iff hx p h.1
    have hrest := anyStrays_iff hx (o.after p) rest h.2
    simp only [anyStrays, hbound, allHidden, List.mem_append, or_and_right, exists_or, ← hp,
      ← hrest, Bool.or_eq_true]

end

end Strays

end Phrase

end Memoize
