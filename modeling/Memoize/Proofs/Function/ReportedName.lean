import Memoize.Proofs.Function.Parts
import Memoize.Proofs.Text.Literals

/-!
# Reported names

A cache of the runtime is made with the name it is reported by, which the arguments may give as a
literal in any spelling. Main statement: the literal that is written into the declaration of the
holder stands for the same text as the one that the arguments give, and for the plain name of the
function if they give none (`Memoized.reportedName_kept`).
-/

namespace Memoize

/-! ### The name that arguments give -/

namespace Setting

/-- A setting that is read has a value, and it is the value that is read. -/
theorem exists_value_of_ok {α : Type} {read : Syntax.ExprKind → Phrase → Except ArgumentFault α}
    {setting : String} {e : Entry} {a : α} (h : value read setting e = .ok a) :
    ∃ p equals x, e = .value p equals x ∧
      read (unwrap x.kind x.phrase).1 (unwrap x.kind x.phrase).2 = .ok a := by
  cases e with
  | literal ts => cases h
  | word p => cases h
  | list p d s body =>
    simp only [value] at h
    split at h <;> cases h
  | value p equals x =>
    simp only [value] at h
    split at h
    · rename_i b hread
      obtain rfl := Except.ok.inj h
      exact ⟨p, equals, x, rfl, hread⟩
    · cases h

/-- A value that is read as a text is a literal that stands for the text. -/
theorem exists_literal_of_textOf {kind : Syntax.ExprKind} {p : Phrase} {v : String}
    (h : textOf kind p = .ok v) :
    ∃ w span suffix, kind = .literal [⟨.literal w, span⟩] ∧
      Literal.textValue? w = some (v, suffix) := by
  unfold textOf at h
  split at h
  · split at h
    · rename_i w span
      split at h
      · rename_i v suffix hvalue
        obtain rfl := Except.ok.inj h
        exact ⟨w, span, suffix, rfl, hvalue⟩
      · cases h
    · cases h
  · cases h

end Setting

namespace Entry

/-- The literal that is the value of an entry, fragments around it being looked through. -/
def literal? : Entry → Option String
  | .value _ _ v =>
    match (Setting.unwrap v.kind v.phrase).1 with
    | .literal [⟨.literal w, _⟩] => some w
    | _ => none
  | _ => none

/-- A text that is read off an entry is what its literal stands for. -/
theorem exists_literal_of_text {setting v : String} {e : Entry}
    (h : Setting.value Setting.textOf setting e = .ok v) :
    ∃ w suffix, e.literal? = some w ∧ Literal.textValue? w = some (v, suffix) := by
  obtain ⟨p, equals, x, rfl, htext⟩ := Setting.exists_value_of_ok h
  obtain ⟨w, span, suffix, hkind, hvalue⟩ := Setting.exists_literal_of_textOf htext
  exact ⟨w, suffix, by simp [literal?, hkind], hvalue⟩

end Entry

namespace CacheArgs

variable {earlier es : List Entry} {args args' : CacheArgs} {faults : List ArgumentFault}

/-- Faults that were found stay. -/
theorem faults_collect : faults <+: (collect earlier args faults es).2 := by
  induction es generalizing earlier args faults with
  | nil => exact List.prefix_rfl
  | cons e es ih =>
    rw [collect]
    split
    · exact (List.prefix_append _ _).trans ih
    · split
      · exact ih
      · exact (List.prefix_append _ _).trans ih

/-- An entry of a list without faults is for a setting that was not given before it, and is taken
into account. -/
theorem collect_cons_eq {e : Entry} (h : collect earlier args faults (e :: es) = (args', [])) :
    Setting.faultOf known earlier e = .none ∧
      ∃ next, args.add (e.name?.getD "") e = .ok next ∧
        collect (earlier ++ [e]) next faults es = (args', []) := by
  -- A fault of the entry would be among those of the whole list.
  have hstuck : ∀ f, collect (earlier ++ [e]) args (faults ++ [f]) es ≠ (args', []) := by
    intro f hf
    have hkept : faults ++ [f] <+: (collect (earlier ++ [e]) args (faults ++ [f]) es).2 :=
      faults_collect
    rw [hf] at hkept
    simp at hkept
  rw [collect] at h
  split at h
  · exact absurd h (hstuck _)
  · rename_i hfault
    split at h
    · rename_i next hnext
      exact ⟨hfault, next, hnext, h⟩
    · exact absurd h (hstuck _)

/-- No setting is given again in a list without faults. -/
theorem name?_ne_of_collect (h : collect earlier args faults es = (args', [])) {d e : Entry}
    (hd : d ∈ earlier) (he : e ∈ es) {n : String} (hn : d.name? = some n) : e.name? ≠ some n := by
  induction es generalizing earlier args with
  | nil => cases he
  | cons e' es ih =>
    obtain ⟨hfault, next, -, hrest⟩ := collect_cons_eq h
    rcases List.mem_cons.mp he with rfl | he
    · intro hagain
      simp only [Setting.faultOf, hagain] at hfault
      split at hfault
      · cases hfault
      · split at hfault
        · cases hfault
        · rename_i hfresh
          apply hfresh
          exact List.any_eq_true.mpr ⟨d, hd, by simp [hn]⟩
    · exact ih hrest (List.mem_append_left _ hd) he

/-- A value that is mapped was read. -/
theorem exists_of_map_eq_ok {α β ε : Type} {f : α → β} {x : Except ε α} {b : β}
    (h : x.map f = .ok b) : ∃ a, x = .ok a ∧ f a = b := by
  cases x with
  | error e => cases h
  | ok a => exact ⟨a, rfl, Except.ok.inj h⟩

/-- What taking an entry into account does to the name. -/
theorem name_add {setting : String} {e : Entry} (h : args.add setting e = .ok args') :
    (setting = "name" →
      ∃ v, Setting.value Setting.textOf "name" e = .ok v ∧ args'.name = some v) ∧
    (setting ≠ "name" → args'.name = args.name) := by
  unfold add at h
  split at h
  · obtain ⟨v, hv, rfl⟩ := exists_of_map_eq_ok h
    exact ⟨fun _ => ⟨v, hv, rfl⟩, fun hne => absurd rfl hne⟩
  · obtain ⟨v, -, rfl⟩ := exists_of_map_eq_ok h
    exact ⟨fun heq => absurd heq (by decide), fun _ => rfl⟩
  · obtain ⟨v, -, rfl⟩ := exists_of_map_eq_ok h
    exact ⟨fun heq => absurd heq (by decide), fun _ => rfl⟩
  · rename_i hname _ _
    obtain ⟨v, -, rfl⟩ := exists_of_map_eq_ok h
    exact ⟨fun heq => absurd heq hname, fun _ => rfl⟩

/-- The name in arguments that are read is what the entry for it gives, and nothing if there is no
such entry. -/
theorem name_of_collect (h : collect earlier args faults es = (args', [])) :
    (∀ e ∈ es, e.name? = some "name" →
      ∃ v, Setting.value Setting.textOf "name" e = .ok v ∧ args'.name = some v) ∧
    ((∀ e ∈ es, e.name? ≠ some "name") → args'.name = args.name) := by
  induction es generalizing earlier args with
  | nil =>
    obtain ⟨rfl, -⟩ := Prod.mk.inj h
    exact ⟨fun e he => absurd he List.not_mem_nil, fun _ => rfl⟩
  | cons e es ih =>
    obtain ⟨-, next, hadd, hrest⟩ := collect_cons_eq h
    obtain ⟨hgiven, hkept⟩ := name_add hadd
    obtain ⟨hlater, hnone⟩ := ih hrest
    refine ⟨fun d hd hname => ?_, fun hno => ?_⟩
    · rcases List.mem_cons.mp hd with rfl | hd
      · obtain ⟨v, hv, hnext⟩ := hgiven (by rw [hname]; rfl)
        refine ⟨v, hv, hnext ▸ hnone fun e he => ?_⟩
        exact name?_ne_of_collect hrest (List.mem_append_right _ List.mem_cons_self) he hname
      · exact hlater d hd hname
    · rw [hnone fun d hd => hno d (List.mem_cons_of_mem _ hd)]
      apply hkept
      intro hname
      apply hno e List.mem_cons_self
      cases hn : e.name? with
      | none =>
        rw [hn] at hname
        exact absurd hname (by decide)
      | some n => rw [hn] at hname; exact congrArg some hname

/-- Arguments that are read are collected from their entries. -/
theorem exists_entries_of_parse {ts : List TokenTree} (h : parse ts = .ok args) :
    ∃ es, Entry.all ts = .ok es ∧ collect [] none [] es = (args, []) := by
  unfold parse at h
  split at h
  · cases h
  · rename_i es hes
    split at h
    · rename_i args' hcollect
      split at h
      · cases h
      · obtain rfl := Except.ok.inj h
        exact ⟨es, hes, hcollect⟩
    · cases h

end CacheArgs

/-! ### The name in a declaration -/

/-- The name that a holder is reported by, if it is a cache of the runtime. -/
def Holder.reportedName? (h : Holder) : Option String :=
  match h.kind with
  | .memo => some h.cacheName
  | .custom _ => none

/-- Only caches of the runtime are reported. -/
theorem Holder.kind_of_reportedName? {h : Holder} {n : String} (hn : h.reportedName? = some n) :
    h.kind = .memo := by
  unfold Holder.reportedName? at hn
  split at hn
  · assumption
  · cases hn

namespace Memoized

variable {args : CacheArgs} {s : Signature} {body : List Statement} {names names' : Names}
  {owner? : Option Owner} {m : Memoized} {holder : Holder}

/-- A holder has the name that the arguments give for its cache, or the plain name of the function.
-/
theorem cacheName_of_parts (h : parts args s body names owner? = .ok (m, names'))
    (hholder : m.holder? = some holder) :
    holder.cacheName = args.name.getD (unraw s.name.name) := by
  obtain ⟨p, site, -, hplace, -, rfl⟩ := parts_eq_ok_iff.mp h
  unfold place at hplace
  split at hplace
  · obtain ⟨rfl, -⟩ := Prod.mk.inj (Option.some.inj hplace)
    cases hholder
  · obtain ⟨r, -, heq⟩ := Option.map_eq_some_iff.mp hplace
    obtain ⟨rfl, -⟩ := Prod.mk.inj heq
    obtain rfl := Option.some.inj hholder
    rfl

/-- The declaration of a cache of the runtime ends with the literal of its name. -/
theorem exists_tokens_memo (hkind : holder.kind = .memo) :
    ∃ before, holder.tokens = before ++ (holder.cratePath.tokens ++
      Code.globalPath ["MemoCache", "new"] ++
      Code.parens [TokenTree.ofLiteral (Text.Quoted.quote holder.cacheName)] ++
      TokenTree.ofSign ";") := by
  refine ⟨TokenTree.ofName "static" :: .leaf holder.name :: TokenTree.ofSign ":" ++
    holder.typeTokens ++ TokenTree.ofSign "=", ?_⟩
  have hinit : holder.initTokens = holder.cratePath.tokens ++
      Code.globalPath ["MemoCache", "new"] ++ Code.parens [Code.text holder.cacheName] := by
    rw [Holder.initTokens, hkind]
  rw [Holder.tokens, hinit]
  simp only [Code.text, List.append_assoc]

/-- **The name of a cache survives memoization.** Arguments that can be read, whatever path to the
runtime is used with them, and a function that is memoized by them with a cache of the runtime as
its holder. The declaration of the holder passes one literal to the constructor of the cache. It
stands for the text that the literal of the argument `name` stands for, however that is spelled, and
for the name of the function without the mark of raw names if there is no such argument. Besides,
what is written for a text always stands for the text. -/
theorem reportedName_kept {arguments : List TokenTree} {parsed : CacheArgs}
    (hparse : CacheArgs.parse arguments = .ok parsed) (cratePath : Option Path)
    (h : parts { parsed with cratePath } s body names owner? = .ok (m, names'))
    (hholder : m.holder? = some holder) (hkind : holder.kind = .memo) :
    (∃ entries before w v, Entry.all arguments = .ok entries ∧
      holder.tokens = before ++ (holder.cratePath.tokens ++ Code.globalPath ["MemoCache", "new"] ++
        Code.parens [TokenTree.ofLiteral w] ++ TokenTree.ofSign ";") ∧
      Literal.textValue? w = some (v, "") ∧
      (∀ e ∈ entries, e.name? = some "name" →
        ∃ given suffix, e.literal? = some given ∧ Literal.textValue? given = some (v, suffix)) ∧
      ((∀ e ∈ entries, e.name? ≠ some "name") → v = unraw s.name.name)) ∧
    ∀ text : String, Literal.textValue? (Text.Quoted.quote text) = some (text, "") := by
  obtain ⟨entries, hentries, hcollect⟩ := CacheArgs.exists_entries_of_parse hparse
  obtain ⟨hgiven, hnone⟩ := CacheArgs.name_of_collect hcollect
  obtain ⟨before, htokens⟩ := exists_tokens_memo hkind
  have hname := cacheName_of_parts h hholder
  dsimp only at hname
  refine ⟨⟨entries, before, _, holder.cacheName, hentries, htokens,
    Literal.textValue?_quote holder.cacheName, fun e he hentry => ?_, fun hno => ?_⟩,
    Literal.textValue?_quote⟩
  · obtain ⟨v, hv, hparsed⟩ := hgiven e he hentry
    rw [hname, hparsed]
    exact Entry.exists_literal_of_text hv
  · rw [hname, hnone hno]
    rfl

/-- Arguments and a function as texts, with what memoizing the function gives. -/
def memoizedBy? (arguments function : String) :
    Option (List TokenTree × CacheArgs × Function × Memoized × Names) :=
  (TokenTree.lex 0 arguments).bind fun ts =>
    ((TokenTree.lex 1 function).bind Syntax.parseFunction?).bind fun f =>
      match CacheArgs.parse ts with
      | .error _ => none
      | .ok args =>
        match parts args f.signature f.body .empty none with
        | .ok (m, names) => some (ts, args, f, m, names)
        | .error _ => none

/-- What such arguments and such a function are. -/
theorem memoizedBy?_eq_some {arguments function : String} {ts : List TokenTree} {f : Function}
    (h : memoizedBy? arguments function = some (ts, args, f, m, names)) :
    TokenTree.lex 0 arguments = some ts ∧ CacheArgs.parse ts = .ok args ∧
      (TokenTree.lex 1 function).bind Syntax.parseFunction? = some f ∧
      parts args f.signature f.body .empty none = .ok (m, names) := by
  obtain ⟨ts', hts, h⟩ := Option.bind_eq_some_iff.mp h
  obtain ⟨f', hf, h⟩ := Option.bind_eq_some_iff.mp h
  split at h
  · cases h
  · rename_i args' hparse
    split at h
    · rename_i m' names' hparts
      cases h
      exact ⟨hts, hparse, hf, hparts⟩
    · cases h

/-- A name in which a quote, a backslash, the zero character before a digit, and a combining mark
are spelled in other ways than they are written. -/
def respelledArguments : String := "name = \"\\x22\\\\\\0\\u\x7b31\x7de\\u\x7b0_301\x7d\""

/-- A function with a raw name. -/
def rawFunction : String := "fn r#try(x: u8) -> u8 \x7b x \x7d"

/-- The declaration for such a function has the name as it is meant. -/
theorem reportedName_kept_respelled :
    ∃ arguments parsed f m names' holder before w,
      TokenTree.lex 0 respelledArguments = some arguments ∧
      CacheArgs.parse arguments = .ok parsed ∧
      (TokenTree.lex 1 rawFunction).bind Syntax.parseFunction? = some f ∧
      parts parsed f.signature f.body .empty none = .ok (m, names') ∧
      m.holder? = some holder ∧ holder.kind = .memo ∧
      holder.tokens = before ++ (holder.cratePath.tokens ++ Code.globalPath ["MemoCache", "new"] ++
        Code.parens [TokenTree.ofLiteral w] ++ TokenTree.ofSign ";") ∧
      Literal.textValue? w = some ("\"\\\u00001e\u0301", "") := by
  have hrun : (memoizedBy? respelledArguments rawFunction).bind (fun r =>
      r.2.2.2.1.holder?.bind fun h =>
        h.reportedName?.bind fun _ =>
          (Entry.all r.1).toOption.map fun es => es.map fun e => (e.name?, e.literal?)) =
      some [(some "name", some "\"\\x22\\\\\\0\\u\x7b31\x7de\\u\x7b0_301\x7d\"")] := by
    decide +kernel
  obtain ⟨⟨ts, args, f, m, names'⟩, hread, hrun⟩ := Option.bind_eq_some_iff.mp hrun
  obtain ⟨holder, hholder, hrun⟩ := Option.bind_eq_some_iff.mp hrun
  obtain ⟨hlex, hparse, hf, hparts⟩ := memoizedBy?_eq_some hread
  obtain ⟨n, hn, hrun⟩ := Option.bind_eq_some_iff.mp hrun
  have hkind := Holder.kind_of_reportedName? hn
  obtain ⟨⟨entries, before, w, v, hentries, htokens, hw, hgiven, -⟩, -⟩ :=
    reportedName_kept hparse args.cratePath hparts hholder hkind
  rw [hentries] at hrun
  obtain ⟨e, rfl, he⟩ := List.map_eq_singleton_iff.mp (Option.some.inj hrun)
  obtain ⟨hname, hliteral⟩ := Prod.mk.inj he
  obtain ⟨given, suffix, hgiven, hvalue⟩ := hgiven e List.mem_cons_self hname
  obtain rfl := Option.some.inj (hliteral.symm.trans hgiven)
  have hmeant : Literal.textValue? "\"\\x22\\\\\\0\\u\x7b31\x7de\\u\x7b0_301\x7d\"" =
      some ("\"\\\u00001e\u0301", "") := by
    decide +kernel
  obtain ⟨rfl, -⟩ := Prod.mk.inj (Option.some.inj (hmeant.symm.trans hvalue))
  exact ⟨ts, args, f, m, names', holder, before, w, hlex, hparse, hf, hparts, hholder, hkind,
    htokens, hw⟩

end Memoized

end Memoize
