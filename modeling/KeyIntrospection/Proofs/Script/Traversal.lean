import KeyIntrospection.Proofs.Script.Continuation
import KeyIntrospection.Proofs.Script.Regions
import KeyIntrospection.Proofs.Script.WellFormed

/-!
Walks through the rules of scripts. What is known of the tokens of scripts, together with the regions they give, and
goes from the parts of a rule to the whole is known of every rule and of the regions of what it gives.
-/

namespace KeyIntrospection.Script

/-- Something that may be found of a rule and the regions in what it gives, and that goes from parts to the whole. -/
structure Traversal where
  Finds : {α : Type} → Rule α → (α → List Region) → Prop
  congr : ∀ {α : Type} {p : Rule α} {f f' : α → List Region}, Finds p f → (∀ x, f x = f' x) → Finds p f'
  seq : ∀ {α β : Type} {gap : Gap} {p : Rule α} {q : Rule β} {f : α → List Region} {g : β → List Region},
    Finds p f → Finds q g → Finds (Grammar.seq gap p q) fun x => f x.1 ++ g x.2
  choice : ∀ {α : Type} {p q : Rule α} {f : α → List Region}, Finds p f → Finds q f → Finds (.choice p q) f
  map : ∀ {α β : Type} {h : α → β} {p : Rule α} {g : β → List Region}, Finds p (fun x => g (h x)) → Finds (.map h p) g
  /-- The regions in a phrase. -/
  inside : ∀ {α : Type} {name : Phrase} {p : Rule α} {f : α → List Region},
    Finds p f → Finds (Grammar.phrase name p) fun x => f x.value
  optional : ∀ {α : Type} {p : Rule α} {f : α → List Region}, Finds p f → Finds (.optional p) fun x => x.toList.flatMap f
  many : ∀ {α : Type} {p : Rule α} {f : α → List Region}, Finds p f → Finds (.many p) fun l => l.flatMap f
  ahead : ∀ {α : Type} {p : Rule α}, Finds (.ahead p) fun _ => []
  plain : ∀ {t : Token}, t.Plain → Finds (.plain t) fun _ => []
  endOfInput : Finds Rule.endOfInput fun _ => []
  keyword : ∀ k : Keyword, Finds (Rule.keyword k) fun _ => []
  variableName : Finds Rule.variableName fun n => [nameAt n]
  className : Finds Rule.className fun n => [nameAt n]
  attributeName : Finds Rule.attributeName fun n => [nameAt n]
  accessorName : Finds (Rule.name .accessorName Word.accessorName) fun n => [nameAt n]
  symbol : Finds Rule.symbol fun n => [symbolAt n]
  string : Finds Rule.string fun s => [literalAt (s.map .string)]
  integer : Finds (.token .integer Word.integer fun x => (readInteger x).map (⟨.int ·, x.span⟩)) fun l => [literalAt l]
  float : Finds (.token .float Word.float fun x => .ok ⟨.float (readFloat x), x.span⟩) fun l => [literalAt l]
  phrase : ∀ {α : Type} {name : Phrase} {parts : Rule α} {f : α → List Region}, parts.Consumes → Finds parts f →
    Finds (Grammar.phrase name parts) fun x => [phraseAt f x]
  /-- A region that another one fills. -/
  around : ∀ {α : Type} {p : Rule α} {r : α → Region}, Finds p (fun x => [r x]) →
    Finds p fun x => [.node (r x).span .other [r x]]

namespace Rule

theorem boolean_consumes : (Grammar.choice (.map (fun _ => true) (keyword .trueWord))
    (.map (fun _ => false) (keyword .falseWord)) : Rule Bool).Consumes :=
  .choice (keyword_consumes _).map (keyword_consumes _).map

theorem literal_consumes : literal.Consumes :=
  .map (.phrase (.choice (.token Word.float_ne_nil) (.choice (.token Word.integer_ne_nil)
    (.choice string_consumes.map (.choice symbol_consumes.map (.choice (.map (.phrase boolean_consumes))
      (.map (.phrase (keyword_consumes _)))))))))

theorem block_consumes {α : Type} {item : Rule α} : (block item).Consumes := .map (.seq (mark_consumes (by decide)))

end Rule

namespace Traversal

open Rule

variable (T : Traversal)

section Parts

variable {α β : Type} {f : α → List Region} {g : β → List Region} {p : Rule α} {q : Rule β}

/-- After a part without regions. -/
theorem before {gap : Gap} (silent : T.Finds p fun _ => []) (second : T.Finds q g) :
    T.Finds (Grammar.seq gap p q) fun x => g x.2 :=
  T.seq silent second

/-- Before a part without regions. -/
theorem after {gap : Gap} (first : T.Finds p f) (silent : T.Finds q fun _ => []) :
    T.Finds (Grammar.seq gap p q) fun x => f x.1 :=
  T.congr (T.seq first silent) fun _ => List.append_nil _

theorem either {name : Phrase} (inner : T.Finds p f) : T.Finds (Rule.either name p) f := T.map (T.inside inner)

/-- A part in a phrase that has regions of its own. -/
theorem built {name : Phrase} {h : α → β} (consumes : p.Consumes) (inner : T.Finds p fun x => g (h x)) :
    T.Finds (Rule.phrase name p h) fun x => [phraseAt g x] :=
  T.map (T.phrase consumes inner)

end Parts

theorem mark {m : String} (plain : m.toList.all fun c => !isBoundary c && c != '"') :
    T.Finds (Rule.mark m) fun _ => [] :=
  T.plain (Token.Bare.text plain).plain

theorem lineBreaks : T.Finds Rule.lineBreaks fun _ => [] :=
  T.congr (T.many (T.plain Token.plain_lineBreak)) fun l => by simp

theorem accessorSymbol : T.Finds Rule.accessorSymbol fun n => [nameAt n] :=
  T.map (T.inside (T.before (T.mark (by decide)) T.accessorName))

theorem literal : T.Finds Rule.literal fun l => [literalAt l] := by
  have boolean : T.Finds (Grammar.choice (.map (fun _ => true) (Rule.keyword .trueWord))
      (.map (fun _ => false) (Rule.keyword .falseWord)) : Rule Bool) fun _ => [] :=
    T.choice (T.map (T.keyword _)) (T.map (T.keyword _))
  exact T.either (T.choice T.float (T.choice T.integer (T.choice (T.map T.string) (T.choice (T.map T.symbol)
    (T.choice (T.map (T.phrase boolean_consumes boolean))
      (T.map (T.phrase (keyword_consumes .nilWord) (T.keyword .nilWord))))))))

section Lists

variable {α : Type} {first next item : Rule α} {f : α → List Region}

theorem listed (one : T.Finds first f) (more : T.Finds next f) : T.Finds (Rule.listed first next) (·.flatMap f) := by
  have comma : T.Finds (Rule.mark ",") fun _ => [] := T.mark (by decide)
  have items : T.Finds (.many (.map Prod.snd (Rule.seq (Rule.mark ",") next))) (·.flatMap f) :=
    T.many (T.map (T.before comma more))
  have last : T.Finds (.optional (Rule.mark ",")) fun _ => [] := T.congr (T.optional comma) fun x => by cases x <;> rfl
  exact T.map (T.congr (T.optional (T.seq one (T.after items last))) fun x => by cases x <;> simp)

theorem block (inner : T.Finds item f) : T.Finds (Rule.block item) (·.flatMap f) := by
  have next : T.Finds (.map Prod.snd (Rule.seq Rule.lineBreaks item)) f := T.map (T.before T.lineBreaks inner)
  have close : T.Finds (Rule.seq Rule.lineBreaks (Rule.mark "\x7d")) fun _ => [] :=
    T.before T.lineBreaks (T.mark (by decide))
  exact T.map (T.before (T.mark (by decide)) (T.before T.lineBreaks (T.after (T.listed inner next) close)))

end Lists

theorem symbolList : T.Finds Rule.symbolList fun l => l.map symbolAt := by
  have symbols : T.Finds (Rule.seq (Rule.listed Rule.symbol Rule.symbol) (Rule.mark "]")) (·.1.flatMap ([symbolAt ·])) :=
    T.after (T.listed T.symbol T.symbol) (T.mark (by decide))
  exact T.either (T.map (T.congr (T.before (T.mark (by decide)) symbols) fun _ => List.map_eq_flatMap.symm))

theorem hashEntry : T.Finds Rule.hashEntry HashEntry.regions := by
  have key : T.Finds (Grammar.choice (.map (Located.map KeyLiteral.string) Rule.string)
      (.map (Located.map KeyLiteral.symbol) Rule.symbol)) fun key => [literalAt (key.map KeyLiteral.toLiteral)] :=
    T.choice (T.map T.string) (T.map T.symbol)
  exact T.either (T.map (T.seq key (T.before (T.mark (by decide)) T.literal)))

theorem hash : T.Finds Rule.hash fun l => [phraseAt (·.flatMap HashEntry.regions) l] :=
  T.phrase block_consumes (T.block T.hashEntry)

theorem descriptor : T.Finds Rule.descriptor fun l => [phraseAt (·.flatMap HashEntry.regions) l] :=
  T.either (T.map (T.before (T.keyword _) T.hash))

theorem attributeInit : T.Finds Rule.attributeInit AttributeInit.regions :=
  T.either (T.map (T.seq T.attributeName (T.before (T.mark (by decide)) T.literal)))

theorem newObject : T.Finds Rule.newObject Expression.regions := by
  have attributes : T.Finds (.optional (Rule.either .attributeBlock (Rule.block Rule.attributeInit)))
      fun x => x.toList.flatMap (·.flatMap AttributeInit.regions) := T.optional (T.either (T.block T.attributeInit))
  refine T.either (T.map (T.congr (T.before (T.keyword _) (T.seq T.className attributes)) fun x => ?_))
  obtain ⟨_, name, _ | l⟩ := x
  · rfl
  · simp [Expression.regions]

theorem expression : T.Finds Rule.expression fun e => [phraseAt Expression.regions e] := by
  refine T.phrase ?_ (T.choice (T.map T.hash) (T.choice (T.map T.descriptor) (T.choice T.newObject (T.map T.literal))))
  exact .choice (.map (.phrase block_consumes)) (.choice (.map (.map (.phrase (.map (keyword_consumes _).seq))))
    (.choice (.map (.phrase (.map (keyword_consumes _).seq))) literal_consumes.map))

theorem query : T.Finds Rule.query fun q => [phraseAt Query.regions q] := by
  have comma : T.Finds (Rule.mark ",") fun _ => [] := T.mark (by decide)
  have opening : T.Finds (Rule.mark "(") fun _ => [] := T.mark (by decide)
  have closing : T.Finds (Rule.mark ")") fun _ => [] := T.mark (by decide)
  have keyQuery (p : Phrase) (k : Keyword) {f : Name → Located Literal → Query}
      (regions : ∀ object key, [nameAt object, literalAt key] = (f object key).regions) :
      T.Finds (Rule.keyQuery p k f) Query.regions :=
    T.either (T.map (T.congr (T.before (T.keyword k) (T.before opening (T.seq T.variableName (T.before comma
      (T.after T.literal closing))))) fun _ => regions _ _))
  have internal : T.Finds (.optional (Rule.seq (Rule.mark ",") (Rule.keyword .internal))) fun _ => [] :=
    T.congr (T.optional (T.before comma (T.keyword .internal))) fun x => by cases x <;> rfl
  have keysQuery : T.Finds Rule.keysQuery Query.regions :=
    T.either (T.map (T.before (T.keyword .keys)
      (T.before opening (T.after T.variableName (T.before internal closing)))))
  refine T.phrase ?_ (T.choice (keyQuery _ _ fun _ _ => rfl) (T.choice keysQuery (keyQuery _ _ fun _ _ => rfl)))
  exact .choice (keyQuery_consumes _ _ _) (.choice (.map (.phrase (.map (keyword_consumes _).seq)))
    (keyQuery_consumes _ _ _))

theorem matcher : T.Finds Rule.matcher Matcher.regions := by
  have equals : T.Finds (Grammar.choice (.map Matcher.equalsSymbols Rule.symbolList)
      (.map Matcher.equals Rule.literal)) Matcher.regions := T.choice (T.map T.symbolList) (T.map T.literal)
  exact T.either (T.choice (T.either (T.map (T.before (T.mark (by decide)) equals)))
    (T.choice (T.either (T.map (T.before (T.keyword _) T.symbol)))
      (T.choice (T.either (T.map (T.before (T.keyword _) T.symbol))) (T.either (T.map (T.keyword _))))))

theorem assignment : T.Finds Rule.assignment fun s => [phraseAt Statement.regions s] :=
  T.built variableName_consumes.seq (T.seq T.variableName (T.before (T.mark (by decide)) T.expression))

theorem accessorDeclaration : T.Finds Rule.accessorDeclaration fun d => [phraseAt AccessorDeclaration.regions d] := by
  have kind : T.Finds Rule.accessorKind fun _ => [] :=
    T.either (T.choice (T.map (T.keyword _)) (T.choice (T.map (T.keyword _)) (T.map (T.keyword _))))
  have more : T.Finds (.many (.map Prod.snd (Rule.seq (Rule.mark ",") Rule.accessorSymbol))) (·.map nameAt) :=
    T.congr (T.many (T.map (T.before (T.mark (by decide)) T.accessorSymbol))) fun _ => List.map_eq_flatMap.symm
  exact T.built accessorKind_consumes.seq (T.before kind (T.seq T.accessorSymbol more))

theorem classDefinition : T.Finds Rule.classDefinition fun s => [phraseAt Statement.regions s] := by
  have item : T.Finds classItem fun d => d.toList.map (phraseAt AccessorDeclaration.regions) :=
    T.choice (T.map (T.plain Token.plain_lineBreak)) (T.map T.accessorDeclaration)
  have items : T.Finds (.many classItem) fun l => (l.filterMap id).map (phraseAt AccessorDeclaration.regions) := by
    refine T.congr (T.many item) fun l => ?_
    induction l with
    | nil => rfl
    | cons d l ih => cases d <;> simp [ih]
  exact T.built (keyword_consumes _).seq (T.before (T.keyword _) (T.seq T.className
    (T.before (T.mark (by decide)) (T.after items (T.mark (by decide))))))

theorem setAttribute : T.Finds Rule.setAttribute fun s => [phraseAt Statement.regions s] :=
  T.built (keyword_consumes _).seq (T.before (T.keyword _) (T.seq T.variableName (T.seq T.attributeName
    (T.before (T.mark (by decide)) T.literal))))

theorem freeze : T.Finds Rule.freeze fun s => [phraseAt Statement.regions s] :=
  T.built (keyword_consumes _).seq (T.before (T.keyword _) T.variableName)

theorem expectation : T.Finds Rule.expectation fun s => [phraseAt Statement.regions s] :=
  T.built (keyword_consumes _).seq (T.before (T.keyword _) (T.seq T.query T.matcher))

theorem statement : T.Finds Rule.statement fun s => [phraseAt Statement.regions s] := by
  -- a query that is a statement is a region in one of the same place
  have queryStatement : T.Finds (.map (fun q => ⟨.query q, q.span⟩) Rule.query)
      fun s : Located Statement => [phraseAt Statement.regions s] := T.map (T.around T.query)
  exact T.choice T.classDefinition (T.choice T.setAttribute (T.choice T.freeze (T.choice T.expectation
    (T.choice queryStatement T.assignment))))

/-- What is found of tokens is found of scripts. -/
theorem script : T.Finds Rule.script fun l => l.value.map (phraseAt Statement.regions) := by
  have ending : T.Finds statementEnd fun _ => [] :=
    T.choice (T.map (T.before (T.plain Token.plain_lineBreak) T.lineBreaks)) T.ahead
  have statements : T.Finds (.many (.map Prod.fst (Rule.seq Rule.statement statementEnd)))
      (·.map (phraseAt Statement.regions)) :=
    T.congr (T.many (T.map (T.after T.statement ending))) fun _ => List.map_eq_flatMap.symm
  exact T.map (T.inside (T.before (T.plain Token.plain_nothing)
    (T.before T.lineBreaks (T.after statements T.endOfInput))))

end Traversal

end KeyIntrospection.Script
