import KeyIntrospection.Proofs.Session.Scanner

/-!
What the rules of the grammar leave open. Blocks, lists and queries close the brackets that they open, strings the
quote; no bracket stands in another one, and only in blocks do line breaks stand. So a statement is held back up to its
last line and closed there.
-/

namespace KeyIntrospection.Session

open Nesting Script
open Token (Takes)

/-- Between its quotes a string stays open. -/
theorem Nesting.scan_quotable {body : List Char} (quotable : Word.Quotable body) {n : Nesting}
    (inComment : n.inComment = false) (inString : n.inString = true) (escaped : n.escaped = false) :
    n.scan body = n ∧ n.Held body := by
  have opened : n.isClosed = false := by simp [Nesting.isClosed, inString]
  induction quotable with
  | nil => exact ⟨rfl, trivial⟩
  | @plain c s quote backslash _ ih =>
    have stays : n.next c = n := by
      obtain ⟨depth, _, _, _⟩ := n
      cases inComment
      cases inString
      cases escaped
      simp [next, quote, backslash]
    rw [scan_cons, stays]
    refine ⟨ih.1, fun _ => opened, ?_⟩
    rw [stays]
    exact ih.2
  | @escaped c s _ ih =>
    have marked : n.next '\\' = { n with escaped := true } := by
      simp [next, inComment, inString, escaped]
    have passed : ({ n with escaped := true } : Nesting).next c = n := by
      obtain ⟨depth, _, _, _⟩ := n
      cases inComment
      cases escaped
      rfl
    rw [scan_cons, scan_cons, marked, passed]
    refine ⟨ih.1, fun _ => opened, ?_⟩
    rw [marked]
    refine ⟨fun _ => opened, ?_⟩
    rw [passed]
    exact ih.2

namespace Scans

variable {α β : Type} {depth : Int32}

theorem string : Scans Rule.string depth depth := by
  intro c m accepted n _ between
  obtain ⟨⟨x, next⟩, takes, rfl⟩ := Option.map_eq_some_iff.mp accepted
  obtain ⟨⟨taken, rest⟩, found, same⟩ := Option.map_eq_some_iff.mp takes
  cases same
  obtain ⟨body, quotable, rfl, split⟩ := Word.take?_string_eq_some_iff.mp found
  rw [split] at between
  have inComment := between.not_inComment (by decide)
  have opens : n.next '"' = { n with inString := true } := by
    simp [Nesting.next, inComment, between.inString, between.escaped]
  obtain ⟨same, held⟩ :=
    scan_quotable quotable (n := { n with inString := true }) inComment rfl between.escaped
  have closes : ({ n with inString := true } : Nesting).next '"' = n := by
    have whole : { n with inString := false } = n := by rw [← between.inString]
    rw [← whole]
    simp [Nesting.next, inComment, between.escaped]
  refine ⟨_ :: (body ++ ['"']), by simpa [Cursor.advance] using split, ?_, ?_⟩
  · refine ⟨fun feed => absurd feed (by decide), ?_⟩
    rw [opens, held_append, same]
    exact ⟨held, fun feed => absurd feed (by decide), trivial⟩
  · rw [scan_cons, opens, scan_append, same, scan_cons, scan_nil, closes]
    exact between.of_not_inComment inComment _

/-- Where a bracket is open, a line break is held back, and it ends a comment. -/
theorem lineBreak : Scans (.plain .lineBreak : Script.Rule Unit) 1 1 := by
  intro c m accepted n fed between
  obtain ⟨⟨x, next⟩, takes, rfl⟩ := Option.map_eq_some_iff.mp accepted
  obtain ⟨⟨taken, rest⟩, found, same⟩ := Option.map_eq_some_iff.mp takes
  cases same
  have opened : n.isClosed = false := by
    rw [Nesting.isClosed, between.depth_eq]
    rfl
  unfold Token.lineBreak at found
  dsimp only at found
  split at found
  · next head =>
    cases found
    refine ⟨['\n'], head, ⟨fun _ => opened, trivial⟩, ?_⟩
    rw [scan_cons, scan_nil]
    exact between.feed _
  · next head =>
    cases found
    rw [head] at between
    refine ⟨['\r', '\n'], head, ⟨fun feed => absurd feed (by decide), fun _ => ?_, trivial⟩, ?_⟩
    · rwa [between.carriage]
    · rw [scan_cons, scan_cons, scan_nil, between.carriage]
      exact between.feed _
  · next alone head =>
    cases found
    rw [head] at between fed
    refine ⟨['\r'], head, ⟨fun feed => absurd feed (by decide), trivial⟩, ?_⟩
    rw [scan_cons, scan_nil, between.carriage]
    refine ⟨between.depth_eq, between.inString, between.escaped, fun commented => ?_⟩
    -- a comment goes on after a carriage return that stands alone, so the text ends here
    rcases rest with _ | ⟨d, rest⟩
    · exact atLineEnd_nil
    · exact absurd (by rw [fed.1 commented rfl d rfl]) (alone rest)
  · cases found

theorem lineBreaks : Scans Rule.lineBreaks 1 1 := lineBreak.many Rule.lineBreak_consumes

theorem name {p : Phrase} {t : Token} (neutral : Takes t (isNeutral ·)) : Scans (Rule.name p t) depth depth :=
  token neutral

theorem comma : Scans (Rule.mark ",") depth depth := mark (by decide)

theorem equals : Scans (Rule.mark "=") depth depth := mark (by decide)

theorem brace : Scans (Rule.mark "\x7b") 0 1 := opening (c := '\x7b') (by decide) (by decide)

theorem brace' : Scans (Rule.mark "\x7d") 1 0 := closing (c := '\x7d') (by decide) (by decide)

theorem bracket' : Scans (Rule.mark "]") 1 0 := closing (c := ']') (by decide) (by decide)

theorem paren : Scans (Rule.mark "(") 0 1 := opening (c := '(') (by decide) (by decide)

theorem paren' : Scans (Rule.mark ")") 1 0 := closing (c := ')') (by decide) (by decide)

theorem symbol : Scans Rule.symbol depth depth := by
  have colon : Scans (Rule.mark ":") depth depth := mark (by decide)
  exact .map (.phrase (colon.seq (name (.append (.optional (by decide)) takes_accessorName))))

theorem accessorSymbol : Scans Rule.accessorSymbol depth depth := by
  have colon : Scans (Rule.mark ":") depth depth := mark (by decide)
  exact .map (.phrase (colon.seq (name takes_accessorName)))

theorem listed {first next : Script.Rule α} (one : Scans first depth depth) (more : Scans next depth depth) :
    Scans (Rule.listed first next) depth depth := by
  have further : Scans (.many (.map Prod.snd (Rule.seq (Rule.mark ",") next))) depth depth :=
    many (map (comma.seq more)) (Grammar.Consumes.map (Grammar.Consumes.seq (Rule.mark_consumes (by decide))))
  exact .map (.optional (one.seq (further.seq (.optional comma))))

theorem block {item : Script.Rule α} (inner : Scans item 1 1) : Scans (Rule.block item) 0 0 := by
  have next : Scans (.map Prod.snd (Rule.seq Rule.lineBreaks item)) 1 1 := map (lineBreaks.seq inner)
  have items := listed inner next
  exact .map (brace.seq (lineBreaks.seq (items.seq (lineBreaks.seq brace'))))

theorem literal : Scans Rule.literal depth depth := by
  have boolean : Scans (Rule.phrase .boolean (.choice (.map (fun _ => true) (Rule.keyword .trueWord))
      (.map (fun _ => false) (Rule.keyword .falseWord))) Literal.bool) depth depth :=
    .map (.phrase (.choice (keyword _).map (keyword _).map))
  have nil : Scans (Rule.phrase .nil (Rule.keyword .nilWord) fun _ => Literal.nil) depth depth :=
    .map (.phrase (keyword _))
  exact .map (.phrase (.choice (token takes_float) (.choice (token takes_integer)
    (.choice string.map (.choice symbol.map (.choice boolean nil))))))

theorem symbolList : Scans Rule.symbolList 0 0 := by
  have opens : Scans (Rule.mark "[") 0 1 := opening (c := '[') (by decide) (by decide)
  exact .map (.phrase (.map (opens.seq ((listed symbol symbol).seq bracket'))))

theorem hashEntry : Scans Rule.hashEntry depth depth := by
  have arrow : Scans (Rule.mark "=>") depth depth := mark (by decide)
  have key : Scans (Grammar.choice (.map (Located.map KeyLiteral.string) Rule.string)
      (.map (Located.map KeyLiteral.symbol) Rule.symbol)) depth depth := .choice string.map symbol.map
  exact .map (.phrase (.map (key.seq (arrow.seq literal))))

theorem hash : Scans Rule.hash 0 0 := .phrase (block hashEntry)

theorem descriptor : Scans Rule.descriptor 0 0 := .map (.phrase (.map ((keyword _).seq hash)))

theorem attributeInit : Scans Rule.attributeInit depth depth :=
  .map (.phrase (.map (attributeName.seq (equals.seq literal))))

theorem newObject : Scans Rule.newObject 0 0 := by
  have attributes : Scans (Rule.either .attributeBlock (Rule.block Rule.attributeInit)) 0 0 :=
    .map (.phrase (block attributeInit))
  exact .map (.phrase (.map ((keyword _).seq (className.seq attributes.optional))))

theorem expression : Scans Rule.expression 0 0 :=
  .phrase (.choice hash.map (.choice descriptor.map (.choice newObject literal.map)))

theorem assignment : Scans Rule.assignment 0 0 := .map (.phrase (variableName.seq (equals.seq expression)))

theorem accessorKind : Scans Rule.accessorKind depth depth :=
  .map (.phrase (.choice (keyword _).map (.choice (keyword _).map (keyword _).map)))

theorem accessorDeclaration : Scans Rule.accessorDeclaration depth depth := by
  have further : Scans (.many (.map Prod.snd (Rule.seq (Rule.mark ",") Rule.accessorSymbol))) depth depth :=
    many (map (comma.seq accessorSymbol))
      (Grammar.Consumes.map (Grammar.Consumes.seq (Rule.mark_consumes (by decide))))
  exact .map (.phrase (accessorKind.seq (accessorSymbol.seq further)))

theorem classDefinition : Scans Rule.classDefinition 0 0 := by
  have body : Scans (.many Rule.classItem) 1 1 :=
    many (.choice lineBreak.map accessorDeclaration.map)
      (.choice Rule.lineBreak_consumes.map Rule.accessorDeclaration_consumes.map)
  exact .map (.phrase ((keyword _).seq (className.seq (brace.seq (body.seq brace')))))

theorem setAttribute : Scans Rule.setAttribute depth depth :=
  .map (.phrase ((keyword _).seq (variableName.seq (attributeName.seq (equals.seq literal)))))

theorem freeze : Scans Rule.freeze depth depth := .map (.phrase ((keyword _).seq variableName))

theorem keyQuery (p : Phrase) (k : Keyword) (f : Name → Located Literal → Query) :
    Scans (Rule.keyQuery p k f) 0 0 :=
  .map (.phrase (.map ((keyword _).seq (paren.seq (variableName.seq (comma.seq (literal.seq paren')))))))

theorem keysQuery : Scans Rule.keysQuery 0 0 :=
  .map (.phrase (.map ((keyword _).seq (paren.seq
    (variableName.seq ((comma.seq (keyword _)).optional.seq paren'))))))

theorem query : Scans Rule.query 0 0 :=
  .phrase (.choice (keyQuery _ _ _) (.choice keysQuery (keyQuery _ _ _)))

theorem matcher : Scans Rule.matcher 0 0 := by
  have equal : Scans (Rule.mark "==") 0 0 := mark (by decide)
  exact .map (.phrase (.choice (.map (.phrase (.map (equal.seq (.choice symbolList.map literal.map)))))
    (.choice (.map (.phrase (.map ((keyword _).seq symbol))))
      (.choice (.map (.phrase (.map ((keyword _).seq symbol)))) (.map (.phrase (keyword _).map))))))

theorem expectation : Scans Rule.expectation 0 0 := .map (.phrase ((keyword _).seq (query.seq matcher)))

/-- A statement closes what it opens, and until then it holds every line feed back. -/
theorem statement : Scans Rule.statement 0 0 :=
  .choice classDefinition (.choice setAttribute (.choice freeze (.choice expectation (.choice query.map assignment))))

end Scans

end KeyIntrospection.Session
