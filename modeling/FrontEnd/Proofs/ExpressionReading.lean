import FrontEnd.Buffer
import FrontEnd.Proofs.Brackets
import FrontEnd.Proofs.ExpressionGrammar

/-! # Every sentence is read as its tree

The scans that look for the end of an operand or of an expression stop exactly behind a sentence, as
long as no token follows that would carry it on; the readers then see the sentence alone. Scans and
readers are followed along the derivation. -/
namespace FrontEnd
namespace Reading
open Grammar

/-- No operand goes on with these tokens. -/
def EndsOperand (after : List Token) : Prop :=
  ∀ token ∈ after.head?, isOperand token = false ∧ token.kind ≠ .openParen

def EndsExpression (after : List Token) : Prop :=
  EndsOperand after ∧ startsWith .operator after = false

theorem endsOperand_nil : EndsOperand [] := by
  intro token ht
  cases ht

theorem endsOperand_cons {token : Token} (rest : List Token)
    (hk : token.kind ≠ .identifier ∧ token.kind ≠ .number ∧ token.kind ≠ .openParen) :
    EndsOperand (token :: rest) := by
  intro first hf
  cases hf
  exact ⟨by simp [isOperand, hk.1, hk.2.1], hk.2.2⟩

theorem EndsOperand.takeWhile {after : List Token} (h : EndsOperand after) :
    after.takeWhile isOperand = [] := by
  cases after with
  | nil => rfl
  | cons token rest => simp [(h token rfl).1]

theorem EndsOperand.startsWith {after : List Token} (h : EndsOperand after) :
    startsWith .openParen after = false := by
  cases after with
  | nil => rfl
  | cons token rest => simpa [Reading.startsWith] using (h token rfl).2

theorem endsOperand_operations (rest : Operations) {after : List Token}
    (h : EndsOperand after) : EndsOperand (rest.tokens ++ after) := by
  cases rest with
  | nothing => exact h
  | next operator operand rest =>
    exact endsOperand_cons _ (by rw [operator.property]; decide)

/-! ## Scans -/

mutual

theorem Operand.balanced : (operand : Operand) →
    Balanced .openParen .closeParen operand.tokens
  | .number token => balanced_nil.cons_other (by simp [token.2]) (by simp [token.2])
  | .name token => balanced_nil.cons_other (by simp [token.2]) (by simp [token.2])
  | .group opening inside closing =>
    (Expression.balanced inside).enclose (by decide) opening.2 closing.2
  | .call callee opening arguments closing =>
    ((Arguments.balanced arguments).enclose (by decide) opening.2 closing.2).cons_other
      (by simp [callee.2]) (by simp [callee.2])

theorem Expression.balanced : (expression : Expression) →
    Balanced .openParen .closeParen expression.tokens
  | .mk first rest => (Operand.balanced first).append (Operations.balanced rest)

theorem Operations.balanced : (rest : Operations) →
    Balanced .openParen .closeParen rest.tokens
  | .nothing => balanced_nil
  | .next operator operand rest =>
    ((Operand.balanced operand).append (Operations.balanced rest)).cons_other
      (by simp [operator.2]) (by simp [operator.2])

theorem Arguments.balanced : (arguments : Arguments) →
    Balanced .openParen .closeParen arguments.tokens
  | .nothing => balanced_nil
  | .last argument => Expression.balanced argument
  | .next argument comma rest =>
    (Expression.balanced argument).append
      ((Arguments.balanced rest).cons_other (by simp [comma.2]) (by simp [comma.2]))

end

theorem parenCloser?_balanced {inside : List Token} {closing : Token}
    (h : Balanced .openParen .closeParen inside) (hc : closing.kind = .closeParen)
    (rest : List Token) :
    parenCloser? (inside ++ closing :: rest) = some inside.length :=
  closer?_balanced (by decide) h hc

/-- The scan for the end of an operand stops behind it. -/
theorem primaryEnd?_operand (operand : Operand) {after : List Token} (h : EndsOperand after) :
    primaryEnd? (operand.tokens ++ after) = some operand.tokens.length := by
  cases operand with
  | number token =>
    have hk := token.property
    simp [Operand.tokens, primaryEnd?, isOperand, hk, h.takeWhile]
  | name token =>
    have hk := token.property
    simp [Operand.tokens, primaryEnd?, isOperand, hk, h.takeWhile, h.startsWith]
  | group opening inside closing =>
    have hc := parenCloser?_balanced (Expression.balanced inside) closing.property after
    simp [Operand.tokens, primaryEnd?, opening.property, hc]
  | call callee opening arguments closing =>
    have hc := parenCloser?_balanced (Arguments.balanced arguments) closing.property after
    simp [Operand.tokens, primaryEnd?, callee.property, Reading.startsWith, opening.property, hc]

theorem tokens_ne_nil (operand : Operand) : operand.tokens ≠ [] := by
  cases operand <;> simp [Operand.tokens]

/-- The scan for the end of an expression goes on behind an operand if an operator follows. -/
theorem expressionEnd?_operand (operand : Operand) {after : List Token} (h : EndsOperand after) :
    expressionEnd? (operand.tokens ++ after) =
      if startsWith .operator after then
        (expressionEnd? after.tail).map (operand.tokens.length + 1 + ·)
      else some operand.tokens.length := by
  have hp := primaryEnd?_operand operand h
  obtain ⟨token, rest, ht⟩ := List.exists_cons_of_ne_nil (tokens_ne_nil operand)
  have hd : (operand.tokens ++ after).drop operand.tokens.length = after := List.drop_left
  have hd' : (rest ++ after).drop operand.tokens.length = after.tail := by
    rw [← List.drop_one, ← hd, List.drop_drop, ht, List.length_cons]
    simp
  rw [ht, List.cons_append] at hp hd ⊢
  rw [expressionEnd?, hp]
  simp only [hd]
  rw [ht] at hd'
  rw [hd']

/-- The scan for the end of an expression stops behind it. -/
theorem expressionEnd?_operations (rest : Operations) (operand : Operand) {after : List Token}
    (h : EndsExpression after) :
    expressionEnd? (operand.tokens ++ (rest.tokens ++ after)) =
      some (operand.tokens.length + rest.tokens.length) := by
  rw [expressionEnd?_operand operand (endsOperand_operations rest h.1)]
  match rest with
  | .nothing => simp [Operations.tokens, h.2]
  | .next operator next rest =>
    have ih := expressionEnd?_operations rest next h
    simp only [Operations.tokens, List.cons_append, List.append_assoc, startsWith,
      operator.property, decide_true, if_true, List.tail_cons, ih, Option.map_some,
      List.length_cons, List.length_append, Option.some.injEq]
    omega

theorem expressionEnd?_expression (expression : Expression) {after : List Token}
    (h : EndsExpression after) :
    expressionEnd? (expression.tokens ++ after) = some expression.tokens.length := by
  obtain ⟨first, rest⟩ := expression
  rw [Expression.tokens, List.append_assoc, expressionEnd?_operations rest first h,
    List.length_append]

/-! ## Readers -/

theorem endsWith_concat (kind : TokenKind) (tokens : List Token) (token : Token) :
    endsWith kind (tokens ++ [token]) = decide (token.kind = kind) := by
  simp [endsWith]

/-- An expression begins with its first operand; operators read the rest. -/
theorem expression_operand {operand : Operand} {node : Node} {after : List Token}
    (h : EndsOperand after) (hp : primary operand.tokens = .ok node) :
    expression (operand.tokens ++ after) = operators node after := by
  rw [expression, primaryEnd?_operand operand h]
  simp only [List.take_left, List.drop_left, hp, followedBy_ok]
  rfl

/-- The operator at hand takes its operand alone, or leaves all that follows to its right side. -/
theorem operators_operand (operator : TokenOf .operator) (left : Node) {operand : Operand}
    {node : Node} {after : List Token} (h : EndsOperand after)
    (hp : primary operand.tokens = .ok node) :
    operators left (operator.val :: (operand.tokens ++ after)) =
      if Operator.priority operator.val.text < nextPriority after then do
        let right ← operators node after
        .ok (.binary operator.val.text left right operator.val.span)
      else operators (.binary operator.val.text left node operator.val.span) after := by
  rw [operators, primaryEnd?_operand operand h]
  simp only [operator.property, ne_eq, not_true_eq_false, if_false, Option.getD_some,
    List.take_left, List.drop_left, hp, followedBy_ok]
  rfl

theorem nextPriority_operations (operator : Token) (rest : Operations) :
    nextPriority rest.tokens ≤ Operator.priority operator.text ↔ TakesOne operator rest.links := by
  cases rest with
  | nothing => simp [Operations.tokens, Operations.links, nextPriority, TakesOne]
  | next next operand rest =>
    simp [Operations.tokens, Operations.links, nextPriority, TakesOne]

theorem primary_group {opening closing : Token} (ho : opening.kind = .openParen)
    (hc : closing.kind = .closeParen) (inside : List Token) :
    primary (opening :: (inside ++ [closing])) = (expression inside).followedBy 1 := by
  have he : endsWith .closeParen (inside ++ [closing]) = true := by
    rw [endsWith_concat]; simp [hc]
  obtain ⟨second, rest, hs⟩ := List.exists_cons_of_ne_nil (List.concat_ne_nil closing inside)
  have hd : (second :: rest).dropLast = inside := by rw [← hs, List.dropLast_concat]
  rw [hs] at he ⊢
  rw [primary]
  simp [ho, he, hd]

theorem primary_call {callee opening closing : Token} (hn : callee.kind = .identifier)
    (ho : opening.kind = .openParen) (hc : closing.kind = .closeParen) (inside : List Token) :
    primary (callee :: opening :: (inside ++ [closing])) = (do
      let given ← arguments (inside ++ [closing])
      .ok (.call callee.text given callee.span)) := by
  rw [primary, endsWith_concat]
  simp [hn, ho, hc]

/-- One argument is taken off, together with the token after it. -/
theorem arguments_next {argument : Expression} {node : Node} {next : Token} {rest : List Token}
    (h : EndsExpression (next :: rest)) (ha : expression argument.tokens = .ok node) :
    arguments (argument.tokens ++ next :: rest) = (do
      let more ← arguments rest
      .ok (node :: more)) := by
  have hlen : ¬ (argument.tokens ++ next :: rest).length ≤ 1 := by
    obtain ⟨first, more⟩ := argument
    have := List.length_pos_iff.mpr (tokens_ne_nil first)
    simp [Expression.tokens]
    omega
  have hd : (argument.tokens ++ next :: rest).drop (argument.tokens.length + 1) = rest := by
    rw [← List.drop_drop, List.drop_left, List.drop_one, List.tail_cons]
  rw [arguments, if_neg hlen, expressionEnd?_expression argument h]
  simp only [Option.getD_some, List.take_left, hd, ha, followedBy_ok]
  rfl

mutual

theorem primary_operand : (operand : Operand) → primary operand.tokens = .ok operand.tree
  | .number token => by simp [Operand.tokens, Operand.tree, primary, token.property]
  | .name token => by simp [Operand.tokens, Operand.tree, primary, token.property]
  | .group opening inside closing => by
    rw [Operand.tokens, primary_group opening.property closing.property, expression_sentence inside,
      Operand.tree]
    rfl
  | .call callee opening given closing => by
    rw [Operand.tokens, primary_call callee.property opening.property closing.property,
      arguments_sentence given closing, Operand.tree]
    rfl

theorem expression_sentence :
    (sentence : Expression) → expression sentence.tokens = .ok sentence.tree
  | .mk first rest => by
    have he := endsOperand_operations rest endsOperand_nil
    rw [List.append_nil] at he
    rw [Expression.tokens, expression_operand he (primary_operand first), Expression.tree]
    exact operators_sentence rest (.operand first.tree)

theorem operators_sentence : (rest : Operations) → (left : Shape) →
    operators left.node rest.tokens = .ok (left.fold rest.links).node
  | .nothing, left => by rw [Operations.tokens, operators]; rfl
  | .next operator operand rest, left => by
    have he := endsOperand_operations rest endsOperand_nil
    rw [List.append_nil] at he
    rw [Operations.tokens, operators_operand operator _ he (primary_operand operand),
      Operations.links, Shape.fold]
    by_cases ht : TakesOne operator.val rest.links
    · have hp := (nextPriority_operations operator.val rest).mpr ht
      rw [if_neg (Nat.not_lt.mpr hp), if_pos ht]
      exact operators_sentence rest (.operation left operator.val (.operand operand.tree))
    · have hp := mt (nextPriority_operations operator.val rest).mp ht
      have hr := operators_sentence rest (.operand operand.tree)
      rw [if_pos (Nat.not_le.mp hp), if_neg ht]
      simp only [Shape.node] at hr ⊢
      rw [hr]
      rfl

theorem arguments_sentence : (given : Arguments) → (closing : TokenOf .closeParen) →
    arguments (given.tokens ++ [closing.val]) = .ok given.trees
  | .nothing, closing => by
    rw [Arguments.tokens, arguments]
    simp [Arguments.trees]
  | .last argument, closing => by
    have he : EndsExpression [closing.val] :=
      ⟨endsOperand_cons _ (by simp [closing.property]), by simp [startsWith, closing.property]⟩
    rw [Arguments.tokens, arguments_next he (expression_sentence argument), arguments,
      Arguments.trees]
    rfl
  | .next argument comma rest, closing => by
    have he : EndsExpression (comma.val :: (rest.tokens ++ [closing.val])) :=
      ⟨endsOperand_cons _ (by simp [comma.property]), by simp [startsWith, comma.property]⟩
    rw [Arguments.tokens, List.append_assoc, List.cons_append,
      arguments_next he (expression_sentence argument), arguments_sentence rest closing,
      Arguments.trees]
    rfl

end

end Reading

/-- Every sentence is read, wherever its tokens stand in a buffer, and what is read is the one tree
that the sentence denotes. -/
theorem Buffer.expression_denotes (sentence : Grammar.Expression) (buffer : Buffer)
    (range : Buffer.Range) (h : buffer.tokensOf range = sentence.tokens) :
    ∃ node, buffer.expression range = .ok node ∧
      ∀ other, sentence.Denotes other ↔ other = node := by
  refine ⟨sentence.tree, ?_, sentence.denotes_iff⟩
  rw [Buffer.expression, h, Buffer.settle_eq_ok]
  exact Reading.expression_sentence sentence

/-- A token of the kind that has no place in a source. -/
def Grammar.unplaced (kind : TokenKind) (text : String) : TokenOf kind :=
  ⟨⟨kind, text, .nowhere⟩, rfl⟩

/-- The sentence `10 - 2 * f((x), 3,) + 1`. -/
def Grammar.steepSentence : Expression :=
  .mk (.number (unplaced .number "10"))
    (.next (unplaced .operator "-") (.number (unplaced .number "2"))
      (.next (unplaced .operator "*")
        (.call (unplaced .identifier "f") (unplaced .openParen "(")
          (.next
            (.mk (.group (unplaced .openParen "(")
              (.mk (.name (unplaced .identifier "x")) .nothing) (unplaced .closeParen ")"))
              .nothing)
            (unplaced .comma ",")
            (.next (.mk (.number (unplaced .number "3")) .nothing) (unplaced .comma ",") .nothing))
          (unplaced .closeParen ")"))
        (.next (unplaced .operator "+") (.number (unplaced .number "1")) .nothing)))

/-- The tree of `10 - ((2 * f(x, 3)) + 1)`: the subtraction takes all that is left, since the
multiplication is stronger, and the multiplication takes one operand. -/
def Grammar.steepTree : Node :=
  .binary "-" (.number "10" .nowhere)
    (.binary "+"
      (.binary "*" (.number "2" .nowhere)
        (.call "f" [.reference "x" .nowhere, .number "3" .nowhere] .nowhere) .nowhere)
      (.number "1" .nowhere) .nowhere) .nowhere

theorem Buffer.expression_denotes_steep :
    (Buffer.mk (Grammar.unplaced .openCurly "\x7b" :: Grammar.steepSentence.tokens)).tokensOf
        ⟨1, 16, by decide⟩ = Grammar.steepSentence.tokens ∧
      (Buffer.mk (Grammar.unplaced .openCurly "\x7b" ::
        Grammar.steepSentence.tokens)).expression ⟨1, 16, by decide⟩ = .ok Grammar.steepTree ∧
      ∀ other, Grammar.steepSentence.Denotes other ↔ other = Grammar.steepTree := by
  obtain ⟨node, hread, hdenotes⟩ := Buffer.expression_denotes Grammar.steepSentence
    (Buffer.mk (Grammar.unplaced .openCurly "\x7b" :: Grammar.steepSentence.tokens))
    ⟨1, 16, by decide⟩ rfl
  have htree : Grammar.steepSentence.Denotes Grammar.steepTree :=
    (Grammar.steepSentence.denotes_iff _).mpr rfl
  obtain rfl := (hdenotes _).mp htree
  exact ⟨rfl, hread, hdenotes⟩

end FrontEnd
