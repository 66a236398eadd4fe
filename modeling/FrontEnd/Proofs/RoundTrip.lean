import FrontEnd.Program
import FrontEnd.Proofs.BodyReading
import FrontEnd.Proofs.ExpressionReading
import FrontEnd.Proofs.Spelling

/-! # Printed programs are read back

Tokens with the lexemes of a tree are a sentence of the grammar, wherever they stand. So the tree
that is read from them differs from the tree whose lexemes they are in its spans alone, and with it
the program that is read from the text of a program. -/
namespace FrontEnd
open Grammar Reading

/-! ## Tokens with given lexemes -/

theorem Token.kind_of_lexeme {token : Token} {lexeme : Lexeme} (h : token.lexeme = lexeme) :
    token.kind = lexeme.kind := congrArg Lexeme.kind h

theorem Token.text_of_lexeme {token : Token} {lexeme : Lexeme} (h : token.lexeme = lexeme) :
    token.text = lexeme.text := congrArg Lexeme.text h

/-- The tokens of an operand with the lexemes of the node, and the node's tree up to spans. -/
def Node.HasOperand (node : Node) : Prop :=
  ∀ tokens : List Token, tokens.map Token.lexeme = node.lexemes →
    ∃ operand : Operand, operand.tokens = tokens ∧
      operand.tree.withoutSpans = node.withoutSpans

theorem arguments_of_lexemes (nodes : List Node) (h : ∀ node ∈ nodes, node.HasOperand)
    (tokens : List Token)
    (ht : tokens.map Token.lexeme = List.intercalate [⟨.comma, ","⟩] (nodes.map Node.lexemes)) :
    ∃ arguments : Arguments, arguments.tokens = tokens ∧
      arguments.trees.map Node.withoutSpans = nodes.map Node.withoutSpans := by
  induction nodes generalizing tokens with
  | nil =>
    have hn : tokens = [] := List.map_eq_nil_iff.mp ht
    exact ⟨.nothing, hn.symm, rfl⟩
  | cons node more ih =>
    have hnode := h node (by simp)
    cases more with
    | nil =>
      obtain ⟨operand, rfl, he⟩ := hnode tokens (by simpa using ht)
      refine ⟨.last (.mk operand .nothing), ?_, ?_⟩
      · simp [Arguments.tokens, Expression.tokens, Operations.tokens]
      · simpa [Arguments.trees, Expression.tree, Operations.links, Shape.fold, Shape.node] using he
    | cons next others =>
      rw [List.map_cons, List.map_cons, List.intercalate_cons_cons, List.append_assoc,
        List.singleton_append] at ht
      obtain ⟨front, back, rfl, hfront, hback⟩ := List.map_eq_append_iff.mp ht
      obtain ⟨comma, rest, rfl, hcomma, hrest⟩ := List.map_eq_cons_iff.mp hback
      obtain ⟨operand, rfl, he⟩ := hnode front hfront
      obtain ⟨arguments, rfl, hmore⟩ :=
        ih (fun other ho => h other (List.mem_cons_of_mem node ho)) rest hrest
      refine ⟨.next (.mk operand .nothing) ⟨comma, Token.kind_of_lexeme hcomma⟩ arguments, ?_, ?_⟩
      · simp [Arguments.tokens, Expression.tokens, Operations.tokens]
      · rw [List.map_cons, ← hmore, ← he]
        simp [Arguments.trees, Expression.tree, Operations.links, Shape.fold, Shape.node]

theorem Node.IsExpression.hasOperand {node : Node} (h : node.IsExpression) : node.HasOperand := by
  induction h with
  | number span hn =>
    intro tokens ht
    obtain ⟨token, rfl, hl⟩ := List.map_eq_singleton_iff.mp ht
    refine ⟨.number ⟨token, Token.kind_of_lexeme hl⟩, rfl, ?_⟩
    simp [Operand.tree, Node.withoutSpans, Token.text_of_lexeme hl]
  | reference span hn =>
    intro tokens ht
    obtain ⟨token, rfl, hl⟩ := List.map_eq_singleton_iff.mp ht
    refine ⟨.name ⟨token, Token.kind_of_lexeme hl⟩, rfl, ?_⟩
    simp [Operand.tree, Node.withoutSpans, Token.text_of_lexeme hl]
  | @binary operator left right span ho hl hr ihl ihr =>
    intro tokens ht
    rw [Node.lexemes] at ht
    obtain ⟨opening, more, rfl, hopening, hmore⟩ := List.map_eq_cons_iff.mp ht
    obtain ⟨leftTokens, back, rfl, hleft, hback⟩ := List.map_eq_append_iff.mp hmore
    obtain ⟨sign, others, rfl, hsign, hothers⟩ := List.map_eq_cons_iff.mp hback
    obtain ⟨rightTokens, last, rfl, hright, hlast⟩ := List.map_eq_append_iff.mp hothers
    obtain ⟨closing, rfl, hclosing⟩ := List.map_eq_singleton_iff.mp hlast
    obtain ⟨leftOperand, rfl, hle⟩ := ihl leftTokens hleft
    obtain ⟨rightOperand, rfl, hre⟩ := ihr rightTokens hright
    refine ⟨.group ⟨opening, Token.kind_of_lexeme hopening⟩
      (.mk leftOperand (.next ⟨sign, Token.kind_of_lexeme hsign⟩ rightOperand .nothing))
      ⟨closing, Token.kind_of_lexeme hclosing⟩, ?_, ?_⟩
    · simp [Operand.tokens, Expression.tokens, Operations.tokens]
    · -- a single operator takes the operand after it
      have hone : TakesOne sign [] := by simp [TakesOne]
      simp [Operand.tree, Expression.tree, Operations.links, Shape.fold, hone, Shape.node,
        Node.withoutSpans, hle, hre, Token.text_of_lexeme hsign]
  | @call callee arguments span hc ha ih =>
    intro tokens ht
    rw [Node.lexemes, Node.lexemesAll_eq_map] at ht
    obtain ⟨name, more, rfl, hname, hmore⟩ := List.map_eq_cons_iff.mp ht
    obtain ⟨opening, back, rfl, hopening, hback⟩ := List.map_eq_cons_iff.mp hmore
    obtain ⟨inside, last, rfl, hinside, hlast⟩ := List.map_eq_append_iff.mp hback
    obtain ⟨closing, rfl, hclosing⟩ := List.map_eq_singleton_iff.mp hlast
    obtain ⟨given, rfl, hgiven⟩ := arguments_of_lexemes arguments ih inside hinside
    refine ⟨.call ⟨name, Token.kind_of_lexeme hname⟩ ⟨opening, Token.kind_of_lexeme hopening⟩ given
      ⟨closing, Token.kind_of_lexeme hclosing⟩, rfl, ?_⟩
    simp [Operand.tree, Node.withoutSpans, hgiven, Token.text_of_lexeme hname]

/-! ## Tokens inside statements -/

/-- Kinds that neither end a statement nor begin a conditional, and are no braces. -/
def TokenKind.isPlain : TokenKind → Bool
  | .semicolon | .openCurly | .closeCurly | .ifKeyword => false
  | _ => true

def Plain (lexemes : List Lexeme) : Prop := ∀ lexeme ∈ lexemes, lexeme.kind.isPlain = true

theorem plain_append {lexemes others : List Lexeme} :
    Plain (lexemes ++ others) ↔ Plain lexemes ∧ Plain others := List.forall_mem_append

theorem plain_cons {lexeme : Lexeme} {others : List Lexeme} :
    Plain (lexeme :: others) ↔ lexeme.kind.isPlain = true ∧ Plain others := List.forall_mem_cons

theorem plain_nil : Plain [] := by
  intro lexeme hl
  cases hl

theorem plain_intercalate {marks : List Lexeme} {parts : List (List Lexeme)} (hm : Plain marks)
    (h : ∀ part ∈ parts, Plain part) : Plain (marks.intercalate parts) := by
  induction parts with
  | nil => exact plain_nil
  | cons part more ih =>
    have hmore := ih fun other ho => h other (List.mem_cons_of_mem part ho)
    cases more with
    | nil => simpa using h part (by simp)
    | cons next others =>
      rw [List.intercalate_cons_cons]
      exact plain_append.mpr ⟨plain_append.mpr ⟨h part (by simp), hm⟩, hmore⟩

theorem Node.IsExpression.plain {node : Node} (h : node.IsExpression) : Plain node.lexemes := by
  induction h with
  | number span hn => exact plain_cons.mpr ⟨rfl, plain_nil⟩
  | reference span hn => exact plain_cons.mpr ⟨rfl, plain_nil⟩
  | binary span ho hl hr ihl ihr =>
    simp only [Node.lexemes, plain_cons, plain_append]
    exact ⟨rfl, ihl, rfl, ihr, rfl, plain_nil⟩
  | @call callee arguments span hc ha ih =>
    have hinside : Plain (List.intercalate [⟨.comma, ","⟩] (arguments.map Node.lexemes)) :=
      plain_intercalate (plain_cons.mpr ⟨rfl, plain_nil⟩) (by simpa using ih)
    simp only [Node.lexemes, Node.lexemesAll_eq_map, plain_cons, plain_append]
    exact ⟨rfl, rfl, hinside, rfl, plain_nil⟩

section
variable {tokens : List Token} {lexemes : List Lexeme} (ht : tokens.map Token.lexeme = lexemes)
  (hp : Plain lexemes)
include ht hp

theorem Plain.token {token : Token} (hm : token ∈ tokens) : token.kind.isPlain = true := by
  subst ht
  exact hp token.lexeme (List.mem_map_of_mem hm)

theorem Plain.kind_ne {kind : TokenKind} (hk : kind.isPlain = false) :
    ∀ token ∈ tokens, token.kind ≠ kind := by
  intro token hm he
  have hplain := hp.token ht hm
  rw [he, hk] at hplain
  cases hplain

theorem Plain.unbroken : ∀ token ∈ tokens, token.kind ≠ .semicolon := hp.kind_ne ht rfl

theorem Plain.unconditional : startsWith .ifKeyword tokens = false := by
  cases tokens with
  | nil => rfl
  | cons token rest =>
    have hne : token.kind ≠ .ifKeyword := hp.kind_ne ht rfl token List.mem_cons_self
    exact decide_eq_false hne

theorem Plain.curlies : Balanced .openCurly .closeCurly tokens := by
  apply balanced_of_bracketless
  intro token hm
  exact ⟨hp.kind_ne ht rfl token hm, hp.kind_ne ht rfl token hm⟩

end

/-! ## Statements and bodies -/

theorem Node.IsExpression.value {node : Node} (h : node.IsExpression) {tokens : List Token}
    (ht : tokens.map Token.lexeme = node.lexemes) :
    ∃ read, IsValue tokens read ∧ read.withoutSpans = node.withoutSpans ∧
      Balanced .openParen .closeParen tokens := by
  obtain ⟨operand, rfl, he⟩ := h.hasOperand tokens ht
  have hv := expression_sentence (.mk operand .nothing)
  rw [Expression.tokens, Operations.tokens, List.append_nil] at hv
  exact ⟨operand.tree, hv, he, Operand.balanced operand⟩

/-- The braces in the tokens are matched, and the last token does not end a statement. -/
structure Sealed (tokens : List Token) : Prop where
  curlies : Balanced .openCurly .closeCurly tokens
  tail : HasTail tokens

theorem Grammar.HasTail.append {tokens : List Token} (h : HasTail tokens) (front : List Token) :
    HasTail (front ++ tokens) := by
  obtain ⟨last, hl, hk⟩ := h
  exact ⟨last, by rw [List.getLast?_append, hl, Option.some_or], hk⟩

theorem Sealed.append {tokens rest : List Token} (h : Sealed tokens)
    (hr : rest = [] ∨ Sealed rest) : Sealed (tokens ++ rest) := by
  rcases hr with rfl | hr
  · rwa [List.append_nil]
  · exact ⟨h.curlies.append hr.curlies, hr.tail.append tokens⟩

theorem Sealed.cons {token : Token} {tokens : List Token} (h : Sealed tokens)
    (hk : token.kind ≠ .openCurly ∧ token.kind ≠ .closeCurly) : Sealed (token :: tokens) :=
  ⟨h.curlies.cons_other hk.1 hk.2, h.tail.append [token]⟩

theorem Grammar.Block.sealed {tokens : List Token} {body : Body} (h : Block tokens body) :
    Sealed tokens := by
  cases h with
  | @mk opening inside closing _ ho hc hb _ =>
    refine ⟨hb.enclose (by decide) ho hc, ?_⟩
    have hlast : HasTail [closing] := ⟨closing, rfl, by rw [hc]; decide⟩
    exact hlast.append (opening :: inside)

/-- A node of a body with its tokens, whether a semicolon follows or the body ends. -/
structure IsItem (tokens : List Token) (node : Node) : Prop where
  closed : ∀ {semicolon : Token} {rest : List Token} {nodes : List Node},
    semicolon.kind = .semicolon → Items rest nodes →
      Items (tokens ++ semicolon :: rest) (node :: nodes)
  last : Items tokens [node]
  whole : Sealed tokens

theorem isItem_of_statement {tokens : List Token} {lexemes : List Lexeme} {node : Node}
    (ht : tokens.map Token.lexeme = lexemes) (hp : Plain lexemes) (hne : tokens ≠ [])
    (hf : StatementForm tokens node) : IsItem tokens node := by
  have hs : IsStatement tokens node := ⟨hne, hp.unbroken ht, hp.unconditional ht, hf⟩
  have htail : HasTail tokens :=
    ⟨tokens.getLast hne, List.getLast?_eq_some_getLast hne,
      hp.unbroken ht _ (List.getLast_mem hne)⟩
  exact ⟨fun hk hr => .statement hs hk hr, .final hs, hp.curlies ht, htail⟩

theorem isItem_of_conditional {keyword : Token} {branch others : List Token} {condition : Node}
    {body : Body} {alternative : Alternative} (hk : keyword.kind = .ifKeyword)
    (hb : Branch branch condition body) (ha : Alternatives others alternative)
    (hw : Sealed (branch ++ others)) :
    IsItem (keyword :: (branch ++ others))
      (.conditional condition body alternative keyword.span) := by
  refine ⟨?_, ?_, hw.cons (by rw [hk]; decide)⟩
  · intro semicolon rest nodes hs hr
    have := Items.conditional hk hb ha (.semicolon hs hr)
    rwa [← List.append_assoc] at this
  · have := Items.conditional hk hb ha .nothing
    rwa [List.append_nil] at this

/-! ## Nodes, bodies and alternatives -/

def Node.HasItem (node : Node) : Prop :=
  ∀ tokens : List Token, tokens.map Token.lexeme = node.lexemes →
    ∃ read, read.withoutSpans = node.withoutSpans ∧ IsItem tokens read

def Body.HasBlock (body : Body) : Prop :=
  ∀ tokens : List Token, tokens.map Token.lexeme = body.lexemes →
    ∃ read, read.withoutSpans = body.withoutSpans ∧ Block tokens read

def Alternative.HasBranches (alternative : Alternative) : Prop :=
  ∀ tokens : List Token, tokens.map Token.lexeme = alternative.lexemes →
    ∃ read, read.withoutSpans = alternative.withoutSpans ∧ Alternatives tokens read ∧
      (tokens = [] ∨ Sealed tokens)

theorem Node.IsExpression.hasItem {node : Node} (h : node.IsExpression) : node.HasItem := by
  intro tokens ht
  obtain ⟨read, hv, he, -⟩ := h.value ht
  obtain ⟨first, rest, rfl, -⟩ := expression_begins hv
  exact ⟨read, he, isItem_of_statement ht h.plain (List.cons_ne_nil _ _) (.expression hv)⟩

theorem assign_hasItem (target : String) {value : Node} (span : Span) (h : value.IsExpression) :
    (Node.assign target value span).HasItem := by
  intro tokens ht
  have hp : Plain (Node.assign target value span).lexemes :=
    plain_cons.mpr ⟨rfl, plain_cons.mpr ⟨rfl, h.plain⟩⟩
  obtain ⟨name, more, rfl, hname, hmore⟩ := List.map_eq_cons_iff.mp ht
  obtain ⟨sign, rest, rfl, hsign, hrest⟩ := List.map_eq_cons_iff.mp hmore
  obtain ⟨read, hv, he, -⟩ := h.value hrest
  refine ⟨.assign name.text read name.span, ?_, isItem_of_statement ht hp (List.cons_ne_nil _ _)
    (.assignment (Token.kind_of_lexeme hname) (Token.kind_of_lexeme hsign) hv)⟩
  simp [Node.withoutSpans, he, Token.text_of_lexeme hname]

theorem marker_of_lexemes {mutable : Bool} {tokens : List Token}
    (ht : tokens.map Token.lexeme = if mutable then [⟨.mutKeyword, "mut"⟩] else []) :
    Marker tokens mutable := by
  cases mutable with
  | false =>
    obtain rfl := List.map_eq_nil_iff.mp ht
    exact .absent
  | true =>
    obtain ⟨keyword, rfl, hkeyword⟩ := List.map_eq_singleton_iff.mp ht
    exact .present (Token.kind_of_lexeme hkeyword)

theorem plain_declaration (mutable : Bool) (type name : String) {initializer : Option Node}
    (span : Span) (h : ∀ value ∈ initializer, value.IsExpression) :
    Plain (Node.declare mutable type name initializer span).lexemes := by
  have hmarker : Plain (if mutable then [⟨.mutKeyword, "mut"⟩] else []) := by
    cases mutable with
    | false => exact plain_nil
    | true => exact plain_cons.mpr ⟨rfl, plain_nil⟩
  rw [Node.lexemes_declare, plain_append, plain_cons, plain_cons]
  refine ⟨hmarker, rfl, rfl, ?_⟩
  cases initializer with
  | none => exact plain_nil
  | some value => exact plain_cons.mpr ⟨rfl, (h value rfl).plain⟩

theorem declare_hasItem (mutable : Bool) (type name : String) {initializer : Option Node}
    (span : Span) (h : ∀ value ∈ initializer, value.IsExpression) :
    (Node.declare mutable type name initializer span).HasItem := by
  intro tokens ht
  have hp := plain_declaration mutable type name span h
  rw [Node.lexemes_declare] at ht hp
  obtain ⟨marker, back, rfl, hmarker, hback⟩ := List.map_eq_append_iff.mp ht
  obtain ⟨typeToken, more, rfl, htype, hmore⟩ := List.map_eq_cons_iff.mp hback
  obtain ⟨nameToken, value, rfl, hname, hvalue⟩ := List.map_eq_cons_iff.mp hmore
  obtain ⟨read, he, hinitializer⟩ : ∃ read : Option Node,
      read.map Node.withoutSpans = initializer.map Node.withoutSpans ∧
        Initializer value read := by
    cases initializer with
    | none =>
      obtain rfl := List.map_eq_nil_iff.mp hvalue
      exact ⟨none, rfl, .absent⟩
    | some node =>
      obtain ⟨sign, rest, rfl, hsign, hrest⟩ := List.map_eq_cons_iff.mp hvalue
      obtain ⟨read, hv, he, -⟩ := (h node rfl).value hrest
      exact ⟨some read, congrArg some he, .present (Token.kind_of_lexeme hsign) hv⟩
  refine ⟨.declare mutable typeToken.text nameToken.text read nameToken.span, ?_,
    isItem_of_statement ht hp (by simp) (.declaration (marker_of_lexemes hmarker)
      (Token.kind_of_lexeme htype) (Token.kind_of_lexeme hname) hinitializer)⟩
  simp [Node.withoutSpans_declare, he, Token.text_of_lexeme htype, Token.text_of_lexeme hname]

/-- What follows `if` and `elif` alike: a condition in parentheses, a body and an alternative. -/
theorem branches_of_lexemes {condition : Node} {body : Body} {alternative : Alternative}
    (hc : condition.IsExpression) (hb : body.HasBlock) (ha : alternative.HasBranches)
    {tokens : List Token}
    (ht : tokens.map Token.lexeme = ⟨.openParen, "("⟩ ::
      (condition.lexemes ++ ⟨.closeParen, ")"⟩ :: (body.lexemes ++ alternative.lexemes))) :
    ∃ branch others readCondition readBody readOthers, tokens = branch ++ others ∧
      Branch branch readCondition readBody ∧ Alternatives others readOthers ∧
      Sealed (branch ++ others) ∧ readCondition.withoutSpans = condition.withoutSpans ∧
      readBody.withoutSpans = body.withoutSpans ∧
      readOthers.withoutSpans = alternative.withoutSpans := by
  obtain ⟨opening, back, rfl, hopening, hback⟩ := List.map_eq_cons_iff.mp ht
  obtain ⟨inside, front, rfl, hinside, hfront⟩ := List.map_eq_append_iff.mp hback
  obtain ⟨closing, rest, rfl, hclosing, hrest⟩ := List.map_eq_cons_iff.mp hfront
  obtain ⟨block, others, rfl, hblock, hothers⟩ := List.map_eq_append_iff.mp hrest
  have ho : opening.kind = .openParen := Token.kind_of_lexeme hopening
  have hcl : closing.kind = .closeParen := Token.kind_of_lexeme hclosing
  obtain ⟨readCondition, hv, hce, hparens⟩ := hc.value hinside
  obtain ⟨readBody, hbe, hbody⟩ := hb block hblock
  obtain ⟨readOthers, hoe, halternatives, hend⟩ := ha others hothers
  have hback : Sealed (closing :: block) := hbody.sealed.cons (by rw [hcl]; decide)
  have hfront : Sealed (inside ++ closing :: block) :=
    ⟨(hc.plain.curlies hinside).append hback.curlies, hback.tail.append inside⟩
  have hbranch : Sealed (opening :: (inside ++ closing :: block)) :=
    hfront.cons (by rw [ho]; decide)
  exact ⟨opening :: (inside ++ closing :: block), others, readCondition, readBody, readOthers,
    by simp, .mk ho hcl hparens hv hbody, halternatives, hbranch.append hend, hce, hbe, hoe⟩

theorem conditional_hasItem {condition : Node} {body : Body} {alternative : Alternative}
    (span : Span) (hc : condition.IsExpression) (hb : body.HasBlock)
    (ha : alternative.HasBranches) :
    (Node.conditional condition body alternative span).HasItem := by
  intro tokens ht
  rw [Node.lexemes] at ht
  obtain ⟨keyword, rest, rfl, hkeyword, hrest⟩ := List.map_eq_cons_iff.mp ht
  obtain ⟨branch, others, readCondition, readBody, readOthers, rfl, hbranch, halternatives, hw,
    hce, hbe, hoe⟩ := branches_of_lexemes hc hb ha hrest
  refine ⟨.conditional readCondition readBody readOthers keyword.span, ?_,
    isItem_of_conditional (Token.kind_of_lexeme hkeyword) hbranch halternatives hw⟩
  rw [Node.withoutSpans, hce, hbe, hoe, Node.withoutSpans]

theorem otherwise_hasBranches {body : Body} (hb : body.HasBlock) :
    (Alternative.otherwise body).HasBranches := by
  intro tokens ht
  obtain ⟨keyword, rest, rfl, hkeyword, hrest⟩ := List.map_eq_cons_iff.mp ht
  have hk : keyword.kind = .elseKeyword := Token.kind_of_lexeme hkeyword
  obtain ⟨read, he, hblock⟩ := hb rest hrest
  refine ⟨.otherwise read, ?_, .otherwise hk hblock,
    .inr (hblock.sealed.cons (by rw [hk]; decide))⟩
  rw [Alternative.withoutSpans, he, Alternative.withoutSpans]

theorem elif_hasBranches {condition : Node} {body : Body} {alternative : Alternative}
    (hc : condition.IsExpression) (hb : body.HasBlock) (ha : alternative.HasBranches) :
    (Alternative.elif condition body alternative).HasBranches := by
  intro tokens ht
  rw [Alternative.lexemes] at ht
  obtain ⟨keyword, rest, rfl, hkeyword, hrest⟩ := List.map_eq_cons_iff.mp ht
  have hk : keyword.kind = .elifKeyword := Token.kind_of_lexeme hkeyword
  obtain ⟨branch, others, readCondition, readBody, readOthers, rfl, hbranch, halternatives, hw,
    hce, hbe, hoe⟩ := branches_of_lexemes hc hb ha hrest
  refine ⟨.elif readCondition readBody readOthers, ?_, .elif hk hbranch halternatives,
    .inr (hw.cons (by rw [hk]; decide))⟩
  rw [Alternative.withoutSpans, hce, hbe, hoe, Alternative.withoutSpans]

/-- Statements with a semicolon after each go in front of any items. -/
theorem statements_of_lexemes (nodes : List Node) (h : ∀ node ∈ nodes, node.HasItem)
    (tokens : List Token)
    (ht : tokens.map Token.lexeme =
      nodes.flatMap fun node => node.lexemes ++ [⟨.semicolon, ";"⟩]) :
    ∃ reads : List Node, reads.map Node.withoutSpans = nodes.map Node.withoutSpans ∧
      (∀ {rest others}, Items rest others → Items (tokens ++ rest) (reads ++ others)) ∧
      Balanced .openCurly .closeCurly tokens ∧ ¬ HasTail tokens := by
  induction nodes generalizing tokens with
  | nil =>
    obtain rfl := List.map_eq_nil_iff.mp ht
    refine ⟨[], rfl, fun hr => hr, balanced_nil, ?_⟩
    rintro ⟨last, hl, -⟩
    cases hl
  | cons node more ih =>
    rw [List.flatMap_cons, List.append_assoc, List.singleton_append] at ht
    obtain ⟨front, back, rfl, hfront, hback⟩ := List.map_eq_append_iff.mp ht
    obtain ⟨semicolon, rest, rfl, hsemicolon, hrest⟩ := List.map_eq_cons_iff.mp hback
    have hk : semicolon.kind = .semicolon := Token.kind_of_lexeme hsemicolon
    obtain ⟨read, he, hitem⟩ := h node (by simp) front hfront
    obtain ⟨reads, hmore, hitems, hcurlies, htail⟩ :=
      ih (fun other ho => h other (List.mem_cons_of_mem node ho)) rest hrest
    refine ⟨read :: reads, by rw [List.map_cons, List.map_cons, he, hmore], ?_, ?_, ?_⟩
    · intro after others hr
      rw [List.append_assoc, List.cons_append, List.cons_append]
      exact hitem.closed hk (hitems hr)
    · exact hitem.whole.curlies.append
        (hcurlies.cons_other (by rw [hk]; decide) (by rw [hk]; decide))
    · intro hh
      rcases hasTail_append front hh with hn | hh
      · cases hn
      · rcases hasTail_append [semicolon] hh with rfl | hh
        · obtain ⟨last, hl, hne⟩ := hh
          cases hl
          exact hne hk
        · exact htail hh

theorem body_hasBlock {statements : List Node} {tail : Option Node}
    (hs : ∀ node ∈ statements, node.HasItem) (ht : ∀ node ∈ tail, node.HasItem) :
    (Body.mk statements tail).HasBlock := by
  intro tokens hl
  rw [Body.lexemes_mk] at hl
  obtain ⟨opening, more, rfl, hopening, hmore⟩ := List.map_eq_cons_iff.mp hl
  obtain ⟨front, back, rfl, hfront, hback⟩ := List.map_eq_append_iff.mp hmore
  obtain ⟨final, last, rfl, hfinal, hlast⟩ := List.map_eq_append_iff.mp hback
  obtain ⟨closing, rfl, hclosing⟩ := List.map_eq_singleton_iff.mp hlast
  have ho : opening.kind = .openCurly := Token.kind_of_lexeme hopening
  have hc : closing.kind = .closeCurly := Token.kind_of_lexeme hclosing
  obtain ⟨reads, he, hitems, hcurlies, hno⟩ := statements_of_lexemes statements hs front hfront
  rw [← List.append_assoc]
  cases tail with
  | none =>
    obtain rfl := List.map_eq_nil_iff.mp hfinal
    rw [List.append_nil]
    refine ⟨.mk reads none, by rw [Body.withoutSpans_mk, Body.withoutSpans_mk, he],
      .mk ho hc hcurlies (.mk ?_ ?_)⟩
    · simpa [Body.statements, Body.tail] using hitems .nothing
    · simpa [Body.tail] using hno
  | some node =>
    obtain ⟨read, hre, hitem⟩ := ht node rfl final (by simpa using hfinal)
    refine ⟨.mk reads (some read), by simp [Body.withoutSpans_mk, he, hre],
      .mk ho hc (hcurlies.append hitem.whole.curlies) (.mk (hitems hitem.last) ?_)⟩
    simpa [Body.tail] using hitem.whole.tail.append front

mutual

theorem Node.WellFormed.hasItem : {node : Node} → node.WellFormed → node.HasItem
  | _, .expression h => h.hasItem
  | _, .assign span _ hv => assign_hasItem _ span hv
  | _, .declare mutable span _ _ hi => declare_hasItem mutable _ _ span hi
  | _, .conditional span hc hb ha => conditional_hasItem span hc hb.hasBlock ha.hasBranches

theorem Body.WellFormed.hasBlock : {body : Body} → body.WellFormed → body.HasBlock
  | _, .mk hs ht =>
    body_hasBlock (fun node hm => (hs node hm).hasItem) (fun node hm => (ht node hm).hasItem)

theorem Alternative.WellFormed.hasBranches : {alternative : Alternative} →
    alternative.WellFormed → alternative.HasBranches
  | _, .nothing => by
    intro tokens ht
    obtain rfl := List.map_eq_nil_iff.mp ht
    exact ⟨.nothing, rfl, .nothing, .inl rfl⟩
  | _, .otherwise hb => otherwise_hasBranches hb.hasBlock
  | _, .elif hc hb ha => elif_hasBranches hc hb.hasBlock ha.hasBranches

end

/-! ## Functions and programs -/

theorem parameters_of_lexemes (given : List Parameter) (hne : given ≠ []) (tokens : List Token)
    (ht : tokens.map Token.lexeme =
      List.intercalate [⟨.comma, ","⟩] (given.map Parameter.lexemes)) :
    ∃ reads : List Parameter,
      reads.map Parameter.withoutSpans = given.map Parameter.withoutSpans ∧
      startsWith .identifier tokens = true ∧
      ∀ {closing : Token} {rest : List Token}, closing.kind = .closeParen →
        parameters (tokens ++ closing :: rest) = .ok (reads, closing :: rest) := by
  induction given generalizing tokens with
  | nil => exact absurd rfl hne
  | cons parameter more ih =>
    cases more with
    | nil =>
      rw [List.map_singleton, List.intercalate_singleton, Parameter.lexemes] at ht
      obtain ⟨type, back, rfl, htype, hback⟩ := List.map_eq_cons_iff.mp ht
      obtain ⟨name, rfl, hname⟩ := List.map_eq_singleton_iff.mp hback
      refine ⟨[⟨type.text, name.text, name.span⟩], ?_, ?_, ?_⟩
      · simp [Parameter.withoutSpans, Token.text_of_lexeme htype, Token.text_of_lexeme hname]
      · simp [startsWith, Token.kind_of_lexeme htype]
      · intro closing rest hc
        simp [parameters, Token.kind_of_lexeme htype, Token.kind_of_lexeme hname, hc]
    | cons next others =>
      rw [List.map_cons, List.map_cons, List.intercalate_cons_cons, List.append_assoc,
        List.singleton_append, Parameter.lexemes] at ht
      obtain ⟨type, back, rfl, htype, hback⟩ := List.map_eq_cons_iff.mp ht
      obtain ⟨name, front, rfl, hname, hfront⟩ := List.map_eq_cons_iff.mp hback
      obtain ⟨comma, rest, rfl, hcomma, hrest⟩ := List.map_eq_cons_iff.mp hfront
      obtain ⟨reads, he, -, hread⟩ := ih (List.cons_ne_nil _ _) rest hrest
      refine ⟨⟨type.text, name.text, name.span⟩ :: reads, ?_, ?_, ?_⟩
      · rw [List.map_cons, he]
        simp [Parameter.withoutSpans, Token.text_of_lexeme htype, Token.text_of_lexeme hname]
      · simp [startsWith, Token.kind_of_lexeme htype]
      · intro closing after hc
        simp [parameters, Token.kind_of_lexeme htype, Token.kind_of_lexeme hname,
          Token.kind_of_lexeme hcomma, hread hc]

theorem parameterList_of_lexemes (given : List Parameter) (tokens : List Token)
    (ht : tokens.map Token.lexeme =
      List.intercalate [⟨.comma, ","⟩] (given.map Parameter.lexemes)) :
    ∃ reads : List Parameter,
      reads.map Parameter.withoutSpans = given.map Parameter.withoutSpans ∧
      ∀ {closing : Token} {rest : List Token}, closing.kind = .closeParen →
        parameterList (tokens ++ closing :: rest) = .ok (reads, closing :: rest) := by
  by_cases hne : given = []
  · subst hne
    obtain rfl := List.map_eq_nil_iff.mp ht
    refine ⟨[], rfl, ?_⟩
    intro closing rest hc
    simp [parameterList, startsWith, hc]
  · obtain ⟨reads, he, hs, hread⟩ := parameters_of_lexemes given hne tokens ht
    refine ⟨reads, he, ?_⟩
    intro closing rest hc
    have hstart : startsWith .identifier (tokens ++ closing :: rest) = true := by
      cases tokens with
      | nil => cases hs
      | cons first more => exact hs
    rw [parameterList, if_pos hstart, hread hc]

/-- A head is read up to its end, whatever comes after it. -/
theorem prototype_of_lexemes (signature : Signature) (tokens : List Token)
    (ht : tokens.map Token.lexeme = signature.lexemes.tail) :
    ∃ read : Signature, read.withoutSpans = signature.withoutSpans ∧
      ∀ rest, prototype (tokens ++ rest) = .ok (read, tokens.length) := by
  rw [Signature.lexemes, List.tail_cons] at ht
  obtain ⟨name, more, rfl, hname, hmore⟩ := List.map_eq_cons_iff.mp ht
  obtain ⟨opening, back, rfl, hopening, hback⟩ := List.map_eq_cons_iff.mp hmore
  obtain ⟨inside, last, rfl, hinside, hlast⟩ := List.map_eq_append_iff.mp hback
  obtain ⟨closing, final, rfl, hclosing, hfinal⟩ := List.map_eq_cons_iff.mp hlast
  obtain ⟨arrow, result, rfl, harrow, hresult⟩ := List.map_eq_cons_iff.mp hfinal
  obtain ⟨type, rfl, htype⟩ := List.map_eq_singleton_iff.mp hresult
  obtain ⟨reads, he, hread⟩ := parameterList_of_lexemes signature.parameters inside hinside
  refine ⟨⟨name.text, reads, type.text, name.span⟩, ?_, ?_⟩
  · simp [Signature.withoutSpans, he, Token.text_of_lexeme hname, Token.text_of_lexeme htype]
  · intro rest
    have hparameters := @hread closing (arrow :: type :: rest) (Token.kind_of_lexeme hclosing)
    simp [prototype, expect, returnType, Token.kind_of_lexeme hname,
      Token.kind_of_lexeme hopening, Token.kind_of_lexeme hclosing, Token.kind_of_lexeme harrow,
      Token.kind_of_lexeme htype, hparameters]
    omega

theorem Signature.plain (signature : Signature) : Plain signature.lexemes := by
  have hinside : Plain
      (List.intercalate [⟨.comma, ","⟩] (signature.parameters.map Parameter.lexemes)) := by
    refine plain_intercalate (plain_cons.mpr ⟨rfl, plain_nil⟩) ?_
    intro part hm
    obtain ⟨parameter, -, rfl⟩ := List.mem_map.mp hm
    exact plain_cons.mpr ⟨rfl, plain_cons.mpr ⟨rfl, plain_nil⟩⟩
  simp only [Signature.lexemes, plain_cons, plain_append]
  exact ⟨rfl, rfl, rfl, hinside, rfl, rfl, rfl, plain_nil⟩

/-- A head with a semicolon is one more external function in front of a program. -/
theorem external_of_lexemes (signature : Signature) (tokens : List Token)
    (ht : tokens.map Token.lexeme = signature.externalLexemes) :
    ∃ read : Signature, read.withoutSpans = signature.withoutSpans ∧
      ∀ {rest : List Token} {program : Program}, Reading.program rest = .ok program →
        Reading.program (tokens ++ rest) = .ok (program.declare read) := by
  obtain ⟨keyword, back, rfl, hkeyword, hback⟩ := List.map_eq_cons_iff.mp ht
  obtain ⟨head, last, rfl, hhead, hlast⟩ := List.map_eq_append_iff.mp hback
  obtain ⟨semicolon, rfl, hsemicolon⟩ := List.map_eq_singleton_iff.mp hlast
  have hk : semicolon.kind = .semicolon := Token.kind_of_lexeme hsemicolon
  have hunbroken := signature.plain.unbroken hhead
  obtain ⟨fn, front, rfl, hfn, hfront⟩ := List.map_eq_cons_iff.mp hhead
  obtain ⟨read, he, hread⟩ := prototype_of_lexemes signature front hfront
  refine ⟨read, he, ?_⟩
  intro rest program hrest
  have hstop : ((fn :: front) ++ semicolon :: rest).findIdx? (fun token => token.kind = .semicolon)
      = some (fn :: front).length := by
    rw [List.findIdx?_append, List.findIdx?_eq_none_iff.mpr (by simpa using hunbroken)]
    simp [List.findIdx?_cons, hk]
  have hsignature : Reading.signature (fn :: front) = .ok (read, (fn :: front).length) := by
    have hfront := hread []
    rw [List.append_nil] at hfront
    simp [Reading.signature, expect, Token.kind_of_lexeme hfn, hfront]
  have hexternal : externalRest ((fn :: front) ++ semicolon :: rest) =
      .ok (read, (fn :: front).length + 1) := by
    rw [externalRest, hstop]
    simp only [List.take_left, hsignature, followedBy_ok, ok_bind, if_true]
  rw [List.cons_append, List.append_assoc, List.singleton_append, Reading.program,
    if_pos (Token.kind_of_lexeme hkeyword), hexternal, ok_bind]
  simp [hrest]

/-- A head with a body is one more function in front of a program. -/
theorem definition_of_lexemes (definition : Definition) (hb : definition.body.WellFormed)
    (tokens : List Token) (ht : tokens.map Token.lexeme = definition.lexemes) :
    ∃ read : Definition, read.withoutSpans = definition.withoutSpans ∧
      ∀ {rest : List Token} {program : Program}, Reading.program rest = .ok program →
        Reading.program (tokens ++ rest) = .ok (program.define read) := by
  obtain ⟨head, body, rfl, hhead, hbody⟩ := List.map_eq_append_iff.mp ht
  obtain ⟨fn, front, rfl, hfn, hfront⟩ := List.map_eq_cons_iff.mp hhead
  have hk : fn.kind = .fnKeyword := Token.kind_of_lexeme hfn
  obtain ⟨read, he, hread⟩ := prototype_of_lexemes definition.signature front hfront
  obtain ⟨readBody, hbe, hblock⟩ := hb.hasBlock body hbody
  refine ⟨⟨read, readBody⟩, by rw [Definition.withoutSpans, Definition.withoutSpans, he, hbe], ?_⟩
  intro rest program hrest
  have hdefinition : definitionRest (front ++ (body ++ rest)) =
      .ok (⟨read, readBody⟩, front.length + body.length) := by
    rw [definitionRest, hread, ok_bind]
    simp [block_complete hblock rest]
  rw [List.cons_append, List.cons_append, List.append_assoc, Reading.program,
    if_neg (by rw [hk]; decide), if_pos hk, hdefinition, ok_bind]
  simp [← List.drop_drop, hrest]

theorem definitions_of_lexemes (definitions : List Definition)
    (h : ∀ definition ∈ definitions, definition.body.WellFormed) (tokens : List Token)
    (ht : tokens.map Token.lexeme = definitions.flatMap Definition.lexemes) :
    ∃ reads : List Definition,
      reads.map Definition.withoutSpans = definitions.map Definition.withoutSpans ∧
      Reading.program tokens = .ok ⟨reads, []⟩ := by
  induction definitions generalizing tokens with
  | nil =>
    obtain rfl := List.map_eq_nil_iff.mp ht
    exact ⟨[], rfl, by rw [Reading.program]; rfl⟩
  | cons definition more ih =>
    obtain ⟨front, rest, rfl, hfront, hrest⟩ := List.map_eq_append_iff.mp ht
    obtain ⟨read, he, hread⟩ :=
      definition_of_lexemes definition (h definition (by simp)) front hfront
    obtain ⟨reads, hmore, hreads⟩ :=
      ih (fun other ho => h other (List.mem_cons_of_mem definition ho)) rest hrest
    exact ⟨read :: reads, by rw [List.map_cons, he, hmore, List.map_cons], hread hreads⟩

theorem externals_of_lexemes (externals : List Signature) (tokens : List Token)
    (ht : tokens.map Token.lexeme = externals.flatMap Signature.externalLexemes) :
    ∃ reads : List Signature,
      reads.map Signature.withoutSpans = externals.map Signature.withoutSpans ∧
      ∀ {rest : List Token} {definitions : List Definition},
        Reading.program rest = .ok ⟨definitions, []⟩ →
          Reading.program (tokens ++ rest) = .ok ⟨definitions, reads⟩ := by
  induction externals generalizing tokens with
  | nil =>
    obtain rfl := List.map_eq_nil_iff.mp ht
    exact ⟨[], rfl, fun hrest => hrest⟩
  | cons signature more ih =>
    obtain ⟨front, others, rfl, hfront, hothers⟩ := List.map_eq_append_iff.mp ht
    obtain ⟨read, he, hread⟩ := external_of_lexemes signature front hfront
    obtain ⟨reads, hmore, hreads⟩ := ih others hothers
    refine ⟨read :: reads, by rw [List.map_cons, he, hmore, List.map_cons], ?_⟩
    intro rest definitions hrest
    rw [List.append_assoc]
    exact hread (hreads hrest)

/-- Tokens with the lexemes of a program are read as the program, with their own spans. -/
theorem Program.ofTokens_of_lexemes {program : Program} (h : program.WellFormed)
    {tokens : List Token} (ht : tokens.map Token.lexeme = program.lexemes) :
    ∃ read, Program.ofTokens tokens = .ok read ∧ read.withoutSpans = program.withoutSpans := by
  obtain ⟨front, rest, rfl, hfront, hrest⟩ := List.map_eq_append_iff.mp ht
  obtain ⟨definitions, hd, hprogram⟩ :=
    definitions_of_lexemes program.definitions h.bodies rest hrest
  obtain ⟨externals, he, hread⟩ := externals_of_lexemes program.externals front hfront
  refine ⟨⟨definitions, externals⟩, Buffer.settle_eq_ok.mpr (hread hprogram), ?_⟩
  rw [Program.withoutSpans, Program.withoutSpans, hd, he]

/-- The text of a well-formed program is scanned, and its tokens are read as the same program: the
same functions in the same order, with the same trees, except for where everything stands. -/
theorem Program.ofTokens_scan_print (program : Program) (h : program.WellFormed) :
    ∃ tokens read, Token.scan program.print = .ok tokens ∧ Program.ofTokens tokens = .ok read ∧
      read.withoutSpans = program.withoutSpans := by
  obtain ⟨tokens, hscan, hlexemes⟩ := Program.scan_print h
  obtain ⟨read, hread, he⟩ := Program.ofTokens_of_lexemes h hlexemes
  exact ⟨tokens, read, hscan, hread, he⟩

/-- A program with an external function, a declaration, a statement that is a conditional, and a
conditional with all kinds of alternatives as its tail. -/
def Program.branching : Program :=
  let a : Node := .reference "a" .nowhere
  let one : Node := .number "1" .nowhere
  let step : Node := .binary "-" a (.call "f" [.binary "." one a .nowhere, one] .nowhere) .nowhere
  let inner : Body := .mk [.assign "a" step .nowhere] none
  ⟨[⟨⟨"main", [⟨"i32", "a", .nowhere⟩, ⟨"u8", "b", .nowhere⟩], "i32", .nowhere⟩,
    .mk [.declare true "i32" "x" (some step) .nowhere, .conditional a inner .nothing .nowhere]
      (some (.conditional (.binary "==" a one .nowhere) inner
        (.elif a (.mk [] (some one)) (.otherwise (.mk [] none))) .nowhere))⟩],
    [⟨"f", [], "void", .nowhere⟩]⟩

theorem Program.ofTokens_scan_print_branching :
    Program.branching.WellFormed ∧
      ∃ tokens read, Token.scan Program.branching.print = .ok tokens ∧
        Program.ofTokens tokens = .ok read ∧
        read.withoutSpans = Program.branching.withoutSpans := by
  have only {P : Node → Prop} {node : Node} (hn : P node) : ∀ other ∈ some node, P other := by
    rintro other ⟨⟩
    exact hn
  have ha : Node.IsExpression (.reference "a" .nowhere) := .reference _ rfl
  have hone : Node.IsExpression (.number "1" .nowhere) := .number _ rfl
  have hdot : Node.IsExpression
      (.binary "." (.number "1" .nowhere) (.reference "a" .nowhere) .nowhere) :=
    .binary _ (by decide) hone ha
  have hequal : Node.IsExpression
      (.binary "==" (.reference "a" .nowhere) (.number "1" .nowhere) .nowhere) :=
    .binary _ (by decide) ha hone
  have hstep := Node.IsExpression.binary .nowhere (by decide : "-" ∈ operatorTexts) ha
    (.call .nowhere (rfl : isName "f" = true)
      (List.forall_mem_cons.mpr ⟨hdot, List.forall_mem_singleton.mpr hone⟩))
  have hinner := Body.WellFormed.mk
    (List.forall_mem_singleton.mpr (.assign .nowhere (rfl : isName "a" = true) hstep))
    (by simp : ∀ node ∈ (none : Option Node), node.WellFormed)
  have hothers : Alternative.WellFormed (.elif (.reference "a" .nowhere)
      (.mk [] (some (.number "1" .nowhere))) (.otherwise (.mk [] none))) :=
    .elif ha (.mk (by simp) (only (.expression hone)))
      (.otherwise (.mk (by simp) (by simp)))
  have hdeclare := Node.WellFormed.declare true .nowhere (rfl : isName "i32" = true)
    (rfl : isName "x" = true) (only hstep)
  have hbody := Body.WellFormed.mk
    (List.forall_mem_cons.mpr ⟨hdeclare, List.forall_mem_singleton.mpr
      (.conditional .nowhere ha hinner .nothing)⟩)
    (only (.conditional .nowhere hequal hinner hothers))
  have h : Program.branching.WellFormed := by
    refine ⟨?_, ?_, ?_⟩
    · exact List.forall_mem_singleton.mpr ⟨rfl, by simp, rfl⟩
    · exact List.forall_mem_singleton.mpr ⟨rfl, by decide, rfl⟩
    · exact List.forall_mem_singleton.mpr hbody
  exact ⟨h, Program.ofTokens_scan_print Program.branching h⟩

end FrontEnd
