import Mathlib
import FrontEnd.Program
import FrontEnd.Proofs.BodyReading

/-! # Trees cite their tokens

A tree is made of tokens of the range that it is read from. In the order in which a tree is
traversed, what its nodes say of their tokens is met by tokens of the range in the order of the
range, so that no token is used twice and no two parts are swapped. Readers pass on parts of their
range that follow one another, also where an operand without an end takes the rest; so it is enough
to put citations together side by side, and tokens that a tree does not cite may be skipped. -/
namespace FrontEnd

/-! ## What trees cite -/

/-- What a tree says of a token: its kind and, where the tree keeps them, its text and span. -/
structure Citation where
  kind : TokenKind
  text? : Option String
  span? : Option Span
  deriving DecidableEq, Repr

/-- A citation that leaves nothing open. -/
def Citation.whole (kind : TokenKind) (text : String) (span : Span) : Citation :=
  ⟨kind, some text, some span⟩

structure Citation.MetBy (citation : Citation) (token : Token) : Prop where
  kind : token.kind = citation.kind
  text : ∀ text ∈ citation.text?, token.text = text
  span : ∀ span ∈ citation.span?, token.span = span

mutual

/-- What a node cites, in the order of a traversal. -/
def Node.citations : Node → List Citation
  | .number text span => [.whole .number text span]
  | .reference name span => [.whole .identifier name span]
  | .binary operator left right span =>
    left.citations ++ .whole .operator operator span :: right.citations
  | .call callee arguments span =>
    .whole .identifier callee span :: Node.citationsAll arguments
  | .assign target value span => .whole .identifier target span :: value.citations
  | .declare mutable type name initializer span =>
    (if mutable then [⟨.mutKeyword, none, none⟩] else []) ++
      ⟨.identifier, some type, none⟩ :: .whole .identifier name span ::
        match initializer with
        | some value => value.citations
        | none => []
  | .conditional condition body alternative span =>
    ⟨.ifKeyword, none, some span⟩ ::
      (condition.citations ++ (body.citations ++ alternative.citations))

def Node.citationsAll : List Node → List Citation
  | [] => []
  | node :: more => node.citations ++ Node.citationsAll more

def Body.citations : Body → List Citation
  | .mk statements tail =>
    Node.citationsAll statements ++
      match tail with
      | some node => node.citations
      | none => []

def Alternative.citations : Alternative → List Citation
  | .nothing => []
  | .otherwise body => body.citations
  | .elif condition body alternative =>
    condition.citations ++ (body.citations ++ alternative.citations)

end

@[simp] theorem Node.citationsAll_eq_flatMap (nodes : List Node) :
    Node.citationsAll nodes = nodes.flatMap Node.citations := by
  induction nodes with
  | nil => rfl
  | cons node more ih => rw [Node.citationsAll, ih, List.flatMap_cons]

theorem Node.citations_declare (mutable : Bool) (type name : String) (initializer : Option Node)
    (span : Span) :
    (Node.declare mutable type name initializer span).citations =
      (if mutable then [⟨.mutKeyword, none, none⟩] else []) ++
        ⟨.identifier, some type, none⟩ :: .whole .identifier name span ::
          initializer.toList.flatMap Node.citations := by
  cases initializer <;> simp [Node.citations]

theorem Body.citations_eq (body : Body) :
    body.citations = (body.statements ++ body.tail.toList).flatMap Node.citations := by
  obtain ⟨statements, tail⟩ := body
  cases tail <;> simp [Body.citations, Body.statements, Body.tail]

/-! ## What may stand where -/

/-- A node of numbers, names, operations and calls only. -/
inductive Node.Valued : Node → Prop
  | number (text span) : Node.Valued (.number text span)
  | reference (name span) : Node.Valued (.reference name span)
  | binary {left right : Node} (operator span) : left.Valued → right.Valued →
      Node.Valued (.binary operator left right span)
  | call {arguments} (callee span) : (∀ argument ∈ arguments, Node.Valued argument) →
      Node.Valued (.call callee arguments span)

mutual

/-- A node that stands directly in a body; what it is made of are such values, and bodies. -/
inductive Node.Placed : Node → Prop
  | value {node : Node} : node.Valued → node.Placed
  | assign {value : Node} (target span) : value.Valued → Node.Placed (.assign target value span)
  | declare {initializer : Option Node} (mutable type name span) :
      (∀ value ∈ initializer, value.Valued) →
      Node.Placed (.declare mutable type name initializer span)
  | conditional {condition : Node} {body alternative} (span) :
      condition.Valued → body.Placed → alternative.Placed →
      Node.Placed (.conditional condition body alternative span)

inductive Body.Placed : Body → Prop
  | mk {body : Body} : (∀ node ∈ body.statements ++ body.tail.toList, Node.Placed node) →
      body.Placed

inductive Alternative.Placed : Alternative → Prop
  | nothing : Alternative.Placed .nothing
  | otherwise {body : Body} : body.Placed → Alternative.Placed (.otherwise body)
  | elif {condition : Node} {body alternative} :
      condition.Valued → body.Placed → alternative.Placed →
      Alternative.Placed (.elif condition body alternative)

end

/-! ## Citations among tokens -/

namespace Citation

theorem whole_metBy {token : Token} {kind : TokenKind} (h : token.kind = kind) :
    (whole kind token.text token.span).MetBy token := by
  refine ⟨h, ?_, ?_⟩ <;> simp [whole]

/-- Some of the tokens, in their order, are what is cited. -/
def FoundIn (citations : List Citation) (tokens : List Token) : Prop :=
  ∃ cited, cited.Sublist tokens ∧ List.Forall₂ MetBy citations cited

section
variable {citations more : List Citation} {tokens rest : List Token}

theorem foundIn_nil (tokens : List Token) : FoundIn [] tokens :=
  ⟨[], List.nil_sublist tokens, .nil⟩

theorem FoundIn.append (h : FoundIn citations tokens) (hr : FoundIn more rest) :
    FoundIn (citations ++ more) (tokens ++ rest) := by
  obtain ⟨cited, hs, hm⟩ := h
  obtain ⟨others, hs', hm'⟩ := hr
  exact ⟨cited ++ others, hs.append hs', List.rel_append hm hm'⟩

theorem FoundIn.mono (h : FoundIn citations tokens) (hs : tokens.Sublist rest) :
    FoundIn citations rest := by
  obtain ⟨cited, hc, hm⟩ := h
  exact ⟨cited, hc.trans hs, hm⟩

theorem FoundIn.skip (h : FoundIn citations tokens) (token : Token) :
    FoundIn citations (token :: tokens) := h.mono (List.sublist_cons_self token tokens)

theorem FoundIn.cons {citation : Citation} {token : Token} (hm : citation.MetBy token)
    (h : FoundIn citations tokens) : FoundIn (citation :: citations) (token :: tokens) := by
  obtain ⟨cited, hs, hf⟩ := h
  exact ⟨token :: cited, hs.cons_cons token, .cons hm hf⟩

end
end Citation

open Citation

/-! ## Expressions -/

/-- The node is a value that cites tokens among these. -/
structure Node.DrawnFrom (node : Node) (tokens : List Token) : Prop where
  valued : node.Valued
  found : FoundIn node.citations tokens

theorem Node.DrawnFrom.binary {left right : Node} {front rest : List Token} {operator : Token}
    (hl : left.DrawnFrom front) (hk : operator.kind = .operator) (hr : right.DrawnFrom rest) :
    (Node.binary operator.text left right operator.span).DrawnFrom (front ++ operator :: rest) where
  valued := .binary _ _ hl.valued hr.valued
  found := by
    rw [Node.citations]
    exact hl.found.append (.cons (whole_metBy hk) hr.found)

namespace Reading
open Grammar

mutual

theorem expression_drawn (tokens : List Token) {node : Node} (h : expression tokens = .ok node) :
    node.DrawnFrom tokens := by
  rw [expression] at h
  cases hp : primaryEnd? tokens with
  | none =>
    simp only [hp] at h
    cases h
  | some count =>
    simp only [hp] at h
    obtain ⟨left, hleft, hmore⟩ := bind_eq_ok.mp h
    have hfirst := primary_drawn (tokens.take count) (followedBy_eq_ok.mp hleft)
    have hall := operators_drawn (tokens.drop count) hfirst hmore
    rwa [List.take_append_drop] at hall
termination_by (tokens.length, 2)
decreasing_by all_goals simp only [Prod.lex_def, List.length_take, List.length_drop]; omega

/-- What a chain adds to its left operand is drawn from the tokens of the chain. -/
theorem operators_drawn : (tokens : List Token) → {front : List Token} → {left node : Node} →
    left.DrawnFrom front → operators left tokens = .ok node → node.DrawnFrom (front ++ tokens)
  | [], front, left, node, hl, h => by
    rw [operators] at h
    cases h
    rwa [List.append_nil]
  | operator :: rest, front, left, node, hl, h => by
    rw [operators] at h
    by_cases hk : operator.kind = .operator
    · simp only [hk, ne_eq, not_true_eq_false, if_false] at h
      obtain ⟨right, hright, hmore⟩ := bind_eq_ok.mp h
      have hoperand := primary_drawn _ (followedBy_eq_ok.mp hright)
      have hrest := List.take_append_drop ((primaryEnd? rest).getD rest.length) rest
      split at hmore
      · -- the remaining chain belongs to the right operand
        obtain ⟨last, hlast, hnode⟩ := bind_eq_ok.mp hmore
        cases hnode
        have hchain := operators_drawn _ hoperand hlast
        rw [hrest] at hchain
        exact hl.binary hk hchain
      · have hchain := operators_drawn _ (hl.binary hk hoperand) hmore
        rwa [List.append_assoc, List.cons_append, hrest] at hchain
    · simp only [hk, ne_eq, not_false_eq_true, if_true] at h
      cases h
termination_by tokens => (tokens.length, 1)
decreasing_by
  all_goals simp only [Prod.lex_def, List.length_take, List.length_drop, List.length_cons]; omega

theorem primary_drawn : (tokens : List Token) → {node : Node} → primary tokens = .ok node →
    node.DrawnFrom tokens
  | [], node, h => by
    rw [primary] at h
    cases h
  | [token], node, h => by
    rw [primary] at h
    split at h
    · rename_i hk
      cases h
      exact ⟨.number _ _, .cons (whole_metBy hk) (foundIn_nil _)⟩
    · rename_i hk
      cases h
      exact ⟨.reference _ _, .cons (whole_metBy hk) (foundIn_nil _)⟩
    · cases h
  | first :: second :: rest, node, h => by
    rw [primary] at h
    split at h
    · split at h
      · have hinside := expression_drawn _ (followedBy_eq_ok.mp h)
        exact ⟨hinside.valued, (hinside.found.mono (List.dropLast_sublist _)).skip first⟩
      · cases h
    split at h
    · rename_i hk
      split at h
      · obtain ⟨given, hgiven, hnode⟩ := bind_eq_ok.mp h
        cases hnode
        obtain ⟨hvalued, hfound⟩ := arguments_drawn rest hgiven
        refine ⟨.call _ _ hvalued, ?_⟩
        rw [Node.citations, Node.citationsAll_eq_flatMap]
        exact .cons (whole_metBy hk) (hfound.skip second)
      · cases h
    · cases h
termination_by tokens => (tokens.length, 0)
decreasing_by all_goals simp only [Prod.lex_def, List.length_dropLast, List.length_cons]; omega

/-- The token behind an argument is skipped. -/
theorem arguments_drawn (tokens : List Token) {given : List Node}
    (h : arguments tokens = .ok given) :
    (∀ argument ∈ given, argument.Valued) ∧ FoundIn (given.flatMap Node.citations) tokens := by
  rw [arguments] at h
  split at h
  · cases h
    exact ⟨by simp, foundIn_nil tokens⟩
  · obtain ⟨argument, hargument, hrest⟩ := bind_eq_ok.mp h
    obtain ⟨more, hmore, hgiven⟩ := bind_eq_ok.mp hrest
    cases hgiven
    have hfirst := expression_drawn _ (followedBy_eq_ok.mp hargument)
    obtain ⟨hvalued, hfound⟩ := arguments_drawn _ hmore
    refine ⟨List.forall_mem_cons.mpr ⟨hfirst.valued, hvalued⟩, ?_⟩
    rw [List.flatMap_cons]
    have hskip (count : Nat) : (tokens.take count ++ tokens.drop (count + 1)).Sublist tokens := by
      have hdrop := List.drop_sublist_drop_left tokens (Nat.le_succ count)
      have hall := (List.Sublist.refl (tokens.take count)).append hdrop
      rwa [List.take_append_drop] at hall
    exact (hfirst.found.append hfound).mono (hskip _)
termination_by (tokens.length, 3)
decreasing_by all_goals simp only [Prod.lex_def, List.length_take, List.length_drop]; omega

end

/-! ## Statements and bodies -/

/-- Nodes that may stand in a body and cite tokens among these, one node after the other. -/
structure DrawnInOrder (nodes : List Node) (tokens : List Token) : Prop where
  placed : ∀ node ∈ nodes, node.Placed
  found : FoundIn (nodes.flatMap Node.citations) tokens

theorem DrawnInOrder.append {nodes more : List Node} {tokens rest : List Token}
    (h : DrawnInOrder nodes tokens) (hr : DrawnInOrder more rest) :
    DrawnInOrder (nodes ++ more) (tokens ++ rest) where
  placed := List.forall_mem_append.mpr ⟨h.placed, hr.placed⟩
  found := by
    rw [List.flatMap_append]
    exact h.found.append hr.found

theorem DrawnInOrder.skip {nodes : List Node} {tokens : List Token}
    (h : DrawnInOrder nodes tokens) (token : Token) : DrawnInOrder nodes (token :: tokens) :=
  ⟨h.placed, h.found.skip token⟩

theorem marker_found {marker rest : List Token} {mutable : Bool} {citations : List Citation}
    (h : Marker marker mutable) (hr : FoundIn citations rest) :
    FoundIn ((if mutable then [⟨.mutKeyword, none, none⟩] else []) ++ citations)
      (marker ++ rest) := by
  cases h with
  | absent => exact hr
  | present hk => exact .cons ⟨hk, by simp, by simp⟩ hr

theorem initializer_drawn {tokens : List Token} {initializer : Option Node}
    (h : Initializer tokens initializer) :
    (∀ value ∈ initializer, value.Valued) ∧
      FoundIn (initializer.toList.flatMap Node.citations) tokens := by
  cases h with
  | absent => exact ⟨by simp, foundIn_nil _⟩
  | @present sign value node hk hv =>
    have hvalue := expression_drawn value hv
    refine ⟨by simpa using hvalue.valued, ?_⟩
    simpa using hvalue.found.skip sign

theorem statement_drawn {tokens : List Token} {node : Node} (h : StatementForm tokens node) :
    DrawnInOrder [node] tokens := by
  cases h with
  | @declaration marker mutable type name value initializer hm hkt hkn hi =>
    obtain ⟨hvalued, hfound⟩ := initializer_drawn hi
    refine ⟨List.forall_mem_singleton.mpr (.declare _ _ _ _ hvalued), ?_⟩
    rw [List.flatMap_singleton, Node.citations_declare]
    refine marker_found hm (.cons ⟨hkt, ?_, ?_⟩ (.cons (whole_metBy hkn) hfound)) <;> simp
  | @assignment target sign value node hkt hks hv =>
    have hvalue := expression_drawn value hv
    refine ⟨List.forall_mem_singleton.mpr (.assign _ _ hvalue.valued), ?_⟩
    rw [List.flatMap_singleton, Node.citations]
    exact .cons (whole_metBy hkt) (hvalue.found.skip sign)
  | expression hv =>
    have hvalue := expression_drawn tokens hv
    refine ⟨List.forall_mem_singleton.mpr (.value hvalue.valued), ?_⟩
    rw [List.flatMap_singleton]
    exact hvalue.found

mutual

theorem items_drawn : {tokens : List Token} → {nodes : List Node} → Items tokens nodes →
    DrawnInOrder nodes tokens
  | _, _, .nothing => ⟨by simp, foundIn_nil _⟩
  | _, _, .final hs => statement_drawn hs.form
  | _, _, .statement hs _ hi => (statement_drawn hs.form).append ((items_drawn hi).skip _)
  | _, _, .semicolon _ hi => (items_drawn hi).skip _
  | _, _, @Items.conditional keyword _ _ _ _ _ _ _ hk hb ha hi => by
    obtain ⟨hvalued, hplaced, hbranch⟩ := branch_drawn hb
    obtain ⟨hothers, hfound⟩ := alternatives_drawn ha
    have hrest := items_drawn hi
    refine ⟨List.forall_mem_cons.mpr ⟨.conditional _ hvalued hplaced hothers, hrest.placed⟩, ?_⟩
    have hall := hbranch.append (hfound.append hrest.found)
    rw [List.flatMap_cons, Node.citations]
    have hif : Citation.MetBy ⟨.ifKeyword, none, some keyword.span⟩ keyword :=
      ⟨hk, by simp, by simp⟩
    simpa using FoundIn.cons hif hall

theorem body_drawn : {tokens : List Token} → {result : Body} → IsBody tokens result →
    result.Placed ∧ FoundIn result.citations tokens
  | _, result, .mk hi _ => by
    have hitems := items_drawn hi
    rw [Body.citations_eq]
    exact ⟨.mk hitems.placed, hitems.found⟩

theorem block_drawn : {tokens : List Token} → {result : Body} → Block tokens result →
    result.Placed ∧ FoundIn result.citations tokens
  | _, _, @Block.mk opening inside closing _ _ _ _ hb => by
    obtain ⟨hplaced, hfound⟩ := body_drawn hb
    exact ⟨hplaced, (hfound.mono (List.sublist_append_left inside [closing])).skip opening⟩

theorem branch_drawn : {tokens : List Token} → {condition : Node} → {result : Body} →
    Branch tokens condition result →
    condition.Valued ∧ result.Placed ∧ FoundIn (condition.citations ++ result.citations) tokens
  | _, _, _, @Branch.mk opening inside closing _ block _ _ _ _ hv hb => by
    have hcondition := expression_drawn inside hv
    obtain ⟨hplaced, hfound⟩ := block_drawn hb
    exact ⟨hcondition.valued, hplaced,
      (hcondition.found.append (hfound.skip closing)).skip opening⟩

theorem alternatives_drawn : {tokens : List Token} → {alternative : Alternative} →
    Alternatives tokens alternative →
    alternative.Placed ∧ FoundIn alternative.citations tokens
  | _, _, .nothing => ⟨.nothing, foundIn_nil _⟩
  | _, _, @Alternatives.otherwise keyword _ _ _ hb => by
    obtain ⟨hplaced, hfound⟩ := block_drawn hb
    exact ⟨.otherwise hplaced, hfound.skip keyword⟩
  | _, _, @Alternatives.elif keyword _ _ _ _ _ _ hb ha => by
    obtain ⟨hvalued, hplaced, hbranch⟩ := branch_drawn hb
    obtain ⟨hothers, hfound⟩ := alternatives_drawn ha
    refine ⟨.elif hvalued hplaced hothers, ?_⟩
    have hall := (hbranch.append hfound).skip keyword
    rwa [List.append_assoc] at hall

end

end Reading

/-- What a range is read as cites tokens of the range in their order, each as it stands there.
Declarations, assignments and conditionals occur directly in bodies and nowhere else. -/
theorem Buffer.reads_citing (buffer : Buffer) (range : Buffer.Range) :
    (∀ node, buffer.expression range = .ok node →
      node.Valued ∧ Citation.FoundIn node.citations (buffer.tokensOf range)) ∧
    ∀ body, buffer.body range = .ok body →
      body.Placed ∧ Citation.FoundIn body.citations (buffer.tokensOf range) := by
  constructor
  · intro node h
    have hdrawn := Reading.expression_drawn _ (Buffer.settle_eq_ok.mp h)
    exact ⟨hdrawn.valued, hdrawn.found⟩
  · intro body h
    exact Reading.body_drawn (Reading.body_sound _ (Buffer.settle_eq_ok.mp h))

/-- A body with an operand that is left open. -/
def Buffer.openCall : Buffer where
  tokens := [⟨.identifier, "y", ⟨1, 0, 1⟩⟩, ⟨.assign, "=", ⟨1, 2, 3⟩⟩, ⟨.number, "1", ⟨1, 4, 5⟩⟩,
    ⟨.operator, "+", ⟨1, 6, 7⟩⟩, ⟨.identifier, "g", ⟨1, 8, 9⟩⟩, ⟨.openParen, "(", ⟨1, 9, 10⟩⟩,
    ⟨.identifier, "x", ⟨1, 10, 11⟩⟩, ⟨.openParen, "(", ⟨1, 11, 12⟩⟩, ⟨.number, "1", ⟨1, 12, 13⟩⟩,
    ⟨.closeParen, ")", ⟨1, 13, 14⟩⟩, ⟨.semicolon, ";", ⟨1, 14, 15⟩⟩, ⟨.ifKeyword, "if", ⟨1, 16, 18⟩⟩,
    ⟨.openParen, "(", ⟨1, 19, 20⟩⟩, ⟨.identifier, "y", ⟨1, 20, 21⟩⟩, ⟨.closeParen, ")", ⟨1, 21, 22⟩⟩,
    ⟨.openCurly, "\x7b", ⟨1, 23, 24⟩⟩, ⟨.mutKeyword, "mut", ⟨1, 25, 28⟩⟩,
    ⟨.identifier, "i32", ⟨1, 29, 32⟩⟩, ⟨.identifier, "x", ⟨1, 33, 34⟩⟩,
    ⟨.closeCurly, "\x7d", ⟨1, 35, 36⟩⟩]

def Buffer.openCallValue : Node :=
  .binary "+" (.number "1" ⟨1, 4, 5⟩)
    (.call "g" [.call "x" [.number "1" ⟨1, 12, 13⟩] ⟨1, 10, 11⟩] ⟨1, 8, 9⟩) ⟨1, 6, 7⟩

def Buffer.openCallBody : Body :=
  .mk [.assign "y" openCallValue ⟨1, 0, 1⟩]
    (some (.conditional (.reference "y" ⟨1, 20, 21⟩)
      (.mk [] (some (.declare true "i32" "x" none ⟨1, 33, 34⟩))) .nothing ⟨1, 16, 18⟩))

theorem Buffer.reads_citing_openCall :
    Buffer.openCall.expression (Buffer.openCall.range 2 10) = .ok Buffer.openCallValue ∧
      Buffer.openCall.body Buffer.openCall.fullRange = .ok Buffer.openCallBody ∧
      (Buffer.openCallValue.Valued ∧ Citation.FoundIn Buffer.openCallValue.citations
        (Buffer.openCall.tokensOf (Buffer.openCall.range 2 10))) ∧
      (Buffer.openCallBody.Placed ∧ Citation.FoundIn Buffer.openCallBody.citations
        (Buffer.openCall.tokensOf Buffer.openCall.fullRange)) := by
  have hvalue : Buffer.openCall.expression (Buffer.openCall.range 2 10) =
      .ok Buffer.openCallValue := by
    unfold Buffer.openCall Buffer.openCallValue
    cbv
  have hbody : Buffer.openCall.body Buffer.openCall.fullRange = .ok Buffer.openCallBody := by
    unfold Buffer.openCall Buffer.openCallBody Buffer.openCallValue
    cbv
  exact ⟨hvalue, hbody, (Buffer.reads_citing _ _).1 _ hvalue,
    (Buffer.reads_citing _ _).2 _ hbody⟩

end FrontEnd
