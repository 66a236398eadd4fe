import FrontEnd.Tree.Print
import FrontEnd.Proofs.Lexemes

/-! # What printed trees are scanned as

The scanner takes the longest token, so a printed piece is scanned as its own tokens only if what
comes after it cannot make the last of them longer. Pieces that end in a bracket, a separator or
punctuation may stand before anything. The text of a tree is put together from such pieces, and the
tokens of the whole are those of the pieces in order. -/
namespace FrontEnd

/-- A token without its place. -/
structure Lexeme where
  kind : TokenKind
  text : String
  deriving DecidableEq, Repr

def Token.lexeme (token : Token) : Lexeme := ⟨token.kind, token.text⟩

/-! ## The lexemes of trees -/

mutual

/-- The lexemes of a node, with every operation in parentheses. -/
def Node.lexemes : Node → List Lexeme
  | .number text _ => [⟨.number, text⟩]
  | .reference name _ => [⟨.identifier, name⟩]
  | .binary operator left right _ =>
    ⟨.openParen, "("⟩ ::
      (left.lexemes ++ ⟨.operator, operator⟩ :: (right.lexemes ++ [⟨.closeParen, ")"⟩]))
  | .call callee arguments _ =>
    ⟨.identifier, callee⟩ :: ⟨.openParen, "("⟩ ::
      (List.intercalate [⟨.comma, ","⟩] (Node.lexemesAll arguments) ++ [⟨.closeParen, ")"⟩])
  | .assign target value _ => ⟨.identifier, target⟩ :: ⟨.assign, "="⟩ :: value.lexemes
  | .declare mutable type name initializer _ =>
    (if mutable then [⟨.mutKeyword, "mut"⟩] else []) ++
      ⟨.identifier, type⟩ :: ⟨.identifier, name⟩ ::
        match initializer with
        | some value => ⟨.assign, "="⟩ :: value.lexemes
        | none => []
  | .conditional condition body alternative _ =>
    ⟨.ifKeyword, "if"⟩ :: ⟨.openParen, "("⟩ ::
      (condition.lexemes ++ ⟨.closeParen, ")"⟩ :: (body.lexemes ++ alternative.lexemes))

def Node.lexemesAll : List Node → List (List Lexeme)
  | [] => []
  | node :: more => node.lexemes :: Node.lexemesAll more

def Body.lexemes : Body → List Lexeme
  | .mk statements tail =>
    let last := match tail with
      | some node => node.lexemes
      | none => []
    ⟨.openCurly, "\x7b"⟩ ::
      ((Node.lexemesAll statements).flatMap (· ++ [⟨.semicolon, ";"⟩]) ++
        (last ++ [⟨.closeCurly, "\x7d"⟩]))

def Alternative.lexemes : Alternative → List Lexeme
  | .nothing => []
  | .otherwise body => ⟨.elseKeyword, "else"⟩ :: body.lexemes
  | .elif condition body alternative =>
    ⟨.elifKeyword, "elif"⟩ :: ⟨.openParen, "("⟩ ::
      (condition.lexemes ++ ⟨.closeParen, ")"⟩ :: (body.lexemes ++ alternative.lexemes))

end

@[simp] theorem Node.lexemesAll_eq_map (nodes : List Node) :
    Node.lexemesAll nodes = nodes.map Node.lexemes := by
  induction nodes with
  | nil => rfl
  | cons node more ih => rw [Node.lexemesAll, ih, List.map_cons]

theorem Node.lexemes_declare (mutable : Bool) (type name : String) (initializer : Option Node)
    (span : Span) :
    (Node.declare mutable type name initializer span).lexemes =
      (if mutable then [⟨.mutKeyword, "mut"⟩] else []) ++
        ⟨.identifier, type⟩ :: ⟨.identifier, name⟩ ::
          match initializer with
          | some value => ⟨.assign, "="⟩ :: value.lexemes
          | none => [] := by
  cases initializer <;> rfl

theorem Body.lexemes_mk (statements : List Node) (tail : Option Node) :
    (Body.mk statements tail).lexemes =
      ⟨.openCurly, "\x7b"⟩ ::
        ((statements.flatMap fun node => node.lexemes ++ [⟨.semicolon, ";"⟩]) ++
          (tail.toList.flatMap Node.lexemes ++ [⟨.closeCurly, "\x7d"⟩])) := by
  cases tail <;> simp [Body.lexemes, List.flatMap_map]

def Parameter.lexemes (p : Parameter) : List Lexeme :=
  [⟨.identifier, p.type⟩, ⟨.identifier, p.name⟩]

def Signature.lexemes (s : Signature) : List Lexeme :=
  ⟨.fnKeyword, "fn"⟩ :: ⟨.identifier, s.name⟩ :: ⟨.openParen, "("⟩ ::
    (List.intercalate [⟨.comma, ","⟩] (s.parameters.map Parameter.lexemes) ++
      [⟨.closeParen, ")"⟩, ⟨.arrow, "->"⟩, ⟨.identifier, s.returnType⟩])

def Signature.externalLexemes (s : Signature) : List Lexeme :=
  ⟨.externKeyword, "extern"⟩ :: (s.lexemes ++ [⟨.semicolon, ";"⟩])

def Definition.lexemes (d : Definition) : List Lexeme := d.signature.lexemes ++ d.body.lexemes

def Program.lexemes (p : Program) : List Lexeme :=
  p.externals.flatMap Signature.externalLexemes ++ p.definitions.flatMap Definition.lexemes

namespace Token

/-! ## Scanning the rest of a line -/

/-- The text is part of one line, at its end, and is scanned as these lexemes. -/
structure LineEnd (text : List Char) (lexemes : List Lexeme) : Prop where
  unbroken : ∀ c ∈ text, c ≠ '\n' ∧ c ≠ '\r'
  scanned : ∀ line offset, ∃ tokens, scanLine line offset text = .ok tokens ∧
    tokens.map Token.lexeme = lexemes

theorem lineEnd_nil : LineEnd [] [] := by
  refine ⟨by simp, ?_⟩
  intro line offset
  exact ⟨[], by rw [scanLine], rfl⟩

theorem LineEnd.space {rest : List Char} {lexemes : List Lexeme} (h : LineEnd rest lexemes) :
    LineEnd (' ' :: rest) lexemes := by
  constructor
  · intro c hc
    rcases List.mem_cons.mp hc with rfl | hc
    · decide
    · exact h.unbroken c hc
  · intro line offset
    obtain ⟨tokens, hscan, hlexemes⟩ := h.scanned line (offset + 1)
    refine ⟨tokens, ?_, hlexemes⟩
    rw [scanLine, if_pos (by decide), hscan]

theorem LineEnd.lexeme {c : Char} {more rest : List Char} {kind : TokenKind}
    {lexemes : List Lexeme} (h : LineEnd rest lexemes)
    (hl : lexeme? c (more ++ rest) = some (kind, more.length))
    (hmore : ∀ d ∈ more, d ≠ '\n' ∧ d ≠ '\r') :
    LineEnd (c :: (more ++ rest)) (⟨kind, String.ofList (c :: more)⟩ :: lexemes) := by
  obtain ⟨hs, hc, hbreak⟩ := lexeme?_begins hl
  constructor
  · intro d hd
    rcases List.mem_cons.mp hd with rfl | hd
    · exact hbreak
    · rcases List.mem_append.mp hd with hd | hd
      · exact hmore d hd
      · exact h.unbroken d hd
  · intro line offset
    obtain ⟨tokens, hscan, hlexemes⟩ := h.scanned line (offset + more.length + 1)
    refine ⟨⟨kind, String.ofList (c :: more),
      .between line offset (offset + more.length + 1)⟩ :: tokens, ?_, ?_⟩
    · rw [scanLine, hs, if_neg (by decide), if_neg hc, hl]
      simp only [List.drop_left, List.take_left, hscan]
      rfl
    · rw [List.map_cons, hlexemes]
      rfl

/-! ## Pieces of text -/

/-- The text cannot make a token before it longer. -/
def StandsApart (text : List Char) : Prop := ∀ c ∈ text.head?, isApart c = true

/-- The text is scanned as the lexemes, if what follows stands apart. -/
def Spells (text : String) (lexemes : List Lexeme) : Prop :=
  ∀ rest more, StandsApart rest → LineEnd rest more →
    LineEnd (text.toList ++ rest) (lexemes ++ more)

/-- The text is scanned as the lexemes, whatever follows. -/
def SpellsFreely (text : String) (lexemes : List Lexeme) : Prop :=
  ∀ rest more, LineEnd rest more → LineEnd (text.toList ++ rest) (lexemes ++ more)

/-- The text begins with a character that stands apart from all before it. -/
def beginsApart (text : String) : Bool := text.toList.head?.any isApart

section
variable {first second : String} {lexemes others : List Lexeme}

theorem SpellsFreely.spells (h : SpellsFreely first lexemes) : Spells first lexemes := by
  intro rest more _ hr
  exact h rest more hr

theorem SpellsFreely.append (h : SpellsFreely first lexemes) (hs : SpellsFreely second others) :
    SpellsFreely (first ++ second) (lexemes ++ others) := by
  intro rest more hr
  rw [String.toList_append, List.append_assoc, List.append_assoc]
  exact h _ _ (hs rest more hr)

theorem SpellsFreely.append_spells (h : SpellsFreely first lexemes) (hs : Spells second others) :
    Spells (first ++ second) (lexemes ++ others) := by
  intro rest more ha hr
  rw [String.toList_append, List.append_assoc, List.append_assoc]
  exact h _ _ (hs rest more ha hr)

theorem Spells.append_freely (h : Spells first lexemes) (hs : SpellsFreely second others)
    (ha : beginsApart second = true) : SpellsFreely (first ++ second) (lexemes ++ others) := by
  intro rest more hr
  rw [String.toList_append, List.append_assoc, List.append_assoc]
  refine h _ _ ?_ (hs rest more hr)
  intro c hc
  unfold beginsApart at ha
  cases ht : second.toList with
  | nil => simp [ht] at ha
  | cons d tail =>
    simp only [ht, List.cons_append, List.head?_cons, Option.mem_some] at hc
    simpa [ht, hc] using ha

end

theorem freely_nothing : SpellsFreely "" [] := by
  intro rest more hr
  exact hr

theorem freely_space : SpellsFreely " " [] := by
  intro rest more hr
  exact hr.space

/-- Pieces with the same separator between any two of them. -/
theorem spells_intercalate {separator : String} {marks : List Lexeme}
    (hs : SpellsFreely separator marks) (ha : beginsApart separator = true)
    (pieces : List (String × List Lexeme)) (h : ∀ piece ∈ pieces, Spells piece.1 piece.2) :
    Spells (separator.intercalate (pieces.map (·.1))) (marks.intercalate (pieces.map (·.2))) := by
  induction pieces with
  | nil => exact freely_nothing.spells
  | cons piece more ih =>
    have hpiece := h piece (by simp)
    cases more with
    | nil => simpa using hpiece
    | cons next others =>
      have hmore := ih (fun other ho => h other (List.mem_cons_of_mem _ ho))
      have := (hpiece.append_freely hs ha).append_spells hmore
      simpa [String.intercalate_cons_cons, List.intercalate_cons_cons] using this

/-- Pieces with a space between any two of them. -/
theorem spells_spaced (pieces : List (String × List Lexeme))
    (h : ∀ piece ∈ pieces, Spells piece.1 piece.2) :
    Spells (" ".intercalate (pieces.map (·.1))) (pieces.flatMap (·.2)) := by
  have hflat (parts : List (List Lexeme)) : List.intercalate [] parts = parts.flatten := by
    induction parts with
    | nil => rfl
    | cons part more ih =>
      cases more with
      | nil => simp
      | cons next others => rw [List.intercalate_cons_cons, ih]; simp
  have := spells_intercalate freely_space rfl pieces h
  rwa [hflat, ← List.flatMap_def] at this

/-! ## Single tokens -/

section
variable {text : String} {kind : TokenKind}

/-- A token is scanned as itself before everything that does not make it longer. -/
theorem LineEnd.token {rest : List Char} {more : List Lexeme} (hr : LineEnd rest more)
    (h : TokenKind.ofText? text = some kind)
    (hafter : ∀ c ∈ rest.head?, isExtendedBy ⟨kind, text, default⟩ c = false) :
    LineEnd (text.toList ++ rest) (⟨kind, text⟩ :: more) := by
  obtain ⟨c, tail, ht, hl⟩ := scansAs_of_ofText? h
  have htail : ∀ d ∈ tail, d ≠ '\n' ∧ d ≠ '\r' := by
    intro d hd
    exact TokenKind.unbroken_of_ofText? h d (by rw [ht]; exact List.mem_cons_of_mem c hd)
  have hone := hr.lexeme (hl rest hafter) htail
  rw [← ht, String.ofList_toList] at hone
  rwa [ht]

theorem spells_token (h : TokenKind.ofText? text = some kind) : Spells text [⟨kind, text⟩] := by
  intro rest more ha hr
  exact hr.token h fun c hc => not_extended_of_apart (ha c hc) _

/-- A token that no character makes longer. -/
theorem freely_token (h : TokenKind.ofText? text = some kind)
    (hfree : ∀ c, isExtendedBy ⟨kind, text, default⟩ c = false) :
    SpellsFreely text [⟨kind, text⟩] := by
  intro rest more hr
  exact hr.token h fun c _ => hfree c

end

theorem spells_name {name : String} (h : isName name = true) :
    Spells name [⟨.identifier, name⟩] := spells_token (TokenKind.ofText?_name h)

theorem spells_operator {operator : String} (h : operator ∈ operatorTexts) :
    Spells operator [⟨.operator, operator⟩] := by
  have hfixed : (operator, TokenKind.operator) ∈ fixedTexts := by
    simp only [operatorTexts, List.mem_cons, List.not_mem_nil, or_false] at h
    rcases h with rfl | rfl | rfl | rfl | rfl | rfl | rfl | rfl <;> decide
  exact spells_token (TokenKind.ofText?_fixed hfixed)

/-! ## The pieces between the parts of a tree -/

theorem freely_comma : SpellsFreely ", " [⟨.comma, ","⟩] := by
  have h : SpellsFreely "," [⟨.comma, ","⟩] := freely_token rfl fun _ => rfl
  exact h.append freely_space

theorem freely_assign : SpellsFreely " = " [⟨.assign, "="⟩] := by
  have h : Spells "=" [⟨.assign, "="⟩] := spells_token rfl
  exact (freely_space.append_spells h).append_freely freely_space rfl

theorem freely_openParen : SpellsFreely "(" [⟨.openParen, "("⟩] := freely_token rfl fun _ => rfl

theorem freely_closeParen : SpellsFreely ")" [⟨.closeParen, ")"⟩] := freely_token rfl fun _ => rfl

theorem freely_semicolon : SpellsFreely ";" [⟨.semicolon, ";"⟩] := freely_token rfl fun _ => rfl

theorem freely_openCurly : SpellsFreely "\x7b" [⟨.openCurly, "\x7b"⟩] :=
  freely_token rfl fun _ => rfl

theorem freely_closeCurly : SpellsFreely "\x7d" [⟨.closeCurly, "\x7d"⟩] :=
  freely_token rfl fun _ => rfl

theorem freely_arrow : SpellsFreely ") -> " [⟨.closeParen, ")"⟩, ⟨.arrow, "->"⟩] := by
  have h : SpellsFreely "->" [⟨.arrow, "->"⟩] := freely_token rfl fun _ => rfl
  exact (freely_closeParen.append freely_space).append (h.append freely_space)

/-- A keyword and the space after it. -/
theorem freely_keyword {text : String} {kind : TokenKind} (h : TokenKind.ofText? text = some kind) :
    SpellsFreely (text ++ " ") [⟨kind, text⟩] :=
  (spells_token h).append_freely freely_space rfl

theorem freely_mutKeyword : SpellsFreely "mut " [⟨.mutKeyword, "mut"⟩] :=
  freely_keyword (show TokenKind.ofText? "mut" = some .mutKeyword from rfl)

theorem freely_fnKeyword : SpellsFreely "fn " [⟨.fnKeyword, "fn"⟩] :=
  freely_keyword (show TokenKind.ofText? "fn" = some .fnKeyword from rfl)

theorem freely_externKeyword : SpellsFreely "extern " [⟨.externKeyword, "extern"⟩] :=
  freely_keyword (show TokenKind.ofText? "extern" = some .externKeyword from rfl)

theorem freely_if : SpellsFreely "if (" [⟨.ifKeyword, "if"⟩, ⟨.openParen, "("⟩] := by
  have h : SpellsFreely "if " [⟨.ifKeyword, "if"⟩] :=
    freely_keyword (show TokenKind.ofText? "if" = some .ifKeyword from rfl)
  exact h.append freely_openParen

theorem freely_elif : SpellsFreely " elif (" [⟨.elifKeyword, "elif"⟩, ⟨.openParen, "("⟩] := by
  have h : SpellsFreely "elif " [⟨.elifKeyword, "elif"⟩] :=
    freely_keyword (show TokenKind.ofText? "elif" = some .elifKeyword from rfl)
  exact (freely_space.append h).append freely_openParen

theorem freely_else : SpellsFreely " else " [⟨.elseKeyword, "else"⟩] := by
  have h : SpellsFreely "else " [⟨.elseKeyword, "else"⟩] :=
    freely_keyword (show TokenKind.ofText? "else" = some .elseKeyword from rfl)
  exact freely_space.append h

end Token

/-! ## Trees -/

open Token

theorem Node.IsExpression.spells {node : Node} (h : node.IsExpression) :
    Spells node.print node.lexemes := by
  induction h with
  | number span ht => exact spells_token (TokenKind.ofText?_numeral ht)
  | reference span hn => exact spells_name hn
  | @binary operator left right span ho hl hr ihl ihr =>
    have hleft := (freely_openParen.append_spells ihl).append_freely freely_space rfl
    have hboth := ((hleft.append_spells (spells_operator ho)).append_freely freely_space
      rfl).append_spells ihr
    have := (hboth.append_freely freely_closeParen rfl).spells
    simpa [Node.print, Node.lexemes] using this
  | @call callee arguments span hc ha ih =>
    have hinside := spells_intercalate freely_comma rfl
      (arguments.map fun argument => (argument.print, argument.lexemes)) (by simpa using ih)
    have := ((((spells_name hc).append_freely freely_openParen rfl).append_spells
      hinside).append_freely freely_closeParen rfl).spells
    simpa [Node.print, Node.lexemes, Function.comp_def] using this

mutual

theorem Node.WellFormed.spells : {node : Node} → node.WellFormed → Spells node.print node.lexemes
  | _, .expression h => h.spells
  | _, .assign span ht hv => by
    have := ((spells_name ht).append_freely freely_assign rfl).append_spells hv.spells
    simpa [Node.print, Node.lexemes] using this
  | _, @Node.WellFormed.declare type name initializer mutable span ht hn hi => by
    have hmarker : SpellsFreely (if mutable then "mut " else "")
        (if mutable then [⟨.mutKeyword, "mut"⟩] else []) := by
      cases mutable with
      | true => exact freely_mutKeyword
      | false => exact freely_nothing
    have hhead := ((hmarker.append_spells (spells_name ht)).append_freely freely_space
      rfl).append_spells (spells_name hn)
    cases initializer with
    | none => simpa [Node.print, Node.lexemes] using hhead
    | some value =>
      have := (hhead.append_freely freely_assign rfl).append_spells (hi value rfl).spells
      simpa [Node.print, Node.lexemes, String.append_assoc] using this
  | _, .conditional span hc hb ha => by
    have hcondition := (freely_if.append_spells hc.spells).append_freely
      (freely_closeParen.append freely_space) rfl
    have := ((hcondition.append hb.spells).append ha.spells).spells
    simpa [Node.print, Node.lexemes] using this

theorem Body.WellFormed.spells : {body : Body} → body.WellFormed →
    SpellsFreely body.print body.lexemes
  | _, @Body.WellFormed.mk statements tail hs ht => by
    have hpieces := spells_spaced
      (statements.map (fun node => (node.print ++ ";", node.lexemes ++ [⟨.semicolon, ";"⟩])) ++
        tail.toList.map fun node => (node.print, node.lexemes)) (by
      intro piece hp
      rcases List.mem_append.mp hp with hp | hp
      · obtain ⟨node, hn, rfl⟩ := List.mem_map.mp hp
        exact ((hs node hn).spells.append_freely freely_semicolon rfl).spells
      · obtain ⟨node, hn, rfl⟩ := List.mem_map.mp hp
        exact (ht node (by simpa using hn)).spells)
    have := (freely_openCurly.append_spells hpieces).append_freely freely_closeCurly rfl
    cases tail with
    | none => simpa [Body.print, Body.lexemes, Function.comp_def, List.flatMap_map] using this
    | some node => simpa [Body.print, Body.lexemes, Function.comp_def, List.flatMap_map] using this

theorem Alternative.WellFormed.spells : {alternative : Alternative} → alternative.WellFormed →
    SpellsFreely alternative.print alternative.lexemes
  | _, .nothing => freely_nothing
  | _, .otherwise hb => freely_else.append hb.spells
  | _, .elif hc hb ha => by
    have hcondition := (freely_elif.append_spells hc.spells).append_freely
      (freely_closeParen.append freely_space) rfl
    have := (hcondition.append hb.spells).append ha.spells
    simpa [Alternative.print, Alternative.lexemes] using this

end

theorem Signature.WellFormed.spells {signature : Signature} (h : signature.WellFormed) :
    Spells signature.print signature.lexemes := by
  have hparameters := spells_intercalate freely_comma rfl
    (signature.parameters.map fun parameter => (parameter.print, parameter.lexemes)) (by
    intro piece hp
    obtain ⟨parameter, hm, rfl⟩ := List.mem_map.mp hp
    obtain ⟨ht, hn⟩ := h.parameters parameter hm
    exact ((spells_name ht).append_freely freely_space rfl).append_spells (spells_name hn))
  have hname := freely_fnKeyword.append_spells (spells_name h.name)
  have hhead := hname.append_freely freely_openParen rfl
  have := ((hhead.append_spells hparameters).append_freely freely_arrow rfl).append_spells
    (spells_name h.returnType)
  simpa [Signature.print, Signature.lexemes, Function.comp_def] using this

theorem Signature.WellFormed.spells_external {signature : Signature} (h : signature.WellFormed) :
    SpellsFreely signature.printExternal signature.externalLexemes :=
  (freely_externKeyword.append_spells h.spells).append_freely freely_semicolon rfl

theorem Definition.spells {definition : Definition} (hs : definition.signature.WellFormed)
    (hb : definition.body.WellFormed) : SpellsFreely definition.print definition.lexemes := by
  have := (hs.spells.append_freely freely_space rfl).append hb.spells
  simpa [Definition.print, Definition.lexemes] using this

/-! ## Programs -/

/-- A line break ends the line before it. -/
theorem Text.lines_append {line : List Char} (h : ∀ c ∈ line, c ≠ '\n' ∧ c ≠ '\r')
    (rest : List Char) : Text.lines (line ++ '\n' :: rest) = line :: Text.lines rest := by
  induction line with
  | nil => simp [Text.lines]
  | cons c more ih =>
    obtain ⟨hn, hr⟩ := h c (by simp)
    rw [List.cons_append, Text.lines, if_neg hn, if_neg (fun hc => hr hc.1),
      ih (fun d hd => h d (List.mem_cons_of_mem c hd))]

theorem Text.lines_join (texts : List String)
    (h : ∀ text ∈ texts, ∀ c ∈ text.toList, c ≠ '\n' ∧ c ≠ '\r') :
    Text.lines (String.join (texts.map (· ++ "\n"))).toList = texts.map String.toList := by
  rw [String.toList_join]
  induction texts with
  | nil => rfl
  | cons text more ih =>
    have hmore := ih fun other ho => h other (List.mem_cons_of_mem text ho)
    have hbreak : "\n".toList = ['\n'] := rfl
    rw [List.map_cons, List.flatMap_cons, String.toList_append, hbreak, List.append_assoc,
      List.singleton_append, Text.lines_append (h text (by simp)), hmore, List.map_cons]

theorem Token.scanLines_of_lineEnds (pieces : List (String × List Lexeme))
    (h : ∀ piece ∈ pieces, LineEnd piece.1.toList piece.2) (number : Nat) :
    ∃ tokens, scanLines number (pieces.map (·.1.toList)) = .ok tokens ∧
      tokens.map Token.lexeme = pieces.flatMap (·.2) := by
  induction pieces generalizing number with
  | nil => exact ⟨[], rfl, rfl⟩
  | cons piece more ih =>
    obtain ⟨tokens, hscan, hlexemes⟩ := (h piece (by simp)).scanned (UInt32.ofNat number) 0
    obtain ⟨others, hothers, hmore⟩ :=
      ih (fun other ho => h other (List.mem_cons_of_mem piece ho)) (number + 1)
    refine ⟨tokens ++ others, ?_, ?_⟩
    · rw [List.map_cons, scanLines, hscan, hothers]
      rfl
    · rw [List.map_append, hlexemes, hmore, List.flatMap_cons]

/-- Pieces on lines of their own are scanned one after the other. -/
theorem Token.scan_join (pieces : List (String × List Lexeme))
    (h : ∀ piece ∈ pieces, SpellsFreely piece.1 piece.2) :
    ∃ tokens, scan (String.join ((pieces.map (·.1)).map (· ++ "\n"))) = .ok tokens ∧
      tokens.map Token.lexeme = pieces.flatMap (·.2) := by
  have hends (piece) (hp : piece ∈ pieces) : LineEnd piece.1.toList piece.2 := by
    simpa using h piece hp [] [] lineEnd_nil
  obtain ⟨tokens, hscan, hlexemes⟩ := scanLines_of_lineEnds pieces hends 1
  refine ⟨tokens, ?_, hlexemes⟩
  rw [scan, Text.lines_join, List.map_map]
  · exact hscan
  · intro text ht
    obtain ⟨piece, hp, rfl⟩ := List.mem_map.mp ht
    exact (hends piece hp).unbroken

/-- The text of a program is scanned as the program's lexemes. -/
theorem Program.scan_print {program : Program} (h : program.WellFormed) :
    ∃ tokens, Token.scan program.print = .ok tokens ∧
      tokens.map Token.lexeme = program.lexemes := by
  let heads := program.externals.map fun s => (s.printExternal, s.externalLexemes)
  let functions := program.definitions.map fun d => (d.print, d.lexemes)
  have hpieces : ∀ piece ∈ heads ++ functions, SpellsFreely piece.1 piece.2 := by
    intro piece hp
    rcases List.mem_append.mp hp with hp | hp
    · obtain ⟨signature, hm, rfl⟩ := List.mem_map.mp hp
      exact (h.externals signature hm).spells_external
    · obtain ⟨definition, hm, rfl⟩ := List.mem_map.mp hp
      exact Definition.spells (h.signatures definition hm) (h.bodies definition hm)
  have hscan := Token.scan_join (heads ++ functions) hpieces
  simpa [heads, functions, Program.print, Program.printLines, Program.lexemes, List.flatMap_map,
    Function.comp_def] using hscan

end FrontEnd
