import Mathlib
import FrontEnd.Diagnostic
import FrontEnd.Tree

/-! # Trees that differ in their spans

Two tokens, trees or diagnostics are alike under a relation on spans if they are the same but for
their spans, and the spans at corresponding places are related. Moving everything by a function is
the case of the function's graph: what is alike under it is what the function makes of the other. -/
namespace FrontEnd

/-! ## Moving by a function -/

/-- The token, moved to where `f` sends its place. -/
def Token.relocate (f : Span → Span) (token : Token) : Token := { token with span := f token.span }

mutual

def Node.relocate (f : Span → Span) : Node → Node
  | .number text span => .number text (f span)
  | .reference name span => .reference name (f span)
  | .binary operator left right span =>
    .binary operator (left.relocate f) (right.relocate f) (f span)
  | .call callee arguments span => .call callee (Node.relocateAll f arguments) (f span)
  | .assign target value span => .assign target (value.relocate f) (f span)
  | .declare mutable type name none span => .declare mutable type name none (f span)
  | .declare mutable type name (some value) span =>
    .declare mutable type name (some (value.relocate f)) (f span)
  | .conditional condition body alternative span =>
    .conditional (condition.relocate f) (body.relocate f) (alternative.relocate f) (f span)

def Node.relocateAll (f : Span → Span) : List Node → List Node
  | [] => []
  | node :: more => node.relocate f :: Node.relocateAll f more

def Body.relocate (f : Span → Span) : Body → Body
  | .mk statements none => .mk (Node.relocateAll f statements) none
  | .mk statements (some tail) => .mk (Node.relocateAll f statements) (some (tail.relocate f))

def Alternative.relocate (f : Span → Span) : Alternative → Alternative
  | .nothing => .nothing
  | .otherwise body => .otherwise (body.relocate f)
  | .elif condition body alternative =>
    .elif (condition.relocate f) (body.relocate f) (alternative.relocate f)

end

def Parameter.relocate (f : Span → Span) (parameter : Parameter) : Parameter :=
  { parameter with span := f parameter.span }

def Signature.relocate (f : Span → Span) (signature : Signature) : Signature where
  name := signature.name
  parameters := signature.parameters.map (Parameter.relocate f)
  returnType := signature.returnType
  span := f signature.span

def Definition.relocate (f : Span → Span) (definition : Definition) : Definition :=
  ⟨definition.signature.relocate f, definition.body.relocate f⟩

def Program.relocate (f : Span → Span) (program : Program) : Program :=
  ⟨program.definitions.map (Definition.relocate f), program.externals.map (Signature.relocate f)⟩

def Diagnostic.relocate (f : Span → Span) (d : Diagnostic) : Diagnostic :=
  { d with span := f d.span }

/-! ## Alike but for spans -/

/-- The tokens have the same kind and text, and related spans. -/
structure Token.Alike (R : Span → Span → Prop) (a b : Token) : Prop where
  kind : a.kind = b.kind
  text : a.text = b.text
  span : R a.span b.span

mutual

/-- The nodes are the same but for spans, which are related place by place. -/
inductive Node.Alike (R : Span → Span → Prop) : Node → Node → Prop
  | number (text) {s t} : R s t → Node.Alike R (.number text s) (.number text t)
  | reference (name) {s t} : R s t → Node.Alike R (.reference name s) (.reference name t)
  | binary (operator) {left left' right right' s t} :
      Node.Alike R left left' → Node.Alike R right right' → R s t →
      Node.Alike R (.binary operator left right s) (.binary operator left' right' t)
  | call (callee) {given given' s t} : List.Forall₂ (Node.Alike R) given given' → R s t →
      Node.Alike R (.call callee given s) (.call callee given' t)
  | assign (target) {value value' s t} : Node.Alike R value value' → R s t →
      Node.Alike R (.assign target value s) (.assign target value' t)
  | declare (mutable type name) {initial initial' s t} :
      Option.Rel (Node.Alike R) initial initial' → R s t →
      Node.Alike R (.declare mutable type name initial s) (.declare mutable type name initial' t)
  | conditional {condition condition' body body' otherwise otherwise' s t} :
      Node.Alike R condition condition' → Body.Alike R body body' →
      Alternative.Alike R otherwise otherwise' → R s t →
      Node.Alike R (.conditional condition body otherwise s)
        (.conditional condition' body' otherwise' t)

inductive Body.Alike (R : Span → Span → Prop) : Body → Body → Prop
  | mk {statements statements' tail tail'} :
      List.Forall₂ (Node.Alike R) statements statements' → Option.Rel (Node.Alike R) tail tail' →
      Body.Alike R (.mk statements tail) (.mk statements' tail')

inductive Alternative.Alike (R : Span → Span → Prop) : Alternative → Alternative → Prop
  | nothing : Alternative.Alike R .nothing .nothing
  | otherwise {body body'} : Body.Alike R body body' →
      Alternative.Alike R (.otherwise body) (.otherwise body')
  | elif {condition condition' body body' otherwise otherwise'} :
      Node.Alike R condition condition' → Body.Alike R body body' →
      Alternative.Alike R otherwise otherwise' →
      Alternative.Alike R (.elif condition body otherwise) (.elif condition' body' otherwise')

end

structure Parameter.Alike (R : Span → Span → Prop) (a b : Parameter) : Prop where
  type : a.type = b.type
  name : a.name = b.name
  span : R a.span b.span

structure Signature.Alike (R : Span → Span → Prop) (a b : Signature) : Prop where
  name : a.name = b.name
  parameters : List.Forall₂ (Parameter.Alike R) a.parameters b.parameters
  returnType : a.returnType = b.returnType
  span : R a.span b.span

structure Definition.Alike (R : Span → Span → Prop) (a b : Definition) : Prop where
  signature : a.signature.Alike R b.signature
  body : a.body.Alike R b.body

structure Program.Alike (R : Span → Span → Prop) (a b : Program) : Prop where
  definitions : List.Forall₂ (Definition.Alike R) a.definitions b.definitions
  externals : List.Forall₂ (Signature.Alike R) a.externals b.externals

structure Diagnostic.Alike (R : Span → Span → Prop) (a b : Diagnostic) : Prop where
  cause : a.cause = b.cause
  span : R a.span b.span
  function : a.function = b.function

/-- Both outcomes are results that `P` relates, or both are errors that `E` relates. -/
inductive SameOutcome {ε α : Type} (E : ε → ε → Prop) (P : α → α → Prop) :
    Except ε α → Except ε α → Prop
  | ok {a b} : P a b → SameOutcome E P (.ok a) (.ok b)
  | error {a b} : E a b → SameOutcome E P (.error a) (.error b)

/-! ## Alike under a function's graph -/

def Span.SentBy (f : Span → Span) (s t : Span) : Prop := t = f s

/-- If related elements are images, then so are related lists. -/
theorem eq_map_of_forall₂ {α : Type} {P : α → α → Prop} {g : α → α}
    {xs ys : List α} (h : List.Forall₂ P xs ys) (hg : ∀ a b, P a b → b = g a) :
    ys = xs.map g := by
  have himages : List.Forall₂ (· = ·) (xs.map g) ys :=
    List.forall₂_map_left_iff.mpr (h.imp fun a b hab => (hg a b hab).symm)
  rw [List.forall₂_eq_eq_eq] at himages
  exact himages.symm

section
variable {f : Span → Span}

theorem Token.alike_relocate (f : Span → Span) (token : Token) :
    token.Alike (Span.SentBy f) (token.relocate f) := ⟨rfl, rfl, rfl⟩

mutual

theorem Node.Alike.eq_relocate : {a b : Node} → a.Alike (Span.SentBy f) b → b = a.relocate f
  | _, _, .number _ hs => by cases hs; rfl
  | _, _, .reference _ hs => by cases hs; rfl
  | _, _, .binary _ hl hr hs => by
    cases hs
    rw [Node.relocate, ← hl.eq_relocate, ← hr.eq_relocate]
  | _, _, .call _ hg hs => by
    cases hs
    rw [Node.relocate, ← Node.relocateAll_of_alike hg]
  | _, _, .assign _ hv hs => by
    cases hs
    rw [Node.relocate, ← hv.eq_relocate]
  | _, _, .declare _ _ _ hi hs => by
    cases hs
    cases hi with
    | none => rfl
    | some hv => rw [Node.relocate, ← hv.eq_relocate]
  | _, _, .conditional hc hb ho hs => by
    cases hs
    rw [Node.relocate, ← hc.eq_relocate, ← hb.eq_relocate, ← ho.eq_relocate]

theorem Node.relocateAll_of_alike : {nodes others : List Node} →
    List.Forall₂ (Node.Alike (Span.SentBy f)) nodes others → others = Node.relocateAll f nodes
  | _, _, .nil => rfl
  | _, _, .cons hn hm => by
    rw [Node.relocateAll, ← hn.eq_relocate, ← Node.relocateAll_of_alike hm]

theorem Body.Alike.eq_relocate : {a b : Body} → a.Alike (Span.SentBy f) b → b = a.relocate f
  | _, _, .mk hs ht => by
    cases ht with
    | none => rw [Body.relocate, ← Node.relocateAll_of_alike hs]
    | some hn => rw [Body.relocate, ← Node.relocateAll_of_alike hs, ← hn.eq_relocate]

theorem Alternative.Alike.eq_relocate : {a b : Alternative} →
    a.Alike (Span.SentBy f) b → b = a.relocate f
  | _, _, .nothing => rfl
  | _, _, .otherwise hb => by rw [Alternative.relocate, ← hb.eq_relocate]
  | _, _, .elif hc hb ho => by
    rw [Alternative.relocate, ← hc.eq_relocate, ← hb.eq_relocate, ← ho.eq_relocate]

end

theorem Parameter.Alike.eq_relocate {a b : Parameter} (h : a.Alike (Span.SentBy f) b) :
    b = a.relocate f := by
  obtain ⟨type, name, span⟩ := b
  obtain ⟨rfl, rfl, rfl⟩ := h
  rfl

theorem Signature.Alike.eq_relocate {a b : Signature} (h : a.Alike (Span.SentBy f) b) :
    b = a.relocate f := by
  have hparameters := eq_map_of_forall₂ h.parameters fun _ _ => Parameter.Alike.eq_relocate
  obtain ⟨name, parameters, returnType, span⟩ := b
  obtain ⟨rfl, -, rfl, rfl⟩ := h
  rw [Signature.relocate, ← hparameters]

theorem Definition.Alike.eq_relocate {a b : Definition} (h : a.Alike (Span.SentBy f) b) :
    b = a.relocate f := by
  rw [Definition.relocate, ← h.signature.eq_relocate, ← h.body.eq_relocate]

theorem Program.Alike.eq_relocate {a b : Program} (h : a.Alike (Span.SentBy f) b) :
    b = a.relocate f := by
  rw [Program.relocate,
    ← eq_map_of_forall₂ h.definitions fun _ _ => Definition.Alike.eq_relocate,
    ← eq_map_of_forall₂ h.externals fun _ _ => Signature.Alike.eq_relocate]

theorem Diagnostic.Alike.eq_relocate {a b : Diagnostic} (h : a.Alike (Span.SentBy f) b) :
    b = a.relocate f := by
  obtain ⟨cause, span, function⟩ := b
  obtain ⟨rfl, rfl, rfl⟩ := h
  rfl

/-- Outcomes that are alike under a function's graph are images of each other. -/
theorem SameOutcome.eq_relocate {a b : Except Diagnostic Program}
    (h : SameOutcome (Diagnostic.Alike (Span.SentBy f)) (Program.Alike (Span.SentBy f)) a b) :
    b = (a.map (Program.relocate f)).mapError (Diagnostic.relocate f) := by
  cases h with
  | ok hp => rw [hp.eq_relocate]; rfl
  | error hd => rw [hd.eq_relocate]; rfl

end
end FrontEnd
