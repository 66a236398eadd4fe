import FrontEnd.Proofs.Chains

/-! # Ordinary precedence

In ordinary notation the right operand of an operator is the longest run of stronger operators
behind it, with their operands. The reader takes one operand or else all that is left, so the two
agree on a chain exactly if no operator that is followed by a stronger one is ever followed by one
that is not. Where they disagree the trees differ at a node whose left sides are of different size,
whatever the operands are. -/
namespace FrontEnd
namespace Grammar

namespace Shape

/-- Every operator in the shape has its ordinary right operand, when `after` follows the shape in
the chain: stronger operators only, and all of them up to the first that is not stronger. -/
def Ordinary : Shape → Links → Prop
  | operand _, _ => True
  | operation left operator right, after =>
    left.Ordinary ((operator, right.first) :: (right.links ++ after)) ∧ right.Ordinary after ∧
      (∀ link ∈ right.links,
        Operator.priority operator.text < Operator.priority link.1.text) ∧
      TakesOne operator after

/-- Puts one more operator with its operand at the end of a chain: into the right operand of a
weaker operator, else on top. -/
def attach : Shape → Token × Node → Shape
  | operand node, link => operation (operand node) link.1 (operand link.2)
  | operation left operator right, link =>
    if Operator.priority operator.text < Operator.priority link.1.text then
      operation left operator (right.attach link)
    else operation (operation left operator right) link.1 (operand link.2)

/-- Builds the ordinary tree of a chain that goes on after `left`. -/
def climb (left : Shape) (after : Links) : Shape := after.foldl attach left

/-- The operator on top, if there is one, is not weaker than the link. -/
def Yields (link : Token × Node) : Shape → Prop
  | operand _ => True
  | operation _ operator _ => Operator.priority link.1.text ≤ Operator.priority operator.text

/-! ## The ordinary tree is built, and it is the only one -/

theorem takesOne_nil (operator : Token) : TakesOne operator [] := by
  intro next hn
  cases hn

theorem ordinary_operand (node : Node) (after : Links) : (operand node).Ordinary after := trivial

/-- Of what follows a shape only the next operator matters. -/
theorem ordinary_cons (shape : Shape) (link : Token × Node) (after other : Links) :
    shape.Ordinary (link :: after) ↔ shape.Ordinary (link :: other) := by
  induction shape generalizing link after other with
  | operand node => exact Iff.rfl
  | operation left operator right ihl ihr =>
    simp only [Ordinary, ihr link after other,
      ihl (operator, right.first) (right.links ++ link :: after) (right.links ++ link :: other)]
    exact Iff.rfl

theorem Ordinary.alone {shape : Shape} {after : Links} (h : shape.Ordinary after) :
    shape.Ordinary [] := by
  induction shape generalizing after with
  | operand node => trivial
  | operation left operator right ihl ihr =>
    obtain ⟨hl, hr, hs, -⟩ := h
    exact ⟨(ordinary_cons left _ _ _).mp hl, ihr hr, hs, takesOne_nil operator⟩

theorem Ordinary.yields {shape : Shape} {link : Token × Node} {after : Links}
    (h : shape.Ordinary (link :: after)) : shape.Yields link := by
  cases shape with
  | operand node => trivial
  | operation left operator right => exact h.2.2.2 link rfl

/-- A shape of operators that are stronger than one that is not weaker than the link. -/
theorem yields_of_links {shape : Shape} {operator : Token} {link : Token × Node}
    (hs : ∀ inner ∈ shape.links,
      Operator.priority operator.text < Operator.priority inner.1.text)
    (hl : Operator.priority link.1.text ≤ Operator.priority operator.text) :
    shape.Yields link := by
  cases shape with
  | operand node => trivial
  | operation left inner right =>
    have := hs (inner, right.first) (by simp [links])
    exact Nat.le_trans hl (Nat.le_of_lt this)

theorem Ordinary.before {shape : Shape} {link : Token × Node} (h : shape.Ordinary [])
    (hy : shape.Yields link) (after : Links) : shape.Ordinary (link :: after) := by
  induction shape with
  | operand node => trivial
  | operation left operator right ihl ihr =>
    obtain ⟨hl, hr, hs, -⟩ := h
    refine ⟨(ordinary_cons left _ _ _).mp hl, ihr hr (yields_of_links hs hy), hs, ?_⟩
    intro next hn
    cases hn
    exact hy

theorem attach_of_yields {shape : Shape} {link : Token × Node} (h : shape.Yields link) :
    shape.attach link = operation shape link.1 (operand link.2) := by
  cases shape with
  | operand node => rfl
  | operation left operator right => exact if_neg (Nat.not_lt.mpr h)

theorem attach_first (shape : Shape) (link : Token × Node) :
    (shape.attach link).first = shape.first := by
  cases shape with
  | operand node => rfl
  | operation left operator right =>
    rw [attach]
    split <;> rfl

theorem attach_links (shape : Shape) (link : Token × Node) :
    (shape.attach link).links = shape.links ++ [link] := by
  induction shape with
  | operand node => rfl
  | operation left operator right _ ihr =>
    rw [attach]
    split
    · simp [links, ihr, attach_first]
    · simp [links, first]

theorem attach_ordinary {shape : Shape} (h : shape.Ordinary []) (link : Token × Node) :
    (shape.attach link).Ordinary [] := by
  have htop {shape : Shape} (h : shape.Ordinary []) (hy : shape.Yields link) :
      (shape.attach link).Ordinary [] := by
    rw [attach_of_yields hy]
    exact ⟨h.before hy _, trivial, by simp [links], takesOne_nil _⟩
  induction shape with
  | operand node => exact htop h trivial
  | operation left operator right ihl ihr =>
    by_cases hw : Operator.priority operator.text < Operator.priority link.1.text
    · obtain ⟨hl, hr, hs, -⟩ := h
      rw [attach, if_pos hw]
      refine ⟨?_, ihr hr, ?_, takesOne_nil operator⟩
      · rw [attach_first]
        exact (ordinary_cons left _ _ _).mp hl
      · intro inner hi
        rw [attach_links, List.mem_append, List.mem_singleton] at hi
        rcases hi with hi | rfl
        · exact hs inner hi
        · exact hw
    · exact htop h (Nat.le_of_not_lt hw)

theorem climb_first (shape : Shape) (after : Links) : (shape.climb after).first = shape.first := by
  induction after generalizing shape with
  | nil => rfl
  | cons link after ih => exact (ih (shape.attach link)).trans (attach_first shape link)

theorem climb_links (shape : Shape) (after : Links) :
    (shape.climb after).links = shape.links ++ after := by
  induction after generalizing shape with
  | nil => simp [climb]
  | cons link after ih =>
    have := ih (shape.attach link)
    rw [attach_links, List.append_assoc] at this
    exact this

theorem climb_ordinary {shape : Shape} (h : shape.Ordinary []) (after : Links) :
    (shape.climb after).Ordinary [] := by
  induction after generalizing shape with
  | nil => exact h
  | cons link after ih => exact ih (attach_ordinary h link)

/-- Operators that are all stronger than the one on top go to its right operand. -/
theorem climb_stronger (left : Shape) (operator : Token) (right : Shape) {after : Links}
    (h : ∀ link ∈ after, Operator.priority operator.text < Operator.priority link.1.text) :
    (operation left operator right).climb after =
      operation left operator (right.climb after) := by
  induction after generalizing right with
  | nil => rfl
  | cons link after ih =>
    have hfirst : (operation left operator right).attach link =
        operation left operator (right.attach link) := if_pos (h link (by simp))
    rw [climb, List.foldl_cons, hfirst]
    exact ih (right.attach link) fun other ho => h other (by simp [ho])

/-- Climbing takes an ordinary shape apart and puts it together again. -/
theorem climb_of_ordinary {shape : Shape} (h : shape.Ordinary []) :
    (operand shape.first).climb shape.links = shape := by
  induction shape with
  | operand node => rfl
  | operation left operator right ihl ihr =>
    obtain ⟨hl, hr, hs, -⟩ := h
    have hleft : (operand left.first).climb left.links = left := ihl hl.alone
    have htop : left.attach (operator, right.first) =
        operation left operator (operand right.first) := attach_of_yields hl.yields
    calc (operand left.first).climb (left.links ++ (operator, right.first) :: right.links)
        = (left.attach (operator, right.first)).climb right.links := by
          rw [climb, List.foldl_append, List.foldl_cons]
          rw [climb] at hleft
          rw [hleft]
          rfl
      _ = operation left operator ((operand right.first).climb right.links) := by
          rw [htop, climb_stronger left operator _ hs]
      _ = operation left operator right := by rw [ihr hr]

/-- A chain has one ordinary tree. -/
theorem ordinary_iff (first : Node) (after : Links) (shape : Shape) :
    (shape.first = first ∧ shape.links = after ∧ shape.Ordinary []) ↔
      shape = (operand first).climb after := by
  constructor
  · rintro ⟨rfl, rfl, h⟩
    exact (climb_of_ordinary h).symm
  · rintro rfl
    exact ⟨climb_first _ _, climb_links _ _, climb_ordinary (ordinary_operand first []) after⟩

/-! ## Both ways of building a tree -/

/-- Once a left operand is that large, it does not get smaller. -/
theorem climb_left_le (left : Shape) (operator : Token) (right : Shape) (after : Links) :
    ∃ left' operator' right', (operation left operator right).climb after =
      operation left' operator' right' ∧ sizeOf left.node ≤ sizeOf left'.node := by
  induction after generalizing left operator right with
  | nil => exact ⟨left, operator, right, rfl, Nat.le_refl _⟩
  | cons link after ih =>
    rw [climb, List.foldl_cons, attach]
    split
    · exact ih left operator (right.attach link)
    · obtain ⟨left', operator', right', he, hle⟩ :=
        ih (operation left operator right) link.1 (operand link.2)
      refine ⟨left', operator', right', he, Nat.le_trans ?_ hle⟩
      simp only [node, Node.binary.sizeOf_spec]
      omega

/-- An operator that is not stronger than the one on top makes the left operand larger. -/
theorem climb_left_lt (left : Shape) (operator : Token) (right : Shape) {after : Links}
    (h : ∃ link ∈ after, Operator.priority link.1.text ≤ Operator.priority operator.text) :
    ∃ left' operator' right', (operation left operator right).climb after =
      operation left' operator' right' ∧ sizeOf left.node < sizeOf left'.node := by
  induction after generalizing right with
  | nil =>
    obtain ⟨link, hm, -⟩ := h
    cases hm
  | cons first after ih =>
    rw [climb, List.foldl_cons, attach]
    split
    · rename_i hw
      apply ih (right.attach first)
      obtain ⟨link, hm, hl⟩ := h
      rcases List.mem_cons.mp hm with rfl | hm
      · omega
      · exact ⟨link, hm, hl⟩
    · obtain ⟨left', operator', right', he, hle⟩ :=
        climb_left_le (operation left operator right) first.1 (operand first.2) after
      refine ⟨left', operator', right', he, Nat.lt_of_lt_of_le ?_ hle⟩
      simp only [node, Node.binary.sizeOf_spec]
      omega

end Shape

def Links.priorities (links : Links) : List Nat :=
  links.map fun link => Operator.priority link.1.text

/-- Where a priority is followed by a higher one, all priorities behind it are higher. -/
def NeverFallsBack (priorities : List Nat) : Prop :=
  ∀ i p q, priorities[i]? = some p → priorities[i + 1]? = some q → p < q →
    ∀ j r, i < j → priorities[j]? = some r → p < r

theorem neverFallsBack_nil : NeverFallsBack [] := by
  intro i p q hp
  cases hp

theorem neverFallsBack_cons (p : Nat) (rest : List Nat) :
    NeverFallsBack (p :: rest) ↔
      ((∃ q ∈ rest.head?, p < q) → ∀ r ∈ rest, p < r) ∧ NeverFallsBack rest := by
  constructor
  · intro h
    constructor
    · rintro ⟨q, hq, hlt⟩ r hr
      obtain ⟨j, hj⟩ := List.mem_iff_getElem?.mp hr
      have hq' : (p :: rest)[0 + 1]? = some q := by
        rw [List.getElem?_cons_succ, ← List.head?_eq_getElem?]
        exact hq
      exact h 0 p q rfl hq' hlt (j + 1) r (Nat.succ_pos j) hj
    · intro i p' q hp hq hlt j r hij hr
      exact h (i + 1) p' q hp hq hlt (j + 1) r (Nat.succ_lt_succ hij) hr
  · rintro ⟨hfirst, hrest⟩ i p' q hp hq hlt j r hij hr
    cases j with
    | zero => omega
    | succ j =>
      rw [List.getElem?_cons_succ] at hq hr
      cases i with
      | zero =>
        cases hp
        rw [← List.head?_eq_getElem?] at hq
        exact hfirst ⟨q, hq, hlt⟩ r (List.mem_of_getElem? hr)
      | succ i =>
        rw [List.getElem?_cons_succ] at hp
        exact hrest i p' q hp hq hlt j r (Nat.lt_of_succ_lt_succ hij) hr

theorem takesOne_iff (operator : Token) (links : Links) :
    TakesOne operator links ↔
      ¬ ∃ q ∈ links.priorities.head?, Operator.priority operator.text < q := by
  cases links with
  | nil => simp [TakesOne, Links.priorities]
  | cons link links => simp [TakesOne, Links.priorities]

/-- The reader's tree and the ordinary one are equal exactly if the priorities never fall back. -/
theorem Shape.fold_node_eq_iff (left : Shape) (links : Links) (h : left.Ordinary links) :
    (left.fold links).node = (left.climb links).node ↔ NeverFallsBack links.priorities := by
  -- along the chain; both trees have grown the same left operand so far
  induction links generalizing left with
  | nil => exact iff_of_true rfl neverFallsBack_nil
  | cons link links ih =>
    obtain ⟨operator, operandNode⟩ := link
    have htop : left.climb ((operator, operandNode) :: links) =
        (operation left operator (operand operandNode)).climb links := by
      rw [climb, List.foldl_cons, attach_of_yields h.yields]
      rfl
    rw [fold, htop, Links.priorities, List.map_cons, ← Links.priorities, neverFallsBack_cons]
    by_cases ht : TakesOne operator links
    · have hnot := (takesOne_iff operator links).mp ht
      have hnext : (operation left operator (operand operandNode)).Ordinary links :=
        ⟨h, ordinary_operand _ _, by simp [Shape.links], ht⟩
      rw [if_pos ht, ih _ hnext]
      exact (and_iff_right fun hs => absurd hs hnot).symm
    · have hsteep := Decidable.not_not.mp (mt (takesOne_iff operator links).mpr ht)
      have hall : (∀ r ∈ Links.priorities links, Operator.priority operator.text < r) ↔
          ∀ link ∈ links, Operator.priority operator.text < Operator.priority link.1.text :=
        List.forall_mem_map
      rw [if_neg ht, forall_prop_of_true hsteep, hall]
      by_cases hs : ∀ link ∈ links,
          Operator.priority operator.text < Operator.priority link.1.text
      · rw [climb_stronger left operator _ hs, and_iff_right hs,
          ← ih (operand operandNode) (ordinary_operand _ _)]
        simp [Shape.node]
      · -- the ordinary tree has put the chain so far into a left operand
        have hweak : ∃ link ∈ links,
            Operator.priority link.1.text ≤ Operator.priority operator.text := by
          simpa using hs
        obtain ⟨left', operator', right', he, hlt⟩ :=
          climb_left_lt left operator (operand operandNode) hweak
        rw [he, Shape.node, Shape.node, Node.binary.injEq]
        constructor
        · rintro ⟨-, hleft, -⟩
          rw [hleft] at hlt
          omega
        · intro hn
          exact absurd hn.1 hs

end Grammar

/-- Every chain of primaries is read, wherever its tokens stand in a buffer; there is one tree of
the chain that follows ordinary precedence, and it is the one read exactly if the priorities never
fall back. -/
theorem Buffer.expression_ordinary_iff (first : Reading.Primary) (chain : Reading.Chain)
    (buffer : Buffer) (range : Buffer.Range)
    (h : buffer.tokensOf range = first.tokens ++ Reading.Chain.tokens chain) :
    ∃ node, ∃ shape : Grammar.Shape, buffer.expression range = .ok node ∧
      (∀ other : Grammar.Shape, (other.first = first.node ∧
        other.links = Reading.Chain.links chain ∧ other.Ordinary []) ↔ other = shape) ∧
      (node = shape.node ↔
        Grammar.NeverFallsBack (chain.map fun link => Operator.priority link.1.val.text)) := by
  have hpriorities : (Reading.Chain.links chain).priorities =
      chain.map fun link => Operator.priority link.1.val.text := by
    rw [Grammar.Links.priorities, Reading.Chain.links, List.map_map]
    rfl
  refine ⟨((Grammar.Shape.operand first.node).fold (Reading.Chain.links chain)).node,
    (Grammar.Shape.operand first.node).climb (Reading.Chain.links chain), ?_,
    Grammar.Shape.ordinary_iff first.node _, ?_⟩
  · rw [Buffer.expression, h, Buffer.settle_eq_ok]
    exact Reading.expression_chain first chain
  · rw [← hpriorities]
    exact Grammar.Shape.fold_node_eq_iff _ _ (Grammar.Shape.ordinary_operand first.node _)

def Reading.Primary.number (text : String) : Primary :=
  .ofOperand (.number (Grammar.unplaced .number text))

/-- The operand `(3 + 4)`. -/
def Grammar.groupedSum : Operand :=
  .group (unplaced .openParen "(")
    (.mk (.number (unplaced .number "3"))
      (.next (unplaced .operator "+") (.number (unplaced .number "4")) .nothing))
    (unplaced .closeParen ")")

/-- What follows the first operand of `10 - 2 * (3 + 4) + 1`. -/
def Reading.fallingChain : Chain :=
  [(Grammar.unplaced .operator "-", .number "2"),
    (Grammar.unplaced .operator "*", .ofOperand Grammar.groupedSum),
    (Grammar.unplaced .operator "+", .number "1")]

/-- The tokens of `10 - 2 * (3 + 4) + 1`. -/
def Buffer.falling : Buffer where
  tokens := (Reading.Primary.number "10").tokens ++ Reading.Chain.tokens Reading.fallingChain

theorem Buffer.expression_ordinary_iff_falling :
    falling.tokensOf ⟨0, 11, by decide⟩ =
        (Reading.Primary.number "10").tokens ++ Reading.Chain.tokens Reading.fallingChain ∧
      ∃ node, ∃ shape : Grammar.Shape, falling.expression ⟨0, 11, by decide⟩ = .ok node ∧
        shape.first = .number "10" .nowhere ∧
        shape.links = Reading.Chain.links Reading.fallingChain ∧ shape.Ordinary [] ∧
        node ≠ shape.node := by
  obtain ⟨node, shape, hread, hshape, hiff⟩ := Buffer.expression_ordinary_iff
    (.number "10") Reading.fallingChain falling ⟨0, 11, by decide⟩ rfl
  obtain ⟨hfirst, hlinks, hordinary⟩ := (hshape shape).mpr rfl
  refine ⟨rfl, node, shape, hread, hfirst, hlinks, hordinary, fun he => ?_⟩
  -- the multiplication is stronger than the subtraction, the addition behind it is not
  have hstronger : 20 < 10 := hiff.mp he 0 20 30 rfl rfl (by decide) 2 10 (by decide) rfl
  exact absurd hstronger (by decide)

end FrontEnd
