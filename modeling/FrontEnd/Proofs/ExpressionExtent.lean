import FrontEnd.Proofs.Chains

/-! # The scan for an end and the reader agree

Where a call's arguments end is looked for before they are read. The scan goes from primary to
primary and may look past the end of an argument, as far as the call goes; the reader has the
argument alone, and resolves priorities on its way. Both nevertheless cut at the same places: behind
an expression that closes its parentheses the scan stops exactly if the next token can carry it on
neither as an operator nor as part of its last operand. A comma and a closing parenthesis cannot. -/
namespace FrontEnd

/-- No expression goes on with a comma or a closing parenthesis. -/
theorem Reading.stops_delimiter (range : List Token) {stop : Token}
    (h : stop.kind = .comma ∨ stop.kind = .closeParen) :
    stop.kind ≠ .operator ∧ Stops range stop := by
  rcases h with h | h <;>
    exact ⟨by simp [h], fun _ => by simp [isOperand, h], fun _ => by simp [h]⟩

namespace Buffer
variable {buffer : Buffer} {start stop bound : Nat}

/-- Behind an expression that closes its parentheses the scan stops exactly if the next token before
the bound cannot carry it on. -/
theorem expressionEnd?_eq_some_iff (hs : start ≤ stop) (hb : stop ≤ bound)
    (hsize : bound ≤ buffer.size) {node : Node}
    (hread : buffer.expression (buffer.range start stop) = .ok node)
    (hparens : Reading.kindCount .openParen (buffer.slice start stop) =
      Reading.kindCount .closeParen (buffer.slice start stop)) :
    buffer.expressionEnd? (buffer.range start bound) = some stop ↔
      ∀ token, stop < bound → buffer.token? stop = some token →
        token.kind ≠ .operator ∧ Reading.Stops (buffer.slice start stop) token := by
  have hwindow := buffer.window hs (Nat.le_trans hb hsize)
  have houter := buffer.window (Nat.le_trans hs hb) hsize
  have hlength := hwindow.length_eq
  rw [expression, settle_eq_ok, hwindow.tokensOf_range] at hread
  rw [expressionEnd?, houter.tokensOf_range, houter.range_start, slice_append buffer hs hb hsize]
  have hscan := Reading.expressionEnd?_read hread hparens.symm (buffer.slice stop bound)
  rw [head?_slice] at hscan
  constructor
  · intro h token hlt ht
    obtain ⟨count, hcount, hsum⟩ := Option.map_eq_some_iff.mp h
    have hend : count = (buffer.slice start stop).length := by omega
    exact hscan.mp (hend ▸ hcount) token (by rw [if_pos hlt]; exact ht)
  · intro h
    rw [hscan.mpr fun token ht => ?_, Option.map_some, hlength]
    split at ht
    · exact h token ‹_› ht
    · cases ht

end Buffer

/-- Where an expression is read that has as many closing as opening parentheses, the scan for its
end stops just behind it, if it goes no further, or if a comma or a closing parenthesis comes next:
it neither falls short of what is read nor goes beyond it. The same holds of the scan that goes
through the buffer by position. -/
theorem Buffer.expressionEnd?_of_expression {buffer : Buffer} {start stop bound : Nat}
    {node : Node} (hs : start ≤ stop) (hb : stop ≤ bound) (hsize : bound ≤ buffer.size)
    (hread : buffer.expression (buffer.range start stop) = .ok node)
    (hparens : Reading.kindCount .openParen (buffer.slice start stop) =
      Reading.kindCount .closeParen (buffer.slice start stop))
    (hend : bound = stop ∨ ∃ token, buffer.token? stop = some token ∧
      (token.kind = .comma ∨ token.kind = .closeParen)) :
    buffer.expressionEnd? (buffer.range start bound) = some stop ∧
      ∀ steps, bound - start + 1 < steps →
        Checked.expressionEnd buffer steps (buffer.range start bound) = .ok (some stop) := by
  have hscan : buffer.expressionEnd? (buffer.range start bound) = some stop := by
    rw [expressionEnd?_eq_some_iff hs hb hsize hread hparens]
    intro token hlt ht
    rcases hend with rfl | ⟨delimiter, hd, hkind⟩
    · exact absurd hlt (Nat.lt_irrefl _)
    · rw [hd] at ht
      cases ht
      exact Reading.stops_delimiter _ hkind
  refine ⟨hscan, fun steps hsteps => ?_⟩
  have hwindow := buffer.window (Nat.le_trans hs hb) hsize
  have hlength := hwindow.length_eq
  rw [expressionEnd?, hwindow.tokensOf_range, hwindow.range_start] at hscan
  rw [Checked.expressionEnd, hwindow.range_start, hwindow.range_stop,
    Checked.expressionEndFrom_eq hwindow (by omega), hscan]

/-- The tokens of `f(a * g(x, (y)) + 1, 2)`. -/
def Buffer.arguing : Buffer where
  tokens := [⟨.identifier, "f", ⟨1, 0, 1⟩⟩, ⟨.openParen, "(", ⟨1, 1, 2⟩⟩,
    ⟨.identifier, "a", ⟨1, 2, 3⟩⟩, ⟨.operator, "*", ⟨1, 4, 5⟩⟩, ⟨.identifier, "g", ⟨1, 6, 7⟩⟩,
    ⟨.openParen, "(", ⟨1, 7, 8⟩⟩, ⟨.identifier, "x", ⟨1, 8, 9⟩⟩, ⟨.comma, ",", ⟨1, 9, 10⟩⟩,
    ⟨.openParen, "(", ⟨1, 11, 12⟩⟩, ⟨.identifier, "y", ⟨1, 12, 13⟩⟩,
    ⟨.closeParen, ")", ⟨1, 13, 14⟩⟩, ⟨.closeParen, ")", ⟨1, 14, 15⟩⟩,
    ⟨.operator, "+", ⟨1, 16, 17⟩⟩, ⟨.number, "1", ⟨1, 18, 19⟩⟩, ⟨.comma, ",", ⟨1, 19, 20⟩⟩,
    ⟨.number, "2", ⟨1, 21, 22⟩⟩, ⟨.closeParen, ")", ⟨1, 22, 23⟩⟩]

def Buffer.firstArgument : Node :=
  .binary "+" (.binary "*" (.reference "a" ⟨1, 2, 3⟩)
      (.call "g" [.reference "x" ⟨1, 8, 9⟩, .reference "y" ⟨1, 12, 13⟩] ⟨1, 6, 7⟩) ⟨1, 4, 5⟩)
    (.number "1" ⟨1, 18, 19⟩) ⟨1, 16, 17⟩

/-- In the range of the whole call the scan passes over the comma between the inner arguments and
stops at the one behind the first argument. -/
theorem Buffer.expressionEnd?_of_expression_arguing :
    arguing.expression (arguing.range 2 14) = .ok firstArgument ∧
      arguing.expressionEnd? (arguing.range 2 17) = some 14 ∧
      arguing.expressionEnd? (arguing.range 2 14) = some 14 := by
  have hread : arguing.expression (arguing.range 2 14) = .ok firstArgument := by
    unfold arguing firstArgument
    cbv
  have hparens : Reading.kindCount .openParen (arguing.slice 2 14) =
      Reading.kindCount .closeParen (arguing.slice 2 14) := by decide
  exact ⟨hread,
    (Buffer.expressionEnd?_of_expression (by decide) (by decide) (by decide) hread hparens
      (.inr ⟨_, rfl, .inl rfl⟩)).1,
    (Buffer.expressionEnd?_of_expression (by decide) (by decide) (by decide) hread hparens
      (.inl rfl)).1⟩

end FrontEnd
