import FrontEnd.Diagnostic
import FrontEnd.Tree

/-! # Reading trees from tokens

A tree is read from a range of tokens, and from those tokens alone. What a reader asks for and does
not find is a complaint; it is placed by the number of tokens that are left in the range, so that
dropping tokens at the front of a range moves no complaint, and adding tokens at its end moves all
of them alike. Which diagnostic a complaint turns into depends on what stands there in the whole
sequence of tokens, also outside the range, and is left to `FrontEnd.Buffer`. -/
namespace FrontEnd

/-- What a reader asks for in vain. -/
inductive Demand where
  | token (kind : TokenKind)
  | primary
  | closer (opening : TokenKind)
  | call
  | declarationEnd
  | externalEnd
  deriving DecidableEq, Repr

/-- A demand, and how many tokens are left in the range where it is made. -/
structure Complaint where
  demand : Demand
  left : Nat
  deriving DecidableEq, Repr

abbrev Reading (α : Type) := Except Complaint α

namespace Reading

/-- The same reading in a range that goes on for `count` more tokens. -/
def followedBy {α : Type} (reading : Reading α) (count : Nat) : Reading α :=
  reading.mapError fun complaint => { complaint with left := complaint.left + count }

/-- Reads one token of the given kind, and gives the rest of the range with it. -/
def expect (kind : TokenKind) : List Token → Reading (Token × List Token)
  | token :: rest =>
    if token.kind = kind then .ok (token, rest) else .error ⟨.token kind, rest.length + 1⟩
  | [] => .error ⟨.token kind, 0⟩

@[simp] theorem followedBy_ok {α : Type} (a : α) (count : Nat) :
    Reading.followedBy (.ok a) count = .ok a := rfl

@[simp] theorem followedBy_eq_ok {α : Type} {reading : Reading α} {count : Nat} {a : α} :
    reading.followedBy count = .ok a ↔ reading = .ok a := by
  cases reading with
  | ok b => rfl
  | error complaint => constructor <;> intro h <;> cases h

@[simp] theorem ok_bind {α β : Type} (a : α) (next : α → Reading β) :
    ((.ok a : Reading α) >>= next) = next a := rfl

theorem bind_eq_ok {α β : Type} {reading : Reading α} {next : α → Reading β} {b : β} :
    (reading >>= next) = .ok b ↔ ∃ a, reading = .ok a ∧ next a = .ok b := by
  cases reading with
  | ok a =>
    constructor
    · intro h; exact ⟨a, rfl, h⟩
    · rintro ⟨_, ha, h⟩; cases ha; exact h
  | error complaint =>
    constructor
    · intro h; cases h
    · rintro ⟨_, ha, _⟩; cases ha

/-- One token of the kind is read exactly where it stands. -/
theorem expect_eq_ok {kind : TokenKind} {tokens rest : List Token} {token : Token} :
    expect kind tokens = .ok (token, rest) ↔ tokens = token :: rest ∧ token.kind = kind := by
  cases tokens with
  | nil => simp [expect]
  | cons first more =>
    simp only [expect, List.cons.injEq]
    split
    · rename_i hk
      constructor
      · intro h; cases h; exact ⟨⟨rfl, rfl⟩, hk⟩
      · rintro ⟨⟨rfl, rfl⟩, -⟩; rfl
    · rename_i hk
      constructor
      · intro h; cases h
      · rintro ⟨⟨rfl, -⟩, h⟩; exact absurd h hk

end Reading
end FrontEnd
