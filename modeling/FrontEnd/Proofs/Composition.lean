import Mathlib
import FrontEnd.Program
import FrontEnd.Proofs.BodyReading
import FrontEnd.Proofs.Complaints

/-! # Programs one after the other

A function is read from its own tokens. What follows it cannot make it longer: its head looks one
token ahead, and that token belongs to the body; brackets are matched and semicolons found at the
first place that fits. So a program goes on where another one ends as if it began there. Complaints
count tokens from the end, and none is placed before the program that it is about; so they are
reported at the same tokens, too. -/
namespace FrontEnd

def Program.append (first second : Program) : Program :=
  ⟨first.definitions ++ second.definitions, first.externals ++ second.externals⟩

namespace Reading
open Grammar

section
variable {tokens : List Token}

theorem prototype_append {signature : Signature} {count : Nat}
    (h : prototype tokens = .ok (signature, count)) (hlt : count < tokens.length)
    (more : List Token) : prototype (tokens ++ more) = .ok (signature, count) := by
  obtain ⟨head, arrow, rest, name, given, type, rfl, hh, hr, ha, hs, rfl⟩ :=
    prototype_eq_ok_iff.mp h
  have hne : rest ≠ [] := by
    rintro rfl
    simp at hlt
  refine prototype_eq_ok_iff.mpr ⟨head, arrow, rest ++ more, name, given, type, by simp, hh, hr, ?_,
    hs, rfl⟩
  rw [startsWith_append hne]
  exact ha

theorem block_append {result : Body} {count : Nat} (h : block tokens = .ok (result, count))
    (more : List Token) : block (tokens ++ more) = .ok (result, count) := by
  obtain ⟨opening, inside, closing, rest, rfl, ho, hc, hb, hbody, rfl⟩ := block_eq_ok_iff.mp h
  exact block_eq_ok_iff.mpr ⟨opening, inside, closing, rest ++ more, by simp, ho, hc, hb, hbody, rfl⟩

theorem block_count_le {result : Body} {count : Nat} (h : block tokens = .ok (result, count)) :
    0 < count ∧ count ≤ tokens.length := by
  obtain ⟨opening, inside, closing, rest, rfl, -, -, -, -, rfl⟩ := block_eq_ok_iff.mp h
  simp

/-- A function ends at the brace that closes its body, whatever follows. -/
theorem definitionRest_append {definition : Definition} {count : Nat}
    (h : definitionRest tokens = .ok (definition, count)) (more : List Token) :
    count ≤ tokens.length ∧ definitionRest (tokens ++ more) = .ok (definition, count) := by
  simp only [definitionRest, bind_eq_ok, Prod.exists, Except.ok.injEq, Prod.mk.injEq] at h
  obtain ⟨signature, headCount, hhead, result, bodyCount, hbody, rfl, rfl⟩ := h
  obtain ⟨hpos, hle⟩ := block_count_le hbody
  rw [List.length_drop] at hle
  refine ⟨by omega, ?_⟩
  have hdrop : (tokens ++ more).drop headCount = tokens.drop headCount ++ more :=
    List.drop_append_of_le_length (by omega)
  simp [definitionRest, prototype_append hhead (by omega) more, hdrop, block_append hbody more]

/-- An external function ends at the first semicolon, whatever follows. -/
theorem externalRest_append {signature : Signature} {count : Nat}
    (h : externalRest tokens = .ok (signature, count)) (more : List Token) :
    count ≤ tokens.length ∧ externalRest (tokens ++ more) = .ok (signature, count) := by
  obtain ⟨front, semicolon, rest, rfl, hfront, hk, hs, rfl⟩ := externalRest_eq_ok_iff.mp h
  refine ⟨by simp, externalRest_eq_ok_iff.mpr ?_⟩
  exact ⟨front, semicolon, rest ++ more, by simp, hfront, hk, hs, rfl⟩

end

/-- What a program declares does not depend on what follows, and what follows is read on its own. -/
theorem program_append : (tokens : List Token) → {first : Program} →
    program tokens = .ok first → (more : List Token) →
    program (tokens ++ more) = (program more).map first.append
  | [], first, h, more => by
    rw [program] at h
    cases h
    rw [List.nil_append]
    cases program more <;> rfl
  | token :: rest, first, h, more => by
    rw [program] at h
    rw [List.cons_append, program]
    split at h
    · rename_i hk
      simp only [bind_eq_ok, Prod.exists] at h
      obtain ⟨head, count, hhead, others, hothers, hfirst⟩ := h
      cases hfirst
      obtain ⟨hle, happend⟩ := externalRest_append hhead more
      rw [if_pos hk, happend, ok_bind]
      dsimp only
      rw [List.drop_append_of_le_length hle, program_append (rest.drop count) hothers more]
      cases program more <;> rfl
    split at h
    · rename_i hx hk
      simp only [bind_eq_ok, Prod.exists] at h
      obtain ⟨definition, count, hdefinition, others, hothers, hfirst⟩ := h
      cases hfirst
      obtain ⟨hle, happend⟩ := definitionRest_append hdefinition more
      rw [if_neg hx, if_pos hk, happend, ok_bind]
      dsimp only
      rw [List.drop_append_of_le_length hle, program_append (rest.drop count) hothers more]
      cases program more <;> rfl
    · cases h
termination_by tokens => tokens.length
decreasing_by all_goals simp only [List.length_drop, List.length_cons]; omega

end Reading

/-- What is said of a place in the second of two programs is said of it in both together. -/
theorem Buffer.diagnose_append (first : List Token) {second : List Token} (hne : second ≠ [])
    (demand : Demand) (position : Nat) :
    Buffer.diagnose ⟨first ++ second⟩ demand (first.length + position) =
      Buffer.diagnose ⟨second⟩ demand position := by
  have htoken : Buffer.token? ⟨first ++ second⟩ (first.length + position) =
      Buffer.token? ⟨second⟩ position := by
    simp [Buffer.token?, List.getElem?_append_right]
  have hlast : (first ++ second).getLast? = second.getLast? :=
    List.getLast?_append_of_ne_nil first hne
  have hspan : Buffer.spanAt ⟨first ++ second⟩ (first.length + position) =
      Buffer.spanAt ⟨second⟩ position := by
    rw [Buffer.spanAt, Buffer.spanAt, htoken, hlast]
  have hcause : Buffer.causeAt ⟨first ++ second⟩ (first.length + position) demand =
      Buffer.causeAt ⟨second⟩ position demand := by
    cases demand <;> simp only [Buffer.causeAt, Buffer.describe, htoken]
  rw [Buffer.diagnose, Buffer.diagnose, hspan, hcause]

/-- Behind a complete program everything is read, or rejected, as if it stood alone. -/
theorem Program.ofTokens_append {first second : List Token} {program : Program}
    (h : Program.ofTokens first = .ok program) :
    Program.ofTokens (first ++ second) = (Program.ofTokens second).map program.append := by
  have hfirst := Reading.program_append first (Buffer.settle_eq_ok.mp h) second
  have hwithin := Reading.program_within second
  rw [Program.ofTokens, Program.ofTokens, hfirst, List.length_append]
  cases hr : Reading.program second with
  | ok others => rfl
  | error complaint =>
    have hne : second ≠ [] := by
      rintro rfl
      rw [Reading.program] at hr
      cases hr
    have hle := hwithin complaint hr
    have hposition : first.length + second.length - complaint.left =
        first.length + (second.length - complaint.left) := by omega
    show Except.error (Buffer.diagnose _ _ _) = Except.error (Buffer.diagnose _ _ _)
    rw [hposition, Buffer.diagnose_append first hne]

/-- An external function and a function, both complete. -/
def Program.completeTokens : List Token :=
  [⟨.externKeyword, "extern", ⟨1, 0, 6⟩⟩, ⟨.fnKeyword, "fn", ⟨1, 7, 9⟩⟩,
    ⟨.identifier, "g", ⟨1, 10, 11⟩⟩, ⟨.openParen, "(", ⟨1, 11, 12⟩⟩, ⟨.closeParen, ")", ⟨1, 12, 13⟩⟩,
    ⟨.semicolon, ";", ⟨1, 13, 14⟩⟩, ⟨.fnKeyword, "fn", ⟨2, 0, 2⟩⟩, ⟨.identifier, "f", ⟨2, 3, 4⟩⟩,
    ⟨.openParen, "(", ⟨2, 4, 5⟩⟩, ⟨.closeParen, ")", ⟨2, 5, 6⟩⟩, ⟨.openCurly, "\x7b", ⟨2, 7, 8⟩⟩,
    ⟨.closeCurly, "\x7d", ⟨2, 8, 9⟩⟩]

def Program.complete : Program :=
  ⟨[⟨⟨"f", [], "void", ⟨2, 3, 4⟩⟩, .mk [] none⟩], [⟨"g", [], "void", ⟨1, 10, 11⟩⟩]⟩

/-- A function that is cut off in its parentheses. -/
def Program.cutOffTokens : List Token :=
  [⟨.fnKeyword, "fn", ⟨3, 0, 2⟩⟩, ⟨.identifier, "h", ⟨3, 3, 4⟩⟩, ⟨.openParen, "(", ⟨3, 4, 5⟩⟩]

theorem Program.ofTokens_append_cutOff :
    Program.ofTokens Program.completeTokens = .ok Program.complete ∧
      Program.ofTokens Program.cutOffTokens =
        .error ⟨.unexpectedEnd .closeParen, ⟨3, 4, 5⟩, none⟩ ∧
      Program.ofTokens (Program.completeTokens ++ Program.cutOffTokens) =
        (Program.ofTokens Program.cutOffTokens).map Program.complete.append := by
  have hfirst : Program.ofTokens Program.completeTokens = .ok Program.complete := by
    unfold Program.completeTokens Program.complete
    cbv
  have hsecond : Program.ofTokens Program.cutOffTokens =
      .error ⟨.unexpectedEnd .closeParen, ⟨3, 4, 5⟩, none⟩ := by
    unfold Program.cutOffTokens
    cbv
  exact ⟨hfirst, hsecond, Program.ofTokens_append hfirst⟩

end FrontEnd
