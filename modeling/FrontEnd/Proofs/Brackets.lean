import FrontEnd.Reading.Extent

/-! # Brackets and the scan that closes them

`closer?` counts brackets of one kind and stops where the count first returns to its start. Here
that is said without the count: the tokens before the closer hold as many closing as opening
brackets, and no part of them from the front holds more closing ones. Other brackets may stand
anywhere. -/
namespace FrontEnd.Reading

def kindCount (kind : TokenKind) (tokens : List Token) : Nat :=
  tokens.countP fun token => token.kind = kind

@[simp] theorem kindCount_nil (kind : TokenKind) : kindCount kind [] = 0 := rfl

@[simp] theorem kindCount_cons (kind : TokenKind) (token : Token) (rest : List Token) :
    kindCount kind (token :: rest) = kindCount kind rest + if token.kind = kind then 1 else 0 := by
  simp [kindCount, List.countP_cons]

@[simp] theorem kindCount_append (kind : TokenKind) (tokens rest : List Token) :
    kindCount kind (tokens ++ rest) = kindCount kind tokens + kindCount kind rest :=
  List.countP_append

/-- With `depth` brackets open before the tokens, no closing bracket comes too early. -/
def StaysOpen (opening closing : TokenKind) (depth : Nat) (tokens : List Token) : Prop :=
  ∀ start, start <+: tokens → kindCount closing start ≤ kindCount opening start + depth

/-- Every bracket in the tokens is closed in them, and none is closed that was not opened. -/
def Balanced (opening closing : TokenKind) (tokens : List Token) : Prop :=
  kindCount closing tokens = kindCount opening tokens ∧ StaysOpen opening closing 0 tokens

section
variable {opening closing : TokenKind}

theorem staysOpen_nil (depth : Nat) : StaysOpen opening closing depth [] := by
  intro start hs
  rw [List.prefix_nil.mp hs]
  simp

/-- One token on: the count before it must allow for it, and the rest starts from the new count. -/
theorem staysOpen_cons {depth : Nat} {token : Token} {rest : List Token} :
    StaysOpen opening closing depth (token :: rest) ↔
      ∀ start, start <+: rest → kindCount closing (token :: start) ≤
        kindCount opening (token :: start) + depth := by
  constructor
  · intro h start hs
    exact h _ ((List.prefix_cons_inj token).mpr hs)
  · intro h start hs
    rcases List.prefix_cons_iff.mp hs with rfl | ⟨more, rfl, hm⟩
    · simp
    · exact h more hm

theorem staysOpen_cons_opening {depth : Nat} {token : Token} {rest : List Token}
    (hne : opening ≠ closing) (ho : token.kind = opening) :
    StaysOpen opening closing depth (token :: rest) ↔
      StaysOpen opening closing (depth + 1) rest := by
  have hc : token.kind ≠ closing := by rw [ho]; exact hne
  rw [staysOpen_cons]
  simp only [kindCount_cons, ho, if_true, if_neg (ho ▸ hc : opening ≠ closing), StaysOpen]
  constructor <;> intro h start hs <;> have := h start hs <;> omega

theorem staysOpen_cons_closing {depth : Nat} {token : Token} {rest : List Token}
    (hne : opening ≠ closing) (hc : token.kind = closing) :
    StaysOpen opening closing (depth + 1) (token :: rest) ↔
      StaysOpen opening closing depth rest := by
  rw [staysOpen_cons]
  simp only [kindCount_cons, hc, if_true, if_neg hne.symm, StaysOpen]
  constructor <;> intro h start hs <;> have := h start hs <;> omega

theorem not_staysOpen_cons_closing {token : Token} {rest : List Token}
    (hne : opening ≠ closing) (hc : token.kind = closing) :
    ¬ StaysOpen opening closing 0 (token :: rest) := by
  intro h
  have := h [token] (by simp)
  simp [hc, hne.symm] at this

theorem staysOpen_cons_other {depth : Nat} {token : Token} {rest : List Token}
    (ho : token.kind ≠ opening) (hc : token.kind ≠ closing) :
    StaysOpen opening closing depth (token :: rest) ↔ StaysOpen opening closing depth rest := by
  rw [staysOpen_cons]
  simp only [kindCount_cons, if_neg ho, if_neg hc, StaysOpen, Nat.add_zero]

theorem StaysOpen.count_le {depth : Nat} {tokens : List Token}
    (h : StaysOpen opening closing depth tokens) :
    kindCount closing tokens ≤ kindCount opening tokens + depth := h tokens (List.prefix_refl _)

/-- Tokens after which `depth'` brackets are open, then tokens that start from there. -/
theorem StaysOpen.append {depth depth' : Nat} {tokens rest : List Token}
    (h : StaysOpen opening closing depth tokens) (hr : StaysOpen opening closing depth' rest)
    (hd : kindCount closing tokens + depth' ≤ kindCount opening tokens + depth) :
    StaysOpen opening closing depth (tokens ++ rest) := by
  intro start hs
  rcases List.prefix_or_prefix_of_prefix hs (List.prefix_append tokens rest) with hs | ⟨more, rfl⟩
  · exact h start hs
  · have := hr more ((List.prefix_append_right_inj tokens).mp hs)
    simp only [kindCount_append]
    omega

theorem StaysOpen.mono {depth depth' : Nat} {tokens : List Token}
    (h : StaysOpen opening closing depth tokens) (hd : depth ≤ depth') :
    StaysOpen opening closing depth' tokens := by
  intro start hs
  have := h start hs
  omega

theorem balanced_nil : Balanced opening closing [] := ⟨rfl, staysOpen_nil 0⟩

theorem Balanced.append {tokens rest : List Token} (h : Balanced opening closing tokens)
    (hr : Balanced opening closing rest) : Balanced opening closing (tokens ++ rest) := by
  refine ⟨?_, h.2.append hr.2 (by have := h.1; omega)⟩
  simp [h.1, hr.1]

theorem Balanced.cons_other {token : Token} {rest : List Token} (ho : token.kind ≠ opening)
    (hc : token.kind ≠ closing) (h : Balanced opening closing rest) :
    Balanced opening closing (token :: rest) := by
  refine ⟨?_, (staysOpen_cons_other ho hc).mpr h.2⟩
  simp [ho, hc, h.1]

theorem balanced_of_bracketless {tokens : List Token}
    (h : ∀ token ∈ tokens, token.kind ≠ opening ∧ token.kind ≠ closing) :
    Balanced opening closing tokens := by
  induction tokens with
  | nil => exact balanced_nil
  | cons token rest ih =>
    obtain ⟨ho, hc⟩ := h token (by simp)
    exact (ih fun other hm => h other (List.mem_cons_of_mem token hm)).cons_other ho hc

/-- Brackets around balanced tokens. -/
theorem Balanced.enclose (hne : opening ≠ closing) {opener closer : Token} {inside : List Token}
    (ho : opener.kind = opening) (hc : closer.kind = closing)
    (h : Balanced opening closing inside) :
    Balanced opening closing (opener :: (inside ++ [closer])) := by
  constructor
  · simp [ho, hc, hne, hne.symm, h.1]
  · rw [staysOpen_cons_opening hne ho]
    have hlast : StaysOpen opening closing 1 [closer] :=
      (staysOpen_cons_closing hne hc).mpr (staysOpen_nil 0)
    exact (h.2.mono (Nat.zero_le 1)).append hlast (by have := h.1; omega)

theorem closer?_opening (depth : Nat) {token : Token} (rest : List Token)
    (ho : token.kind = opening) :
    closer? opening closing depth (token :: rest) =
      (closer? opening closing (depth + 1) rest).map (· + 1) := by
  cases depth <;> simp [closer?, ho]

theorem closer?_closing_zero (hne : opening ≠ closing) {token : Token} (rest : List Token)
    (hc : token.kind = closing) : closer? opening closing 0 (token :: rest) = some 0 := by
  simp [closer?, hc, hne.symm]

theorem closer?_closing_succ (hne : opening ≠ closing) (depth : Nat) {token : Token}
    (rest : List Token) (hc : token.kind = closing) :
    closer? opening closing (depth + 1) (token :: rest) =
      (closer? opening closing depth rest).map (· + 1) := by
  simp [closer?, hc, hne.symm]

theorem closer?_other (depth : Nat) {token : Token} (rest : List Token)
    (ho : token.kind ≠ opening) (hc : token.kind ≠ closing) :
    closer? opening closing depth (token :: rest) =
      (closer? opening closing depth rest).map (· + 1) := by
  cases depth <;> simp [closer?, ho, hc]

/-- The scan passes over tokens that leave the bracket open, and goes on with the count they
leave. -/
theorem closer?_append (hne : opening ≠ closing) {tokens : List Token} {depth : Nat}
    (h : StaysOpen opening closing depth tokens) (rest : List Token) :
    closer? opening closing depth (tokens ++ rest) =
      (closer? opening closing (depth + kindCount opening tokens - kindCount closing tokens)
        rest).map (· + tokens.length) := by
  induction tokens generalizing depth with
  | nil => simp
  | cons token more ih =>
    rw [List.cons_append]
    by_cases ho : token.kind = opening
    · rw [closer?_opening _ _ ho, ih ((staysOpen_cons_opening hne ho).mp h)]
      simp [ho, hne, Nat.add_assoc, Function.comp_def, Nat.add_comm]
    · by_cases hc : token.kind = closing
      · cases depth with
        | zero => exact absurd h (not_staysOpen_cons_closing hne hc)
        | succ depth =>
          rw [closer?_closing_succ hne _ _ hc, ih ((staysOpen_cons_closing hne hc).mp h)]
          have hd : depth + 1 + kindCount opening (token :: more) -
              kindCount closing (token :: more) =
              depth + kindCount opening more - kindCount closing more := by
            simp [hc, hne.symm]
            omega
          rw [hd]
          simp [Function.comp_def, Nat.add_assoc]
      · rw [closer?_other _ _ ho hc, ih ((staysOpen_cons_other ho hc).mp h)]
        simp [ho, hc, Function.comp_def, Nat.add_assoc]

/-- The scan finds nothing exactly if the bracket stays open. -/
theorem closer?_eq_none_iff (hne : opening ≠ closing) {depth : Nat} {tokens : List Token} :
    closer? opening closing depth tokens = none ↔ StaysOpen opening closing depth tokens := by
  constructor
  · intro h
    induction tokens generalizing depth with
    | nil => exact staysOpen_nil depth
    | cons token more ih =>
      by_cases ho : token.kind = opening
      · rw [closer?_opening _ _ ho, Option.map_eq_none_iff] at h
        exact (staysOpen_cons_opening hne ho).mpr (ih h)
      · by_cases hc : token.kind = closing
        · cases depth with
          | zero => rw [closer?_closing_zero hne _ hc] at h; cases h
          | succ depth =>
            rw [closer?_closing_succ hne _ _ hc, Option.map_eq_none_iff] at h
            exact (staysOpen_cons_closing hne hc).mpr (ih h)
        · rw [closer?_other _ _ ho hc, Option.map_eq_none_iff] at h
          exact (staysOpen_cons_other ho hc).mpr (ih h)
  · intro h
    have ha := closer?_append hne h []
    simpa [closer?] using ha

/-- The token found closes the bracket: it is a closing one, and what stands before it leaves
exactly that bracket open. -/
theorem closer?_sound (hne : opening ≠ closing) {depth count : Nat} {tokens : List Token}
    (h : closer? opening closing depth tokens = some count) :
    ∃ inside closer rest, tokens = inside ++ closer :: rest ∧ inside.length = count ∧
      closer.kind = closing ∧ StaysOpen opening closing depth inside ∧
      kindCount closing inside = kindCount opening inside + depth := by
  induction tokens generalizing depth count with
  | nil => simp [closer?] at h
  | cons token more ih =>
    by_cases ho : token.kind = opening
    · rw [closer?_opening _ _ ho] at h
      obtain ⟨n, hn, rfl⟩ := Option.map_eq_some_iff.mp h
      obtain ⟨inside, closer, rest, rfl, rfl, hk, hs, he⟩ := ih hn
      refine ⟨token :: inside, closer, rest, rfl, rfl, hk,
        (staysOpen_cons_opening hne ho).mpr hs, ?_⟩
      simp [ho, hne, he]
      omega
    · by_cases hc : token.kind = closing
      · cases depth with
        | zero =>
          rw [closer?_closing_zero hne _ hc] at h
          cases h
          exact ⟨[], token, more, rfl, rfl, hc, staysOpen_nil 0, rfl⟩
        | succ depth =>
          rw [closer?_closing_succ hne _ _ hc] at h
          obtain ⟨n, hn, rfl⟩ := Option.map_eq_some_iff.mp h
          obtain ⟨inside, closer, rest, rfl, rfl, hk, hs, he⟩ := ih hn
          refine ⟨token :: inside, closer, rest, rfl, rfl, hk,
            (staysOpen_cons_closing hne hc).mpr hs, ?_⟩
          simp [hc, hne.symm, he]
          omega
      · rw [closer?_other _ _ ho hc] at h
        obtain ⟨n, hn, rfl⟩ := Option.map_eq_some_iff.mp h
        obtain ⟨inside, closer, rest, rfl, rfl, hk, hs, he⟩ := ih hn
        refine ⟨token :: inside, closer, rest, rfl, rfl, hk,
          (staysOpen_cons_other ho hc).mpr hs, ?_⟩
        simp [ho, hc, he]

/-- The bracket opened just before balanced tokens is closed by the first closing bracket after
them. -/
theorem closer?_balanced (hne : opening ≠ closing) {inside rest : List Token} {closer : Token}
    (h : Balanced opening closing inside) (hc : closer.kind = closing) :
    closer? opening closing 0 (inside ++ closer :: rest) = some inside.length := by
  rw [closer?_append hne h.2, h.1, Nat.zero_add, Nat.sub_self, closer?_closing_zero hne _ hc]
  simp

/-- The scan ends at a closer exactly if balanced tokens stand before it. -/
theorem closer?_eq_some_iff (hne : opening ≠ closing) {count : Nat} {tokens : List Token} :
    closer? opening closing 0 tokens = some count ↔
      ∃ inside closer rest, tokens = inside ++ closer :: rest ∧ inside.length = count ∧
        closer.kind = closing ∧ Balanced opening closing inside := by
  constructor
  · intro h
    obtain ⟨inside, closer, rest, ht, hl, hk, hs, he⟩ := closer?_sound hne h
    exact ⟨inside, closer, rest, ht, hl, hk, he, hs⟩
  · rintro ⟨inside, closer, rest, rfl, rfl, hk, hb⟩
    exact closer?_balanced hne hb hk

end

/-! ## Where operands end -/

theorem primaryEnd?_group {opening : Token} (rest : List Token) (h : opening.kind = .openParen) :
    primaryEnd? (opening :: rest) = (parenCloser? rest).map (· + 2) := by
  simp [primaryEnd?, h]

theorem primaryEnd?_call {callee opening : Token} (rest : List Token)
    (hn : callee.kind = .identifier) (ho : opening.kind = .openParen) :
    primaryEnd? (callee :: opening :: rest) = (parenCloser? rest).map (· + 3) := by
  simp [primaryEnd?, hn, startsWith, ho]

/-- The ways in which an operand may begin, with its end where no bracket decides it. -/
inductive OperandStart : List Token → Prop
  | nothing : OperandStart []
  | group {opening rest} : opening.kind = .openParen → OperandStart (opening :: rest)
  | call {callee opening rest} : callee.kind = .identifier → opening.kind = .openParen →
      OperandStart (callee :: opening :: rest)
  | plain {first rest} :
      primaryEnd? (first :: rest) = some ((first :: rest).takeWhile isOperand).length →
      OperandStart (first :: rest)

theorem operandStart (tokens : List Token) : OperandStart tokens := by
  cases tokens with
  | nil => exact .nothing
  | cons first rest =>
    by_cases hg : first.kind = .openParen
    · exact .group hg
    · by_cases hc : first.kind = .identifier ∧ startsWith .openParen rest = true
      · cases rest with
        | nil => cases hc.2
        | cons opening rest => exact .call hc.1 (by simpa [startsWith] using hc.2)
      · exact .plain (by simp [primaryEnd?, hg, hc])

end FrontEnd.Reading
