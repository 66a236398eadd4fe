import Mathlib
import FrontEnd.Proofs.Checked

/-! # Where brackets are closed

The search for the token that closes a bracket keeps a depth. Here its result is said by counts
alone: it is the first position through which as many brackets of the kind are closed as opened. Up
to there more of them are opened than closed, so the depth is above zero before each step, and there
is nothing that it could miss: without such a position the bracket stays open as far as the search
goes. Brackets of the other kind count for nothing, also where they cross the ones that count. -/
namespace FrontEnd

/-- A bracket that opens, and the one that closes it. -/
inductive TokenKind.IsPair : TokenKind → TokenKind → Prop
  | parens : IsPair .openParen .closeParen
  | curlies : IsPair .openCurly .closeCurly

theorem TokenKind.closing?_eq_some_iff {opens closes : TokenKind} :
    opens.closing? = some closes ↔ opens.IsPair closes := by
  constructor
  · intro h
    cases opens <;> cases h
    · exact .parens
    · exact .curlies
  · intro h
    cases h <;> rfl

theorem TokenKind.IsPair.ne {opens closes : TokenKind} (h : opens.IsPair closes) :
    opens ≠ closes := by
  cases h <;> decide

namespace Buffer

def kind? (buffer : Buffer) (position : Nat) : Option TokenKind :=
  (buffer.token? position).map Token.kind

def countThrough (buffer : Buffer) (kind : TokenKind) (first last : Nat) : Nat :=
  Reading.kindCount kind (buffer.slice first (last + 1))

/-- A position behind the opening bracket and before the bound, through which as many brackets are
closed as opened. -/
structure LevelAt (buffer : Buffer) (opens closes : TokenKind) (opening bound last : Nat) :
    Prop where
  behind : opening < last
  before : last < min bound buffer.size
  level : buffer.countThrough opens opening last = buffer.countThrough closes opening last

/-- From the opening bracket through each position before `stop` more brackets are opened than
closed. -/
def OpenUpTo (buffer : Buffer) (opens closes : TokenKind) (opening stop : Nat) : Prop :=
  ∀ last, opening ≤ last → last < stop →
    buffer.countThrough closes opening last < buffer.countThrough opens opening last

section
variable {buffer : Buffer} {opens closes : TokenKind} {opening bound : Nat}

/-- The search looks at the tokens behind the opening bracket. -/
theorem closer?_eq_map (hk : buffer.kind? opening = some opens) (hp : opens.IsPair closes) :
    buffer.closer? opening bound =
      (Reading.closer? opens closes 0 (buffer.slice (opening + 1) bound)).map
        (opening + 1 + ·) := by
  obtain ⟨token, ht, rfl⟩ := Option.map_eq_some_iff.mp hk
  rw [closer?, ht]
  simp only [Option.bind_eq_bind, Option.bind_some, TokenKind.closing?_eq_some_iff.mpr hp]
  cases Reading.closer? token.kind closes 0 (buffer.slice (opening + 1) bound) <;> rfl

/-- A search that finds a token began at an opening bracket. -/
theorem exists_pair_of_closer? {close : Nat} (h : buffer.closer? opening bound = some close) :
    ∃ opens closes, opens.IsPair closes ∧ buffer.kind? opening = some opens := by
  simp only [closer?, Option.bind_eq_bind, Option.bind_eq_some_iff] at h
  obtain ⟨token, ht, closes, hc, -⟩ := h
  exact ⟨token.kind, closes, TokenKind.closing?_eq_some_iff.mp hc, by rw [kind?, ht]; rfl⟩

/-- The tokens from the bracket through a position, as the search has them. -/
theorem slice_through {token : Token} (ht : buffer.token? opening = some token) {last : Nat}
    (hl : opening ≤ last) (hb : last < min bound buffer.size) :
    buffer.slice opening (last + 1) =
      token :: (buffer.slice (opening + 1) bound).take (last - opening) := by
  have hwindow := buffer.window (show opening + 1 ≤ min bound buffer.size by omega)
    (Nat.min_le_right bound buffer.size)
  have hlength := hwindow.length_eq
  have htake := hwindow.take
    (show last - opening ≤ (buffer.slice (opening + 1) (min bound buffer.size)).length by omega)
  have hstop : opening + 1 + (last - opening) = last + 1 := by omega
  rw [slice_cons ht (show opening < last + 1 by omega), ← hstop, htake.slice_eq, slice_min]

/-- Before the bound the opening bracket counts as one that is opened, and not as one that is
closed. -/
theorem countThrough_eq (hk : buffer.kind? opening = some opens) (hp : opens.IsPair closes)
    {last : Nat} (hl : opening ≤ last) (hb : last < min bound buffer.size) :
    buffer.countThrough opens opening last = Reading.kindCount opens
        ((buffer.slice (opening + 1) bound).take (last - opening)) + 1 ∧
      buffer.countThrough closes opening last = Reading.kindCount closes
        ((buffer.slice (opening + 1) bound).take (last - opening)) := by
  obtain ⟨token, ht, rfl⟩ := Option.map_eq_some_iff.mp hk
  rw [countThrough, countThrough, slice_through ht hl hb]
  simp [hp.ne]

/-- One position more counts the token that stands there. -/
theorem countThrough_succ {last : Nat} {token : Token} (hl : opening ≤ last)
    (ht : buffer.token? (last + 1) = some token) (kind : TokenKind) :
    buffer.countThrough kind opening (last + 1) =
      buffer.countThrough kind opening last + if token.kind = kind then 1 else 0 := by
  have hsize : last + 1 < buffer.size := (List.getElem?_eq_some_iff.mp ht).1
  rw [countThrough, buffer.slice_append (show opening ≤ last + 1 by omega) (Nat.le_succ _) hsize,
    slice_single ht]
  simp [countThrough]

/-- As long as no closing bracket behind the opening one comes too early, that one is open. -/
theorem openUpTo_of_staysOpen (hk : buffer.kind? opening = some opens) (hp : opens.IsPair closes)
    {front : List Token} (hf : front <+: buffer.slice (opening + 1) bound)
    (hopen : Reading.StaysOpen opens closes 0 front) {stop : Nat}
    (hs : stop ≤ opening + 1 + front.length) (hb : stop ≤ min bound buffer.size) :
    buffer.OpenUpTo opens closes opening stop := by
  intro last hl hlast
  obtain ⟨hopens, hcloses⟩ := countThrough_eq hk hp hl (Nat.lt_of_lt_of_le hlast hb)
  have hprefix : (buffer.slice (opening + 1) bound).take (last - opening) <+: front := by
    refine List.prefix_of_prefix_length_le (List.take_prefix _ _) hf ?_
    rw [List.length_take]
    omega
  have hcount := hopen _ hprefix
  omega

theorem OpenUpTo.not_levelAt {stop : Nat} (h : buffer.OpenUpTo opens closes opening stop)
    {last : Nat} (hl : last < stop) : ¬ buffer.LevelAt opens closes opening bound last := by
  intro hlevel
  have hopen := h last (Nat.le_of_lt hlevel.behind) hl
  rw [hlevel.level] at hopen
  exact Nat.lt_irrefl _ hopen

/-- The token found closes a bracket; through it the counts are level, and before it they are
not. -/
theorem closer?_levels (hk : buffer.kind? opening = some opens) (hp : opens.IsPair closes)
    {close : Nat} (h : buffer.closer? opening bound = some close) :
    buffer.kind? close = some closes ∧ buffer.LevelAt opens closes opening bound close ∧
      buffer.OpenUpTo opens closes opening close := by
  rw [closer?_eq_map hk hp] at h
  obtain ⟨count, hcount, rfl⟩ := Option.map_eq_some_iff.mp h
  have hin : opening + 1 + count < min bound buffer.size := by
    have hlt := Reading.closer?_lt hcount
    rw [slice, List.length_drop, List.length_take] at hlt
    rw [size]
    omega
  obtain ⟨front, closer, rest, hsplit, rfl, hkind, hbalanced⟩ :=
    (Reading.closer?_eq_some_iff hp.ne).mp hcount
  have hwindow := buffer.window (show opening + 1 ≤ min bound buffer.size by omega)
    (Nat.min_le_right bound buffer.size)
  rw [slice_min, hsplit] at hwindow
  have hcloser := hwindow.drop (show front.length ≤ (front ++ closer :: rest).length by simp)
  rw [List.drop_left] at hcloser
  have hthrough : opening + 1 + front.length - opening = front.length + 1 := by omega
  have htake : (buffer.slice (opening + 1) bound).take (front.length + 1) = front ++ [closer] := by
    rw [hsplit, List.take_length_add_append, List.take_one, List.head?_cons, Option.toList_some]
  refine ⟨?_, ⟨by omega, hin, ?_⟩, ?_⟩
  · rw [kind?, hcloser.token?_eq, Option.map_some, hkind]
  · obtain ⟨hopens, hcloses⟩ := countThrough_eq hk hp (show opening ≤ _ by omega) hin
    rw [hopens, hcloses, hthrough, htake]
    simp [hkind, hp.ne.symm, hbalanced.1]
  · have hfront : front <+: buffer.slice (opening + 1) bound := ⟨closer :: rest, hsplit.symm⟩
    exact openUpTo_of_staysOpen hk hp hfront hbalanced.2 (Nat.le_refl _) (Nat.le_of_lt hin)

/-- The search finds nothing exactly if the bracket is open up to the bound. -/
theorem closer?_eq_none_iff_openUpTo (hk : buffer.kind? opening = some opens)
    (hp : opens.IsPair closes) :
    buffer.closer? opening bound = none ↔
      buffer.OpenUpTo opens closes opening (min bound buffer.size) := by
  constructor
  · intro h
    rw [closer?_eq_map hk hp, Option.map_eq_none_iff, Reading.closer?_eq_none_iff hp.ne] at h
    refine openUpTo_of_staysOpen hk hp (List.prefix_refl _) h ?_ (Nat.le_refl _)
    rw [slice, List.length_drop, List.length_take, size]
    omega
  · intro hopen
    cases h : buffer.closer? opening bound with
    | none => rfl
    | some close =>
      obtain ⟨-, hlevel, -⟩ := closer?_levels hk hp h
      exact absurd hlevel (hopen.not_levelAt hlevel.before)

/-- The search finds the first position through which the counts are level. -/
theorem closer?_eq_some_iff_isLeast (hk : buffer.kind? opening = some opens)
    (hp : opens.IsPair closes) {close : Nat} :
    buffer.closer? opening bound = some close ↔
      IsLeast {last | buffer.LevelAt opens closes opening bound last} close := by
  have hleast {found : Nat} (h : buffer.closer? opening bound = some found) :
      IsLeast {last | buffer.LevelAt opens closes opening bound last} found := by
    obtain ⟨-, hlevel, hopen⟩ := closer?_levels hk hp h
    exact ⟨hlevel, fun other ho => Nat.le_of_not_lt fun hlt => hopen.not_levelAt hlt ho⟩
  refine ⟨hleast, fun h => ?_⟩
  cases hfound : buffer.closer? opening bound with
  | none =>
    have hopen := (closer?_eq_none_iff_openUpTo hk hp).mp hfound
    exact absurd h.1 (hopen.not_levelAt h.1.before)
  | some found => rw [(hleast hfound).unique h]

end
end Buffer

/-! ## The depth -/

namespace Checked
variable {buffer : Buffer} {opens closes : TokenKind} {opening bound : Nat}

/-- One step of the search: an opening bracket counts up, and a closing one down if there is
something to count down from. -/
theorem closerFrom_step {position : Nat} {token : Token}
    (ht : buffer.token? position = some token) (hne : opens ≠ closes) {depth : Nat}
    (hd : token.kind = closes → 0 < depth) (count : Nat) :
    closerFrom buffer opens closes (count + 1) depth position =
      if depth + (if token.kind = opens then 1 else 0) = (if token.kind = closes then 1 else 0) then
        .ok (some position)
      else closerFrom buffer opens closes count
        (depth + (if token.kind = opens then 1 else 0) - if token.kind = closes then 1 else 0)
        (position + 1) := by
  rw [closerFrom, fetch, ht, ok_bind]
  by_cases ho : token.kind = opens
  · have hc : token.kind ≠ closes := ho ▸ hne
    simp [ho, hne]
  · by_cases hc : token.kind = closes
    · obtain ⟨depth, rfl⟩ := Nat.exists_eq_add_of_lt (hd hc)
      simp [hc, hne.symm, before]
    · simp [ho, hc]

/-- As long as the bracket is open, the depth is what is opened less what is closed. -/
theorem closer_depth (hk : buffer.kind? opening = some opens) (hp : opens.IsPair closes)
    {last : Nat} (hl : opening ≤ last) (hb : last < min bound buffer.size)
    (hopen : buffer.OpenUpTo opens closes opening (last + 1)) :
    closer buffer opening bound =
      closerFrom buffer opens closes (min bound buffer.size - (last + 1))
        (buffer.countThrough opens opening last - buffer.countThrough closes opening last)
        (last + 1) := by
  induction last, hl using Nat.le_induction with
  | base =>
    obtain ⟨hopens, hcloses⟩ := Buffer.countThrough_eq hk hp (Nat.le_refl opening) hb
    obtain ⟨token, ht, rfl⟩ := Option.map_eq_some_iff.mp hk
    have hcount : min bound buffer.size - opening = min bound buffer.size - (opening + 1) + 1 := by
      omega
    simp only [closer, ht, TokenKind.closing?_eq_some_iff.mpr hp]
    rw [hcount, closerFrom_step ht hp.ne fun hc => absurd hc hp.ne]
    simp [hopens, hcloses, hp.ne]
  | succ last hl ih =>
    obtain ⟨token, ht⟩ : ∃ token, buffer.token? (last + 1) = some token :=
      ⟨_, List.getElem?_eq_getElem (show last + 1 < buffer.tokens.length by
        have hsize : buffer.size = buffer.tokens.length := rfl
        omega)⟩
    have hcount : min bound buffer.size - (last + 1) =
        min bound buffer.size - (last + 1 + 1) + 1 := by omega
    have hbefore := hopen last hl (by omega)
    have hthrough := hopen (last + 1) (by omega) (by omega)
    rw [ih (by omega) fun position hp hlt => hopen position hp (by omega), hcount,
      closerFrom_step ht hp.ne fun _ => Nat.sub_pos_of_lt hbefore]
    rw [Buffer.countThrough_succ hl ht, Buffer.countThrough_succ hl ht] at hthrough ⊢
    rw [if_neg (by omega)]
    congr 1
    omega

end Checked

/-- The search for the token that closes a bracket, from any position up to any bound, finds the
least position through which as many brackets of the kind are closed as opened; there the closing
one stands, and through every position before it more are opened than closed. It finds nothing
exactly if no bracket opens at its start or that one is open up to the bound. Its depth is never
counted below zero: it is what is opened less what is closed, as long as the bracket is open. -/
theorem Buffer.closer?_exact (buffer : Buffer) (opening bound : Nat) :
    (∀ close, buffer.closer? opening bound = some close ↔
        ∃ opens closes, TokenKind.IsPair opens closes ∧ buffer.kind? opening = some opens ∧
          IsLeast {last | buffer.LevelAt opens closes opening bound last} close) ∧
      (∀ close opens closes, buffer.closer? opening bound = some close →
        TokenKind.IsPair opens closes → buffer.kind? opening = some opens →
        buffer.kind? close = some closes ∧ buffer.OpenUpTo opens closes opening close) ∧
      (buffer.closer? opening bound = none ↔
        ∀ opens closes, TokenKind.IsPair opens closes → buffer.kind? opening = some opens →
          buffer.OpenUpTo opens closes opening (min bound buffer.size)) ∧
      Checked.closer buffer opening bound = .ok (buffer.closer? opening bound) ∧
      ∀ opens closes last, TokenKind.IsPair opens closes → buffer.kind? opening = some opens →
        opening ≤ last → last < min bound buffer.size →
        buffer.OpenUpTo opens closes opening (last + 1) →
        Checked.closer buffer opening bound =
          Checked.closerFrom buffer opens closes (min bound buffer.size - (last + 1))
            (buffer.countThrough opens opening last - buffer.countThrough closes opening last)
            (last + 1) := by
  refine ⟨fun close => ⟨fun h => ?_, ?_⟩, ?_, ⟨?_, ?_⟩, Checked.closer_eq buffer opening bound, ?_⟩
  · obtain ⟨opens, closes, hp, hk⟩ := exists_pair_of_closer? h
    exact ⟨opens, closes, hp, hk, (closer?_eq_some_iff_isLeast hk hp).mp h⟩
  · rintro ⟨opens, closes, hp, hk, hleast⟩
    exact (closer?_eq_some_iff_isLeast hk hp).mpr hleast
  · intro close opens closes h hp hk
    obtain ⟨hclose, -, hopen⟩ := closer?_levels hk hp h
    exact ⟨hclose, hopen⟩
  · intro h opens closes hp hk
    exact (closer?_eq_none_iff_openUpTo hk hp).mp h
  · intro hopen
    cases h : buffer.closer? opening bound with
    | none => rfl
    | some close =>
      obtain ⟨opens, closes, hp, hk⟩ := exists_pair_of_closer? h
      rw [(closer?_eq_none_iff_openUpTo hk hp).mpr (hopen opens closes hp hk)] at h
      cases h
  · intro opens closes last hp hk hl hb hopen
    exact Checked.closer_depth hk hp hl hb hopen

/-- The tokens `x ( { ( ) ( } ) ) )`, where braces cross parentheses. -/
def Buffer.crossing : Buffer where
  tokens := [⟨.identifier, "x", ⟨1, 0, 1⟩⟩, ⟨.openParen, "(", ⟨1, 2, 3⟩⟩,
    ⟨.openCurly, "\x7b", ⟨1, 4, 5⟩⟩, ⟨.openParen, "(", ⟨1, 6, 7⟩⟩, ⟨.closeParen, ")", ⟨1, 8, 9⟩⟩,
    ⟨.openParen, "(", ⟨1, 10, 11⟩⟩, ⟨.closeCurly, "\x7d", ⟨1, 12, 13⟩⟩,
    ⟨.closeParen, ")", ⟨1, 14, 15⟩⟩, ⟨.closeParen, ")", ⟨1, 16, 17⟩⟩,
    ⟨.closeParen, ")", ⟨1, 18, 19⟩⟩]

/-- The outer parenthesis is closed at position 8, and so not if the search ends there. Behind
position 5 it is one of two that are open. -/
theorem Buffer.closer?_exact_crossing :
    crossing.closer? 1 99 = some 8 ∧ crossing.kind? 8 = some .closeParen ∧
      IsLeast {last | crossing.LevelAt .openParen .closeParen 1 99 last} 8 ∧
      crossing.OpenUpTo .openParen .closeParen 1 8 ∧ crossing.closer? 1 8 = none ∧
      Checked.closer crossing 1 99 =
        Checked.closerFrom crossing .openParen .closeParen 4 2 6 ∧
      crossing.closer? 0 99 = none ∧ crossing.closer? 2 99 = some 6 := by
  obtain ⟨hfound, hbefore, -, -, hdepth⟩ := Buffer.closer?_exact crossing 1 99
  obtain ⟨-, -, hnone, -, -⟩ := Buffer.closer?_exact crossing 1 8
  have hclose : crossing.closer? 1 99 = some 8 := by decide
  obtain ⟨hkind, hopen⟩ := hbefore 8 .openParen .closeParen hclose .parens rfl
  have htwo := hdepth .openParen .closeParen 5 .parens rfl (by decide) (by decide)
    fun last hl hlt => hopen last hl (by omega)
  obtain ⟨opens, closes, hp, hk, hleast⟩ := (hfound 8).mp hclose
  cases hp with
  | parens =>
    refine ⟨hclose, hkind, hleast, hopen, hnone.mpr fun opens closes hp hk => ?_, htwo, by decide,
      by decide⟩
    cases hp with
    | parens => exact hopen
    | curlies => cases hk
  | curlies => cases hk

end FrontEnd
