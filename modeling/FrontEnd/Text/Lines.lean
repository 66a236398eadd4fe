/-! # Lines of a text

A line ends at a line feed, and a carriage return directly before that line feed is part of the
line break. What follows the last line feed is a line only if it is not empty, so a text that
ends in a line break has no empty last line. -/
namespace FrontEnd.Text

def lines : List Char → List (List Char)
  | [] => []
  | c :: rest =>
    if c = '\n' then [] :: lines rest
    else if c = '\r' ∧ rest.head? = some '\n' then lines rest
    else match lines rest with
      | [] => [[c]]
      | line :: more => (c :: line) :: more

def line? (source : String) (number : Nat) : Option String :=
  match number with
  | 0 => none
  | index + 1 => ((lines source.toList)[index]?).map String.ofList

theorem line?_eq_some {source line : String} {number : Nat} :
    line? source number = some line ↔
      ∃ index text, number = index + 1 ∧ (lines source.toList)[index]? = some text ∧
        line = String.ofList text := by
  cases number with
  | zero => simp [line?]
  | succ index =>
    simp only [line?, Option.map_eq_some_iff, Nat.add_right_cancel_iff]
    constructor
    · rintro ⟨text, ht, rfl⟩
      exact ⟨index, text, rfl, ht, rfl⟩
    · rintro ⟨_, text, rfl, ht, rfl⟩
      exact ⟨text, ht, rfl⟩

/-- Unicode's `White_Space` property. -/
def isBlank (c : Char) : Bool :=
  let n := c.toNat
  (9 ≤ n && n ≤ 13) || n == 0x20 || n == 0x85 || n == 0xA0 || n == 0x1680 ||
    (0x2000 ≤ n && n ≤ 0x200A) || n == 0x2028 || n == 0x2029 || n == 0x202F ||
    n == 0x205F || n == 0x3000

def trimEnd (text : String) : String :=
  String.ofList (text.toList.reverse.dropWhile isBlank).reverse

/-- The text from byte `offset` on, in UTF-8. There is none if the offset lies past the end or
inside a character. -/
def dropBytes : Nat → List Char → Option (List Char)
  | 0, text => some text
  | _ + 1, [] => none
  | offset + 1, c :: rest =>
    if c.utf8Size ≤ offset + 1 then dropBytes (offset + 1 - c.utf8Size) rest else none

theorem byteSize_cons (c : Char) (text : List Char) :
    (String.ofList (c :: text)).utf8ByteSize =
      c.utf8Size + (String.ofList text).utf8ByteSize := by
  rw [String.ofList_cons, String.utf8ByteSize_append, String.utf8ByteSize_singleton]

theorem byteSize_append (text rest : List Char) :
    (String.ofList (text ++ rest)).utf8ByteSize =
      (String.ofList text).utf8ByteSize + (String.ofList rest).utf8ByteSize := by
  rw [String.ofList_append, String.utf8ByteSize_append]

theorem byteSize_of_single {text : List Char} (h : ∀ c ∈ text, c.utf8Size = 1) :
    (String.ofList text).utf8ByteSize = text.length := by
  induction text with
  | nil => rfl
  | cons c rest ih =>
    obtain ⟨hc, hrest⟩ := List.forall_mem_cons.mp h
    rw [byteSize_cons, hc, ih hrest, List.length_cons, Nat.add_comm]

/-- What begins at a byte offset is what follows a part of that many bytes. -/
theorem dropBytes_eq_some {offset : Nat} {text rest : List Char} :
    dropBytes offset text = some rest ↔
      ∃ front, text = front ++ rest ∧ (String.ofList front).utf8ByteSize = offset := by
  constructor
  · intro h
    fun_induction dropBytes offset text with
    | case1 text => cases h; exact ⟨[], rfl, rfl⟩
    | case2 offset => cases h
    | case3 offset c more hc ih =>
      obtain ⟨front, rfl, hf⟩ := ih h
      refine ⟨c :: front, rfl, ?_⟩
      rw [byteSize_cons, hf]
      omega
    | case4 offset c more hc => cases h
  · rintro ⟨front, rfl, rfl⟩
    induction front with
    | nil => simp [dropBytes]
    | cons c front ih =>
      obtain ⟨n, hn⟩ := Nat.exists_eq_succ_of_ne_zero (Nat.ne_of_gt c.utf8Size_pos)
      have hrest : n + (String.ofList front).utf8ByteSize + 1 - c.utf8Size =
          (String.ofList front).utf8ByteSize := by omega
      rw [byteSize_cons, List.cons_append, hn, Nat.succ_add, dropBytes, if_pos (by omega), hrest, ih]

end FrontEnd.Text
