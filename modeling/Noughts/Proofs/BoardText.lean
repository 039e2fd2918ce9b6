import Noughts.Board.Text

/-!
# Reading boards and writing them

The digit form of a board is read back by `Board.parse`.  Which texts it reads is said here without
the reader: nine digits `0`, `1`, `2` with nothing but blanks around them (`Board.Spelled`).  Which
characters are blank is a matter of `Text.isBlank` alone, and no digit is one of them, so stripping
leaves the digits of a board (`Board.strip_map_digitOf`).

* `Board.toList_digits`: a board of pieces is written with one digit for each cell.
* `Board.ofDigits?_eq_some_iff`: nine digits are read as a board just if they are how it is written.
* `Board.parse_eq_ok_iff`: so a text is read as a board just if it is the board's digits between
  blanks.
* `parse_spelled`: what follows from this for reading and for writing.
-/

set_option autoImplicit false

namespace Noughts

namespace Board

/-! ## The grammar -/

/-- One of the three digits of a board. -/
def IsDigit (c : Char) : Prop :=
  c = '0' ∨ c = '1' ∨ c = '2'

/-- The text is nine digits between blanks. -/
def Spelled (s : String) : Prop :=
  ∃ u ds v : String, s = u ++ ds ++ v ∧ Text.Blank u.toList ∧ Text.Blank v.toList
    ∧ ds.length = 9 ∧ ∀ c ∈ ds.toList, IsDigit c

/-- What stands on the cell is not a foreign piece. -/
def IsPiece (c : Cell) : Prop :=
  c = Cell.empty ∨ c = Cell.cross ∨ c = Cell.nought

/-- There are no foreign pieces on the board. -/
def Pieces (b : Board) : Prop :=
  ∀ c ∈ b, IsPiece c

instance (c : Cell) : Decidable (IsPiece c) :=
  inferInstanceAs (Decidable (c = Cell.empty ∨ c = Cell.cross ∨ c = Cell.nought))

instance (b : Board) : Decidable b.Pieces :=
  List.decidableBAll IsPiece b

theorem isBlank_of_isDigit {c : Char} (h : IsDigit c) : Text.isBlank c = false := by
  rcases h with rfl | rfl | rfl <;> rfl

/-! ## Writing -/

/-- The digit that stands for a piece. -/
def digitOf (c : Cell) : Char :=
  if c = Cell.empty then '0' else if c = Cell.cross then '1' else '2'

theorem isDigit_digitOf (c : Cell) : IsDigit (digitOf c) := by
  rw [digitOf]
  split
  · exact Or.inl rfl
  · split
    · exact Or.inr (Or.inl rfl)
    · exact Or.inr (Or.inr rfl)

/-- **A board of pieces is written with one digit for each cell.** -/
theorem toList_digits {b : Board} (h : b.Pieces) : b.digits.toList = b.map digitOf := by
  rw [digits, String.toList_join]
  induction b with
  | nil => rfl
  | cons c rest ih =>
    have hdigit : (toString c).toList = [digitOf c] := by
      rcases h c List.mem_cons_self with rfl | rfl | rfl <;> rfl
    rw [List.map_cons, List.flatMap_cons, hdigit, ih fun d hd => h d (List.mem_cons_of_mem _ hd),
      List.map_cons, List.singleton_append]

/-! ## Reading -/

theorem cellOfDigit?_eq_some_iff {d : Char} {c : Cell} :
    cellOfDigit? d = some c ↔ IsPiece c ∧ d = digitOf c := by
  constructor
  · intro h
    rw [cellOfDigit?.eq_def] at h
    split at h <;> cases h
    · exact ⟨Or.inl rfl, rfl⟩
    · exact ⟨Or.inr (Or.inl rfl), rfl⟩
    · exact ⟨Or.inr (Or.inr rfl), rfl⟩
  · rintro ⟨rfl | rfl | rfl, rfl⟩ <;> rfl

/-- **Digits are read as the cells that they are written for.** -/
theorem mapM_cellOfDigit?_eq_some_iff {cs : List Char} {b : Board} :
    cs.mapM cellOfDigit? = some b ↔ b.Pieces ∧ cs = b.map digitOf := by
  induction cs generalizing b with
  | nil =>
    rw [List.mapM_nil]
    constructor
    · rintro ⟨⟩
      exact ⟨nofun, rfl⟩
    · rintro ⟨-, h⟩
      rw [List.map_eq_nil_iff.mp h.symm]
      rfl
  | cons d rest ih =>
    constructor
    · intro h
      simp only [List.mapM_cons, Option.bind_eq_bind, Option.bind_eq_some_iff, Option.pure_def,
        Option.some.injEq] at h
      obtain ⟨c, hc, b', hb', rfl⟩ := h
      obtain ⟨hpiece, rfl⟩ := cellOfDigit?_eq_some_iff.mp hc
      obtain ⟨hpieces, rfl⟩ := ih.mp hb'
      exact ⟨List.forall_mem_cons.mpr ⟨hpiece, hpieces⟩, rfl⟩
    · rintro ⟨hpieces, h⟩
      cases b with
      | nil => cases h
      | cons c b' =>
        obtain ⟨hpiece, hpieces⟩ := List.forall_mem_cons.mp hpieces
        obtain ⟨rfl, rfl⟩ := List.cons.inj h
        rw [List.mapM_cons, cellOfDigit?_eq_some_iff.mpr ⟨hpiece, rfl⟩, ih.mpr ⟨hpieces, rfl⟩]
        rfl

theorem ofDigits?_eq_some_iff {cs : List Char} {b : Board} :
    ofDigits? cs = some b ↔ b.length = 9 ∧ b.Pieces ∧ cs = b.map digitOf := by
  rw [ofDigits?]
  split
  · next hlength =>
    rw [mapM_cellOfDigit?_eq_some_iff]
    refine (and_iff_right_of_imp ?_).symm
    rintro ⟨-, rfl⟩
    rwa [List.length_map] at hlength
  · next hlength =>
    refine iff_of_false nofun ?_
    rintro ⟨hb, -, rfl⟩
    rw [List.length_map] at hlength
    exact hlength hb

theorem parse_eq_ok {s : String} {b : Board} :
    parse s = .ok b ↔ ofDigits? (Text.strip s.toList) = some b := by
  rw [parse]
  cases ofDigits? (Text.strip s.toList) <;> simp

/-- A text that is not read is malformed. -/
theorem parse_eq_error {s : String} (h : ¬ ∃ b, parse s = .ok b) : parse s = .error .malformed := by
  cases hs : parse s with
  | ok b => exact absurd ⟨b, hs⟩ h
  | error e =>
    rw [parse] at hs
    cases hd : ofDigits? (Text.strip s.toList) with
    | some b => simp [hd] at hs
    | none => simpa [hd] using hs.symm

/-! ## Blanks around digits -/

/-- Stripping leaves the digits. -/
theorem strip_map_digitOf (b : Board) : Text.strip (b.map digitOf) = b.map digitOf := by
  refine Text.strip_eq_self ?_
  intro d hd
  obtain ⟨c, -, rfl⟩ := List.mem_map.mp hd
  exact isBlank_of_isDigit (isDigit_digitOf c)

/-- **A text is read as a board of nine cells just if it is the board's digits between blanks.** -/
theorem parse_eq_ok_iff {s : String} {b : Board} :
    parse s = .ok b ↔ b.length = 9 ∧ b.Pieces ∧ ∃ u v : String,
      Text.Blank u.toList ∧ Text.Blank v.toList ∧ s = u ++ b.digits ++ v := by
  rw [parse_eq_ok, ofDigits?_eq_some_iff]
  refine and_congr_right fun _ => and_congr_right fun hpieces => ?_
  constructor
  · intro h
    obtain ⟨u, v, hu, hv, hs⟩ := Text.exists_strip s.toList
    refine ⟨.ofList u, .ofList v, by rwa [String.toList_ofList], by rwa [String.toList_ofList], ?_⟩
    refine String.toList_injective ?_
    rw [String.toList_append, String.toList_append, String.toList_ofList, String.toList_ofList,
      toList_digits hpieces, ← h, ← hs]
  · rintro ⟨u, v, hu, hv, rfl⟩
    rw [String.toList_append, String.toList_append, Text.strip_append hu hv, toList_digits hpieces,
      strip_map_digitOf]

/-- Digits are how some board is written. -/
theorem exists_map_digitOf {cs : List Char} (h : ∀ c ∈ cs, IsDigit c) :
    ∃ b : Board, b.Pieces ∧ b.map digitOf = cs := by
  induction cs with
  | nil => exact ⟨[], nofun, rfl⟩
  | cons d rest ih =>
    obtain ⟨hd, hrest⟩ := List.forall_mem_cons.mp h
    obtain ⟨b, hb, rfl⟩ := ih hrest
    obtain ⟨c, hc, rfl⟩ : ∃ c, IsPiece c ∧ digitOf c = d := by
      rcases hd with rfl | rfl | rfl
      · exact ⟨Cell.empty, Or.inl rfl, rfl⟩
      · exact ⟨Cell.cross, Or.inr (Or.inl rfl), rfl⟩
      · exact ⟨Cell.nought, Or.inr (Or.inr rfl), rfl⟩
    exact ⟨c :: b, List.forall_mem_cons.mpr ⟨hc, hb⟩, rfl⟩

/-- **The texts that are read are the ones that are spelled right.** -/
theorem exists_parse_iff {s : String} : (∃ b, parse s = .ok b) ↔ Spelled s := by
  constructor
  · rintro ⟨b, h⟩
    obtain ⟨hlength, hpieces, u, v, hu, hv, rfl⟩ := parse_eq_ok_iff.mp h
    refine ⟨u, b.digits, v, rfl, hu, hv, ?_, ?_⟩
    · rw [← String.length_toList, toList_digits hpieces, List.length_map, hlength]
    · intro d hd
      rw [toList_digits hpieces] at hd
      obtain ⟨c, -, rfl⟩ := List.mem_map.mp hd
      exact isDigit_digitOf c
  · rintro ⟨u, ds, v, rfl, hu, hv, hlength, hdigits⟩
    obtain ⟨b, hpieces, hb⟩ := exists_map_digitOf hdigits
    obtain rfl : b.digits = ds := String.toList_injective ((toList_digits hpieces).trans hb)
    rw [← String.length_toList, toList_digits hpieces, List.length_map] at hlength
    exact ⟨b, parse_eq_ok_iff.mpr ⟨hlength, hpieces, u, v, hu, hv, rfl⟩⟩

/-- What is read is written as the text was, without the blanks around it. -/
theorem digits_of_parse {s : String} {b : Board} (h : parse s = .ok b) :
    b.digits = Text.trim s := by
  obtain ⟨-, hpieces, u, v, hu, hv, rfl⟩ := parse_eq_ok_iff.mp h
  refine String.toList_injective ?_
  rw [Text.trim, String.toList_ofList, String.toList_append, String.toList_append,
    Text.strip_append hu hv, toList_digits hpieces, strip_map_digitOf]

/-- A board of another length is written, but not read back. -/
theorem parse_digits_of_length_ne {b : Board} (hpieces : b.Pieces) (h : b.length ≠ 9) :
    parse b.digits = .error .malformed := by
  refine parse_eq_error ?_
  rintro ⟨b', hb'⟩
  rw [parse_eq_ok, toList_digits hpieces, strip_map_digitOf, ofDigits?_eq_some_iff] at hb'
  obtain ⟨hlength, -, heq⟩ := hb'
  have hsame := congrArg List.length heq
  rw [List.length_map, List.length_map] at hsame
  exact h (hsame.trans hlength)

end Board

/-! ## Conclusion -/

/-- **The reader of boards accepts exactly its grammar and undoes the writer.**  A text is read just
if it is nine digits between blanks, and is malformed otherwise; the board that is read has nine
cells, all with pieces of the game, and is written as the text was, without the blanks around it.  A
board of nine such pieces is read back from its digits between any blanks, and one of any other
length is not. -/
theorem parse_spelled :
    (∀ s : String, ((∃ b, Board.parse s = .ok b) ↔ Board.Spelled s)
        ∧ (¬ Board.Spelled s → Board.parse s = .error .malformed)
        ∧ ∀ b, Board.parse s = .ok b → b.length = 9 ∧ b.Pieces ∧ b.digits = Text.trim s)
      ∧ (∀ b : Board, b.length = 9 → b.Pieces → ∀ u v : String, Text.Blank u.toList →
        Text.Blank v.toList → Board.parse (u ++ b.digits ++ v) = .ok b)
      ∧ ∀ b : Board, b.Pieces → b.length ≠ 9 → Board.parse b.digits = .error .malformed := by
  refine ⟨?_, ?_, ?_⟩
  · intro s
    refine ⟨Board.exists_parse_iff, ?_, ?_⟩
    · intro hs
      exact Board.parse_eq_error (mt Board.exists_parse_iff.mp hs)
    · intro b hb
      obtain ⟨hlength, hpieces, -⟩ := Board.parse_eq_ok_iff.mp hb
      exact ⟨hlength, hpieces, Board.digits_of_parse hb⟩
  · intro b hlength hpieces u v hu hv
    exact Board.parse_eq_ok_iff.mpr ⟨hlength, hpieces, u, v, hu, hv, rfl⟩
  · intro b hpieces h
    exact Board.parse_digits_of_length_ne hpieces h

/-- Two texts that are read, one between blanks of two kinds, a text that is not, because the blank
stands between its digits, and a board of two cells. -/
theorem parse_spelled_blanks :
    (Board.parse "\t100020012 " = .ok [1, 0, 0, 0, 2, 0, 0, 1, 2]
        ∧ Board.Spelled "\t100020012 "
        ∧ Board.digits [1, 0, 0, 0, 2, 0, 0, 1, 2] = Text.trim "\t100020012 ")
      ∧ (¬ Board.Spelled "1000 20012" ∧ Board.parse "1000 20012" = .error .malformed)
      ∧ (Board.Pieces [2, 0, 0, 0, 1, 0, 0, 0, 1] ∧ Text.Blank "\n".toList
        ∧ Text.Blank "\u2003\u3000".toList
        ∧ Board.parse ("\n" ++ Board.digits [2, 0, 0, 0, 1, 0, 0, 0, 1] ++ "\u2003\u3000")
          = .ok [2, 0, 0, 0, 1, 0, 0, 0, 1])
      ∧ Board.Pieces [1, 2] ∧ ([1, 2] : Board).length ≠ 9
      ∧ Board.parse (Board.digits [1, 2]) = .error .malformed := by
  obtain ⟨hread, hwrite, hshort⟩ := parse_spelled
  obtain ⟨hspelled, -, hback⟩ := hread "\t100020012 "
  have hok : Board.parse "\t100020012 " = .ok [1, 0, 0, 0, 2, 0, 0, 1, 2] := rfl
  have hbad : ¬ Board.Spelled "1000 20012" := by
    rw [← (hread "1000 20012").1]
    rintro ⟨b, hb⟩
    have herror : Board.parse "1000 20012" = .error .malformed := rfl
    rw [herror] at hb
    cases hb
  have hnewline : Text.Blank "\n".toList := by decide
  have hwide : Text.Blank "\u2003\u3000".toList := by decide
  exact ⟨⟨hok, hspelled.mp ⟨_, hok⟩, (hback _ hok).2.2⟩, ⟨hbad, (hread _).2.1 hbad⟩,
    ⟨by decide, hnewline, hwide, hwrite _ rfl (by decide) _ _ hnewline hwide⟩,
    by decide, by decide, hshort _ (by decide) (by decide)⟩

end Noughts
