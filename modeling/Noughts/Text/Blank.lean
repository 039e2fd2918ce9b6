/-!
# Blank characters

What separates words and what is trimmed from the ends of a text.  The set is wider than the
ASCII one: it has the line and paragraph separators and the no-break spaces, but neither the
zero-width space nor the byte-order mark, which are not spaces at all.

`strip` and `words` work on lists of characters; a text is blank, or not, through its characters
alone.  What `strip` does is said by a few lemmas: what it takes away is blank (`exists_strip`), what
it leaves neither begins nor ends with a blank (`not_isBlank_of_head?_strip`,
`not_isBlank_of_getLast?_strip`), blanks around a text do not change the outcome (`strip_append`),
and a text without blanks stays as it is (`strip_eq_self`).
-/

set_option autoImplicit false

namespace Noughts.Text

/-- Is the character a space, a line break or a separator? -/
def isBlank (c : Char) : Bool :=
  let n := c.toNat
  (0x09 ≤ n && n ≤ 0x0d) || (0x1c ≤ n && n ≤ 0x20) || n == 0x85 || n == 0xa0 || n == 0x1680
    || (0x2000 ≤ n && n ≤ 0x200a) || n == 0x2028 || n == 0x2029 || n == 0x202f || n == 0x205f
    || n == 0x3000

/-- The characters left when the blanks at both ends are gone. -/
def strip (cs : List Char) : List Char :=
  ((cs.dropWhile isBlank).reverse.dropWhile isBlank).reverse

/-- Are there nothing but blanks? -/
def Blank (cs : List Char) : Prop :=
  ∀ c ∈ cs, isBlank c = true

instance (cs : List Char) : Decidable (Blank cs) :=
  List.decidableBAll _ cs

/-- **What is stripped is blank.** -/
theorem exists_strip (cs : List Char) :
    ∃ u v, Blank u ∧ Blank v ∧ cs = u ++ strip cs ++ v := by
  have htaken : ∀ xs : List Char, Blank (xs.takeWhile isBlank) := by
    intro xs c hc
    exact List.all_eq_true.mp List.all_takeWhile c hc
  refine ⟨cs.takeWhile isBlank, ((cs.dropWhile isBlank).reverse.takeWhile isBlank).reverse,
    htaken cs, ?_, ?_⟩
  · intro c hc
    exact htaken _ c (List.mem_reverse.mp hc)
  · rw [strip, List.append_assoc, ← List.reverse_append, List.takeWhile_append_dropWhile,
      List.reverse_reverse, List.takeWhile_append_dropWhile]

/-- **Blanks around a text make no difference.** -/
theorem strip_append {u v : List Char} (hu : Blank u) (hv : Blank v) (cs : List Char) :
    strip (u ++ cs ++ v) = strip cs := by
  rw [strip, strip, List.append_assoc, List.dropWhile_append_of_pos hu, List.dropWhile_append]
  split
  · next he =>
    have hnone : v.dropWhile isBlank = [] := by
      rw [← List.append_nil v, List.dropWhile_append_of_pos hv, List.dropWhile_nil]
    rw [List.isEmpty_iff.mp he, hnone]
  · have hback : ∀ c ∈ v.reverse, isBlank c = true := by
      intro c hc
      exact hv c (List.mem_reverse.mp hc)
    rw [List.reverse_append, List.dropWhile_append_of_pos hback]

/-- A text with nothing but blanks is stripped to nothing, and no other is. -/
theorem strip_eq_nil_iff {cs : List Char} : strip cs = [] ↔ Blank cs := by
  constructor
  · intro h
    obtain ⟨u, v, hu, hv, heq⟩ := exists_strip cs
    rw [h, List.append_nil] at heq
    rw [heq]
    exact List.forall_mem_append.mpr ⟨hu, hv⟩
  · intro h
    rw [← List.append_nil cs, ← List.append_nil (cs ++ []), strip_append h (by simp [Blank])]
    rfl

theorem not_isBlank_of_head?_dropWhile {cs : List Char} {c : Char}
    (h : (cs.dropWhile isBlank).head? = some c) : isBlank c = false := by
  have hfirst := List.head?_dropWhile_not isBlank cs
  rw [h] at hfirst
  exact hfirst

/-- No stripped text ends with a blank. -/
theorem not_isBlank_of_getLast?_strip {cs : List Char} {c : Char}
    (h : (strip cs).getLast? = some c) : isBlank c = false := by
  rw [strip, List.getLast?_reverse] at h
  exact not_isBlank_of_head?_dropWhile h

/-- No stripped text begins with a blank. -/
theorem not_isBlank_of_head?_strip {cs : List Char} {c : Char}
    (h : (strip cs).head? = some c) : isBlank c = false := by
  have hpre : strip cs <+: cs.dropWhile isBlank := by
    rw [← List.reverse_reverse (cs.dropWhile isBlank), strip, List.reverse_prefix]
    exact List.dropWhile_suffix isBlank
  obtain ⟨rest, hrest⟩ := hpre
  have hfirst : (cs.dropWhile isBlank).head? = some c := by
    rw [← hrest, List.head?_append, h]
    rfl
  exact not_isBlank_of_head?_dropWhile hfirst

/-- A text without blanks stays as it is. -/
theorem strip_eq_self {cs : List Char} (h : ∀ c ∈ cs, isBlank c = false) : strip cs = cs := by
  have hself : ∀ xs : List Char, (∀ c ∈ xs, isBlank c = false) → xs.dropWhile isBlank = xs := by
    intro xs hxs
    cases xs with
    | nil => rfl
    | cons c rest => rw [List.dropWhile_cons, hxs c List.mem_cons_self, if_neg Bool.false_ne_true]
  have hback : ∀ c ∈ cs.reverse, isBlank c = false := by
    intro c hc
    exact h c (List.mem_reverse.mp hc)
  rw [strip, hself cs h, hself _ hback, List.reverse_reverse]

/-- `strip` on strings. -/
def trim (s : String) : String :=
  String.ofList (strip s.toList)

/-- The words met while reading on: `current` holds the letters, latest first, of the word that
is being read. -/
def wordsFrom (current : List Char) : List Char → List (List Char)
  | [] => if current.isEmpty then [] else [current.reverse]
  | c :: cs =>
    if isBlank c then
      if current.isEmpty then wordsFrom [] cs else current.reverse :: wordsFrom [] cs
    else wordsFrom (c :: current) cs

/-- The maximal runs of characters that are not blank. -/
def words (s : String) : List String :=
  (wordsFrom [] s.toList).map String.ofList

end Noughts.Text
