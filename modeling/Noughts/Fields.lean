/-!
# Fields

Named values in the order in which their names first came up.  A name that comes up again gets the
new value and keeps its place.
-/

set_option autoImplicit false

namespace Noughts

/-- Named values, in order. -/
abbrev Fields (α : Type) := List (String × α)

namespace Fields

variable {α : Type}

/-- Gives a name a value: at its place if it has one, else behind all others. -/
def set : Fields α → String × α → Fields α
  | [], new => [new]
  | (name, a) :: rest, new =>
    if name = new.1 then (name, new.2) :: rest else (name, a) :: set rest new

/-- The fields that a list of named values makes. -/
def ofList (named : List (String × α)) : Fields α := named.foldl set []

/-- The value under a name. -/
def get? (fields : Fields α) (name : String) : Option α :=
  (fields.find? fun e => e.1 == name).map Prod.snd

theorem get?_cons (e : String × α) (rest : Fields α) (name : String) :
    get? (e :: rest) name = if e.1 = name then some e.2 else get? rest name := by
  by_cases h : e.1 = name <;> simp [get?, h]

theorem get?_set (fields : Fields α) (new : String × α) (name : String) :
    get? (set fields new) name = if new.1 = name then some new.2 else get? fields name := by
  induction fields with
  | nil => rw [set, get?_cons]
  | cons e rest ih =>
    rw [set, get?_cons]
    by_cases hnew : e.1 = new.1
    · rw [if_pos hnew, get?_cons, hnew]
      by_cases h : new.1 = name <;> simp [h]
    · rw [if_neg hnew, get?_cons, ih]
      by_cases h : new.1 = name
      · simp [h, h ▸ hnew]
      · simp [h]

/-- A name that comes up again has the value that came last. -/
theorem get?_ofList (named : List (String × α)) (name : String) :
    get? (ofList named) name = named.reverse.lookup name := by
  suffices h : ∀ fields : Fields α,
      get? (named.foldl set fields) name = (named.reverse.lookup name).or (get? fields name) by
    rw [ofList, h]
    exact Option.or_none
  induction named with
  | nil => exact fun _ => rfl
  | cons new rest ih =>
    intro fields
    rw [List.foldl_cons, ih, get?_set, List.reverse_cons, List.lookup_append, Option.or_assoc,
      List.lookup_cons, List.lookup_nil]
    by_cases h : new.1 = name
    · simp [h]
    · simp [h, beq_false_of_ne (Ne.symm h)]

end Fields

end Noughts
