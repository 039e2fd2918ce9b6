/-!
# Settings

What something that takes a value was set to.  As a rule that is a value, but a setting can also be
made without one, and is then *blank*.  A blank setting is not one that was never made: no standard
value stands in for it.  It shows as an empty list, and it fails where a value is needed
(`Setting.needed`), each use in its own way (`BlankUse`).
-/

set_option autoImplicit false

namespace Noughts

/-- What something was set to. -/
inductive Setting (α : Type) where
  | value (a : α)
  /-- It was set, but to nothing. -/
  | blank
  deriving DecidableEq, Repr

/-- What a blank setting was to be used for. -/
inductive BlankUse where
  /-- How often to do something. -/
  | amount
  /-- The cell of an opening. -/
  | cell
  /-- A directory to keep things in. -/
  | directory
  /-- A file to write. -/
  | file
  deriving DecidableEq, Repr

/-- The wording of a use that a blank setting is not fit for. -/
def BlankUse.message : BlankUse → String
  | .amount => "'<=' not supported between instances of 'list' and 'int'"
  | .cell => "'<=' not supported between instances of 'int' and 'list'"
  | .directory => "unsupported operand type(s) for /: 'list' and 'str'"
  | .file => "'list' object has no attribute 'parent'"

namespace Setting

variable {α β : Type}

/-- Turns the value into another, if there is one. -/
def map (f : α → β) : Setting α → Setting β
  | .value a => .value (f a)
  | .blank => .blank

/-- The value, if there is one. -/
def value? : Setting α → Option α
  | .value a => some a
  | .blank => none

/-- The setting as a text. -/
def shown (text : α → String) : Setting α → String
  | .value a => text a
  | .blank => "[]"

/-- The value, for a use that cannot do without. -/
def needed (use : BlankUse) : Setting α → Except BlankUse α
  | .value a => .ok a
  | .blank => .error use

@[simp] theorem needed_value (use : BlankUse) (a : α) : (value a).needed use = .ok a := rfl

@[simp] theorem needed_blank (use : BlankUse) : (blank : Setting α).needed use = .error use := rfl

end Setting

end Noughts
