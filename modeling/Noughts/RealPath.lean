import Noughts.Files

/-!
# Paths without links

A path can be *resolved*: made independent of the working directory, with the pairs of dots and the
links taken out.  It need not lead anywhere.  What is missing on the way, or may not be looked at, is
taken for a name without a link behind it.

The names are gone along one by one (`expandNames`).  A link is replaced by what its own target comes
to, which can take other links (`expand`).  A link that turns up while it is being replaced goes on
forever: then the path is left as it is from there.

Resolving fails for two reasons only: a name has a zero character, or the path that is left still
leads through such a loop (`resolve`).
-/

set_option autoImplicit false

namespace Noughts

namespace Path

/-- One directory back.  Before the working directory, that is a pair of dots more. -/
def back (p : Path) : Path :=
  if p.anchor = .here ∧ (p.names = [] ∨ p.names.getLast? = some "..") then
    ⟨.here, p.names ++ [".."]⟩
  else p.parent

/-- Where the names of a path start, seen from a directory. -/
def start (p : Path) (directory : Path) : Path :=
  match p.anchor with
  | .here => directory
  | _ => ⟨.root, []⟩

end Path

/-- An error with the names that were still to come. -/
def FileError.before (rest : List String) : FileError → FileError
  | .linkLoop p => .linkLoop ⟨p.anchor, p.names ++ rest⟩
  | e => e

namespace FileTree

/-- The target of the link that a path names, if it can be seen to name one. -/
def linkAt? (t : FileTree) (workingDirectory : Location) (p : Path) : Option Path :=
  if longestPath < p.text.utf8ByteSize then none
  else
    match t.lastStep workingDirectory p with
    | .ok (.atLink _ target _) => some target
    | _ => none

/-- The deepest that links are gone into. -/
def deepestLink : Nat := 1000

/-- Goes along names, from a path that has no links on it.  What a link with a target comes to is up
to `enter`. -/
def expandNames (t : FileTree) (workingDirectory : Location)
    (enter : Path → Path → Except FileError Path) : Path → List String → Except FileError Path
  | done, [] => .ok done
  | done, name :: rest =>
    if name = ".." then t.expandNames workingDirectory enter done.back rest
    else
      let next : Path := ⟨done.anchor, done.names ++ [name]⟩
      if next.hasZero then .error .zeroCharacter
      else
        match t.linkAt? workingDirectory next with
        | none => t.expandNames workingDirectory enter next rest
        | some target =>
          match enter next target with
          | .error e => .error (e.before rest)
          | .ok done => t.expandNames workingDirectory enter done rest

/-- Goes along names and into the links among them, but not into one that it is in already. -/
def expand (t : FileTree) (workingDirectory : Location) :
    Nat → List Path → Path → List String → Except FileError Path
  | 0, _ => t.expandNames workingDirectory fun link _ => .error (.linkLoop link)
  | depth + 1, entered =>
    t.expandNames workingDirectory fun link target =>
      if link ∈ entered then .error (.linkLoop link)
      else
        t.expand workingDirectory depth (link :: entered) (target.start link.parent) target.names

/-- Refuses a path that still leads through a loop of links. -/
def refuseLoop (t : FileTree) (workingDirectory : Location) (p : Path) : Except FileError Path :=
  match t.locate workingDirectory p with
  | .error .zeroCharacter => .error .zeroCharacter
  | .error (.problem .tooManyLinks _) => .error (.linkLoop p)
  | _ => .ok p

/-- **The path from the root**, without pairs of dots and links. -/
def resolve (t : FileTree) (workingDirectory : Location) (p : Path) : Except FileError Path :=
  match t.expand workingDirectory deepestLink [] (p.start {}) p.names with
  | .ok q => t.refuseLoop workingDirectory (q.absolute workingDirectory)
  | .error (.linkLoop q) => t.refuseLoop workingDirectory (q.absolute workingDirectory)
  | .error e => .error e

end FileTree

end Noughts
