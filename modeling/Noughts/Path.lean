/-!
# Paths

A path is an anchor and a list of names.  Reading one drops empty names and single dots, so two
texts that differ only in doubled, trailing or dotted slashes are the same path; a pair of dots is
kept, because what it means depends on the files.  A path that starts with exactly two slashes is
not the same as one that starts with one.

* `Path.join` puts a path behind another; an anchored one replaces it.
* `Path.absolute` makes a path independent of the working directory and takes the pairs of dots
  out.
* `Path.uri` writes an absolute path as a `file` URI.
-/

set_option autoImplicit false

namespace Noughts

/-- Where a path starts. -/
inductive Anchor where
  /-- At the working directory. -/
  | here
  /-- At the root. -/
  | root
  /-- At the root, written with two slashes. -/
  | doubleRoot
  deriving DecidableEq, Repr

/-- The written form of an anchor. -/
def Anchor.text : Anchor → String
  | .here => ""
  | .root => "/"
  | .doubleRoot => "//"

/-- A path. -/
structure Path where
  anchor : Anchor := .here
  names : List String := []
  deriving DecidableEq, Repr

namespace Path

/-- The anchor of a written path: three slashes or more are one. -/
def anchorOf : List Char → Anchor
  | '/' :: '/' :: '/' :: _ => .root
  | '/' :: '/' :: _ => .doubleRoot
  | '/' :: _ => .root
  | _ => .here

/-- Reads a path. -/
def ofString (s : String) : Path :=
  ⟨anchorOf s.toList, (s.splitOn "/").filter fun name => name != "" && name != "."⟩

/-- Writes a path; the empty one is a dot. -/
def text (p : Path) : String :=
  if p.anchor = .here ∧ p.names = [] then "."
  else p.anchor.text ++ "/".intercalate p.names

/-- The second path, seen from the first. -/
def join (p q : Path) : Path :=
  match q.anchor with
  | .here => ⟨p.anchor, p.names ++ q.names⟩
  | _ => q

/-- The path behind a written one. -/
def child (p : Path) (s : String) : Path := p.join (ofString s)

/-- The path without its last name; a bare anchor is its own parent. -/
def parent (p : Path) : Path := ⟨p.anchor, p.names.dropLast⟩

/-- The names that lead from the root, each pair of dots taking one back. -/
def settle (names : List String) : List String :=
  names.foldl (fun done name => if name = ".." then done.dropLast else done ++ [name]) []

/-- The names that lead from the root to the path, seen from a working directory. -/
def absoluteNames (workingDirectory : List String) (p : Path) : List String :=
  match p.anchor with
  | .here => settle (workingDirectory ++ p.names)
  | _ => settle p.names

/-- The path from the root. -/
def absolute (workingDirectory : List String) (p : Path) : Path :=
  ⟨.root, p.absoluteNames workingDirectory⟩

/-- Bytes that a URI shows as they are. -/
def plainInUri (b : UInt8) : Bool :=
  let n := b.toNat
  (0x30 ≤ n && n ≤ 0x39) || (0x41 ≤ n && n ≤ 0x5a) || (0x61 ≤ n && n ≤ 0x7a)
    || n == 0x5f || n == 0x2e || n == 0x2d || n == 0x7e || n == 0x2f

/-- A byte in a URI: as it is, or as a percent sign and two hexadecimal digits. -/
def uriByte (b : UInt8) : List Char :=
  if plainInUri b then [Char.ofNat b.toNat]
  else
    let digits := (Nat.toDigits 16 b.toNat).map Char.toUpper
    '%' :: (List.replicate (2 - digits.length) '0' ++ digits)

/-- The `file` URI of an absolute path. -/
def uri (p : Path) : String :=
  "file://" ++ String.ofList (p.text.toUTF8.toList.flatMap uriByte)

end Path

end Noughts
