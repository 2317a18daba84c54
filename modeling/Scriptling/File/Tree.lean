import Scriptling.File.Reading

/-!
# Scriptling.File.Tree -- files held in memory

A tree of files and directories. A path is followed as a file system does: step by step from the root or
the working directory, where only a directory can be stepped out of or further into. The working
directory has directories around it of which no names are known, so a place is a number of levels up from
there, or the root, and the names that lead on from that.

* `Place.step` -- where one step leads.
* `add` -- puts an entry at a path and makes the directories the path passes through.
* `read` -- the bytes of the file at a path.
-/

set_option autoImplicit false

namespace Scriptling

/-- What a name in a tree stands for. -/
inductive Entry where
  | file (bytes : ByteArray)
  | directory

/-- A directory that is always there. -/
inductive Base where
  | root
  /-- The directory so many levels above the working directory, which is itself at level zero. -/
  | up (levels : Nat)
  deriving DecidableEq, Repr

/-- Where a path leads: a directory that is always there and the names that lead on from it. -/
structure Place where
  base : Base
  names : List String
  deriving DecidableEq, Repr

namespace Place

/-- Where a path starts. An absolute one starts at the root. -/
def start (path : String) : Place := ⟨if path.startsWith "/" then .root else .up 0, []⟩

/-- The directory around a place. The root lies in itself. -/
def parent (p : Place) : Place :=
  match p.names, p.base with
  | [], .root => p
  | [], .up n => ⟨.up (n + 1), []⟩
  | _, base => ⟨base, p.names.dropLast⟩

/-- The place one step leads to. An empty step and `.` stay, `..` leads out. -/
def step (p : Place) (s : String) : Place :=
  if s = "" ∨ s = "." then p
  else if s = ".." then p.parent
  else ⟨p.base, p.names ++ [s]⟩

/-- The places that steps pass through before the last of them is done. -/
def passed (p : Place) : List String → List Place
  | [] => []
  | s :: rest => p :: passed (p.step s) rest

/-- Whether a place lies at or below another. -/
def isBelow (inner outer : Place) : Bool :=
  inner.base = outer.base && outer.names.isPrefixOf inner.names

end Place

/-- Entries by their places, of two at one place the first. The directories around an entry are there
without being listed. -/
structure FileTree where
  entries : List (Place × Entry)

namespace FileTree

/-- The steps of a path. -/
def steps (path : String) : List String := path.splitOn "/"

/-- Adds an entry, in place of an earlier one at the same place. The directories that its path passes
through are made, also those that it leaves again. -/
def add (path : String) (e : Entry) (t : FileTree) : FileTree :=
  let start := Place.start path
  let made := (start.passed (steps path)).map fun p => (p, Entry.directory)
  ⟨((steps path).foldl Place.step start, e) :: t.entries ++ made⟩

/-- What stands at a place. -/
def at? (t : FileTree) (place : Place) : Option Entry :=
  match t.entries.find? fun e => e.1 = place with
  | some e => some e.2
  -- A directory that no entry lists is there if something lies below it.
  | none =>
    if place.names.isEmpty || t.entries.any fun e => e.1.isBelow place then some .directory else none

/-- How many bytes a name can have. -/
def longestName : Nat := 255

/-- How many bytes a path can have. -/
def longestPath : Nat := 4095

/-- Follows steps from a place. Every step, also one that stays, needs a directory to stand in. -/
def follow (t : FileTree) (here : Place) : List String → Except ReadError Entry
  | [] =>
    match t.at? here with
    | some e => .ok e
    | none => .error .notFound
  | s :: rest =>
    match t.at? here with
    | none => .error .notFound
    | some (.file _) => .error .notDirectory
    | some .directory =>
      if longestName < s.utf8ByteSize then .error .nameTooLong else follow t (here.step s) rest

/-- The bytes of the file at a path. An empty path leads nowhere. -/
def read (t : FileTree) (path : String) : Except ReadError ByteArray :=
  if path.toList.contains '\x00' then .error .nulInPath
  else if path = "" then .error .notFound
  else if longestPath < path.utf8ByteSize then .error .nameTooLong
  else
    match t.follow (.start path) (steps path) with
    | .ok (.file bytes) => .ok bytes
    | .ok .directory => .error .isDirectory
    | .error e => .error e

end FileTree

end Scriptling
