/-
Paths to files, and the files of the directory that the program runs in. Empty parts of a path and
parts that are a single dot do not count.
-/
import LspClient.Value

namespace LspClient

structure Path where
  /-- What an absolute path starts with; empty for others. -/
  root : String := ""
  parts : List String := []
  deriving DecidableEq, Inhabited

namespace Path

/-- The root that a text starts with: two slashes, but no more, are kept apart from one. -/
def rootOf : List Char → String
  | '/' :: '/' :: '/' :: _ => "/"
  | '/' :: '/' :: _ => "//"
  | '/' :: _ => "/"
  | _ => ""

/-- The parts of a text between slashes. -/
def split : List Char → List (List Char)
  | [] => [[]]
  | c :: rest =>
    if c = '/' then [] :: split rest
    else
      match split rest with
      | first :: others => (c :: first) :: others
      | [] => [[c]]

/-- The path that a text names. -/
def ofText (s : String) : Path where
  root := rootOf s.toList
  parts := ((split s.toList).map String.ofList).filter fun part => part != "" && part != "."

/-- A path as text. -/
def text (p : Path) : String :=
  let joined := p.root ++ "/".intercalate p.parts
  if joined.isEmpty then "." else joined

/-- Whether the path names a directory for its last part, or for want of one. -/
def endsInDirectory (p : Path) : Bool :=
  match p.parts.getLast? with
  | none => true
  | some last => last = ".."

/-- The path of the directory that a path leads into. -/
def parent (p : Path) : Path :=
  { p with parts := p.parts.dropLast }

end Path

/-- What a path leads to. -/
inductive FileEntry where
  | file (octets : Octets)
  | directory
  deriving Inhabited

/-- Files and directories, by their paths. -/
structure Directory where
  entries : List (Path × FileEntry) := []
  deriving Inhabited

namespace Directory

/-- The directory with some entries, by their paths. -/
def ofEntries (entries : List (String × FileEntry)) : Directory :=
  ⟨entries.map fun (name, e) => (Path.ofText name, e)⟩

/-- What is found at a path as it stands. The directories above an entry are there, too. -/
def at? (d : Directory) (p : Path) : Option FileEntry :=
  if p.parts.isEmpty then some .directory
  else
    match d.entries.find? fun e => e.1 = p with
    | some e => some e.2
    | none =>
      if d.entries.any fun e => e.1.root = p.root && p.parts.isPrefixOf e.1.parts then
        some .directory
      else none

/-- Follows parts of a path from a place on, the parts of which are kept in reverse. Outside of the
current directory only the directories around it are known. -/
def follow (d : Directory) (root : String) : List String → List String → Option FileEntry
  | here, [] => d.at? ⟨root, here.reverse⟩
  | here, part :: rest =>
    match d.at? ⟨root, here.reverse⟩ with
    | some .directory =>
      if part = ".." then
        match here with
        | _ :: outer => follow d root outer rest
        | [] =>
          if !root.isEmpty then follow d root [] rest
          else if rest.all (· = "..") then some .directory
          else none
      else follow d root (part :: here) rest
    | _ => none

/-- What a path leads to. -/
def find? (d : Directory) (p : Path) : Option FileEntry :=
  d.follow p.root [] p.parts

end Directory

end LspClient
