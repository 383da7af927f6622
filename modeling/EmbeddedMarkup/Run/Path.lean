import EmbeddedMarkup.Text.Basic

/-!
# Paths and the sources of a run

A path is written with one stroke between its parts, and parts that mean nothing are left out. Parts
that lead upwards are kept, since what they lead to depends on the files there are.

A run is given files and folders; of a folder it takes the Python files in it, at any depth. A file
that is named twice is taken once.
-/

namespace EmbeddedMarkup.Run

structure Path where
  root : Text
  parts : List Text
  deriving DecidableEq, Repr

namespace Path

def ofText (t : Text) : Path :=
  let strokes := (t.takeWhile (· == '/')).length
  { root := if strokes = 2 then ['/', '/'] else if strokes = 0 then [] else ['/']
    parts := (Text.splitOn '/' t).filter fun p => !p.isEmpty && p != ['.'] }

def text (p : Path) : Text :=
  if p.root.isEmpty && p.parts.isEmpty then ['.'] else p.root ++ Text.join ['/'] p.parts

/-- One more part after the parts in reverse; a part that leads upwards takes the last one away. -/
def push (parts : List Text) (part : Text) : List Text :=
  if part = ['.', '.'] then
    match parts with
    | [] => [part]
    | p :: ps => if p = ['.', '.'] then part :: parts else ps
  else part :: parts

def resolve (p : Path) : Path := { p with parts := (p.parts.foldl push []).reverse }

def below? (dir p : Path) : Option (List Text) :=
  if dir.root = p.root ∧ dir.parts.isPrefixOf p.parts ∧ dir.parts.length < p.parts.length then
    some (p.parts.drop dir.parts.length)
  else none

def above (p : Path) : List Path :=
  (List.range p.parts.length).filterMap fun n =>
    if n = 0 then none else some { p with parts := p.parts.take n }

def isPython (p : Path) : Bool := (p.parts.getLast?.map (Text.endsWith ".py".toList)).getD false

end Path

abbrev Bytes := List UInt8

structure Files where
  files : List (Path × Bytes)
  folders : List Path := []

namespace Files

def allFolders (fs : Files) : List Path :=
  (fs.folders ++ fs.files.flatMap fun f => f.1.above).eraseDups

def isPlainFolder (fs : Files) (p : Path) : Bool := p == ⟨[], []⟩ || fs.allFolders.contains p

/-- Whether each part that leads upwards does so from a folder, or from a place outside. -/
def isPassable (fs : Files) (p : Path) : Bool :=
  (List.range p.parts.length).all fun n =>
    p.parts[n]? != some ['.', '.'] ||
      let before := ({ p with parts := p.parts.take n } : Path).resolve
      fs.isPlainFolder before || before.parts.head? == some ['.', '.'] || !before.root.isEmpty

def get? (fs : Files) (p : Path) : Option Bytes :=
  if fs.isPassable p then (fs.files.find? fun f => f.1 == p.resolve).map (·.2) else none

def set (fs : Files) (p : Path) (bs : Bytes) : Files :=
  { fs with files := fs.files.map fun f => if f.1 = p.resolve then (f.1, bs) else f }

theorem map_fst_files_set (fs : Files) (p : Path) (bs : Bytes) :
    (fs.set p bs).files.map (·.1) = fs.files.map (·.1) := by
  simp only [set, List.map_map]
  refine List.map_congr_left fun f _ => ?_
  simp only [Function.comp_apply]
  split <;> rfl

def isFolder (fs : Files) (p : Path) : Bool := fs.isPassable p && fs.isPlainFolder p.resolve

def has (fs : Files) (p : Path) : Bool := fs.isFolder p || (fs.get? p).isSome

/-- What has the ending of Python files in a folder, each under the name of the folder. -/
def pythonIn (fs : Files) (dir : Path) : List Path :=
  (fs.files.map (·.1) ++ fs.allFolders).filterMap fun p =>
    if p.isPython then
      (dir.resolve.below? p).map fun rest => { dir with parts := dir.parts ++ rest }
    else none

def sourcesOf (fs : Files) (name : Text) : List Path :=
  let p := Path.ofText name
  if fs.isFolder p then fs.pythonIn p else [p]

/-- The sources of a run, each once, in the order of their names. -/
def sources (fs : Files) (names : List Text) : List Path :=
  ((names.flatMap fs.sourcesOf).eraseDups).mergeSort fun p q => Text.le p.text q.text

end Files

end EmbeddedMarkup.Run
