/-
**File trees.**

A project is looked at as a tree of files held in memory: a list of paths with their contents, and
the folders that were made for them.  A folder stays when the files in it are gone.

A path can be cleared of the names that go back without a look at the tree.  A file, however, is
reached one name at a time, and can be gone back from only where it is a folder that exists.

Main definitions:

* `Path`, `Path.ofText`, `Path.text` — paths and their written form;
* `FileTree`, `FileTree.ofFiles` — trees;
* `FileTree.read?`, `FileTree.holds`, `FileTree.names` — what a tree holds;
* `FileTree.reach?` — the path that names lead to.

Main results:

* `FileTree.holds_of_read?` — what can be read exists;
* `FileTree.reach?_eq_foldl` — without names that go back nothing has to exist.
-/
import EventLayer.Fault
import EventLayer.Text.Split

set_option autoImplicit false
set_option relaxedAutoImplicit false

namespace EventLayer

/-- A path from the root, as the names along it. -/
abbrev Path := List String

namespace Path

/-- The name that goes back to the folder before. -/
def back : String := ".."

/-- One more name along a path: a dot stays, two dots go back. -/
def enter (p : Path) (name : String) : Path :=
  if name = "" ∨ name = "." then p
  else if name = back then p.dropLast
  else p ++ [name]

/-- Where a text begins that leads on from a folder: one with a slash in front begins at the root.
-/
def start (here : Path) (text : String) : Path :=
  if text.toList.head? = some '/' then [] else here

/-- The path that a text leads to from a folder. -/
def ofText (here : Path) (text : String) : Path :=
  (Text.pieces '/' text).foldl enter (start here text)

/-- A path as text. -/
def text (p : Path) : String := "/" ++ "/".intercalate p

/-- The folder that a path lies in. -/
def folder (p : Path) : Path := p.dropLast

/-- The folders along a path, the root first and the path itself left out. -/
def folders (p : Path) : List Path := (List.range p.length).map p.take

/-- Whether a text can be a path: the character with code zero occurs in none. -/
def isUsable (text : String) : Bool := !text.toList.contains (Char.ofNat 0)

/-- A path all of whose names can be names, or a fault. -/
def checked (p : Path) : Except Fault Path :=
  if p.all isUsable then .ok p else .error .unusablePath

@[simp] theorem enter_dot (p : Path) : enter p "." = p := by simp [enter]

end Path

/-- A tree of files. -/
structure FileTree where
  files : List (Path × ByteArray) := []
  /-- The folders made for files, whether or not these are there still. -/
  folders : List Path := []

namespace FileTree

instance : Inhabited FileTree := ⟨{}⟩

/-- The tree without a file; its folder stays. -/
def erase (t : FileTree) (p : Path) : FileTree :=
  { t with files := t.files.filter fun f => f.1 ≠ p }

/-- The tree with a file, in place of an older one at its path. -/
def add (t : FileTree) (f : Path × ByteArray) : FileTree :=
  { files := (t.erase f.1).files ++ [f], folders := t.folders ++ f.1.folders }

/-- The tree that holds several files. -/
def ofFiles (files : List (Path × ByteArray)) : FileTree := files.foldl add {}

/-- The content of a file. -/
def read? (t : FileTree) (p : Path) : Option ByteArray := t.files.lookup p

/-- Whether there is a folder at a path. -/
def isFolder (t : FileTree) (p : Path) : Bool := t.folders.contains p

/-- Whether there is a file or folder at a path. -/
def holds (t : FileTree) (p : Path) : Bool := (t.read? p).isSome || t.isFolder p

/-- The names of what lies directly in a folder, each once. -/
def names (t : FileTree) (p : Path) : List String :=
  let found : List Path := t.files.map Prod.fst ++ t.folders
  (found.filterMap fun f => if Path.folder f = p ∧ f ≠ [] then f.getLast? else none).eraseDups

/-- The text of a file; none where there is no such file or its bytes are no text. -/
def text? (t : FileTree) (p : Path) : Option String := (t.read? p).bind String.fromUTF8?

theorem holds_of_read? {t : FileTree} {p : Path} {b : ByteArray} (h : t.read? p = some b) :
    t.holds p = true := by simp [holds, h]

/-! ### Reaching a file -/

/-- The path that names lead to from another one; what is gone back from has to be a folder. -/
def reach? (t : FileTree) (p : Path) : List String → Option Path
  | [] => some p
  | name :: rest =>
    if name = Path.back ∧ !t.isFolder p then none else t.reach? (p.enter name) rest

theorem reach?_eq_foldl {names : List String} (h : Path.back ∉ names) (t : FileTree) (p : Path) :
    t.reach? p names = some (names.foldl Path.enter p) := by
  induction names generalizing p with
  | nil => rfl
  | cons name rest ih =>
    simp only [List.mem_cons, not_or] at h
    simp [reach?, Ne.symm h.1, ih h.2]

/-- The content of the file that a text leads to from a folder; none where there is no such file or
its bytes are no text. -/
def textAt? (t : FileTree) (here : Path) (text : String) : Option String :=
  (t.reach? (Path.start here text) (Text.pieces '/' text)).bind t.text?

end FileTree

end EventLayer
