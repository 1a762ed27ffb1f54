/-
Folders: the texts of files by their paths.  A disk is a folder with, besides, the files whose bytes
spell no text.

Main statements: `Disk.text?_putBytes`, bytes are read as the text that they spell or not at all, and
`Disk.text?_write`, what was written is read again with its line ends made the same.
-/
import Tender.Fault
import Tender.Text.Path

namespace Tender

/-- The files of a folder. -/
structure Folder where
  files : Entries Text
  /-- Directories that are there even if no file is in them. -/
  directories : List Text := []

namespace Folder

/-- A text with every line end made a line feed. -/
def unifyLines : Text → Text
  | '\r' :: '\n' :: s => '\n' :: unifyLines s
  | '\r' :: s => '\n' :: unifyLines s
  | c :: s => c :: unifyLines s
  | [] => []

/-- The text of a file. -/
def read? (f : Folder) (path : Text) : Option Text :=
  (Entries.get? path f.files).map unifyLines

end Folder

/-- A folder together with the files whose bytes spell no text, and what is wrong with each. -/
structure Disk extends Folder where
  garbled : Entries Utf8.Problem
  /-- No file is both. -/
  apart : ∀ path ∈ Entries.keys garbled, path ∉ Entries.keys files

namespace Disk

/-- A folder is a disk on which all files are texts. -/
def ofFolder (f : Folder) : Disk := ⟨f, [], nofun⟩

instance : Coe Folder Disk := ⟨ofFolder⟩

/-- What is wrong with a file whose bytes spell no text. -/
def garbled? (d : Disk) (path : Text) : Option Utf8.Problem :=
  Entries.get? path d.garbled

@[simp] theorem toFolder_ofFolder (f : Folder) : (ofFolder f).toFolder = f := rfl

@[simp] theorem garbled?_ofFolder (f : Folder) (path : Text) : (ofFolder f).garbled? path = none :=
  rfl

/-- The text of a file, if there is one at a path. -/
def text? (d : Disk) (path : Text) : Except Fault (Option Text) :=
  match d.garbled? path with
  | some problem => .error (.undecodable problem)
  | none => .ok (d.read? path)

@[simp] theorem text?_ofFolder (f : Folder) (path : Text) :
    (ofFolder f).text? path = .ok (f.read? path) := rfl

/-- The disk with a text at a path, in place of what was there. -/
def put (d : Disk) (path text : Text) : Disk where
  files := Entries.put path text d.files
  directories := d.directories
  garbled := Entries.erase path d.garbled
  apart other h := by
    obtain ⟨hmem, hne⟩ := Entries.mem_keys_erase.1 h
    rw [Entries.mem_keys_put, not_or]
    exact ⟨hne, d.apart other hmem⟩

/-- The disk with bytes that spell no text at a path, in place of what was there. -/
def putGarbled (d : Disk) (path : Text) (problem : Utf8.Problem) : Disk where
  files := Entries.erase path d.files
  directories := d.directories
  garbled := Entries.put path problem d.garbled
  apart other h := by
    rw [Entries.mem_keys_erase, not_and, Ne, Decidable.not_not]
    exact fun hmem => (Entries.mem_keys_put.1 h).resolve_right fun hgarbled =>
      d.apart other hgarbled hmem

/-- The disk with bytes at a path. -/
def putBytes (d : Disk) (path : Text) (bytes : List UInt8) : Disk :=
  match Utf8.decode bytes with
  | .ok text => d.put path text
  | .error problem => d.putGarbled path problem

theorem text?_put (d : Disk) (path text : Text) :
    (d.put path text).text? path = .ok (some (Folder.unifyLines text)) := by
  have hgarbled : (d.put path text).garbled? path = none :=
    Entries.get?_eq_none_iff.2 fun h => (Entries.mem_keys_erase.1 h).2 rfl
  rw [Disk.text?, hgarbled]
  simp [Folder.read?, put]

theorem text?_putBytes (d : Disk) (path : Text) (bytes : List UInt8) :
    (d.putBytes path bytes).text? path = match Utf8.decode bytes with
      | .ok text => .ok (some (Folder.unifyLines text))
      | .error problem => .error (.undecodable problem) := by
  rw [putBytes]
  cases Utf8.decode bytes with
  | ok text => exact d.text?_put path text
  | error problem => simp [Disk.text?, garbled?, putGarbled]

/-- The paths of all files. -/
def names (d : Disk) : List Text :=
  Entries.keys d.files ++ Entries.keys d.garbled

/-- Whether there is a directory at a path: it is listed, files are in it, or it is the folder
itself. -/
def hasDirectory (d : Disk) (path : Text) : Bool :=
  path = ['.'] || d.directories.contains path || d.names.any (Text.startsWith (path ++ ['/']))

/-- Why no file can be put at a path, if it cannot. -/
def refusal? (d : Disk) (path : Text) : Option Fault :=
  if d.hasDirectory path then some (.isDirectory path)
  else if d.hasDirectory (Text.parentPath path) then none
  else if d.names.contains (Text.parentPath path) then some (.notDirectory path)
  else some (.noSuchFile path)

/-- Writes a file. -/
def write (d : Disk) (path text : Text) : Except Fault Disk :=
  match d.refusal? path with
  | some fault => .error fault
  | none => do
    Fault.checkSpelling text
    return d.put path text

theorem write_eq {d : Disk} {path text : Text} (hplace : d.refusal? path = none)
    (hspelled : Text.halves? text = none) : d.write path text = .ok (d.put path text) := by
  rw [write, hplace, Fault.checkSpelling, hspelled]
  rfl

theorem text?_write {d e : Disk} {path text : Text} (h : d.write path text = .ok e) :
    e.text? path = .ok (some (Folder.unifyLines text)) := by
  unfold write at h
  split at h
  · cases h
  · cases hspelled : Fault.checkSpelling text with
    | error f =>
      rw [hspelled] at h
      cases h
    | ok u =>
      rw [hspelled] at h
      cases h
      exact d.text?_put path text

end Disk
end Tender
