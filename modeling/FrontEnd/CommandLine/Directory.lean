/-! # Files by path

A directory as a listing of what it holds, with the rules by which a path leads to a file: parts
divided by slashes, of which empty ones and a single point stay, and two points go up. A path may
lead out of the directory, upwards or from the root; out there are directories, but none of their
entries is known. -/
namespace FrontEnd.CommandLine

inductive ReadFault where
  | notFound
  | notDirectory
  | isDirectory
  | nameTooLong
  | nulInName
  | invalidText
  | other (message : String)
  deriving DecidableEq, Repr

def ReadFault.message : ReadFault → String
  | notFound => "No such file or directory (os error 2)"
  | notDirectory => "Not a directory (os error 20)"
  | isDirectory => "Is a directory (os error 21)"
  | nameTooLong => "File name too long (os error 36)"
  | nulInName => "file name contained an unexpected NUL byte"
  | invalidText => "stream did not contain valid UTF-8"
  | other message => message

/-- What a path leads to. -/
inductive Entry where
  | file (bytes : ByteArray)
  | directory

/-- A directory that a path has reached: one in the listing, by its parts, or one outside. -/
inductive Place where
  | inside (parts : List String)
  | outside
  deriving DecidableEq, Repr

def Place.parent : Place → Place
  | inside (part :: parts) => inside (part :: parts).dropLast
  | _ => outside

/-- The entries below a directory, each with the parts of its path. -/
structure Directory where
  entries : List (List String × Entry)

namespace Directory

def ofPaths (paths : List (String × Entry)) : Directory :=
  ⟨paths.map fun (path, entry) => ((path.splitOn "/").filter (· != ""), entry)⟩

/-- The entry with these parts. What has an entry below it is a directory. -/
def find? (directory : Directory) (parts : List String) : Option Entry :=
  match directory.entries.lookup parts with
  | some entry => some entry
  | none =>
    if directory.entries.any fun (path, _) => parts.isPrefixOf path then some .directory
    else none

/-- The entry with a name at a place. Nothing is known to be outside. -/
def entryAt? (directory : Directory) (place : Place) (name : String) : Option (Place × Entry) :=
  match place with
  | .inside parts =>
    (directory.find? (parts ++ [name])).map fun entry => (.inside (parts ++ [name]), entry)
  | .outside => none

/-- What the parts of a path lead to from a place. A file ends the path. -/
def follow (directory : Directory) (place : Place) : List String → Except ReadFault Entry
  | [] => .ok .directory
  | part :: rest =>
    if part = "" || part = "." then directory.follow place rest
    else if part = ".." then directory.follow place.parent rest
    else if 255 < part.utf8ByteSize then .error .nameTooLong
    else match directory.entryAt? place part with
      | none => .error .notFound
      | some (place, .directory) => directory.follow place rest
      | some (_, .file bytes) => if rest.isEmpty then .ok (.file bytes) else .error .notDirectory

def read (directory : Directory) (path : String) : Except ReadFault String := do
  if path.contains '\x00' then .error .nulInName
  if path = "" then .error .notFound
  if 4096 ≤ path.utf8ByteSize then .error .nameTooLong
  let start : Place := if path.startsWith "/" then .outside else .inside []
  match ← directory.follow start (path.splitOn "/") with
  | .directory => .error .isDirectory
  | .file bytes =>
    match String.fromUTF8? bytes with
    | some text => .ok text
    | none => .error .invalidText

/-- The names that stand directly in the directory, in order. -/
def names (directory : Directory) : List String :=
  (directory.entries.filterMap fun (parts, _) => parts.head?).eraseDups.mergeSort

end Directory
end FrontEnd.CommandLine
