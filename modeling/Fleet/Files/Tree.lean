import Fleet.Dict
import Fleet.Files.ReadError

/-!
Trees of files, and how a path is followed through one part by part. Empty parts and single points
lead nowhere else, and a name leads to the entry of that name.
-/
namespace Fleet

inductive FileTree where
  | file (content : String)
  | directory (entries : List (String × FileTree))
  deriving Inhabited

namespace FileTree

/-- The longest path and the longest name that the system looks up, in bytes. -/
def maxPath : Nat := 4095
def maxName : Nat := 255

/-- What stands between the slashes of a path. -/
def parts : List Char → List (List Char)
  | [] => [[]]
  | c :: rest =>
    if c = '/' then [] :: parts rest
    else
      match parts rest with
      | [] => [[c]]
      | first :: others => (c :: first) :: others

/-- Follows one part of a path from a place, which is given with all that is above it. Nothing is
above the root but the root itself. -/
def step (place : List FileTree) (part : String) : Except ReadError (List FileTree) :=
  match place with
  | directory entries :: above =>
    if part = "" || part = "." then .ok place
    else if part = ".." then .ok (if above.isEmpty then place else above)
    else if maxName < part.utf8ByteSize then .error .nameTooLong
    else
      match Dict.lookup part entries with
      | some found => .ok (found :: place)
      | none => .error .missing
  | _ => .error .notDirectory

/-- What a path leads to. Without a slash in front it begins in an empty directory below the
root. -/
def find (root : FileTree) (path : String) : Except ReadError FileTree := do
  if path = "" then throw .missing
  if maxPath < path.utf8ByteSize then throw .nameTooLong
  let start := if path.toList.head? = some '/' then [root] else [directory [], root]
  let place ← ((parts path.toList).map String.ofList).foldlM step start
  return place.headD root

/-- The text of the file that a path leads to. -/
def read (root : FileTree) (path : String) : Except ReadError String := do
  match ← root.find path with
  | file content => return content
  | directory _ => throw .isDirectory

def emptyDirectories (names : List String) : List (String × FileTree) :=
  names.map fun name => (name, directory [])

/-- A small system: the usual directories, one of them with some temporary files, and a device that
reads as an empty file. -/
def system (temporary : List (String × FileTree)) : FileTree :=
  directory ([("tmp", directory temporary),
    ("dev", directory (("null", file "") :: emptyDirectories ["fd", "mqueue", "pts", "shm"])),
    ("var", directory (emptyDirectories ["cache", "lib", "local", "log", "mail", "tmp"])),
    ("usr", directory (emptyDirectories ["bin", "include", "lib", "local", "sbin", "share"]))] ++
    emptyDirectories ["bin", "boot", "etc", "home", "lib", "lib64", "media", "mnt", "opt", "proc",
      "root", "run", "sbin", "srv", "sys"])

theorem step_directory_of_stays {part : String} (h : part = "" ∨ part = ".")
    (entries : List (String × FileTree)) (above : List FileTree) :
    step (directory entries :: above) part = .ok (directory entries :: above) := by
  rcases h with rfl | rfl <;> rfl

theorem step_directory_of_name {part : String} {entries : List (String × FileTree)}
    {found : FileTree} (above : List FileTree) (name : part ∉ ["", ".", ".."])
    (short : part.utf8ByteSize ≤ maxName) (h : Dict.lookup part entries = some found) :
    step (directory entries :: above) part = .ok (found :: directory entries :: above) := by
  simp only [List.mem_cons, List.not_mem_nil, or_false, not_or] at name
  simp [step, name, Nat.not_lt.2 short, h]

example : ((system [("a", file "x")]).read "//tmp/./../tmp/a").toOption = some "x" := by
  decide +kernel

end FileTree

end Fleet
