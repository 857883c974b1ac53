import Datenbereitstellung.Strings

namespace Datenbereitstellung.Files

open Strings

inductive FileKind
  | regular
  | directory
  | other
  deriving DecidableEq

structure DirEntry where
  filename : Text
  isRegularFile : Bool

/-- What the file system answers about a path. `status` is `std::filesystem::status`: an error
is thrown, `none` is "not found". `content` is what an `ifstream` on the path delivers, `none`
if it cannot be opened. `entries` is a whole pass of a `directory_iterator`. -/
structure FileSystem where
  status : Text → Except Text (Option FileKind)
  content : Text → Option Text
  entries : Text → Except Text (List DirEntry)

def FileSystem.ofFiles (files : List (Text × Text)) : FileSystem where
  status path := .ok ((files.lookup path).map fun _ => .regular)
  content path := files.lookup path
  entries _ := .ok (files.map fun f => { filename := f.1, isRegularFile := true })

/-- `std::filesystem::path::extension` of a file name. -/
def extension (filename : Text) : Text :=
  if filename = ['.'] ∨ filename = ['.', '.'] then []
  else
    let suffix := filename.reverse.takeWhile (fun c => c != '.')
    if suffix.length + 1 < filename.length then '.' :: suffix.reverse else []

example : extension ['a', '.', 'b', '.', 't', 'a', 'p'] = ['.', 't', 'a', 'p'] := by decide

end Datenbereitstellung.Files
