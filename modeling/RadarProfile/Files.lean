import RadarProfile.Line.Reader

set_option autoImplicit false

/-! # Files

A tree of directories and files, and how a path is followed in it. Paths start at the
root or at a working directory; a dot stays, two dots go up, and any name goes down to
something that has to exist. Opening a directory works; only reading from it fails.

A socket is made at a path whose last name need not exist. It replaces a file, but not a
directory, and a lock is kept in a file beside it. -/

namespace RadarProfile

/-- A place in the tree: the names from the root down. -/
abbrev Place := List Text

/-- Directories and files by their places, and the place where relative paths start. -/
structure FileTree where
  directories : List Place
  files : List (Place × List UInt8)
  workingDirectory : Place

namespace FileTree

def longestPath : Nat := 4095

def longestName : Nat := 255

/-- There is a directory at the place. The root is always there. -/
def isDirectory (tree : FileTree) (place : Place) : Bool :=
  place.isEmpty || tree.directories.contains place

def file? (tree : FileTree) (place : Place) : Option (List UInt8) :=
  (tree.files.find? fun entry => entry.1 == place).map (·.2)

def descend (tree : FileTree) (place : Place) (name : Text) : Except Fault Place :=
  if !tree.isDirectory place then .error .notADirectory
  else if name.isEmpty || name == ['.'] then .ok place
  else if name == ['.', '.'] then .ok place.dropLast
  else if longestName < (Utf8.encode name).length then .error .nameTooLong
  else
    let next := place ++ [name]
    if tree.isDirectory next || (tree.file? next).isSome then .ok next
    else .error .noSuchFile

def follow (tree : FileTree) : Place → List Text → Except Fault Place
  | place, [] => .ok place
  | place, name :: rest =>
    match tree.descend place name with
    | .error fault => .error fault
    | .ok next => follow tree next rest

def resolve (tree : FileTree) (path : Text) : Except Fault Place :=
  if path.contains (Char.ofNat 0) then
    .error (.described "file name contained an unexpected NUL byte".toList)
  else if path.isEmpty then .error .noSuchFile
  else if longestPath < (Utf8.encode path).length then .error .nameTooLong
  else
    let start := if path.head? == some '/' then [] else tree.workingDirectory
    tree.follow start (path.splitOnP (· == '/'))

def openPath (tree : FileTree) (path : Text) : Except Fault ByteStream :=
  match tree.resolve path with
  | .error fault => .error fault
  | .ok place =>
    match tree.file? place with
    | some bytes => .ok (.ofBytes bytes)
    -- a directory can be opened and not read
    | none => .ok (.stuck .isADirectory)

/-- The tree with one more file, given by the names below the working directory, and with
the directories that lead to it. -/
def addFile (tree : FileTree) (path : Place) (bytes : List UInt8) : FileTree :=
  -- empty names and dots lead nowhere
  let names := path.filter fun name => !name.isEmpty && name != ['.']
  let above := (List.range names.length).map fun depth =>
    tree.workingDirectory ++ names.take depth
  { tree with
    directories := tree.directories ++ above
    files := tree.files ++ [(tree.workingDirectory ++ names, bytes)] }

/-! ## Sockets -/

def longestSocketPath : Nat := 107

/-- The place of the lock that is kept beside a socket. -/
def lockOf (place : Place) : Place :=
  place.dropLast ++ [(place.getLast?.getD []) ++ ".lock".toList]

def splitLastName (path : Text) : Text × Text :=
  ((path.reverse.dropWhile (· != '/')).reverse, (path.reverse.takeWhile (· != '/')).reverse)

/-- The place at which a path makes a socket, if it can make one. -/
def socketPlace? (tree : FileTree) (path : Text) : Option Place :=
  let (above, name) := splitLastName path
  if path.contains (Char.ofNat 0) || longestSocketPath < (Utf8.encode path).length then none
  else if name.isEmpty || name == ['.'] || name == ['.', '.'] then none
  else
    match if above.isEmpty then .ok tree.workingDirectory else tree.resolve above with
    | .error _ => none
    | .ok directory =>
      let place := directory ++ [name]
      -- the lock is kept beside the socket, so its place has to be free as well
      if tree.isDirectory directory && !tree.isDirectory place &&
          !tree.isDirectory (lockOf place) then some place
      else none

end FileTree

end RadarProfile
