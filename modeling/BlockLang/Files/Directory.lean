import BlockLang.Files

/-!
# A directory in memory

A finite directory tree that serves as the current directory. Paths are followed segment
by segment; a segment can only be followed from a directory, and two dots lead to the
directory above. Above the current directory there are directories all the way up to the
root, but what is in them is only known as far as it was put there.
-/

namespace BlockLang

/-- The place of a directory or file, as seen from the current directory: how many times
to go up, then the names on the way down. The root has an address of its own. -/
abbrev Address := List String

namespace Address

/-- The address of the directory that all absolute paths start from. -/
def root : Address := ["/"]

/-- Whether a segment leads to the directory it stands in. -/
def isIdle (segment : String) : Bool :=
  segment == "" || segment == "."

/-- Whether the address is that of the current directory, a directory above it, or the
root. -/
def isAbove (addr : Address) : Bool :=
  addr.all (· == "..") || addr == root

/-- The address of the directory above. The root is above itself. -/
def parent (addr : Address) : Address :=
  if addr = root then root
  else if addr.all (· == "..") then addr ++ [".."]
  else addr.dropLast

/-- The address that a segment leads to. -/
def enter (addr : Address) (segment : String) : Address :=
  if isIdle segment then addr
  else if segment = ".." then addr.parent
  else addr ++ [segment]

/-- Where a path starts. -/
def start (path : String) : Address :=
  if path.toList.head? = some '/' then root else []

def segments (path : String) : List String :=
  (Path.segments path.toList).map String.ofList

def ofPath (path : String) : Address :=
  (segments path).foldl enter (start path)

/-- The addresses that segments lead to one after another. -/
def trail (addr : Address) : List String → List Address
  | [] => []
  | segment :: rest => addr.enter segment :: (addr.enter segment).trail rest

end Address

/-- The contents of the current directory: where directories are, and the files with
their bytes. -/
structure Directory where
  folders : List Address
  contents : List (Address × List UInt8)
deriving DecidableEq, Repr

namespace Directory

/-- The greatest number of bytes in a path. -/
def pathLimit : Nat := 4095

/-- The greatest number of bytes in a segment. -/
def segmentLimit : Nat := 255

def empty : Directory := ⟨[], []⟩

/-- The directory with one more directory in it, and those on the way to it. -/
def addFolder (d : Directory) (path : String) : Directory :=
  { d with folders := (Address.start path).trail (Address.segments path) ++ d.folders }

/-- The directory with a file in it, in place of any file of the same address, and with
the directories on the way to it. -/
def addFile (d : Directory) (path : String) (bytes : List UInt8) : Directory :=
  ⟨((Address.start path).trail (Address.segments path)).dropLast ++ d.folders,
    (Address.ofPath path, bytes) :: d.contents⟩

def hasFolder (d : Directory) (addr : Address) : Bool :=
  addr.isAbove || d.folders.contains addr

def file? (d : Directory) (addr : Address) : Option (List UInt8) :=
  d.contents.lookup addr

/-- A place that following a path can reach: the directory at an address, or a file. -/
inductive Place
  | folder (addr : Address)
  | file (bytes : List UInt8)

def follow (d : Directory) (segment : String) : Place → Except PathError Place
  | .file _ => .error .notDirectory
  | .folder addr =>
    if Address.isIdle segment || segment == ".." then .ok (.folder (addr.enter segment))
    else if segmentLimit < segment.utf8ByteSize then .error .tooLong
    else match d.file? (addr.enter segment) with
      | some bytes => .ok (.file bytes)
      | none =>
        if d.hasFolder (addr.enter segment) then .ok (.folder (addr.enter segment))
        else .error .missing

def followAll (d : Directory) (place : Place) : List String → Except PathError Place
  | [] => .ok place
  | segment :: rest =>
    match d.follow segment place with
    | .error e => .error e
    | .ok place => d.followAll place rest

/-- What a place is to someone who opens it. -/
def Place.entry : Place → Entry
  | .folder _ => .directory
  | .file bytes => .file bytes

def find (d : Directory) (path : String) : Except PathError Entry :=
  if path.toList.contains '\x00' then .error .nullCharacter
  else if path = "" then .error .missing
  else if pathLimit < path.utf8ByteSize then .error .tooLong
  else
    (d.followAll (.folder (Address.start path)) (Address.segments path)).map Place.entry

def files (d : Directory) : Files := ⟨d.find⟩

end Directory

end BlockLang
