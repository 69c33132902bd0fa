import YieldLock.SystemError

/-!
# File trees

The folders, files and links that a path can lead to, and what the system says of a
path that is read. A path is followed name by name, from the root or from the folder
where the program runs. Besides that folder a tree holds what nearly every system
has; whatever else a path names is not found.
-/

namespace YieldLock.Demo

namespace FileTree

/-- The names that lead from the root to a place. -/
abbrev Location := List String

/-- The location that an absolute path spells. -/
def locate (path : String) : Location := (path.splitOn "/").filter (· ≠ "")

inductive Node where
  | folder
  | file (contents : ByteArray)
  /-- Another name for a place that is no link itself. -/
  | link (target : Location)

end FileTree

open FileTree in
structure FileTree where
  nodes : List (Location × Node)
  /-- Where the paths start that do not start at the root. -/
  start : Location

namespace FileTree

def notFound : SystemError := .code 2

def notADirectory : SystemError := .code 20

def isADirectory : SystemError := .code 21

def nameTooLong : SystemError := .code 36

/-- The least number of bytes that a path cannot have. -/
def pathLimit : Nat := 4096

/-- The most bytes that a name can have. -/
def nameLimit : Nat := 255

def node? (tree : FileTree) (place : Location) : Option Node :=
  if place.isEmpty then some .folder else tree.nodes.lookup place

/-- Enters what a folder holds under a name; a link leads to its target. -/
def descend (tree : FileTree) (place : Location) (name : String) :
    Except SystemError Location :=
  let below := place ++ [name]
  match tree.node? below with
  | some (.link target) => .ok target
  | some _ => .ok below
  | none => .error notFound

/-- Follows one name of a path; the root is its own parent. -/
def follow (tree : FileTree) (place : Location) (name : String) :
    Except SystemError Location :=
  match tree.node? place with
  | some (.file _) => .error notADirectory
  | _ =>
    if name = "" || name = "." then .ok place
    else if name = ".." then .ok place.dropLast
    else if nameLimit < name.utf8ByteSize then .error nameTooLong
    else tree.descend place name

/-- Reads the file that a path leads to. -/
def read (tree : FileTree) (path : String) : Except SystemError ByteArray := do
  if path = "" then throw notFound
  if pathLimit ≤ path.utf8ByteSize then throw nameTooLong
  let start := if path.toList.head? = some '/' then [] else tree.start
  let place ← (path.splitOn "/").foldlM tree.follow start
  match tree.node? place with
  | some (.file contents) => return contents
  | _ => throw isADirectory

/-- A folder for temporary work, under a name that no path can spell. -/
def workplace : Location := ["tmp", ""]

def systemFolders : List String :=
  ["/boot", "/dev", "/dev/pts", "/dev/shm", "/etc", "/home", "/media", "/mnt", "/opt", "/proc",
    "/proc/self", "/proc/self/fd", "/proc/self/task", "/proc/sys", "/root", "/run", "/srv", "/sys",
    "/tmp", "/usr", "/usr/bin", "/usr/include", "/usr/lib", "/usr/local", "/usr/local/bin",
    "/usr/local/lib", "/usr/sbin", "/usr/share", "/usr/src", "/var", "/var/cache", "/var/lib",
    "/var/log", "/var/spool", "/var/tmp"]

def systemLinks : List (String × String) :=
  [("/bin", "/usr/bin"), ("/dev/fd", "/proc/self/fd"), ("/lib", "/usr/lib"),
    ("/proc/self/root", "/"), ("/sbin", "/usr/sbin"), ("/var/run", "/run")]

/-- A program begins like this, and its bytes are no text. -/
def program : ByteArray := ⟨#[0x7f, 0x45, 0x4c, 0x46, 0xff]⟩

def systemFiles : List (String × ByteArray) :=
  [("/dev/null", .empty), ("/etc/passwd", "root:x:0:0:root:/root:/bin/sh\n".toUTF8),
    ("/proc/self/exe", program), ("/usr/bin/env", program), ("/usr/bin/sh", program)]

/-- What nearly every system has, for a program that runs in a folder. -/
def systemNodes (start : Location) : List (Location × Node) :=
  systemFolders.map (fun path ↦ (locate path, .folder)) ++
    systemLinks.map (fun (path, target) ↦ (locate path, .link (locate target))) ++
    systemFiles.map (fun (path, contents) ↦ (locate path, .file contents)) ++
    [(locate "/proc/self/cwd", .link start)]

/-- A workplace with files and with folders that are empty. -/
def ofWorkplace (files : List (String × ByteArray)) (folders : List String) : FileTree where
  nodes :=
    (workplace, .folder) ::
      files.map (fun (name, contents) ↦ (workplace ++ [name], .file contents)) ++
      folders.map (fun name ↦ (workplace ++ [name], .folder)) ++ systemNodes workplace
  start := workplace

end FileTree

end YieldLock.Demo
