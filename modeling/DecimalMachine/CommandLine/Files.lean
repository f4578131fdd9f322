import DecimalMachine.Program.Loading

/-!
Files: a tree of files under the system's root, and reading and writing by path in it.

A path is walked component by component, from the root or from the current directory; each component
but the last must be a directory. Beside files and directories a tree holds devices, among them the
streams of the process itself.
-/

namespace DecimalMachine

inductive Device where
  | null
  /-- Nothing can be written. -/
  | full
  | input (bytes : List UInt8)
  | output
  | errors
  | terminal

inductive Node where
  | file (bytes : List UInt8)
  | directory
  | device (d : Device)

def streamNames (name number : String) : List (List String) :=
  [["dev", name], ["dev", "fd", number], ["proc", "self", "fd", number]]

def systemDirectories : List String :=
  ["bin", "boot", "dev", "etc", "home", "lib", "media", "mnt", "opt", "proc", "root", "run", "sbin",
    "srv", "sys", "tmp", "usr", "var"]

def systemNodes : List (List String × Node) :=
  [(["dev", "null"], .device .null), (["dev", "full"], .device .full),
    (["dev", "tty"], .device .terminal)] ++
    (streamNames "stdout" "1").map (·, .device .output) ++
    (streamNames "stderr" "2").map (·, .device .errors) ++
    systemDirectories.map fun name => ([name], .directory)

structure FileTree where
  current : List String := ["tmp", "current"]
  nodes : List (List String × Node) := systemNodes

inductive Destination where
  | file (path : List String)
  | nowhere
  | output
  | errors

namespace FileTree

def addAll (t : FileTree) (nodes : List (List String × Node)) : FileTree :=
  { t with nodes := nodes.map (fun (path, node) => (t.current ++ path, node)) ++ t.nodes }

def withInput (t : FileTree) (bytes : List UInt8) : FileTree :=
  { t with nodes := (streamNames "stdin" "0").map (·, .device (.input bytes)) ++ t.nodes }

def put (t : FileTree) (path : List String) (bytes : List UInt8) : FileTree :=
  { t with nodes := (path, .file bytes) :: t.nodes.filter fun node => node.1 != path }

/-- What the tree holds at a path; a directory need not be named if something lies in it. -/
def lookup (t : FileTree) (path : List String) : Option Node :=
  match t.nodes.find? fun node => node.1 == path with
  | some (_, node) => some node
  | none =>
    if path.isPrefixOf t.current || t.nodes.any (fun node => path.isPrefixOf node.1) then
      some .directory
    else none

def nameLimit : Nat := 255

def pathLimit : Nat := 4095

/-- Where a component leads from a directory. The root lies in itself. -/
def enter (path : List String) : String → List String
  | "." => path
  | ".." => path.dropLast
  | name => path ++ [name]

def walk (t : FileTree) : List String → List String → Except IoError (List String)
  | place, [] => .ok place
  | place, name :: rest =>
    match t.lookup place with
    | some .directory =>
      if nameLimit < name.utf8ByteSize then .error .nameTooLong else t.walk (enter place name) rest
    | some _ => .error .notDirectory
    | none => .error .notFound

def endsInSlash (path : String) : Bool := path.toList.getLast? == some '/'

def start (t : FileTree) (path : String) : List String :=
  if path.toList.head? == some '/' then [] else t.current

def components (path : String) : Except IoError (List String) :=
  if path.toList.contains '\x00' then .error .nulInPath
  else if path.isEmpty then .error .notFound
  else if pathLimit < path.utf8ByteSize then .error .nameTooLong
  else .ok ((path.splitOn "/").filter fun name => !name.isEmpty)

def resolve (t : FileTree) (path : String) : Except IoError (List String) := do
  t.walk (t.start path) (← components path)

def contents : Node → Except IoError (List UInt8)
  | .file bytes => .ok bytes
  | .device .null => .ok []
  | .device (.input bytes) => .ok bytes
  | .device .terminal => .error .noDevice
  | .device _ => .error .notFound
  | .directory => .error .isDirectory

def read (t : FileTree) (path : String) : Except IoError (List UInt8) := do
  match t.lookup (← t.resolve path) with
  | none => .error .notFound
  | some .directory => .error .isDirectory
  | some node => if endsInSlash path then .error .notDirectory else contents node

/-- Where a whole file that is written at a place goes. Among the processes no file can be made. -/
def destinationAt (t : FileTree) (place : List String) : Except IoError Destination :=
  match t.lookup place with
  | some (.file _) => .ok (.file place)
  | some .directory => .error .isDirectory
  | some (.device .null) => .ok .nowhere
  | some (.device (.input _)) => .ok .nowhere
  | some (.device .full) => .error .noSpace
  | some (.device .output) => .ok .output
  | some (.device .errors) => .ok .errors
  | some (.device .terminal) => .error .noDevice
  | none => if place.head? == some "proc" then .error .notFound else .ok (.file place)

/-- Where a whole file that is written by path goes. A file cannot be made by a path that ends in a
slash. That path is refused once the directory for its last component is found, before the
component itself is looked at. -/
def destination (t : FileTree) (path : String) : Except IoError Destination := do
  let names ← components path
  if endsInSlash path then
    let _ ← t.walk (t.start path) (names.dropLast ++ ["."])
    .error .isDirectory
  else t.destinationAt (← t.walk (t.start path) names)

end FileTree

end DecimalMachine
