import Wiring.Settings.Reader

namespace Wiring.Settings

/-- What a path leads to. -/
inductive Node where
  | directory
  | emptyDevice
  deriving DecidableEq

/-- What is known of a file system; no other name in it stands for anything. -/
structure FileTree where
  directories : List String
  /-- Names that lead to a directory somewhere else. -/
  links : List (String × List String)
  emptyDevice : String
  /-- Where a path without a slash in front begins. -/
  start : List String

namespace FileTree

/-- The directory of this name in a directory, both as the parts of their paths. -/
def enter? (t : FileTree) (d : List String) (name : String) : Option (List String) :=
  let path := "/".intercalate (d ++ [name])
  match t.links.lookup path with
  | some target => some target
  | none => if t.directories.contains path then some (d ++ [name]) else none

/-- Goes on from a directory. -/
def walk (t : FileTree) (d : List String) : List String → Except Unopened Node
  | [] => .ok .directory
  | s :: rest =>
    if s = "" ∨ s = "." then t.walk d rest
    else if s = ".." then t.walk d.dropLast rest
    else if 255 < s.utf8ByteSize then .error .impassable
    else if "/".intercalate (d ++ [s]) = t.emptyDevice then
      if rest.isEmpty then .ok .emptyDevice else .error .impassable
    else
      match t.enter? d s with
      | some next => t.walk next rest
      | none => .error .noSuchFile

/-- A path is walked part by part, from the root if it begins with a slash. -/
def follow (t : FileTree) (p : String) : Except Unopened Node :=
  if p = "" then .error .noSuchFile
  else if p.toList.contains '\x00' ∨ 4096 ≤ p.utf8ByteSize then .error .impassable
  else t.walk (if p.startsWith "/" then [] else t.start) (p.splitOn "/")

/-- Only the empty device can be read, and holds nothing. -/
def opened (t : FileTree) (p : String) : Except Unopened (Option (List UInt8)) :=
  match t.follow p with
  | .error reason => .error reason
  | .ok .directory => .ok none
  | .ok .emptyDevice => .ok (some [])

/-- The standard directories and the links among them. -/
def standard : FileTree where
  directories := ["boot", "dev", "dev/pts", "dev/shm", "etc", "home", "media", "mnt", "opt", "proc",
    "proc/self", "root", "run", "run/lock", "srv", "sys", "tmp", "usr", "usr/bin", "usr/games",
    "usr/include", "usr/lib", "usr/lib64", "usr/local", "usr/local/bin", "usr/local/etc",
    "usr/local/games", "usr/local/include", "usr/local/lib", "usr/local/sbin", "usr/local/share",
    "usr/local/src", "usr/sbin", "usr/share", "usr/src", "var", "var/backups", "var/cache", "var/lib",
    "var/local", "var/log", "var/mail", "var/opt", "var/spool", "var/tmp"]
  links := [("bin", ["usr", "bin"]), ("lib", ["usr", "lib"]), ("lib64", ["usr", "lib64"]),
    ("sbin", ["usr", "sbin"]), ("var/lock", ["run", "lock"]), ("var/run", ["run"])]
  emptyDevice := "dev/null"
  start := ["home", "work"]

end FileTree

end Wiring.Settings
