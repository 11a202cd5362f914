import Yvent.Http.Context
import Yvent.Http.Response

/-!
# The web server

`WebServer::onRequest`, the HTTP callback that answers a request with a file below the directory
`dirfd`. The file system answers `fstatat` and `openat` as it likes, a repeated question too.
`std::string::substr` throws behind the end of the string; an index beyond the end of `path` counts
as such a throw. Nothing in the server catches it.
-/

namespace Yvent.WebServer

open Http

/-- The full stop. -/
def DOT : UInt8 := 46
/-- The slash. -/
def SLASH : UInt8 := 47

/-- What `onRequest` uses of a `struct stat`. -/
structure Stat where
  mode : BitVec 32
  size : Int
  deriving DecidableEq, Repr

/-- The file type of a directory. -/
def S_IFDIR : BitVec 32 := 0o040000#32

/-- `st_mode & S_IFDIR`: directories, and whatever else has that bit. -/
def Stat.isDir (stats : Stat) : Bool := stats.mode &&& S_IFDIR ≠ 0

/-- The path of a call that is relative to `dirfd`. -/
inductive Call where
  | fstatat (path : Bytes)
  | openat (path : Bytes)
  deriving DecidableEq, Repr

/-- The path given to the system. -/
def Call.path : Call → Bytes
  | .fstatat path | .openat path => path

/-- The answers of the file system, given the number of the call. -/
structure FileSystem where
  fstatat : Nat → Bytes → Option Stat
  openat : Bytes → Int

/-- `std::out_of_range`. -/
inductive Thrown where
  | outOfRange
  deriving DecidableEq, Repr

/-- `rfind(c)`. -/
def rfind (c : UInt8) : Bytes → Option Nat
  | [] => none
  | b :: rest =>
    match rfind c rest with
    | some pos => some (pos + 1)
    | none => if b = c then some 0 else none

/-- `substr(pos)`. -/
def substr (s : Bytes) (pos : Nat) : Except Thrown Bytes :=
  if pos ≤ s.length then .ok (s.drop pos) else .error .outOfRange

/-- `s[s.size()-1]`. -/
def lastByte (s : Bytes) : Except Thrown UInt8 :=
  match s.getLast? with
  | some c => .ok c
  | none => .error .outOfRange

/-- What a C function makes of `s.c_str()`. -/
def cString (s : Bytes) : Bytes := s.takeWhile (· ≠ 0)

/-- `location_.indexs`. -/
def indexs : List Bytes :=
  [ascii ['i', 'n', 'd', 'e', 'x', '.', 'h', 't', 'm', 'l'],
    ascii ['i', 'n', 'd', 'e', 'x', '.', 'h', 't', 'm']]

/-- `"text/html; charset=utf-8"` -/
def textHtml : Bytes :=
  ascii ['t', 'e', 'x', 't', '/', 'h', 't', 'm', 'l', ';', ' ', 'c', 'h', 'a', 'r', 's', 'e', 't',
    '=', 'u', 't', 'f', '-', '8']

/-- `"text/plain; charset=utf-8"` -/
def textPlain : Bytes :=
  ascii ['t', 'e', 'x', 't', '/', 'p', 'l', 'a', 'i', 'n', ';', ' ', 'c', 'h', 'a', 'r', 's', 'e',
    't', '=', 'u', 't', 'f', '-', '8']

/-- `contentTypes`. -/
def contentTypes : List (Bytes × Bytes) :=
  [(ascii ['h', 't', 'm', 'l'], textHtml),
    (ascii ['t', 'x', 't'], textPlain),
    (ascii ['x', 'm', 'l'], ascii ['t', 'e', 'x', 't', '/', 'x', 'm', 'l']),
    (ascii ['a', 's', 'p'], ascii ['t', 'e', 'x', 't', '/', 'a', 's', 'p']),
    (ascii ['c', 's', 's'], ascii ['t', 'e', 'x', 't', '/', 'c', 's', 's']),
    (ascii ['g', 'i', 'f'], ascii ['i', 'm', 'a', 'g', 'e', '/', 'g', 'i', 'f']),
    (ascii ['i', 'c', 'o'], ascii ['i', 'm', 'a', 'g', 'e', '/', 'x', '-', 'i', 'c', 'o', 'n']),
    (ascii ['p', 'n', 'g'], ascii ['i', 'm', 'a', 'g', 'e', '/', 'p', 'n', 'g']),
    (ascii ['j', 'p', 'g'], ascii ['i', 'm', 'a', 'g', 'e', '/', 'j', 'p', 'e', 'g']),
    (ascii ['j', 's'], ascii ['a', 'p', 'p', 'l', 'i', 'c', 'a', 't', 'i', 'o', 'n', '/', 'j', 'a',
      'v', 'a', 's', 'c', 'r', 'i', 'p', 't']),
    (ascii ['p', 'd', 'f'], ascii ['a', 'p', 'p', 'l', 'i', 'c', 'a', 't', 'i', 'o', 'n', '/', 'p',
      'd', 'f'])]

/-- What `onRequest` leaves: the response, and what it has given to `setSendFd`. -/
structure Served where
  response : HttpResponse
  sendFd : Option (Int × Stat)

/-- The calls that were made, and what was returned or thrown behind them. -/
abbrev Outcome (α : Type) := List Call × Except Thrown α

/-- `path`, `suffix` and `stats` when the file is opened. -/
structure Found where
  path : Bytes
  suffix : Bytes
  stats : Stat
  deriving DecidableEq, Repr

/-- The suffix of the request's path, with its dot. -/
def suffixOf (path : Bytes) : Except Thrown Bytes :=
  match rfind DOT path with
  | some pos => substr path pos
  | none => .ok []

/-- The path below `dirfd`. -/
def relativePath (path : Bytes) : Except Thrown Bytes :=
  if path.length = 1 then .ok [DOT, SLASH] else substr path 1

/-- `path` with a slash at its end. -/
def withSlash (path : Bytes) : Except Thrown Bytes :=
  (lastByte path).map fun c => if c ≠ SLASH then path ++ [SLASH] else path

/-- The loop over the index names, from the `n`-th call of `fstatat` on. -/
def findIndex (fs : FileSystem) (path suffix : Bytes) (n : Nat) :
    List Bytes → Outcome (Option Found)
  | [] => ([], .ok none)
  | name :: names =>
    let pathPre := path ++ name
    match fs.fstatat n (cString pathPre) with
    | none =>
      let (calls, result) := findIndex fs path suffix (n + 1) names
      (.fstatat pathPre :: calls, result)
    | some stats =>
      ([.fstatat pathPre],
        match rfind DOT pathPre with
        | some pos => (substr pathPre pos).map fun suffix => some ⟨pathPre, suffix, stats⟩
        | none => .ok (some ⟨path, suffix, stats⟩))

/-- The end of `onRequest`, with `stats` of the file. -/
def serveFile (fs : FileSystem) (found : Found) (rsp : HttpResponse) : Outcome Served :=
  ([.openat found.path],
    (substr found.suffix 1).map fun extension =>
      let rsp := rsp.setBodyLen found.stats.size
      let rsp := match contentTypes.lookup extension with
        | some contentType => rsp.setContentType contentType
        | none => rsp
      ⟨rsp, some (fs.openat (cString found.path), found.stats)⟩)

/-- From the answer of the first `fstatat` on. -/
def serve (fs : FileSystem) (path suffix : Bytes) (stats : Stat) (rsp : HttpResponse) :
    Outcome Served :=
  if stats.isDir then
    match withSlash path with
    | .error thrown => ([], .error thrown)
    | .ok path =>
      let (calls, result) := findIndex fs path suffix 1 indexs
      match result with
      | .error thrown => (calls, .error thrown)
      | .ok none => (calls, .ok ⟨rsp.setStatusCode .k404NotFound, none⟩)
      | .ok (some found) =>
        let (more, result) := serveFile fs found rsp
        (calls ++ more, result)
  else serveFile fs ⟨path, suffix, stats⟩ rsp

/-- `WebServer::onRequest`. -/
def onRequest (fs : FileSystem) (req : HttpRequest) (rsp : HttpResponse) : Outcome Served :=
  match suffixOf req.path with
  | .error thrown => ([], .error thrown)
  | .ok suffix =>
    match relativePath req.path with
    | .error thrown => ([], .error thrown)
    | .ok path =>
      match fs.fstatat 0 (cString path) with
      | none => ([.fstatat path], .ok ⟨rsp.setStatusCode .k404NotFound, none⟩)
      | some stats =>
        let (calls, result) := serve fs path suffix stats rsp
        (.fstatat path :: calls, result)

end Yvent.WebServer
