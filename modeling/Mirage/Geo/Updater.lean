import Mathlib.Data.List.Infix
import Mathlib.Data.String.Basic
import Mathlib.Logic.Function.Basic
import Mirage.Geo.Dat
import Mirage.Lib.Trace

/-!
The updates of .dat files, router/geo_updater.rs: mirrors, validators and
meta.json. The process may die between any two file operations. Which requests
go through a proxy is left to the network.
-/

namespace Mirage.Geo
open Trace Word

inductive GeoVia where
  | direct
  | proxy

structure GeoSource where
  name : String
  kind : GeoKind
  url : List String
  via : GeoVia

structure Validators where
  etag : Option String
  lastModified : Option String
  deriving DecidableEq

structure SourceMeta where
  validators : Validators
  downloadedAt : Nat
  urls : List String

/-- `MetaFile`; a missing or damaged meta.json is an empty one. -/
abbrev MetaFile := String → Option SourceMeta

def geoSourceNameOk (name : String) : Bool :=
  !decide (name = "") && !name.toList.contains '/' && !name.toList.contains '\\' &&
    !decide ("..".toList <:+: name.toList)

section Fetch

/-- A status and how it is printed, the validators that are texts, and the body. -/
structure Response where
  status : Nat
  statusText : String
  validators : Validators
  body : Except String Bytes

inductive FetchOutcome where
  | body (bytes : Bytes) (validators : Validators)
  | notModified

inductive Attempt where
  | primary
  | direct

/-- Clients that are built or not, and what comes back of a request to a mirror. -/
structure Network where
  client : Attempt → Nat → Except String Unit
  answer : Attempt → Nat → Option Validators → Except String Response

def minValidBytes : Nat := 1024

def doFetch (sent : Except String Response) : Except String FetchOutcome :=
  match sent with
  | .error reason => .error ("send: " ++ reason)
  | .ok resp =>
      if resp.status = 304 then .ok .notModified
      else if resp.status < 200 ∨ 300 ≤ resp.status then .error ("HTTP " ++ resp.statusText)
      else
        match resp.body with
        | .error reason => .error ("read body: " ++ reason)
        | .ok bytes =>
            if bytes.length < minValidBytes then
              .error ("body too small (" ++ bytes.length.repr ++ " bytes < " ++ minValidBytes.repr ++
                "), refusing to overwrite existing .dat")
            else .ok (.body bytes resp.validators)

variable (source : GeoSource) (net : Network) (cond : Option Validators)

/-- The mirrors from one on, and the URL of the first that answers. -/
def fetchMirrors (lastErr : String) : Nat → List String → Except String (String × FetchOutcome)
  | _, [] =>
      .error ("all " ++ source.url.length.repr ++ " mirror(s) failed: " ++ lastErr)
  | i, url :: rest =>
      match net.client .primary i with
      | .error reason => .error reason
      | .ok _ =>
          match doFetch (net.answer .primary i cond), source.via with
          | .ok out, _ => .ok (url, out)
          | .error e, .direct => fetchMirrors e (i + 1) rest
          | .error e, .proxy =>
              match net.client .direct i with
              | .error reason => .error reason
              | .ok _ =>
                  match doFetch (net.answer .direct i cond) with
                  | .ok out => .ok (url, out)
                  | .error e2 =>
                      fetchMirrors ("proxy: " ++ e ++ "; direct: " ++ e2) (i + 1) rest

def fetchWithFallback : Except String (String × FetchOutcome) :=
  fetchMirrors source net cond "no url configured" 0 source.url

variable {source net cond}

theorem answered_of_fetchMirrors {lastErr : String} {i : Nat} {urls : List String} {url : String}
    {out : FetchOutcome} (here : source.url.drop i = urls)
    (fetched : fetchMirrors source net cond lastErr i urls = .ok (url, out)) :
    ∃ attempt j, source.url[j]? = some url ∧ doFetch (net.answer attempt j cond) = .ok out := by
  induction urls generalizing i lastErr with
  | nil => cases fetched
  | cons first rest ih =>
      have there : source.url[i]? = some first := by
        rw [← List.head?_drop, here, List.head?_cons]
      have after : source.url.drop (i + 1) = rest := by
        rw [← List.tail_drop, here, List.tail_cons]
      rw [fetchMirrors] at fetched
      split at fetched
      · cases fetched
      · split at fetched
        · next hit =>
          cases fetched
          exact ⟨_, _, there, hit⟩
        · exact ih after fetched
        · split at fetched
          · cases fetched
          · split at fetched
            · next hit =>
              cases fetched
              exact ⟨_, _, there, hit⟩
            · exact ih after fetched

theorem answered_of_fetch {url : String} {out : FetchOutcome}
    (fetched : fetchWithFallback source net cond = .ok (url, out)) :
    ∃ attempt j, source.url[j]? = some url ∧ doFetch (net.answer attempt j cond) = .ok out :=
  answered_of_fetchMirrors List.drop_zero fetched

end Fetch

section Update

structure Disk where
  dat : String → Option Bytes
  tmp : String → Option Bytes
  metadata : MetaFile

inductive FileOp where
  | writeTmp (name : String) (content : Bytes)
  | removeTmp (name : String)
  | rename (name : String)

namespace Disk
variable (disk : Disk)

def apply : FileOp → Disk
  | .writeTmp name content => { disk with tmp := Function.update disk.tmp name (some content) }
  | .removeTmp name => { disk with tmp := Function.update disk.tmp name none }
  | .rename name =>
      { disk with
        dat := Function.update disk.dat name (disk.tmp name)
        tmp := Function.update disk.tmp name none }

end Disk

/-- What an update meets: the network, the clock before and after it, the age of
the file, and which of the file operations succeed. A write may fail halfway. -/
structure Env where
  net : Network
  now : Nat
  later : Nat
  fileAge : Option Nat
  dirMade : Bool
  written : Option Bytes
  readable : Bool
  renamed : Bool
  removed : Bool

/-- The kind is not looked at. -/
def validateDat (read : Except String Bytes) (_kind : GeoKind) : Except String Unit :=
  match read.bind countCategories with
  | .error reason => .error reason
  | .ok n =>
      if n = 0 then
        .error "parsed 0 categories - likely an HTML error/rate-limit page rather than geo data"
      else .ok ()

variable (updateDays : Nat) (source : GeoSource) (env : Env) (disk : Disk) (metadata : MetaFile)

def urlChanged : Bool :=
  match metadata source.name with
  | some m => !m.urls.isEmpty && !decide (m.urls = source.url)
  | none => false

def age : Option Nat :=
  match metadata source.name with
  | some m => if 0 < m.downloadedAt then some (env.now - m.downloadedAt) else env.fileAge
  | none => env.fileAge

def upToDate : Bool :=
  (disk.dat source.name).isSome && !urlChanged source metadata &&
    match age source env metadata with
    | some age => age < max updateDays 1 * 86400
    | none => false

def condition : Option Validators :=
  if (disk.dat source.name).isSome && !urlChanged source metadata then
    (metadata source.name).map SourceMeta.validators
  else none

def stamped (validators : Validators) : MetaFile :=
  Function.update metadata source.name (some ⟨validators, env.later, source.url⟩)

/-- The file operations that put a body in place, and whether that succeeds. -/
def install (bytes : Bytes) (validators : Validators) : List FileOp × Except String MetaFile :=
  let name := source.name
  let undo := if env.removed then [FileOp.removeTmp name] else []
  if !env.dirMade then ([], .error "failed to create geo directory")
  else
    match env.written with
    | some part => ([.writeTmp name part], .error "Write tmp failed")
    | none =>
        match validateDat (if env.readable then .ok bytes else .error "read") source.kind with
        | .error _ => (.writeTmp name bytes :: undo, .error "downloaded data failed validation")
        | .ok _ =>
            if !env.renamed then (.writeTmp name bytes :: undo, .error "Rename failed")
            else
              ([.writeTmp name bytes, .rename name],
                .ok (stamped source env metadata validators))

/-- The request an update makes with its outcome, when it makes one. -/
def request : Option (Option Validators × Except String (String × FetchOutcome)) :=
  if !geoSourceNameOk source.name || upToDate updateDays source env disk metadata then none
  else
    let cond := condition source disk metadata
    some (cond, fetchWithFallback source env.net cond)

/-- The file operations of an update, and the metadata it leaves when it succeeds. -/
def updateOne : List FileOp × Except String MetaFile :=
  match request updateDays source env disk metadata with
  | none =>
      if !geoSourceNameOk source.name then
        ([], .error ("geo_sources.name `" ++ source.name ++
          "` is invalid (must not be empty, contain path separators or \"..\")"))
      else ([], .ok metadata)
  | some (_, .error reason) => ([], .error reason)
  | some (_, .ok (_, .notModified)) =>
      ([], .ok (stamped source env metadata
        (((metadata source.name).map SourceMeta.validators).getD ⟨none, none⟩)))
  | some (_, .ok (_, .body bytes validators)) => install source env metadata bytes validators

end Update

end Mirage.Geo
