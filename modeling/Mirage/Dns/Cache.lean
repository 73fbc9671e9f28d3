import Mirage.Dns.Keys
import Mirage.Lib.Trace
import Mathlib.Data.List.Rotate

/-!
`DnsCache` of dns/server.rs. The hash map is an association list with one
entry a key; the order in which a map is walked is unspecified, so the one
place where it matters takes a rotation as an argument. Instants and durations
are nanoseconds.
-/

namespace Mirage.Dns
open Word Text

section Responses

def patchForQuery (resp req : Bytes) : Bytes :=
  if resp.length < 12 ∨ req.length < 12 then resp
  else
    let resp := req.take 2 ++ resp.drop 2
    let qEnd := questionEnd req
    if u16At resp 4 ≠ 0 ∧ 12 < qEnd ∧ qEnd ≤ resp.length ∧ qEnd ≤ req.length then
      resp.take 12 ++ (req.take qEnd).drop 12 ++ resp.drop qEnd
    else resp

/-- Whether a response answers the query: id, QR and the question in any case.
An error without answers may leave the question out. -/
def responseMatches (req resp : Bytes) : Bool :=
  if req.length < 12 ∨ resp.length < 12 then false
  else if resp.take 2 ≠ req.take 2 ∨ resp.getD 2 0 &&& 0x80 = 0 then false
  else if u16At resp 4 = 0 ∧ u16At resp 6 = 0 ∧ resp.getD 3 0 &&& 0x0F ≠ 0 then true
  else if u16At resp 4 ≠ 1 then false
  else
    let qEnd := questionEnd req
    12 < qEnd && qEnd ≤ resp.length && u16At resp 4 = u16At req 4 &&
      ((req.take qEnd).drop 12).map toAsciiLowercase =
        ((resp.take qEnd).drop 12).map toAsciiLowercase

/-- The least TTL of the records walked; a record cut short ends the walk. -/
def minTtlFrom (resp : Bytes) : Nat → Nat → Option Nat → Option (Option Nat)
  | 0, _, least => some least
  | count + 1, pos, least => do
      let pos ← skipName resp pos
      if resp.length < pos + 10 then some least
      else
        let ttl := u32At resp (pos + 4)
        let rdlen := u16At resp (pos + 8)
        minTtlFrom resp count (pos + 10 + rdlen)
          (some (match least with
            | some m => min m ttl
            | none => ttl))

def minAnswerTtl (resp : Bytes) : Option Nat :=
  if resp.length < 12 ∨ u16At resp 6 = 0 then none
  else (minTtlFrom resp (u16At resp 6) (questionEnd resp) none).join

def writeAt (data : Bytes) (pos : Nat) (bytes : Bytes) : Bytes :=
  data.take pos ++ bytes ++ data.drop (pos + bytes.length)

def be32 (n : Nat) : Bytes :=
  [UInt8.ofNat (n / 2 ^ 24), UInt8.ofNat (n / 2 ^ 16), UInt8.ofNat (n / 2 ^ 8), UInt8.ofNat n]

def setTtlsFrom (ttl : Nat) : Nat → Nat → Bytes → Bytes
  | 0, _, resp => resp
  | count + 1, pos, resp =>
      match skipName resp pos with
      | none => resp
      | some afterName =>
          let rdlenAt := afterName + 8
          if resp.length < rdlenAt + 2 then resp
          else
            let resp := writeAt resp (afterName + 4) (be32 ttl)
            let nextPos := rdlenAt + 2 + u16At resp rdlenAt
            if resp.length < nextPos then resp else setTtlsFrom ttl count nextPos resp

def setAnswerTtls (resp : Bytes) (ttl : Nat) : Bytes :=
  if resp.length < 12 ∨ u16At resp 6 = 0 then resp
  else setTtlsFrom ttl (u16At resp 6) (questionEnd resp) resp

/-- The negative TTL of the first SOA among the authority records. -/
def soaTtlFrom (resp : Bytes) : Nat → Nat → Option Nat
  | 0, _ => none
  | count + 1, pos => do
      let afterName ← skipName resp pos
      let rdlenAt := afterName + 8
      if resp.length < rdlenAt + 2 then none
      else
        let rrtype := u16At resp afterName
        let ttl := u32At resp (afterName + 4)
        let rdlen := u16At resp rdlenAt
        let rdataEnd := rdlenAt + 2 + rdlen
        if resp.length < rdataEnd then none
        else if rrtype = 6 then
          if rdlen < 22 then none
          else some (min (max (min ttl (u32At resp (rdataEnd - 4))) 1) 300)
        else soaTtlFrom resp count rdataEnd

def negativeTtl (resp : Bytes) : Option Nat :=
  if resp.length < 12 ∨ u16At resp 8 = 0 then none
  else do
    let pos ← skipMany (skipRr resp) (u16At resp 6) (questionEnd resp)
    soaTtlFrom resp (u16At resp 8) pos

def cacheTtl (response : Bytes) : Option (Nat × Bool) :=
  if response.length < 12 then none
  else if response.getD 2 0 &&& 0x02 ≠ 0 then none
  else
    let rcode := response.getD 3 0 &&& 0x0F
    let ancount := u16At response 6
    if rcode = 0 ∧ 0 < ancount then
      (minAnswerTtl response).map fun t => (min (max t 1) 3600, false)
    else if rcode = 3 ∨ (rcode = 0 ∧ ancount = 0) then
      (negativeTtl response).map fun t => (t, true)
    else none

end Responses

section Store

def second : Nat := 10 ^ 9

def staleWindow : Nat := 3600 * second

def staleTtl : Nat := 30

def failureRecheck : Nat := 30 * second

structure CacheEntry where
  response : Bytes
  expiry : Nat
  ttl : Nat
  negative : Bool
  failedAt : Option Nat
  prefetching : Bool
  deriving DecidableEq

structure DnsCache where
  map : List (CacheKey × CacheEntry)
  maxEntries : Nat

namespace DnsCache

def new (maxEntries : Nat) : DnsCache := ⟨[], max maxEntries 1⟩

def lookup (self : DnsCache) (key : CacheKey) : Option CacheEntry :=
  (self.map.find? fun item => item.1 = key).map Prod.snd

def remove (self : DnsCache) (key : CacheKey) : DnsCache :=
  { self with map := self.map.filter fun item => item.1 ≠ key }

def insert (self : DnsCache) (key : CacheKey) (entry : CacheEntry) : DnsCache :=
  { self with map := (key, entry) :: (self.remove key).map }

/-- `get_mut`: change the entry of a key in place. -/
def modify (self : DnsCache) (key : CacheKey) (change : CacheEntry → CacheEntry) : DnsCache :=
  { self with map := self.map.map fun item =>
      if item.1 = key then (item.1, change item.2) else item }

def get (self : DnsCache) (now : Nat) (path : ResolvePath) (domain : String) (qtype : Nat)
    (query : Bytes) : Option Bytes := do
  let key ← cacheKey path domain qtype query
  let e ← self.lookup key
  if e.expiry ≤ now then none
  else if (ednsInfo query).maxUdp < e.response.length then none
  else some (patchForQuery e.response query)

/-- A positive entry of ten seconds or more, in the last tenth of its life. -/
def CacheEntry.shouldPrefetch (e : CacheEntry) (now : Nat) : Bool :=
  !e.negative && 10 * second ≤ e.ttl && !e.prefetching && e.expiry - now ≤ e.ttl / 10

def getWithPrefetch (self : DnsCache) (now : Nat) (path : ResolvePath) (domain : String)
    (qtype : Nat) (query : Bytes) : Option (Bytes × Bool) × DnsCache :=
  match cacheKey path domain qtype query with
  | none => (none, self)
  | some key =>
      match self.lookup key with
      | none => (none, self)
      | some e =>
          if e.expiry ≤ now then (none, self)
          else if (ednsInfo query).maxUdp < e.response.length then (none, self)
          else if CacheEntry.shouldPrefetch e now then
            (some (patchForQuery e.response query, true),
              self.modify key fun e => { e with prefetching := true })
          else (some (patchForQuery e.response query, false), self)

def getStaleWithRecheck (self : DnsCache) (now : Nat) (path : ResolvePath) (domain : String)
    (qtype : Nat) (query : Bytes) : Option (Bytes × Bool) × DnsCache :=
  match cacheKey path domain qtype query with
  | none => (none, self)
  | some key =>
      match self.lookup key with
      | none => (none, self)
      | some e =>
          if e.negative then (none, self)
          else if now < e.expiry then (none, self)
          else if staleWindow ≤ now - e.expiry then (none, self.remove key)
          else if (ednsInfo query).maxUdp < e.response.length then (none, self)
          else
            let failedRecently := match e.failedAt with
              | some t => decide (now - t < failureRecheck)
              | none => false
            (some (setAnswerTtls (patchForQuery e.response query) staleTtl, failedRecently), self)

def markFailed (self : DnsCache) (now : Nat) (path : ResolvePath) (domain : String) (qtype : Nat)
    (query : Bytes) : DnsCache :=
  match cacheKey path domain qtype query with
  | none => self
  | some key => self.modify key fun e => { e with failedAt := some now, prefetching := false }

def clearPrefetching (self : DnsCache) (path : ResolvePath) (domain : String) (qtype : Nat)
    (query : Bytes) : DnsCache :=
  match cacheKey path domain qtype query with
  | none => self
  | some key => self.modify key fun e => { e with prefetching := false }

/-- Make room for a new key: what is past the stale window, else an expired
entry, else any. -/
def evict (self : DnsCache) (now rotation : Nat) (key : CacheKey) : DnsCache :=
  if self.map.length < self.maxEntries ∨ (self.lookup key).isSome then self
  else
    let kept := self.map.filter fun item => now - item.2.expiry < staleWindow
    let self := { self with map := kept }
    if kept.length < self.maxEntries then self
    else
      let walked := kept.rotate rotation
      match ((walked.find? fun item => item.2.expiry ≤ now).map Prod.fst).or
          (walked.head?.map Prod.fst) with
      | none => self
      | some victim => self.remove victim

def put (self : DnsCache) (now rotation : Nat) (path : ResolvePath) (domain : String)
    (qtype : Nat) (query response : Bytes) : DnsCache :=
  match cacheKey path domain qtype query, cacheTtl response with
  | some key, some (ttl, negative) =>
      (self.evict now rotation key).insert key {
        response := response
        expiry := now + ttl * second
        ttl := ttl * second
        negative := negative
        failedAt := none
        prefetching := false }
  | _, _ => self

end DnsCache

end Store

end Mirage.Dns
