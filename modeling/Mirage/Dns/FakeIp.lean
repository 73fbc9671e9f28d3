import Mirage.Lib.Lines
import Mirage.Lib.NumberText
import Mirage.Lib.Trace
import Mirage.Lib.TwoWay
import Mirage.Tunnel.Cipher

/-!
The fake-IP table of dns/fake_ip.rs: the range it hands addresses out of, the
assignment of addresses in turn, and the file it is kept in. A write that fails
on the disk is left out, as are the excluded names, which never come here.
-/

namespace Mirage.Dns
open Word Text Lines NumberText TwoWay Trace
open Tunnel (isWhitespace trim)

section Range

def netmask (prefixLen : Nat) : BitVec 32 :=
  if prefixLen = 0 then 0 else BitVec.allOnes 32 <<< (32 - prefixLen)

/-- The range of a mapper: a network with at least three host bits. -/
structure FakeRange where
  network : BitVec 32
  prefixLen : Nat
  roomy : prefixLen ≤ 29
  aligned : network &&& netmask prefixLen = network
  deriving DecidableEq

namespace FakeRange

variable (range : FakeRange)

def mask : BitVec 32 := netmask range.prefixLen

def contains (ip : BitVec 32) : Bool := ip &&& range.mask = range.network

def host (ip : BitVec 32) : BitVec 32 := ip &&& ~~~range.mask

def broadcastHost : BitVec 32 := ~~~range.mask

def gateway : BitVec 32 := range.network + 1

def broadcast : BitVec 32 := range.network ||| ~~~range.mask

def hostBits : Nat := 32 - range.prefixLen

/-- The addresses left without the network, the gateway and the broadcast address. -/
def capacity : Nat := 2 ^ range.hostBits - 3

end FakeRange

/-- The range of a CIDR text, or the refusal of `with_persist`. -/
def parseFakeRange (cidr : String) : Option FakeRange :=
  match cidr.toList.splitOn '/' with
  | [address, len] =>
      match parseIpv4 (String.ofList address), parseUnsigned (2 ^ 32) (String.ofList len) with
      | some ip, some prefixLen =>
          if roomy : prefixLen ≤ 29 then
            some ⟨ip &&& netmask prefixLen, prefixLen, roomy, by
              rw [BitVec.and_assoc, BitVec.and_self]⟩
          else none
      | _, _ => none
  | _ => none

end Range

section Mapper

structure FakeIpMapper where
  range : FakeRange
  nextIp : BitVec 32
  domainToIp : Table String (BitVec 32)
  ipToDomain : Table (BitVec 32) String
  dirty : Bool

namespace FakeIpMapper

def new (range : FakeRange) : FakeIpMapper := ⟨range, range.network + 2, ∅, ∅, false⟩

def maps (mapper : FakeIpMapper) : Maps String (BitVec 32) :=
  ⟨mapper.domainToIp, mapper.ipToDomain⟩

variable (table : CaseTable)

/-- The address of a name and the name that lost it. -/
def lookupOrAssignWithEviction (mapper : FakeIpMapper) (name : String) :
    (BitVec 32 × Option String) × FakeIpMapper :=
  let domain := toLowercase table name
  match mapper.domainToIp.lookup domain with
  | some ip => ((ip, none), mapper)
  | none =>
      let ip := mapper.nextIp
      let following := ip + 1
      let next :=
        -- All host bits set is the broadcast address: back to the start.
        if mapper.range.host following = mapper.range.broadcastHost then mapper.range.network + 2
        else following
      let (evicted, kept) :=
        match mapper.ipToDomain.lookup ip with
        | some old =>
            if old = domain then (none, mapper.domainToIp)
            else (some old, mapper.domainToIp.erase old)
        | none => (none, mapper.domainToIp)
      ((ip, evicted),
        { mapper with
          nextIp := next
          domainToIp := kept.insert domain ip
          ipToDomain := mapper.ipToDomain.insert ip domain
          dirty := true })

def lookupDomain (mapper : FakeIpMapper) (ip : BitVec 32) : Option String :=
  mapper.ipToDomain.lookup ip

end FakeIpMapper

end Mapper

section File

def stripPrefix (lead : String) (text : List Char) : Option (List Char) :=
  if lead.toList <+: text then some (text.drop lead.length) else none

inductive FileLine where
  | skipped
  | nextIp (value : Option Nat)
  | mapping (ip : BitVec 32) (domain : String)
  deriving DecidableEq

/-- What `load` makes of one line. -/
def readLine (table : CaseTable) (range : FakeRange) (text : List Char) : FileLine :=
  let line := trim text
  if line = [] ∨ line.head? = some '#' then .skipped
  else
    match stripPrefix "next_ip=" line with
    | some value => .nextIp (parseUnsigned (2 ^ 32) (String.ofList (trim value)))
    | none =>
        match line.dropWhile (· ≠ ' ') with
        | [] | [_] => .skipped
        | _ :: domain =>
            match parseIpv4 (String.ofList (line.takeWhile (· ≠ ' '))) with
            | none => .skipped
            | some ip =>
                -- Another range's address, or one that is never handed out.
                if !range.contains ip || range.host ip < 2 ||
                    range.host ip = range.broadcastHost then .skipped
                else .mapping ip (toLowercase table (String.ofList domain))

namespace FakeIpMapper

def loadLine (state : FakeIpMapper × Option Nat) (line : FileLine) : FakeIpMapper × Option Nat :=
  match line with
  | .skipped => state
  | .nextIp value => (state.1, value)
  | .mapping ip domain =>
      ({ state.1 with
          domainToIp := state.1.domainToIp.insert domain ip
          ipToDomain := state.1.ipToDomain.insert ip domain }, state.2)

def resume (state : FakeIpMapper × Option Nat) : FakeIpMapper :=
  match state.2 with
  | none => state.1
  | some value =>
      let ip := BitVec.ofNat 32 value
      if state.1.range.contains ip && state.1.range.host ip ≠ state.1.range.broadcastHost then
        { state.1 with nextIp := ip }
      else state.1

variable (table : CaseTable)

/-- A file that is no UTF-8 is not loaded. -/
def load (mapper : FakeIpMapper) (bytes : Bytes) : FakeIpMapper :=
  match fromUtf8 bytes with
  | none => mapper
  | some content =>
      let read := (lines content.toList).map (readLine table mapper.range)
      resume (read.foldl loadLine (mapper, none))

def fileText (nextIp : BitVec 32) (snapshot : List (String × BitVec 32)) : String :=
  "# mirage-rs fake-ip persist v1\n" ++ ("next_ip=" ++ nextIp.toNat.repr ++ "\n") ++
    String.join (snapshot.map fun (domain, ip) => ipv4Text ip ++ " " ++ domain ++ "\n")

/-- What is written, with the entries in the order the map gives them. -/
def flush (mapper : FakeIpMapper) (snapshot : List (String × BitVec 32)) :
    Option String × FakeIpMapper :=
  if mapper.dirty then
    (some (fileText mapper.nextIp snapshot), { mapper with dirty := false })
  else (none, mapper)

end FakeIpMapper

end File

end Mirage.Dns
