import Mirage.Egress.ServerRouter
import Mirage.Lib.Assoc
import Mirage.Quota.Registry
import Mirage.Rate.Bucket
import Mirage.Udp.PerFlow

/-!
The ways up of the two server relays, `handle_udp_relay` and `handle_udp_mux_relay`:
what becomes of one frame, and what it takes from the rate limits and the quota. The
buckets and the quota belong to other sessions as well.
-/

namespace Mirage.Udp.Uplinks
open Assoc Word NumberText Rate Quota
open Egress (ServerRouteDecision UdpPolicy)
open PerFlow (RelayDatagram parseRelayFrame)

section Meter

abbrev Bucket := Σ bucket : TokenBucket, BucketState bucket

def Bucket.refill (now : ℚ) (bucket : Bucket) : Bucket := ⟨bucket.1, bucket.2.refill now⟩

def tryConsumeTwo (b1 b2 : Option Bucket) (n : Nat) (now : ℚ) :
    Bool × Option Bucket × Option Bucket :=
  match b1, b2 with
  | none, none => (true, none, none)
  | some b, none =>
      let (pass, state) := b.2.tryConsume n now
      (pass, some ⟨b.1, state⟩, none)
  | none, some b =>
      let (pass, state) := b.2.tryConsume n now
      (pass, none, some ⟨b.1, state⟩)
  | some b1, some b2 =>
      let (pass, s1, s2) := b1.2.tryConsumeBoth b2.2 n now
      (pass, some ⟨b1.1, s1⟩, some ⟨b2.1, s2⟩)

/-- What the session charges: the buckets of its client's address and of its user, the
user's quota, and the mark of a withdrawn password. -/
structure Meter where
  device : Option Bucket
  up : Option Bucket
  userLimit : Option UserLimitHandle
  credRevoked : Bool

namespace Meter
variable (meter : Meter)

def shouldStop : Bool := meter.credRevoked || meter.userLimit.any (·.isExhausted)

def tryConsume (n : Nat) (now : ℚ) : Bool × Meter :=
  let (pass, device, up) := tryConsumeTwo meter.device meter.up n now
  (pass, { meter with device := device, up := up })

def recordBytes (n : Nat) : Bool × Meter :=
  if meter.shouldStop then (true, meter)
  else
    match meter.userLimit with
    | none => (false, meter)
    | some handle =>
        let (stop, handle) := handle.recordBytes (UInt64.ofNat n)
        (stop, { meter with userLimit := some handle })

end Meter

end Meter

section Relays

inductive UpstreamOutlet where
  | shadowsocks (blockUdp : Bool)
  | wireguard (udp : UdpPolicy)

abbrev Decision := ServerRouteDecision UpstreamOutlet

/-- How a datagram leaves, unless routing or the policy for UDP drops it. -/
inductive Exit where
  | direct
  | tunnel
  deriving DecidableEq

def exitOf (decision : Decision) : Option Exit :=
  match decision.target with
  | .reject => none
  | .direct => some .direct
  | .upstream (.shadowsocks blockUdp) => if blockUdp then none else some .direct
  | .upstream (.wireguard .block) => none
  | .upstream (.wireguard .direct) => some .direct
  | .upstream (.wireguard .tunnel) => some .tunnel

/-- A session as far as charging it goes. -/
structure Session where
  meter : Meter
  now : ℚ
  running : Bool

/-- A relay's session, and the table that its loop keeps. -/
structure Relay (Table : Type) where
  session : Session
  table : Table

/-- The lines that charge a payload, and whether its frame goes on. -/
def Session.chargeUplink (session : Session) (n : Nat) : Bool × Session :=
  match session.meter.tryConsume n session.now with
  | (false, meter) => (false, { session with meter := meter })
  | (true, meter) =>
      let (stop, meter) := meter.recordBytes n
      (!stop, { session with meter := meter, running := !stop })

/-- `split_host_port` can take it apart again. -/
def joinHostPort (host : String) (port : UInt16) : String :=
  if (parseIpv6 host).isSome then s!"[{host}]:{port}" else s!"{host}:{port}"

/-- `server_route` for one session. -/
abbrev Routing := String → Decision

abbrev RouteCache := List (String × Decision)

def maxSentTargets : Nat := 1024

def maxMuxSids : Nat := 512

variable (routing : Routing) {Egress : Type}

/-- Routing is asked once for each target, and again when the cache has been cleared. -/
def routeCached (cache : RouteCache) (target : String) : Decision × RouteCache :=
  match cache.lookup target with
  | some decision => (decision, cache)
  | none =>
      let decision := routing target
      let cache := if maxSentTargets ≤ cache.length then [] else cache
      (decision, put cache target decision)

/-- One frame of `handle_udp_relay`, and what its payload is sent through. `opened` is what
the name resolves to and the way out, if they can be had. -/
def Relay.plainFrame (relay : Relay RouteCache) (body : Bytes) (opened : Exit → Option Egress) :
    Option Egress × Relay RouteCache :=
  match parseRelayFrame body with
  | none => (none, relay)
  | some datagram =>
      let target := joinHostPort datagram.target datagram.port
      let (decision, cache) := routeCached routing relay.table target
      match exitOf decision with
      | none => (none, ⟨relay.session, cache⟩)
      | some exit =>
          let (goesOn, session) := relay.session.chargeUplink datagram.payload.length
          (if goesOn then opened exit else none, ⟨session, cache⟩)

abbrev Sids (Egress : Type) := List (UInt32 × Egress)

/-- A session that is there is used whatever the target; a new one is routed and opened. -/
def muxSend (sids : Sids Egress) (uf : UplinkFrame) (opened : Exit → Option Egress) :
    Option Egress × Sids Egress :=
  match sids.lookup uf.sid with
  | some egress => (some egress, sids)
  | none =>
      if maxMuxSids ≤ sids.length then (none, sids)
      else
        match exitOf (routing (joinHostPort uf.target uf.port)) with
        | none => (none, sids)
        | some exit =>
            match opened exit with
            | none => (none, sids)
            | some egress => (some egress, put sids uf.sid egress)

/-- One frame of `handle_udp_mux_relay`. -/
def Relay.muxFrame (relay : Relay (Sids Egress)) (frame : Bytes) (opened : Exit → Option Egress) :
    Option Egress × Relay (Sids Egress) :=
  match parseUplinkBody frame with
  | none => (none, relay)
  | some uf =>
      let (goesOn, session) := relay.session.chargeUplink uf.payload.length
      if goesOn then
        let (sent, sids) := muxSend routing relay.table uf opened
        (sent, ⟨session, sids⟩)
      else (none, ⟨session, relay.table⟩)

end Relays

section Elsewhere

/-- What other sessions of the client or the user do to the meter, and reloads. -/
inductive Elsewhere where
  | wait (nanos : Nat)
  | device (drawn : ℚ)
  | up (drawn : ℚ)
  | userLimit (change : UserLimitHandle → UserLimitHandle)
  | newRate (bucket : Option TokenBucket)
  | revoke

def Bucket.take (drawn : ℚ) (bucket : Bucket) : Bucket :=
  let taken := min (max drawn 0) bucket.2.tokens
  ⟨bucket.1, bucket.2.spend taken (le_min (le_max_right _ _) bucket.2.tokens_nonneg)
    (min_le_right _ _)⟩

/-- A call on a bucket brings it up to date and takes some of what it finds. -/
def Bucket.draw (drawn now : ℚ) (bucket : Bucket) : Bucket := (bucket.refill now).take drawn

def Session.elsewhere (session : Session) : Elsewhere → Session
  | .wait nanos => { session with now := session.now + nanos / 10 ^ 9 }
  | .device drawn =>
      let device := session.meter.device.map (Bucket.draw drawn session.now)
      { session with meter := { session.meter with device := device } }
  | .up drawn =>
      let up := session.meter.up.map (Bucket.draw drawn session.now)
      { session with meter := { session.meter with up := up } }
  | .userLimit change =>
      { session with
        meter := { session.meter with userLimit := session.meter.userLimit.map change } }
  | .newRate bucket =>
      let up : Option Bucket := bucket.map fun bucket => ⟨bucket, .full bucket session.now⟩
      { session with meter := { session.meter with up := up } }
  | .revoke => { session with meter := { session.meter with credRevoked := true } }

end Elsewhere

section Loops
variable {Egress : Type}

inductive Event (Egress : Type) where
  /-- The loop comes round for the next chunk, unless it is to stop. -/
  | chunk
  /-- A frame of it, as the two relays would get it and with what they could send it through. -/
  | frame (sid : UInt32) (body : Bytes) (plainOpened muxOpened : Exit → Option Egress)
  | idle (sid : UInt32)
  | elsewhere (event : Elsewhere)

def Session.chunk (session : Session) : Session :=
  { session with running := session.running && !session.meter.shouldStop }

variable (routing : Routing)

def plainStep (relay : Relay RouteCache) : Event Egress → Option Egress × Relay RouteCache
  | .chunk => (none, { relay with session := relay.session.chunk })
  | .frame _ body opened _ =>
      if relay.session.running then relay.plainFrame routing body opened else (none, relay)
  | .idle _ => (none, relay)
  | .elsewhere event => (none, { relay with session := relay.session.elsewhere event })

def muxStep (relay : Relay (Sids Egress)) : Event Egress → Option Egress × Relay (Sids Egress)
  | .chunk => (none, { relay with session := relay.session.chunk })
  | .frame sid body _ opened =>
      if relay.session.running then relay.muxFrame routing (toBe 4 sid.toNat ++ body) opened
      else (none, relay)
  | .idle sid => (none, { relay with table := erase relay.table sid })
  | .elsewhere event => (none, { relay with session := relay.session.elsewhere event })

end Loops

end Mirage.Udp.Uplinks
