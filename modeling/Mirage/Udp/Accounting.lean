import Mirage.Lib.Trace
import Mirage.Udp.Metering

/-!
Both relays on the same frames, with the same done elsewhere. The plain relay charges
what routing lets pass, the multiplexed one charges before it looks at the target.
-/

namespace Mirage.Udp.Uplinks
open Assoc Word Trace
open PerFlow (RelayDatagram parseRelayFrame)

section Frames
variable (routing : Routing) {Egress : Type}

def targetOf (datagram : RelayDatagram) : String :=
  joinHostPort datagram.target datagram.port

/-- Routing rejects the datagram, or its outbound blocks UDP. -/
def Dropped (datagram : RelayDatagram) : Prop :=
  exitOf (routing (targetOf datagram)) = none

instance (datagram : RelayDatagram) : Decidable (Dropped routing datagram) :=
  inferInstanceAs (Decidable (_ = none))

/-- What a frame is to be charged: its payload, once, unless it is dropped or a bucket is
too low. A malformed frame and one for a session that has ended cost nothing. -/
def due (session : Session) (body : Bytes) : Amount :=
  match parseRelayFrame body with
  | none => .nothing
  | some datagram =>
      if session.running ∧ ¬ Dropped routing datagram ∧ session.passes datagram.payload.length then
        session.meter.takes datagram.payload.length
      else .nothing

/-- The entries are what routing says. -/
def Faithful (cache : RouteCache) : Prop :=
  ∀ target decision, cache.lookup target = some decision → decision = routing target

variable {routing} {relay : Relay RouteCache} {mux : Relay (Sids Egress)} {body : Bytes}
  {datagram : RelayDatagram}

end Frames

section Runs
variable (routing : Routing) {Egress : Type}

abbrev Both (Egress : Type) := Relay RouteCache × Relay (Sids Egress)

def step (both : Both Egress) (event : Event Egress) :
    (Option Egress × Option Egress) × Both Egress :=
  let plain := plainStep routing both.1 event
  let mux := muxStep routing both.2 event
  ((plain.1, mux.1), (plain.2, mux.2))

/-- Both relays take what is due for a frame, and the same. -/
def Agree (both : Both Egress) : Event Egress → Prop
  | .frame sid body plainOpened muxOpened =>
      let after := (step routing both (.frame sid body plainOpened muxOpened)).2
      taken both.1.session after.1.session = due routing both.1.session body ∧
        taken both.2.session after.2.session = due routing both.2.session body ∧
        taken both.1.session after.1.session = taken both.2.session after.2.session
  | _ => True

/-- The multiplexed relay cannot charge a datagram that is dropped, and has not ended
without the plain one when a datagram is to be charged. -/
def Harmless (both : Both Egress) : Event Egress → Prop
  | .frame _ body _ _ => ∀ datagram, parseRelayFrame body = some datagram →
      (Charges both.2.session datagram.payload.length → ¬ Dropped routing datagram) ∧
        (Charges both.1.session datagram.payload.length → ¬ Dropped routing datagram →
          both.2.session.running = true)
  | _ => True

section Frame
variable {routing} {plain : Relay RouteCache} {mux : Relay (Sids Egress)} {sid : UInt32} {body : Bytes}
  {plainOpened muxOpened : Exit → Option Egress} {datagram : RelayDatagram}

end Frame

/-- How a session begins, with buckets that may have been used before. -/
structure Opening where
  meter : Meter
  now : ℚ
  before : meter.Before now

def Opening.both (opening : Opening) : Both (Egress : Type) :=
  ⟨⟨⟨opening.meter, opening.now, true⟩, []⟩, ⟨⟨opening.meter, opening.now, true⟩, []⟩⟩

def limitedMeter : Meter :=
  ⟨some ⟨.new 1000, .full (.new 1000) 0⟩, none, some (.new "user" 1000 1 0 0), false⟩

theorem limitedMeter_before : limitedMeter.Before 0 := by
  constructor
  · rintro _ ⟨⟩
    exact le_rfl
  · rintro _ ⟨⟩

def limited : Both Exit := Opening.both ⟨limitedMeter, 0, limitedMeter_before⟩

/-- Three bytes to 9.9.9.9:53. -/
def rejected : Event Exit := .frame 7 [1, 9, 9, 9, 9, 0, 53, 1, 2, 3] some some

end Runs

end Mirage.Udp.Uplinks
