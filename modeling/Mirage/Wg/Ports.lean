import Mathlib.Algebra.Group.Nat.Defs
import Mathlib.Data.List.Basic
import Mathlib.Data.List.Pairwise

/-!
The sockets of a WireGuard tunnel and their local ports. A socket set has slots,
and a socket its slot as its handle. Whether the stack takes a connection is given;
one that it does not take has used up its port all the same.
-/

namespace Mirage.Wg

inductive Kind where
  | tcp
  | udp
  deriving DecidableEq

structure Socket where
  kind : Kind
  localPort : UInt16
  deriving DecidableEq

abbrev SocketSet (α : Type) := List (Option α)

namespace SocketSet
variable {α : Type}

/-- The first free slot, or a new one. -/
def add (socket : α) : SocketSet α → SocketSet α
  | [] => [some socket]
  | none :: rest => some socket :: rest
  | some other :: rest => some other :: add socket rest

def remove (handle : Nat) (sockets : SocketSet α) : SocketSet α := sockets.set handle none

def alive (sockets : SocketSet α) : List α := sockets.filterMap id

end SocketSet

structure WgTunnel where
  nextPort : UInt32
  sockets : SocketSet Socket

def portOf (n : UInt32) : UInt16 := 1024 + (n % (65536 - 1024)).toUInt16

inductive Event where
  | connect (taken : Bool)
  | bind
  | drop (handle : Nat)
  deriving DecidableEq

namespace WgTunnel

def allocPort (tunnel : WgTunnel) : UInt16 × WgTunnel :=
  (portOf tunnel.nextPort, { tunnel with nextPort := tunnel.nextPort + 1 })

def step (tunnel : WgTunnel) : Event → WgTunnel
  | .connect taken =>
      let (localPort, next) := tunnel.allocPort
      if taken then { next with sockets := next.sockets.add ⟨.tcp, localPort⟩ } else next
  | .bind =>
      let (localPort, next) := tunnel.allocPort
      { next with sockets := next.sockets.add ⟨.udp, localPort⟩ }
  | .drop handle => { tunnel with sockets := tunnel.sockets.remove handle }

def run (tunnel : WgTunnel) (events : List Event) : WgTunnel := events.foldl step tunnel

/-- No two sockets of one kind have the same port. -/
def PortsUnique (tunnel : WgTunnel) : Prop :=
  tunnel.sockets.alive.Pairwise fun s t => s.kind = t.kind → s.localPort ≠ t.localPort

end WgTunnel

/-- How many sockets a run has tried to open, and which are alive: their kinds, and
how many were tried before them. -/
structure Openings where
  tried : Nat
  sockets : SocketSet (Kind × Nat)

namespace Openings

def empty : Openings := ⟨0, []⟩

def step (openings : Openings) : Event → Openings
  | .connect taken =>
      ⟨openings.tried + 1,
        if taken then openings.sockets.add (.tcp, openings.tried) else openings.sockets⟩
  | .bind => ⟨openings.tried + 1, openings.sockets.add (.udp, openings.tried)⟩
  | .drop handle => { openings with sockets := openings.sockets.remove handle }

def run (openings : Openings) (events : List Event) : Openings := events.foldl step openings

/-- How often the counter wraps while it counts from one opening to the next. -/
def wraps (start : UInt32) (early late : Nat) : Nat :=
  (start.toNat + late) / 2 ^ 32 - (start.toNat + early) / 2 ^ 32

/-- As many openings apart as there are ports, or a multiple of that; a wrap of the
counter counts for 16384, which is what 2 ^ 32 leaves when divided by the number of
ports. -/
def RoundsApart (start : UInt32) (early late : Nat) : Prop :=
  (late - early) % 64512 = 16384 * wraps start early late % 64512

/-- No two sockets of one kind are alive that were opened whole rounds apart. -/
def Apart (start : UInt32) (openings : Openings) : Prop :=
  openings.sockets.alive.Pairwise fun s t =>
    s.1 = t.1 → ¬ RoundsApart start (min s.2 t.2) (max s.2 t.2)

/-- No socket has outlived 16383 further openings. -/
def ShortLived (openings : Openings) : Prop :=
  ∀ socket ∈ openings.sockets.alive, openings.tried ≤ socket.2 + 16384

end Openings

section Sockets
variable {α β : Type}

namespace SocketSet

theorem alive_add (socket : α) (sockets : SocketSet α) :
    (sockets.add socket).alive.Perm (socket :: sockets.alive) := by
  induction sockets with
  | nil => exact .refl _
  | cons slot rest ih =>
      cases slot with
      | none => exact .refl _
      | some other => exact (ih.cons other).trans (.swap socket other _)

theorem alive_remove (handle : Nat) (sockets : SocketSet α) :
    (sockets.remove handle).alive.Sublist sockets.alive := by
  induction sockets generalizing handle with
  | nil => exact List.Sublist.refl []
  | cons slot rest ih =>
      cases handle with
      | zero =>
          cases slot with
          | none => exact List.Sublist.refl _
          | some other => exact List.sublist_cons_self other _
      | succ handle =>
          cases slot with
          | none => exact ih handle
          | some other => exact (ih handle).cons_cons other

def relabel (f : α → β) (sockets : SocketSet α) : SocketSet β := List.map (Option.map f) sockets

variable (f : α → β) (sockets : SocketSet α)

theorem relabel_add (socket : α) :
    (sockets.add socket).relabel f = (sockets.relabel f).add (f socket) := by
  induction sockets with
  | nil => rfl
  | cons slot rest ih =>
      cases slot with
      | none => rfl
      | some other => exact congrArg (some (f other) :: ·) ih

theorem relabel_remove (handle : Nat) :
    (sockets.remove handle).relabel f = (sockets.relabel f).remove handle := List.map_set

theorem alive_relabel : (sockets.relabel f).alive = sockets.alive.map f := by
  induction sockets with
  | nil => rfl
  | cons slot rest ih =>
      cases slot with
      | none => exact ih
      | some other => exact congrArg (f other :: ·) ih

end SocketSet

end Sockets

section Counter
variable {start : UInt32} {early late : Nat}

theorem portOf_toNat (n : UInt32) : (portOf n).toNat = 1024 + n.toNat % 64512 := by
  have bound : n.toNat % 64512 < 64512 := Nat.mod_lt _ (by decide)
  have value : (n % (65536 - 1024)).toNat = n.toNat % 64512 := rfl
  rw [portOf, UInt16.toNat_add, UInt32.toNat_toUInt16, value]
  change (1024 + n.toNat % 64512 % 65536) % 65536 = _
  omega

/-- Two openings are given the same port exactly if they are whole rounds apart. -/
theorem portOf_eq_iff (order : early ≤ late) :
    portOf (start + UInt32.ofNat early) = portOf (start + UInt32.ofNat late) ↔
      Openings.RoundsApart start early late := by
  have counted : ∀ n, (start + UInt32.ofNat n).toNat = (start.toNat + n) % 2 ^ 32 := by
    intro n
    rw [UInt32.toNat_add, UInt32.toNat_ofNat', Nat.add_mod_mod]
  rw [← UInt16.toNat_inj, portOf_toNat, portOf_toNat, counted, counted]
  unfold Openings.RoundsApart Openings.wraps
  have ordered : (start.toNat + early) / 2 ^ 32 ≤ (start.toNat + late) / 2 ^ 32 :=
    Nat.div_le_div_right (Nat.add_le_add_left order _)
  have first := Nat.div_add_mod (start.toNat + early) (2 ^ 32)
  have second := Nat.div_add_mod (start.toNat + late) (2 ^ 32)
  generalize (start.toNat + early) / 2 ^ 32 = a at *
  generalize (start.toNat + late) / 2 ^ 32 = b at *
  generalize (start.toNat + early) % 2 ^ 32 = r at *
  generalize (start.toNat + late) % 2 ^ 32 = r' at *
  -- The distance of the counters is that of the openings without the wraps.
  have whole : ((late - early : Nat) : Int) - 16384 * ((b - a : Nat) : Int) =
      ((r' : Int) - r) + 64512 * (66576 * ((b - a : Nat) : Int)) := by
    omega
  have counters : 1024 + r % 64512 = 1024 + r' % 64512 ↔ ((r' : Int) - r) % 64512 = 0 := by
    omega
  have openings : (late - early) % 64512 = 16384 * (b - a) % 64512 ↔
      (((late - early : Nat) : Int) - 16384 * ((b - a : Nat) : Int)) % 64512 = 0 := by
    omega
  rw [counters, openings, whole, Int.add_mul_emod_self_left]

/-- Openings that are close are not whole rounds apart, also where the counter wraps. -/
theorem not_roundsApart (order : early < late) (close : late < early + 16384) :
    ¬ Openings.RoundsApart start early late := by
  have once : Openings.wraps start early late ≤ 1 := by
    unfold Openings.wraps
    omega
  unfold Openings.RoundsApart
  rcases Nat.le_one_iff_eq_zero_or_eq_one.mp once with none | one
  · rw [none]
    omega
  · rw [one]
    omega

end Counter

section Runs
variable {start : UInt32} {tunnel : WgTunnel} {openings : Openings}

def opened (start : UInt32) (opening : Kind × Nat) : Socket :=
  ⟨opening.1, portOf (start + UInt32.ofNat opening.2)⟩

/-- The counter has counted what was tried, and the sockets are those opened. -/
structure Follows (start : UInt32) (tunnel : WgTunnel) (openings : Openings) : Prop where
  counter : tunnel.nextPort = start + UInt32.ofNat openings.tried
  sockets : tunnel.sockets = openings.sockets.relabel (opened start)

/-- Different sockets were opened at different times, all of them before now. -/
structure Openings.Dated (openings : Openings) : Prop where
  past : ∀ socket ∈ openings.sockets.alive, socket.2 < openings.tried
  distinct : openings.sockets.alive.Pairwise fun s t => s.2 ≠ t.2

theorem counter_next (start : UInt32) (n : Nat) :
    start + UInt32.ofNat n + 1 = start + UInt32.ofNat (n + 1) := by
  rw [UInt32.add_assoc, UInt32.ofNat_add]
  rfl

theorem follows_step (follows : Follows start tunnel openings) (event : Event) :
    Follows start (tunnel.step event) (openings.step event) := by
  obtain ⟨counter, sockets⟩ := follows
  have next : tunnel.nextPort + 1 = start + UInt32.ofNat (openings.tried + 1) := by
    rw [counter, counter_next]
  have added : ∀ kind, tunnel.sockets.add ⟨kind, portOf tunnel.nextPort⟩ =
      (openings.sockets.add (kind, openings.tried)).relabel (opened start) := by
    intro kind
    rw [SocketSet.relabel_add, ← sockets, counter]
    rfl
  cases event with
  | connect taken =>
      cases taken with
      | true => exact ⟨next, added .tcp⟩
      | false => exact ⟨next, sockets⟩
  | bind => exact ⟨next, added .udp⟩
  | drop handle =>
      refine ⟨counter, ?_⟩
      change tunnel.sockets.remove handle = (openings.sockets.remove handle).relabel _
      rw [sockets, SocketSet.relabel_remove]

theorem dated_add (dated : openings.Dated) (kind : Kind) :
    Openings.Dated ⟨openings.tried + 1, openings.sockets.add (kind, openings.tried)⟩ := by
  have slots := openings.sockets.alive_add (kind, openings.tried)
  constructor
  · intro socket member
    rcases List.mem_cons.mp (slots.mem_iff.mp member) with rfl | old
    · exact Nat.lt_succ_self _
    · exact Nat.lt_succ_of_lt (dated.past socket old)
  · apply (slots.pairwise_iff fun {s t} differs => differs.symm).mpr
    exact List.pairwise_cons.mpr
      ⟨fun socket old => Nat.ne_of_gt (dated.past socket old), dated.distinct⟩

theorem dated_step (dated : openings.Dated) (event : Event) : (openings.step event).Dated := by
  have later : Openings.Dated ⟨openings.tried + 1, openings.sockets⟩ :=
    ⟨fun socket old => Nat.lt_succ_of_lt (dated.past socket old), dated.distinct⟩
  cases event with
  | connect taken =>
      cases taken with
      | true => exact dated_add dated .tcp
      | false => exact later
  | bind => exact dated_add dated .udp
  | drop handle =>
      have fewer := openings.sockets.alive_remove handle
      exact ⟨fun socket kept => dated.past socket (fewer.subset kept), dated.distinct.sublist fewer⟩

/-- By induction over the events, with the openings beside the tunnel. -/
theorem follows_run (follows : Follows start tunnel openings) (dated : openings.Dated)
    (events : List Event) :
    Follows start (tunnel.run events) (openings.run events) ∧ (openings.run events).Dated := by
  induction events generalizing tunnel openings with
  | nil => exact ⟨follows, dated⟩
  | cons event rest ih => exact ih (follows_step follows event) (dated_step dated event)

theorem follows_start (start : UInt32) (events : List Event) :
    Follows start (WgTunnel.run ⟨start, []⟩ events) (Openings.empty.run events) ∧
      (Openings.empty.run events).Dated :=
  follows_run ⟨(UInt32.add_zero start).symm, rfl⟩ ⟨List.forall_mem_nil _, .nil⟩ events

theorem portsUnique_iff (follows : Follows start tunnel openings) :
    tunnel.PortsUnique ↔ openings.Apart start := by
  unfold WgTunnel.PortsUnique Openings.Apart
  rw [follows.sockets, SocketSet.alive_relabel, List.pairwise_map]
  refine List.Pairwise.iff fun s t => ?_
  refine forall_congr' fun _ => not_congr ?_
  rcases Nat.le_total s.2 t.2 with order | order
  · rw [Nat.min_eq_left order, Nat.max_eq_right order]
    exact portOf_eq_iff order
  · rw [Nat.min_eq_right order, Nat.max_eq_left order]
    exact eq_comm.trans (portOf_eq_iff order)

theorem apart_of_shortLived (dated : openings.Dated) (short : openings.ShortLived) :
    openings.Apart start := by
  refine dated.distinct.imp_of_mem fun {s t} here there differs _ => ?_
  have first := dated.past s here
  have second := dated.past t there
  have firstShort := short s here
  have secondShort := short t there
  apply not_roundsApart
  · omega
  · omega

end Runs

/-- From an empty tunnel with any counter, ports are unique at all times exactly if
no two sockets of one kind are ever alive together that were opened whole rounds
apart; so they are if no socket outlives 16383 further openings. -/
theorem ports_unique_iff (start : UInt32) (events : List Event) :
    ((∀ count, (WgTunnel.run ⟨start, []⟩ (events.take count)).PortsUnique) ↔
      ∀ count, (Openings.empty.run (events.take count)).Apart start) ∧
    ((∀ count, (Openings.empty.run (events.take count)).ShortLived) →
      ∀ count, (WgTunnel.run ⟨start, []⟩ (events.take count)).PortsUnique) := by
  have each : ∀ count, (WgTunnel.run ⟨start, []⟩ (events.take count)).PortsUnique ↔
      (Openings.empty.run (events.take count)).Apart start := fun count =>
    portsUnique_iff (follows_start start (events.take count)).1
  refine ⟨forall_congr' each, fun short count => (each count).mpr ?_⟩
  exact apart_of_shortLived (follows_start start (events.take count)).2 (short count)

section Reuse

/-- A connection that is opened and closed next to an older one. -/
def short : List Event := [.connect true, .drop 1]

def shorts (count : Nat) : List Event := (List.replicate count short).flatten

variable {old : Socket}

theorem run_shorts (n : UInt32) (count : Nat) :
    WgTunnel.run ⟨n, [some old, none]⟩ (shorts count) =
      ⟨n + UInt32.ofNat count, [some old, none]⟩ := by
  induction count generalizing n with
  | zero =>
      have nothing : n + UInt32.ofNat 0 = n := UInt32.add_zero n
      rw [nothing]
      rfl
  | succ count ih =>
      change WgTunnel.run ⟨n + 1, [some old, none]⟩ (shorts count) = _
      rw [ih, UInt32.add_assoc, UInt32.add_comm 1, UInt32.ofNat_add]
      rfl

/-- One connection stays open while others come and go, and then another is opened. -/
def comings (total : Nat) : List Event :=
  [.connect true] ++ short ++ shorts total ++ [.connect true]

theorem alive_shorts (n : UInt32) (total count : Nat) :
    (WgTunnel.run ⟨n, [some old, none]⟩
      ((shorts total ++ [Event.connect true]).take count)).sockets.alive.length ≤ 2 := by
  induction total generalizing n count with
  | zero =>
      match count with
      | 0 => exact Nat.le_succ 1
      | count + 1 =>
          have last : (shorts 0 ++ [Event.connect true]).take (count + 1) =
              [Event.connect true] := by
            change Event.connect true :: List.take count [] = _
            rw [List.take_nil]
          rw [last]
          exact Nat.le_refl 2
  | succ total ih =>
      match count with
      | 0 => exact Nat.le_succ 1
      | 1 => exact Nat.le_refl 2
      | count + 2 => exact ih (n + 1) count

theorem alive_comings (total count : Nat) :
    (WgTunnel.run ⟨0, []⟩ ((comings total).take count)).sockets.alive.length ≤ 2 := by
  match count with
  | 0 => exact Nat.zero_le 2
  | 1 => exact Nat.le_succ 1
  | 2 => exact Nat.le_refl 2
  | count + 3 =>
      have rest := @alive_shorts ⟨.tcp, portOf 0⟩ 2 total count
      rw [comings, List.append_assoc]
      exact rest

theorem run_comings (total : Nat) :
    (WgTunnel.run ⟨0, []⟩ (comings total)).sockets =
      [some ⟨.tcp, portOf 0⟩, some ⟨.tcp, portOf (2 + UInt32.ofNat total)⟩] := by
  have middle := @run_shorts ⟨.tcp, portOf 0⟩ 2 total
  have parts : WgTunnel.run ⟨0, []⟩ (comings total) =
      WgTunnel.run (WgTunnel.run ⟨2, [some ⟨.tcp, portOf 0⟩, none]⟩ (shorts total))
        [Event.connect true] := by
    rw [comings, WgTunnel.run, List.foldl_append, List.foldl_append]
    rfl
  rw [parts, middle]
  rfl

/-- After 64511 others the next connection has the port of the one that stayed. -/
theorem port_reused :
    (∀ count, (WgTunnel.run ⟨0, []⟩ ((comings 64510).take count)).sockets.alive.length ≤
        64512) ∧
      ¬ (WgTunnel.run ⟨0, []⟩ (comings 64510)).PortsUnique := by
  constructor
  · intro count
    have two : 2 ≤ 64512 := by decide
    exact Nat.le_trans (alive_comings 64510 count) two
  · have again : portOf (2 + UInt32.ofNat 64510) = portOf 0 := by decide
    intro unique
    unfold WgTunnel.PortsUnique at unique
    rw [run_comings, again] at unique
    exact (List.pairwise_cons.mp unique).1 _ List.mem_cons_self rfl rfl

end Reuse

end Mirage.Wg
