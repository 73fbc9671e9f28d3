import Mathlib.Data.List.Nodup
import Mathlib.Data.String.Basic
import Mirage.Egress.FailClosed

/-!
Outlets across reloads: which upstream configuration an outlet of the server's
table serves, and in which reload its tunnel was made, over any sequence of
reloads.
-/

namespace Mirage.Egress
open Router Programs

namespace UpstreamConfig

def isWireguard : UpstreamConfig → Bool
  | .wireguard .. => true
  | .shadowsocks .. => false

def withUdp : UpstreamConfig → UdpPolicy → UpstreamConfig
  | .wireguard privateKey peerPublicKey presharedKey endpoint address mtu keepalive _ dns, udp =>
      .wireguard privateKey peerPublicKey presharedKey endpoint address mtu keepalive udp dns
  | upstream, _ => upstream

def tunnel : UpstreamConfig → Option UpstreamConfig
  | upstream@(.wireguard ..) => some (upstream.withUdp .tunnel)
  | .shadowsocks .. => none

end UpstreamConfig

/-- An outlet with the configuration it serves and the reload in which it, or its
WireGuard tunnel, was made. -/
structure Live where
  config : UpstreamConfig
  born : Nat

/-- `build_upstream` and `with_udp` in one reload; which configurations pass is
left open. -/
def liveUpstreams (check : UpstreamConfig → Except String Unit) (reload : Nat) : Upstreams Live where
  buildUpstream upstream := (check upstream).map fun _ => some ⟨upstream, reload⟩
  isWireguard outlet := outlet.config.isWireguard
  withUdp outlet udp := ⟨outlet.config.withUdp udp, outlet.born⟩

inductive Slot where
  | inbound (tag : String)
  | outbound (tag : String)
  deriving DecidableEq

def Slot.key : Slot → String
  | .inbound tag => "inbound:" ++ tag
  | .outbound tag => tag

def InboundConfig.tag : InboundConfig → String
  | .mirageServer tag _ => tag
  | .other tag => tag

def InboundConfig.upstream : InboundConfig → Option UpstreamConfig
  | .mirageServer _ upstream => upstream
  | .other _ => none

def OutboundConfig.wantedUpstream (wanted : String → Bool) (outbound : OutboundConfig) :
    Option UpstreamConfig :=
  if wanted outbound.tag then outbound.upstream else none

def slotsOf {Item : Type} (place : Item → Slot) (upstream : Item → Option UpstreamConfig)
    (items : List Item) : List (Slot × UpstreamConfig) :=
  items.filterMap fun item => (upstream item).map (place item, ·)

def Config.slots (config : Config) : List (Slot × UpstreamConfig) :=
  slotsOf (fun inbound => .inbound inbound.tag) InboundConfig.upstream config.inbounds ++
    slotsOf (fun outbound => .outbound outbound.tag) (OutboundConfig.wantedUpstream config.wanted)
      config.outbounds

def outletIn {Outlet : Type} (inbounds : String → Option Outlet)
    (outbounds : String → Option (ServerOutboundTarget Outlet)) : Slot → Option Outlet
  | .inbound tag => inbounds tag
  | .outbound tag =>
      match outbounds tag with
      | some (.upstream outlet) => some outlet
      | _ => none

def ServerRouterState.bound {Outlet : Type} (state : ServerRouterState Outlet) :
    Slot → Option Outlet :=
  outletIn state.inboundUpstreams state.outbounds

section Fingerprints
variable {parsers : Parsers}

theorem findLast {test : Nat → Bool} {i : Nat} (hit : test i = true) (n : Nat) (inside : i ≤ n)
    (after : ∀ j, i < j → j ≤ n → test j = false) :
    (List.range (n + 1)).reverse.find? test = some i := by
  induction n with
  | zero =>
      rw [Nat.le_zero.mp inside] at hit ⊢
      simp [hit]
  | succ n ih =>
      rw [List.range_succ, List.reverse_append, List.reverse_singleton, List.singleton_append]
      by_cases last : i = n + 1
      · rw [← last, List.find?_cons_of_pos hit]
      · have later := after (n + 1) (by omega) (Nat.le_refl _)
        rw [List.find?_cons_of_neg (by simp [later])]
        exact ih (by omega) fun j above below => after j above (by omega)

theorem beforeLast_append {front rest policy : List Char} (plain : '|' ∉ rest ++ policy) :
    beforeLast ('|' :: rest) (front ++ ('|' :: rest ++ policy)) = some front := by
  have found := @findLast (fun i => ('|' :: rest).isPrefixOf
    ((front ++ ('|' :: rest ++ policy)).drop i)) front.length
      (by rw [List.drop_left]; exact List.isPrefixOf_iff_prefix.mpr (List.prefix_append _ _))
      (front ++ ('|' :: rest ++ policy)).length (by simp) ?_
  · rw [beforeLast, found]
    simp
  · intro j above _
    obtain ⟨more, rfl⟩ := Nat.exists_eq_add_of_lt above
    rw [Bool.eq_false_iff]
    intro matched
    have start := List.isPrefixOf_iff_prefix.mp matched
    have member : '|' ∈ (front ++ ('|' :: rest ++ policy)).drop (front.length + more + 1) :=
      start.subset List.mem_cons_self
    rw [Nat.add_assoc, ← List.drop_drop, List.drop_left, List.cons_append, List.drop_succ_cons]
      at member
    exact plain (List.mem_of_mem_drop member)

theorem wgTunnelFingerprint_isSome (upstream : UpstreamConfig) :
    (wgTunnelFingerprint parsers upstream).isSome = upstream.isWireguard := by
  cases upstream <;> rfl

theorem starts_append {text rest : String} {first : Char}
    (starts : ∃ more, text.toList = first :: more) : ∃ more, (text ++ rest).toList = first :: more := by
  obtain ⟨more, same⟩ := starts
  exact ⟨more ++ rest.toList, by rw [String.toList_append, same, List.cons_append]⟩

/-- The tunnel is read back from the fingerprints of WireGuard configurations,
and from no other. -/
theorem sameTunnel_iff {u : UpstreamConfig} {want : String}
    (tunnel : wgTunnelFingerprint parsers u = some want) (v : UpstreamConfig) :
    beforeLast "|udp=".toList (upstreamFingerprint parsers v).toList = some want.toList ↔
      wgTunnelFingerprint parsers v = some want := by
  have start : ∃ rest, want.toList = 'w' :: rest := by
    cases u with
    | shadowsocks => cases tunnel
    | wireguard =>
        unfold wgTunnelFingerprint at tunnel
        obtain rfl := Option.some.inj tunnel
        repeat apply starts_append
        exact ⟨_, rfl⟩
  cases v with
  | shadowsocks server port password method udp =>
      refine ⟨fun read => ?_, fun missing => (nomatch missing)⟩
      obtain ⟨rest, start⟩ := start
      rw [start, beforeLast] at read
      obtain ⟨i, _, taken⟩ := Option.map_eq_some_iff.mp read
      have first : ∃ more, (upstreamFingerprint parsers
          (.shadowsocks server port password method udp)).toList = 's' :: more := by
        repeat apply starts_append
        exact ⟨_, rfl⟩
      obtain ⟨more, first⟩ := first
      rw [first] at taken
      cases i <;> cases taken
  | wireguard privateKey peerPublicKey presharedKey endpoint address mtu keepalive udp dns =>
      have plain : '|' ∉ "udp=".toList ++ (debugPolicy udp).toList := by
        cases udp <;> decide
      obtain ⟨own, named⟩ := Option.isSome_iff_exists.mp (@wgTunnelFingerprint_isSome parsers
        (.wireguard privateKey peerPublicKey presharedKey endpoint address mtu keepalive udp dns))
      have text : (upstreamFingerprint parsers (.wireguard privateKey peerPublicKey presharedKey
          endpoint address mtu keepalive udp dns)).toList =
          own.toList ++ ('|' :: "udp=".toList ++ (debugPolicy udp).toList) := by
        unfold upstreamFingerprint
        dsimp only
        rw [named, Option.getD_some, String.toList_append, String.toList_append, List.append_assoc]
        rfl
      have read := @beforeLast_append own.toList _ _ plain
      rw [text, named]
      change beforeLast ('|' :: "udp=".toList) _ = _ ↔ _
      rw [read, Option.some.injEq, Option.some.injEq, String.toList_inj]

end Fingerprints

section Keys

theorem outletAt_inbound {Outlet : Type} (state : ServerRouterState Outlet) (tag : String) :
    state.outletAt ("inbound:" ++ tag) = state.bound (.inbound tag) := by
  have start : "inbound:".toList.isPrefixOf ("inbound:" ++ tag).toList = true := by
    rw [String.toList_append]
    exact List.isPrefixOf_iff_prefix.mpr (List.prefix_append _ _)
  have rest : String.ofList (("inbound:" ++ tag).toList.drop "inbound:".toList.length) = tag := by
    rw [String.toList_append, List.drop_left, String.ofList_toList]
  simp only [ServerRouterState.outletAt]
  rw [if_pos start, rest]
  rfl

theorem outletAt_outbound {Outlet : Type} (state : ServerRouterState Outlet) {tag : String}
    (plain : ∀ name, tag ≠ "inbound:" ++ name) : state.outletAt tag = state.bound (.outbound tag) := by
  have differs : "inbound:".toList.isPrefixOf tag.toList ≠ true := by
    intro start
    obtain ⟨rest, split⟩ := List.isPrefixOf_iff_prefix.mp start
    refine plain (String.ofList rest) (String.toList_inj.mp ?_)
    have back : (String.ofList rest).toList = rest := String.toList_ofList
    rw [String.toList_append, back]
    exact split.symm
  simp only [ServerRouterState.outletAt]
  rw [if_neg differs]
  rfl

/-- Two slots share a key only where an outbound is called after an inbound. -/
theorem Slot.key_eq {one other : Slot} (same : one.key = other.key) (different : one ≠ other) :
    ∃ tag, one = .inbound tag ∧ other = .outbound ("inbound:" ++ tag) ∨
      other = .inbound tag ∧ one = .outbound ("inbound:" ++ tag) := by
  cases one with
  | inbound tag =>
      cases other with
      | inbound other =>
          have tags : tag = other := String.append_right_inj _ |>.mp same
          exact absurd (congrArg Slot.inbound tags) different
      | outbound other => exact ⟨tag, .inl ⟨rfl, congrArg Slot.outbound same.symm⟩⟩
  | outbound tag =>
      cases other with
      | inbound other => exact ⟨other, .inr ⟨rfl, congrArg Slot.outbound same⟩⟩
      | outbound other => exact absurd (congrArg Slot.outbound same) different

end Keys

section Reloads
variable (parsers : Parsers)

/-- Two configurations that may be taken for one another. -/
structure Apart (u v : UpstreamConfig) : Prop where
  whole : upstreamFingerprint parsers u = upstreamFingerprint parsers v → u = v
  tunnel : u.isWireguard = true →
    wgTunnelFingerprint parsers u = wgTunnelFingerprint parsers v → u.tunnel = v.tunnel

structure Unlike (u v : UpstreamConfig) : Prop where
  whole : upstreamFingerprint parsers u ≠ upstreamFingerprint parsers v
  tunnel : u.isWireguard = true → wgTunnelFingerprint parsers u ≠ wgTunnelFingerprint parsers v

/-- Fingerprints tell the upstreams of the old and the new configuration apart,
and where an old outbound is called `inbound:` something, none of the new ones is
looked for under its key. -/
structure Clear (before : Option Config) (config : Config) : Prop where
  apart : ∀ old ∈ before, ∀ u ∈ old.slots, ∀ v ∈ config.slots, Apart parsers u.2 v.2
  distinct : ∀ u ∈ config.slots, ∀ v ∈ config.slots, Apart parsers u.2 v.2
  unnamed : ∀ old ∈ before, ∀ tag u, (Slot.outbound ("inbound:" ++ tag), u) ∈ old.slots →
    ∀ v ∈ config.slots, Unlike parsers u v.2
  uncovered : ∀ old ∈ before, ∀ tag u hidden,
    (Slot.outbound ("inbound:" ++ tag), u) ∈ old.slots → (Slot.inbound tag, hidden) ∈ old.slots →
      ∀ v ∈ config.slots, upstreamFingerprint parsers hidden ≠ upstreamFingerprint parsers v.2

def DistinctTags (config : Config) : Prop :=
  (config.inbounds.map InboundConfig.tag).Nodup ∧ (config.outbounds.map OutboundConfig.tag).Nodup

variable (check : UpstreamConfig → Except String Unit)

/-- The server's table after so many reloads, with the configuration it was built
from. A refused configuration leaves it. The order of its fingerprints is that
of a hash map. -/
inductive Runs (allowed : Option Config → Config → Prop) :
    Nat → Option (Config × ServerRouterState Live) → Prop where
  | start : Runs allowed 0 none
  | refused {n : Nat} {table : Option (Config × ServerRouterState Live)} (crates : Crates)
      (geo : GeoData) (config : Config) (reason : String) : Runs allowed n table →
      buildServerRouterState (liveUpstreams check n) parsers crates geo config (table.map Prod.snd) =
        .error reason → Runs allowed (n + 1) table
  | reloaded {n : Nat} {table : Option (Config × ServerRouterState Live)} (crates : Crates)
      (geo : GeoData) (config : Config) (next : ServerRouterState Live)
      (order : List (String × String)) : Runs allowed n table →
      allowed (table.map Prod.fst) config →
      buildServerRouterState (liveUpstreams check n) parsers crates geo config (table.map Prod.snd) =
        .ok next → order.Perm next.fingerprints →
      Runs allowed (n + 1) (some (config, { next with fingerprints := order }))

/-- An outlet stands exactly where an upstream does, and serves it. -/
def Bound (config : Config) (state : ServerRouterState Live) : Prop :=
  (∀ slot u, (slot, u) ∈ config.slots → ∃ outlet, state.bound slot = some outlet ∧ outlet.config = u) ∧
    ∀ slot outlet, state.bound slot = some outlet → (slot, outlet.config) ∈ config.slots

def Keeps (old : Config) (before : ServerRouterState Live) (config : Config)
    (next : ServerRouterState Live) : Prop :=
  ∀ slot u outlet, (slot, u) ∈ old.slots → before.bound slot = some outlet →
    ∀ slot', (slot', u) ∈ config.slots → next.bound slot' = some outlet

/-- Each tunnel configuration has one tunnel, however many outlets. -/
def OneTunnel (state : ServerRouterState Live) : Prop :=
  let live (outlet : Live) : Prop := outlet ∈ state.freshWg ∨ ∃ slot, state.bound slot = some outlet
  (∀ one other, live one → live other → one.config.isWireguard = true →
    one.config.tunnel = other.config.tunnel → one.born = other.born) ∧
  (state.freshWg.map fun outlet => outlet.config.tunnel).Nodup

end Reloads

section Tables
variable {parsers : Parsers}

/-- What holds of a table: the reload a configuration's outlet was made in, the
same for all policies of a tunnel, and where fingerprints are filed. -/
structure Sound (parsers : Parsers) (slots : List (Slot × UpstreamConfig))
    (bound : Slot → Option Live) (fingerprints : List (String × String))
    (born : UpstreamConfig → Nat) : Prop where
  serves : ∀ slot u, (slot, u) ∈ slots → bound slot = some ⟨u, born u⟩
  only : ∀ slot outlet, bound slot = some outlet → (slot, outlet.config) ∈ slots
  shared : ∀ slot u slot' v, (slot, u) ∈ slots → (slot', v) ∈ slots → u.isWireguard = true →
    u.tunnel = v.tunnel → born u = born v
  named : ∀ entry ∈ fingerprints, ∃ slot u, (slot, u) ∈ slots ∧
    entry = (slot.key, upstreamFingerprint parsers u)
  filed : ∀ slot u, (slot, u) ∈ slots → (slot.key, upstreamFingerprint parsers u) ∈ fingerprints ∨
    ∃ slot' u', (slot', u') ∈ slots ∧ slot' ≠ slot ∧ slot'.key = slot.key

/-- The tunnel or, for Shadowsocks, the outlet that a search by fingerprint is for. -/
def wants (parsers : Parsers) (u : UpstreamConfig) (fp : String) : Bool :=
  match wgTunnelFingerprint parsers u with
  | some want => decide (beforeLast "|udp=".toList fp.toList = some want.toList)
  | none => decide (fp = upstreamFingerprint parsers u)

/-- The reload in which an outlet for the configuration was made: an earlier one
if the table before has the tunnel. -/
def bornIn (parsers : Parsers) (reload : Nat) (before : Option (ServerRouterState Live))
    (u : UpstreamConfig) : Nat :=
  ((before.bind fun state =>
    (state.fingerprints.find? fun entry => wants parsers u entry.2).bind fun entry =>
      state.outletAt entry.1).map Live.born).getD reload

variable {reload : Nat} {u : UpstreamConfig}

theorem wants_eq (v : UpstreamConfig) : wants parsers u (upstreamFingerprint parsers v) = true ↔
    if u.isWireguard = true then wgTunnelFingerprint parsers v = wgTunnelFingerprint parsers u
    else upstreamFingerprint parsers v = upstreamFingerprint parsers u := by
  unfold wants
  have kind := @wgTunnelFingerprint_isSome parsers u
  cases tunnel : wgTunnelFingerprint parsers u with
  | none =>
      rw [tunnel] at kind
      rw [← kind]
      simp
  | some want =>
      rw [tunnel] at kind
      rw [← kind, Option.isSome_some, if_pos rfl, decide_eq_true_iff]
      exact sameTunnel_iff tunnel v

theorem wants_self : wants parsers u (upstreamFingerprint parsers u) = true := by
  rw [wants_eq]
  split <;> rfl

section Before
variable {old config : Config} {state : ServerRouterState Live} {born : UpstreamConfig → Nat}
  (sound : Sound parsers old.slots state.bound state.fingerprints born)
  (clear : Clear parsers (some old) config) {slot : Slot}
  (member : (slot, u) ∈ config.slots)
include sound clear member

theorem outletAt_wanted {entry : String × String} (filed : entry ∈ state.fingerprints)
    (wanted : wants parsers u entry.2 = true) :
    ∃ slot' v, (slot', v) ∈ old.slots ∧ entry = (slot'.key, upstreamFingerprint parsers v) ∧
      state.outletAt entry.1 = some ⟨v, born v⟩ := by
  obtain ⟨slot', v, inside, rfl⟩ := sound.named entry filed
  refine ⟨slot', v, inside, rfl, ?_⟩
  rw [← sound.serves slot' v inside]
  cases slot' with
  | inbound tag => exact outletAt_inbound state tag
  | outbound tag =>
      apply outletAt_outbound
      rintro name rfl
      have unlike := clear.unnamed old rfl name v inside (slot, u) member
      rw [wants_eq] at wanted
      split at wanted
      · next wireguard =>
        have kinds := congrArg Option.isSome wanted
        rw [wgTunnelFingerprint_isSome, wgTunnelFingerprint_isSome, wireguard] at kinds
        exact unlike.tunnel kinds wanted
      · exact unlike.whole wanted

theorem filed_again {slot' : Slot} (inside : (slot', u) ∈ old.slots) :
    (slot'.key, upstreamFingerprint parsers u) ∈ state.fingerprints := by
  rcases sound.filed slot' u inside with filed | ⟨other, v, there, different, same⟩
  · exact filed
  · obtain ⟨tag, ⟨rfl, rfl⟩ | ⟨rfl, rfl⟩⟩ := Slot.key_eq same different
    · exact absurd rfl (clear.unnamed old rfl tag u inside (slot, u) member).whole
    · exact absurd rfl (clear.uncovered old rfl tag v u there inside (slot, u) member)

omit sound in
/-- What is found under a fingerprint that is looked for serves the configuration
itself, or its tunnel. -/
theorem alike_of_wanted {slot' : Slot} {v : UpstreamConfig} (inside : (slot', v) ∈ old.slots)
    (wanted : wants parsers u (upstreamFingerprint parsers v) = true) :
    v = u ∨ u.isWireguard = true ∧ v.isWireguard = true ∧ v.tunnel = u.tunnel := by
  have apart := clear.apart old rfl (slot', v) inside (slot, u) member
  rw [wants_eq] at wanted
  split at wanted
  · next wireguard =>
    have kinds := congrArg Option.isSome wanted
    rw [wgTunnelFingerprint_isSome, wgTunnelFingerprint_isSome, wireguard] at kinds
    exact .inr ⟨wireguard, kinds, apart.tunnel kinds wanted⟩
  · exact .inl (apart.whole wanted)

/-- Every outlet that a search can find was made in the same reload. -/
theorem bornIn_of_wanted {slot' : Slot} {v : UpstreamConfig} (inside : (slot', v) ∈ old.slots)
    (filed : (slot'.key, upstreamFingerprint parsers v) ∈ state.fingerprints)
    (wanted : wants parsers u (upstreamFingerprint parsers v) = true) :
    bornIn parsers reload (some state) u = born v := by
  obtain ⟨entry, found⟩ := Option.isSome_iff_exists.mp
    (List.find?_isSome.mpr ⟨_, filed, wanted⟩ : (state.fingerprints.find? fun entry =>
      wants parsers u entry.2).isSome)
  have foundWanted := List.find?_some found
  obtain ⟨slot'', w, there, named, outlet⟩ :=
    outletAt_wanted sound clear member (List.mem_of_find?_eq_some found) foundWanted
  rw [named] at foundWanted
  have same : born w = born v := by
    rcases alike_of_wanted clear member there foundWanted with rfl | ⟨_, wireguard, tunnel⟩
    · rcases alike_of_wanted clear member inside wanted with rfl | ⟨wireguard, _, tunnel⟩
      · rfl
      · exact sound.shared _ _ _ _ there inside wireguard tunnel.symm
    · rcases alike_of_wanted clear member inside wanted with rfl | ⟨_, _, tunnel'⟩
      · exact sound.shared _ _ _ _ there inside wireguard tunnel
      · exact sound.shared _ _ _ _ there inside wireguard (tunnel.trans tunnel'.symm)
  simp only [bornIn, Option.bind_some, found, outlet, Option.map_some, Option.getD_some, same]

end Before

def Prior (parsers : Parsers) (reload : Nat) (before : Option (ServerRouterState Live))
    (u : UpstreamConfig) : Prop :=
  ∀ state ∈ before, ∀ entry ∈ state.fingerprints, wants parsers u entry.2 = true →
    ∃ v, entry.2 = upstreamFingerprint parsers v ∧
      state.outletAt entry.1 = some ⟨v, bornIn parsers reload before u⟩ ∧
      (v = u ∨ u.isWireguard = true ∧ v.isWireguard = true ∧ v.tunnel = u.tunnel) ∧
      (entry.2 = upstreamFingerprint parsers u → v = u)

theorem prior_of_sound {table : Option (Config × ServerRouterState Live)} {config : Config}
    (sound : ∀ entry ∈ table, ∃ born, Sound parsers entry.1.slots entry.2.bound
      entry.2.fingerprints born)
    (clear : Clear parsers (table.map Prod.fst) config) {slot : Slot}
    (member : (slot, u) ∈ config.slots) : Prior parsers reload (table.map Prod.snd) u := by
  intro state here entry filed wanted
  obtain ⟨⟨old, _⟩, isTable, rfl⟩ := Option.map_eq_some_iff.mp here
  rw [isTable] at clear sound ⊢
  obtain ⟨born, sound⟩ := sound _ rfl
  obtain ⟨slot', v, inside, rfl, outlet⟩ := outletAt_wanted sound clear member filed wanted
  refine ⟨v, rfl, ?_, alike_of_wanted clear member inside wanted, fun same =>
    (clear.apart old rfl _ inside _ member).whole same⟩
  rw [outlet]
  exact congrArg some (congrArg (Live.mk v)
    (bornIn_of_wanted sound clear member inside filed wanted).symm)

theorem withUdp_of_tunnel {v : UpstreamConfig} (tunnel : v.tunnel = u.tunnel) (udp : UdpPolicy) :
    u.isWireguard = true → v.withUdp udp = u.withUdp udp := by
  intro wireguard
  cases u with
  | shadowsocks => cases wireguard
  | wireguard =>
      cases v with
      | shadowsocks => cases tunnel
      | wireguard =>
          simp only [UpstreamConfig.tunnel, UpstreamConfig.withUdp, Option.some.injEq,
            UpstreamConfig.wireguard.injEq] at tunnel ⊢
          tauto

theorem fingerprint_of_tunnel (u : UpstreamConfig) :
    wgTunnelFingerprint parsers u = u.tunnel.bind (wgTunnelFingerprint parsers) := by
  cases u <;> rfl

theorem wants_congr {v : UpstreamConfig} (wireguard : u.isWireguard = true)
    (same : u.tunnel = v.tunnel) : wants parsers u = wants parsers v := by
  obtain ⟨want, tunnel⟩ := Option.isSome_iff_exists.mp
    ((@wgTunnelFingerprint_isSome parsers u).trans wireguard)
  have other : wgTunnelFingerprint parsers v = some want := by
    rw [fingerprint_of_tunnel, ← same, ← fingerprint_of_tunnel, tunnel]
  funext fp
  simp only [wants, tunnel, other]

theorem bornIn_congr {before : Option (ServerRouterState Live)} {v : UpstreamConfig}
    (wireguard : u.isWireguard = true) (same : u.tunnel = v.tunnel) :
    bornIn parsers reload before u = bornIn parsers reload before v := by
  simp only [bornIn, wants_congr wireguard same]

theorem mem_put {α : Type} {key : String} {value : α} {map : List (String × α)}
    {entry : String × α} :
    entry ∈ put key value map ↔ entry ∈ map ∧ entry.1 ≠ key ∨ entry = (key, value) := by
  simp [put]

/-- While the table is built: every outlet serves its configuration, and a tunnel
is made only once. -/
structure Building (parsers : Parsers) (reload : Nat) (before : Option (ServerRouterState Live))
    (done : List (Slot × UpstreamConfig)) (bound : Slot → Option Live) (outlets : Outlets Live) :
    Prop where
  sound : Sound parsers done bound outlets.fingerprints (bornIn parsers reload before)
  built : ∀ entry ∈ outlets.built, ∃ slot u, (slot, u) ∈ done ∧
    entry = (upstreamFingerprint parsers u, ⟨u, bornIn parsers reload before u⟩)
  stored : ∀ slot u, (slot, u) ∈ done →
    (upstreamFingerprint parsers u, ⟨u, bornIn parsers reload before u⟩) ∈ outlets.built
  fresh : ∀ outlet ∈ outlets.freshWg, outlet.config.isWireguard = true ∧
    ∃ slot u, (slot, u) ∈ done ∧ outlet = ⟨u, bornIn parsers reload before u⟩
  once : (outlets.freshWg.map fun outlet => outlet.config.tunnel).Nodup

section Step
variable {check : UpstreamConfig → Except String Unit} {before : Option (ServerRouterState Live)}
  {outlets next : Outlets Live} {made : Option Live} {key : String}

/-- A tunnel that is shared is the configuration's; where none is, there is none. -/
theorem sharedTunnel_live (prior : Prior parsers reload before u)
    (built : ∀ entry ∈ outlets.built, ∃ v, Apart parsers v u ∧ entry =
      (upstreamFingerprint parsers v, ⟨v, bornIn parsers reload before v⟩)) :
    match sharedTunnel parsers u before outlets with
    | some base => u.isWireguard = true ∧ base.config.isWireguard = true ∧
        base.config.tunnel = u.tunnel ∧ base.born = bornIn parsers reload before u
    | none => u.isWireguard = true → bornIn parsers reload before u = reload ∧
        ∀ entry ∈ outlets.built, entry.2.config.tunnel ≠ u.tunnel := by
  have kind := @wgTunnelFingerprint_isSome parsers u
  unfold sharedTunnel
  cases tunnel : wgTunnelFingerprint parsers u with
  | none =>
      intro wireguard
      rw [tunnel, wireguard] at kind
      cases kind
  | some want =>
      rw [tunnel] at kind
      have wireguard : u.isWireguard = true := kind.symm
      have test : ∀ fp, decide (beforeLast "|udp=".toList fp.toList = some want.toList) =
          wants parsers u fp := by
        intro fp
        simp only [wants, tunnel]
      simp only [Option.bind_eq_bind, Option.bind_some, test]
      cases found : outlets.built.find? fun entry => wants parsers u entry.1 with
      | some entry =>
          obtain ⟨v, apart, rfl⟩ := built entry (List.mem_of_find?_eq_some found)
          have wanted := List.find?_some found
          rw [wants_eq, if_pos wireguard] at wanted
          have kinds := congrArg Option.isSome wanted
          rw [wgTunnelFingerprint_isSome, wgTunnelFingerprint_isSome, wireguard] at kinds
          have same := apart.tunnel kinds wanted
          exact ⟨wireguard, kinds, same, bornIn_congr kinds same⟩
      -- No outlet of this call has the tunnel, so that those made from now on are its first.
      | none =>
          have apart : ∀ entry ∈ outlets.built, entry.2.config.tunnel ≠ u.tunnel := by
            intro entry member same
            obtain ⟨v, _, rfl⟩ := built entry member
            refine List.find?_eq_none.mp found _ member ?_
            rw [wants_eq, if_pos wireguard, fingerprint_of_tunnel v, same, ← fingerprint_of_tunnel]
          cases before with
          | none => exact fun _ => ⟨rfl, apart⟩
          | some state =>
              simp only [Option.bind_some]
              cases there : state.fingerprints.find? fun entry => wants parsers u entry.2 with
              | none => exact fun _ => ⟨by simp [bornIn, there], apart⟩
              | some entry =>
                  have wanted := List.find?_some there
                  obtain ⟨v, named, outlet, alike, _⟩ := prior state rfl entry
                    (List.mem_of_find?_eq_some there) wanted
                  rw [Option.bind_some, outlet]
                  rcases alike with rfl | ⟨_, other, same⟩
                  · exact ⟨wireguard, wireguard, rfl, rfl⟩
                  · exact ⟨wireguard, other, same, rfl⟩

theorem outletFor_live (prior : Prior parsers reload before u)
    (built : ∀ entry ∈ outlets.built, ∃ v, Apart parsers v u ∧ entry =
      (upstreamFingerprint parsers v, ⟨v, bornIn parsers reload before v⟩))
    (ran : outletFor (liveUpstreams check reload) parsers key (upstreamFingerprint parsers u) u before
      outlets = .ok (made, next)) :
    made = some ⟨u, bornIn parsers reload before u⟩ ∧
      next.fingerprints = put key (upstreamFingerprint parsers u) outlets.fingerprints ∧
      (∀ entry, entry ∈ next.built ↔ entry ∈ outlets.built ∨
        entry = (upstreamFingerprint parsers u, ⟨u, bornIn parsers reload before u⟩)) ∧
      (next.freshWg = outlets.freshWg ∨
        next.freshWg = outlets.freshWg ++ [⟨u, bornIn parsers reload before u⟩] ∧
          u.isWireguard = true ∧ ∀ entry ∈ outlets.built, entry.2.config.tunnel ≠ u.tunnel) := by
  simp only [outletFor] at ran
  cases found : outlets.built.find? fun entry => decide (entry.1 = upstreamFingerprint parsers u) with
  -- An outlet of this call has the same fingerprint, and so the same upstream.
  | some entry =>
      rw [found] at ran
      cases ran
      have member := List.mem_of_find?_eq_some found
      obtain ⟨v, apart, rfl⟩ := built entry member
      have hit := List.find?_some found
      have same := apart.whole (of_decide_eq_true hit)
      subst same
      exact ⟨rfl, rfl, fun entry => ⟨.inl, fun either => either.elim id fun isIt => isIt ▸ member⟩, .inl rfl⟩
  | none =>
      rw [found] at ran
      dsimp only at ran
      have added : ∀ (outlet : Live) entry, entry ∈ put (upstreamFingerprint parsers u) outlet outlets.built ↔
          entry ∈ outlets.built ∨ entry = (upstreamFingerprint parsers u, outlet) := by
        intro outlet entry
        rw [mem_put]
        refine or_congr_left (and_iff_left_of_imp fun member same => ?_)
        exact List.find?_eq_none.mp found entry member (decide_eq_true same)
      cases reused : (before.bind fun state => (state.fingerprints.find? fun entry =>
          decide (entry.2 = upstreamFingerprint parsers u)).bind fun entry =>
            state.outletAt entry.1) with
      -- An outlet of the running configuration is taken over as it is.
      | some outlet =>
          rw [reused] at ran
          obtain ⟨state, isBefore, reused⟩ := Option.bind_eq_some_iff.mp reused
          obtain ⟨entry, there, reused⟩ := Option.bind_eq_some_iff.mp reused
          have hit := List.find?_some there
          have exact_ := of_decide_eq_true hit
          obtain ⟨v, _, standing, _, same⟩ := prior state isBefore entry
            (List.mem_of_find?_eq_some there) (by rw [exact_]; exact wants_self)
          rw [reused, Option.some.injEq] at standing
          obtain rfl := same exact_
          rw [standing] at ran
          cases ran
          exact ⟨rfl, rfl, added _, .inl rfl⟩
      | none =>
          rw [reused] at ran
          dsimp only [Option.isNone_none] at ran
          have shared := @sharedTunnel_live parsers reload u before
            { outlets with fingerprints := put key (upstreamFingerprint parsers u) outlets.fingerprints }
            prior built
          cases tunnel : sharedTunnel parsers u before
              { outlets with fingerprints := put key (upstreamFingerprint parsers u) outlets.fingerprints }
              with
          -- A tunnel with the same keys is shared, with the UDP policy of this upstream.
          | some base =>
              rw [tunnel] at shared
              rw [if_pos rfl, tunnel] at ran
              obtain ⟨wireguard, base_, same, born⟩ := shared
              have moved : ∀ udp, u.withUdp udp = u →
                  (liveUpstreams check reload).withUdp base udp =
                    ⟨u, bornIn parsers reload before u⟩ := by
                intro udp own
                change Live.mk (base.config.withUdp udp) base.born = _
                rw [withUdp_of_tunnel same udp wireguard, own, born]
              cases u with
              | shadowsocks => cases wireguard
              | wireguard privateKey peerPublicKey presharedKey endpoint address mtu keepalive udp dns =>
                  dsimp only at ran
                  have kind : (liveUpstreams check reload).isWireguard base = true := base_
                  rw [if_pos kind, moved udp rfl] at ran
                  cases ran
                  exact ⟨rfl, rfl, added _, .inl rfl⟩
          -- Only here something new is made.
          | none =>
              rw [tunnel] at shared
              rw [if_pos rfl, tunnel] at ran
              dsimp only at ran
              obtain ⟨outlet, passed, ran⟩ := bind_eq_ok.mp ran
              have isIt : outlet = some ⟨u, reload⟩ := by
                change (check u).map _ = _ at passed
                cases checked : check u with
                | error => rw [checked] at passed; cases passed
                | ok => rw [checked] at passed; cases passed; rfl
              rw [isIt] at ran
              change (if u.isWireguard = true then _ else _) = _ at ran
              cases wireguard : u.isWireguard with
              | true =>
                  obtain ⟨born, apart⟩ := shared wireguard
                  rw [if_pos wireguard] at ran
                  cases ran
                  rw [born]
                  exact ⟨rfl, rfl, added _, .inr ⟨rfl, rfl, apart⟩⟩
              | false =>
                  have born : bornIn parsers reload before u = reload := by
                    have none_ := (@wgTunnelFingerprint_isSome parsers u).trans wireguard
                    rw [Option.isSome_eq_false_iff, Option.isNone_iff_eq_none] at none_
                    simp only [bornIn, wants, none_, reused, Option.map_none, Option.getD_none]
                  rw [if_neg (by rw [wireguard]; exact Bool.false_ne_true)] at ran
                  cases ran
                  rw [born]
                  exact ⟨rfl, rfl, added _, .inl rfl⟩

theorem sound_step {done : List (Slot × UpstreamConfig)} {bound bound' : Slot → Option Live}
    {fingerprints : List (String × String)} {slot : Slot}
    (sound : Sound parsers done bound fingerprints (bornIn parsers reload before))
    (fresh : ∀ v, (slot, v) ∉ done) (here : bound' slot = some ⟨u, bornIn parsers reload before u⟩)
    (others : ∀ other, other ≠ slot → bound' other = bound other) :
    Sound parsers (done ++ [(slot, u)]) bound'
      (put slot.key (upstreamFingerprint parsers u) fingerprints) (bornIn parsers reload before) where
  serves := by
    intro s v member
    rcases List.mem_append.mp member with before_ | new
    · rw [others s fun same => fresh v (same ▸ before_)]
      exact sound.serves s v before_
    · cases List.mem_singleton.mp new
      exact here
  only := by
    intro s outlet standing
    by_cases same : s = slot
    · subst same
      rw [here, Option.some.injEq] at standing
      subst standing
      exact List.mem_append_right _ (List.mem_singleton.mpr rfl)
    · rw [others s same] at standing
      exact List.mem_append_left _ (sound.only s outlet standing)
  shared _ _ _ _ _ _ wireguard same := bornIn_congr wireguard same
  named := by
    intro entry filed
    rcases mem_put.mp filed with ⟨old, _⟩ | rfl
    · obtain ⟨s, v, member, named⟩ := sound.named entry old
      exact ⟨s, v, List.mem_append_left _ member, named⟩
    · exact ⟨slot, u, List.mem_append_right _ (List.mem_singleton.mpr rfl), rfl⟩
  filed := by
    intro s v member
    rcases List.mem_append.mp member with before_ | new
    · rcases sound.filed s v before_ with filed | ⟨s', v', there, different, same⟩
      · by_cases same : s.key = slot.key
        · exact .inr ⟨slot, u, List.mem_append_right _ (List.mem_singleton.mpr rfl),
            fun isIt => fresh v (isIt ▸ before_), same.symm⟩
        · exact .inl (mem_put.mpr (.inl ⟨filed, same⟩))
      · exact .inr ⟨s', v', List.mem_append_left _ there, different, same⟩
    · cases List.mem_singleton.mp new
      exact .inl (mem_put.mpr (.inr rfl))

theorem building_step {done : List (Slot × UpstreamConfig)} {bound bound' : Slot → Option Live}
    {slot : Slot} (building : Building parsers reload before done bound outlets)
    (prior : Prior parsers reload before u) (apart : ∀ s v, (s, v) ∈ done → Apart parsers v u)
    (fresh : ∀ v, (slot, v) ∉ done)
    (ran : outletFor (liveUpstreams check reload) parsers slot.key (upstreamFingerprint parsers u) u
      before outlets = .ok (made, next))
    (here : bound' slot = made) (others : ∀ other, other ≠ slot → bound' other = bound other) :
    made = some ⟨u, bornIn parsers reload before u⟩ ∧
      Building parsers reload before (done ++ [(slot, u)]) bound' next := by
  obtain ⟨isMade, fingerprints, built, freshWg⟩ := outletFor_live prior (fun entry member => by
    obtain ⟨s, v, inside, rfl⟩ := building.built entry member
    exact ⟨v, apart s v inside, rfl⟩) ran
  refine ⟨isMade, ?_, ?_, ?_, ?_, ?_⟩
  · rw [fingerprints]
    exact sound_step building.sound fresh (here.trans isMade) others
  · intro entry member
    rcases (built entry).mp member with old | rfl
    · obtain ⟨s, v, inside, named⟩ := building.built entry old
      exact ⟨s, v, List.mem_append_left _ inside, named⟩
    · exact ⟨slot, u, List.mem_append_right _ (List.mem_singleton.mpr rfl), rfl⟩
  · intro s v member
    rcases List.mem_append.mp member with old | new
    · exact (built _).mpr (.inl (building.stored s v old))
    · cases List.mem_singleton.mp new
      exact (built _).mpr (.inr rfl)
  · intro outlet member
    have earlier : outlet ∈ outlets.freshWg → outlet.config.isWireguard = true ∧
        ∃ s v, (s, v) ∈ done ++ [(slot, u)] ∧ outlet = ⟨v, bornIn parsers reload before v⟩ := by
      intro old
      obtain ⟨wireguard, s, v, inside, isIt⟩ := building.fresh outlet old
      exact ⟨wireguard, s, v, List.mem_append_left _ inside, isIt⟩
    rcases freshWg with same | ⟨grown, wireguard, _⟩
    · rw [same] at member
      exact earlier member
    · rw [grown] at member
      rcases List.mem_append.mp member with old | new
      · exact earlier old
      · cases List.mem_singleton.mp new
        exact ⟨wireguard, slot, u, List.mem_append_right _ (List.mem_singleton.mpr rfl), rfl⟩
  · rcases freshWg with same | ⟨grown, _, unlike⟩
    · rw [same]
      exact building.once
    · rw [grown, List.map_append, List.map_singleton]
      refine List.nodup_append.mpr ⟨building.once, List.nodup_singleton _, ?_⟩
      intro tunnel member other new same
      obtain ⟨outlet, old, rfl⟩ := List.mem_map.mp member
      obtain ⟨_, s, v, inside, rfl⟩ := building.fresh outlet old
      exact unlike _ (building.stored s v inside) (same.trans (List.mem_singleton.mp new))

/-- How one item of a configuration is worked off: an upstream by `outlet_for`,
anything else without an outlet. -/
structure Worked {State Item : Type} (check : UpstreamConfig → Except String Unit)
    (parsers : Parsers) (reload : Nat) (before : Option (ServerRouterState Live))
    (view : State → Slot → Option Live) (outs : State → Outlets Live) (place : Item → Slot)
    (upstream : Item → Option UpstreamConfig) (state : State) (item : Item) (next : State) : Prop where
  others : ∀ slot, slot ≠ place item → view next slot = view state slot
  worked : match upstream item with
    | some u => ∃ made, outletFor (liveUpstreams check reload) parsers (place item).key
        (upstreamFingerprint parsers u) u before (outs state) = .ok (made, outs next) ∧
          (made.isSome = true → view next (place item) = made)
    | none => outs next = outs state ∧
        (view next (place item) = view state (place item) ∨ view next (place item) = none)

theorem foldlM_built {State Item : Type} {view : State → Slot → Option Live}
    {outs : State → Outlets Live} {place : Item → Slot} {upstream : Item → Option UpstreamConfig}
    {step : State → Item → Except String State} {all : List (Slot × UpstreamConfig)}
    (told : ∀ u ∈ all, ∀ v ∈ all, Apart parsers u.2 v.2)
    (prior : ∀ u ∈ all, Prior parsers reload before u.2)
    (stepped : ∀ state item next, step state item = .ok next →
      Worked check parsers reload before view outs place upstream state item next)
    {items : List Item} {done : List (Slot × UpstreamConfig)} {state final : State}
    (distinct : (items.map place).Nodup) (fresh : ∀ item ∈ items, ∀ u, (place item, u) ∉ done)
    (inside : ∀ entry ∈ done ++ slotsOf place upstream items, entry ∈ all)
    (building : Building parsers reload before done (view state) (outs state))
    (ran : items.foldlM step state = .ok final) :
    Building parsers reload before (done ++ slotsOf place upstream items) (view final) (outs final) := by
  induction items generalizing done state with
  | nil =>
      cases ran
      rw [slotsOf, List.filterMap_nil, List.append_nil]
      exact building
  | cons item rest ih =>
      rw [List.foldlM_cons] at ran
      obtain ⟨next, made, ran⟩ := bind_eq_ok.mp ran
      obtain ⟨others, worked⟩ := stepped state item next made
      rw [List.map_cons, List.nodup_cons] at distinct
      have freshItem := fresh item List.mem_cons_self
      cases kind : upstream item with
      | none =>
          rw [kind] at worked
          obtain ⟨sameOuts, view_⟩ := worked
          -- Nothing has been put in its place yet, and nothing is put there now.
          have empty : view state (place item) = none := by
            cases standing : view state (place item) with
            | none => rfl
            | some outlet => exact absurd (building.sound.only _ _ standing) (freshItem _)
          have sameView : view next = view state := by
            funext slot
            by_cases same : slot = place item
            · rw [same, empty]
              exact view_.elim (fun kept => kept.trans empty) id
            · exact others slot same
          have skipped : slotsOf place upstream (item :: rest) = slotsOf place upstream rest := by
            rw [slotsOf, List.filterMap_cons_none (by rw [kind]; rfl), slotsOf]
          rw [skipped] at inside ⊢
          refine ih distinct.2 (fun other member => fresh other (List.mem_cons_of_mem _ member)) inside
            ?_ ran
          rw [sameView, sameOuts]
          exact building
      | some u =>
          rw [kind] at worked
          obtain ⟨outlet, asked, view_⟩ := worked
          have split : done ++ slotsOf place upstream (item :: rest) =
              (done ++ [(place item, u)]) ++ slotsOf place upstream rest := by
            rw [slotsOf, List.filterMap_cons_some (by rw [kind]; rfl), slotsOf, List.append_assoc,
              List.singleton_append]
          have member : (place item, u) ∈ all := by
            apply inside
            rw [split]
            simp
          have apart : ∀ s v, (s, v) ∈ done → Apart parsers v u := fun s v earlier =>
            told _ (inside _ (List.mem_append_left _ earlier)) _ member
          obtain ⟨isMade, _⟩ := outletFor_live (prior _ member) (fun entry listed => by
            obtain ⟨s, v, earlier, rfl⟩ := building.built entry listed
            exact ⟨v, apart s v earlier, rfl⟩) asked
          obtain ⟨_, grown⟩ := building_step building (prior _ member) apart freshItem asked
            (view_ (by rw [isMade]; rfl)) others
          rw [split] at inside ⊢
          refine ih distinct.2 ?_ inside grown ran
          intro other later v listed
          rcases List.mem_append.mp listed with earlier | new
          · exact fresh other (List.mem_cons_of_mem _ later) v earlier
          · have same : place other = place item := congrArg Prod.fst (List.mem_singleton.mp new)
            exact distinct.1 (same ▸ List.mem_map_of_mem later)

theorem addInbound_worked {state next : (String → Option Live) × Outlets Live}
    {inbound : InboundConfig}
    (ran : addInbound (liveUpstreams check reload) parsers before state inbound = .ok next) :
    Worked check parsers reload before
      (fun (state : (String → Option Live) × Outlets Live) => outletIn state.1 fun _ => none)
      Prod.snd (fun inbound => .inbound inbound.tag) InboundConfig.upstream state inbound next := by
  have elsewhere : ∀ (table : String → Option Live) tag outlet slot, slot ≠ Slot.inbound tag →
      outletIn (Function.update table tag (some outlet)) (fun _ => none) slot =
        outletIn table (fun _ => none) slot := by
    intro table tag outlet slot different
    cases slot with
    | inbound other =>
        exact Function.update_of_ne (fun same => different (congrArg Slot.inbound same)) _ _
    | outbound other => rfl
  cases inbound with
  | other tag =>
      cases ran
      exact ⟨fun _ _ => rfl, rfl, .inl rfl⟩
  | mirageServer tag upstream =>
      cases upstream with
      | none =>
          cases ran
          exact ⟨fun _ _ => rfl, rfl, .inl rfl⟩
      | some u =>
          obtain ⟨⟨made, outlets⟩, asked, ran⟩ := bind_eq_ok.mp ran
          cases made with
          | none =>
              cases ran
              exact ⟨fun _ _ => rfl, none, asked, fun missing => (nomatch missing)⟩
          | some outlet =>
              cases ran
              exact ⟨fun slot => elsewhere state.1 tag outlet slot, some outlet, asked, fun _ =>
                Function.update_self _ _ _⟩

/-- One outbound of the configuration, `Worked`. -/
def OutboundWorked (check : UpstreamConfig → Except String Unit) (parsers : Parsers) (reload : Nat)
    (before : Option (ServerRouterState Live)) (inbounds : String → Option Live)
    (wanted : String → Bool) :
    (String → Option (ServerOutboundTarget Live)) × Outlets Live → OutboundConfig →
      (String → Option (ServerOutboundTarget Live)) × Outlets Live → Prop :=
  Worked check parsers reload before (fun state => outletIn inbounds state.1) Prod.snd
    (fun outbound => .outbound outbound.tag) (OutboundConfig.wantedUpstream wanted)

section Outbound
variable {inbounds : String → Option Live} {wanted : String → Bool}
  {state final : (String → Option (ServerOutboundTarget Live)) × Outlets Live}
  {outbound : OutboundConfig}

theorem outletIn_elsewhere (table : String → Option (ServerOutboundTarget Live)) {tag : String}
    (target : ServerOutboundTarget Live) {slot : Slot} (different : slot ≠ .outbound tag) :
    outletIn inbounds (Function.update table tag (some target)) slot = outletIn inbounds table slot := by
  cases slot with
  | inbound other => rfl
  | outbound other =>
      have apart : other ≠ tag := fun same => different (congrArg Slot.outbound same)
      simp only [outletIn, Function.update_of_ne apart]

theorem addOutbound_upstream (kind : outbound.upstream = some u) :
    addOutbound (liveUpstreams check reload) parsers before wanted state outbound =
      if !wanted outbound.tag then .ok state
      else (outletFor (liveUpstreams check reload) parsers outbound.tag
        (upstreamFingerprint parsers u) u before state.2).map fun asked =>
          (match asked.1 with
            | some outlet => Function.update state.1 outbound.tag (some (.upstream outlet))
            | none => state.1, asked.2) := by
  cases outbound with
  | shadowsocks tag server serverPort method password udp =>
      cases kind
      refine if_congr Iff.rfl rfl ?_
      generalize outletFor (liveUpstreams check reload) parsers _ _ _ before state.2 = asked
      obtain _ | ⟨_ | _, _⟩ := asked <;> rfl
  | wireguard tag =>
      cases kind
      refine if_congr Iff.rfl rfl ?_
      generalize outletFor (liveUpstreams check reload) parsers _ _ _ before state.2 = asked
      obtain _ | ⟨_ | _, _⟩ := asked <;> rfl
  | direct | block | other => cases kind

theorem upstream_worked (kind : outbound.upstream = some u)
    (ran : addOutbound (liveUpstreams check reload) parsers before wanted state outbound =
      .ok final) :
    OutboundWorked check parsers reload before inbounds wanted state outbound final := by
  rw [addOutbound_upstream kind] at ran
  cases used : wanted outbound.tag with
  | false =>
      rw [used] at ran
      cases ran
      refine ⟨fun _ _ => rfl, ?_⟩
      rw [OutboundConfig.wantedUpstream, used]
      exact ⟨rfl, .inl rfl⟩
  | true =>
      rw [used, Bool.not_true, if_neg Bool.false_ne_true] at ran
      obtain ⟨⟨made, outlets⟩, asked, ran⟩ := bind_eq_ok.mp ran
      have isIt : OutboundConfig.wantedUpstream wanted outbound = some u := by
        rw [OutboundConfig.wantedUpstream, used, if_pos rfl, kind]
      cases made with
      | none =>
          cases ran
          refine ⟨fun _ _ => rfl, ?_⟩
          rw [isIt]
          exact ⟨none, asked, fun missing => (nomatch missing)⟩
      | some outlet =>
          cases ran
          refine ⟨fun _ => outletIn_elsewhere state.1 _, ?_⟩
          rw [isIt]
          exact ⟨some outlet, asked, fun _ => by simp only [outletIn, Function.update_self]⟩

theorem plain_worked {target : ServerOutboundTarget Live}
    (noOutlet : ∀ outlet, target ≠ .upstream outlet) (kind : outbound.upstream = none)
    (ran : (.ok (Function.update state.1 outbound.tag (some target), state.2) : Except String _) =
      .ok final) :
    OutboundWorked check parsers reload before inbounds wanted state outbound final := by
  cases ran
  refine ⟨fun _ => outletIn_elsewhere state.1 target, ?_⟩
  rw [OutboundConfig.wantedUpstream, kind, ite_self]
  refine ⟨rfl, .inr ?_⟩
  simp only [outletIn, Function.update_self]
  cases target with
  | upstream outlet => exact absurd rfl (noOutlet outlet)
  | direct => rfl
  | reject => rfl

theorem addOutbound_worked
    (ran : addOutbound (liveUpstreams check reload) parsers before wanted state outbound =
      .ok final) :
    OutboundWorked check parsers reload before inbounds wanted state outbound final := by
  cases outbound with
  | direct tag =>
      refine plain_worked ?_ rfl ran
      nofun
  | block tag =>
      refine plain_worked ?_ rfl ran
      nofun
  | shadowsocks => exact upstream_worked rfl ran
  | wireguard => exact upstream_worked rfl ran
  | other tag =>
      cases ran
      have none_ : OutboundConfig.wantedUpstream wanted (.other tag) = none := ite_self _
      refine ⟨fun _ _ => rfl, ?_⟩
      rw [none_]
      exact ⟨rfl, .inl rfl⟩

end Outbound

end Step

section Build
variable {check : UpstreamConfig → Except String Unit} {crates : Crates} {geo : GeoData}
  {config : Config} {before : Option (ServerRouterState Live)} {next : ServerRouterState Live}

theorem buildServerRouterState_outlets
    (ran : buildServerRouterState (liveUpstreams check reload) parsers crates geo config before =
      .ok next) :
    ∃ outlets, config.inbounds.foldlM (addInbound (liveUpstreams check reload) parsers before)
        (fun _ => none, ⟨[], [], []⟩) = .ok (next.inboundUpstreams, outlets) ∧
      ∃ final, config.outbounds.foldlM
          (addOutbound (liveUpstreams check reload) parsers before config.wanted)
          (fun _ => none, outlets) = .ok (next.outbounds, final) ∧
        final.fingerprints = next.fingerprints ∧ final.freshWg = next.freshWg := by
  rw [buildServerRouterState] at ran
  obtain ⟨⟨inboundUpstreams, outlets⟩, inbounds, ran⟩ := bind_eq_ok.mp ran
  obtain ⟨⟨outbounds, final⟩, made, ran⟩ := bind_eq_ok.mp ran
  dsimp only at ran
  split at ran
  · cases ran
  · split at ran
    · cases ran
      exact ⟨outlets, inbounds, final, made, rfl, rfl⟩
    · split at ran
      · cases ran
        exact ⟨outlets, inbounds, final, made, rfl, rfl⟩
      · split at ran
        · cases ran
          exact ⟨outlets, inbounds, final, made, rfl, rfl⟩
        · cases ran

theorem building_nil : Building parsers reload before []
    (outletIn (fun _ => none) fun _ => none) ⟨[], [], []⟩ where
  sound :=
    { serves := fun _ _ member => absurd member List.not_mem_nil
      only := by
        intro slot outlet standing
        cases slot <;> cases standing
      shared := fun _ _ _ _ member => absurd member List.not_mem_nil
      named := fun _ member => absurd member List.not_mem_nil
      filed := fun _ _ member => absurd member List.not_mem_nil }
  built _ member := absurd member List.not_mem_nil
  stored _ _ member := absurd member List.not_mem_nil
  fresh _ member := absurd member List.not_mem_nil
  once := List.nodup_nil

theorem built_sound (distinct : DistinctTags config) (clear : ∀ u ∈ config.slots,
      ∀ v ∈ config.slots, Apart parsers u.2 v.2)
    (prior : ∀ u ∈ config.slots, Prior parsers reload before u.2)
    (ran : buildServerRouterState (liveUpstreams check reload) parsers crates geo config before =
      .ok next) :
    ∃ built, Building parsers reload before config.slots next.bound
      ⟨next.fingerprints, built, next.freshWg⟩ := by
  obtain ⟨outlets, inbounds, final, outbounds, fingerprints, freshWg⟩ :=
    buildServerRouterState_outlets ran
  have half := @foldlM_built parsers reload check before _ _
    (fun (state : (String → Option Live) × Outlets Live) => outletIn state.1 fun _ => none)
    Prod.snd (fun inbound : InboundConfig => .inbound inbound.tag) InboundConfig.upstream _ config.slots clear prior
    (fun _ _ _ => addInbound_worked) config.inbounds [] _ _
    (by
      have tags := distinct.1.map (fun _ _ same => Slot.inbound.inj same)
      rwa [List.map_map] at tags)
    (fun _ _ _ => List.not_mem_nil) (fun _ member => List.mem_append_left _ member)
    building_nil inbounds
  have whole := @foldlM_built parsers reload check before _ _
    (fun (state : (String → Option (ServerOutboundTarget Live)) × Outlets Live) =>
      outletIn next.inboundUpstreams state.1)
    Prod.snd (fun outbound : OutboundConfig => .outbound outbound.tag) (OutboundConfig.wantedUpstream config.wanted)
    (addOutbound (liveUpstreams check reload) parsers before config.wanted) config.slots clear prior
    (fun _ _ _ ran => addOutbound_worked ran) config.outbounds
    (slotsOf (fun inbound : InboundConfig => .inbound inbound.tag) InboundConfig.upstream config.inbounds)
    (fun _ => none, outlets) (next.outbounds, final)
    (by
      have tags := distinct.2.map (fun _ _ same => Slot.outbound.inj same)
      rwa [List.map_map] at tags)
    (by
      intro outbound _ u member
      obtain ⟨inbound, _, made⟩ := List.mem_filterMap.mp member
      obtain ⟨_, _, same⟩ := Option.map_eq_some_iff.mp made
      cases congrArg Prod.fst same)
    (fun _ member => member) half outbounds
  refine ⟨final.built, ?_⟩
  rw [← fingerprints, ← freshWg]
  exact whole

end Build

section Run
variable {check : UpstreamConfig → Except String Unit} {n : Nat}
  {table : Option (Config × ServerRouterState Live)}

/-- Every reload so far was of a configuration that fingerprints are enough for. -/
theorem runs_sound (runs : Runs parsers check
      (fun before config => DistinctTags config ∧ Clear parsers before config) n table) :
    ∀ entry ∈ table, ∃ born, Sound parsers entry.1.slots entry.2.bound entry.2.fingerprints born := by
  induction runs with
  | start => exact fun _ missing => (nomatch missing)
  | refused _ _ _ _ _ _ ih => exact ih
  | @reloaded n table crates geo config next order _ allowed ran shuffled ih =>
      intro entry isIt
      cases isIt
      obtain ⟨distinct, clear⟩ := allowed
      obtain ⟨_, sound, _⟩ := built_sound distinct clear.distinct
        (fun _ member => prior_of_sound ih clear member) ran
      refine ⟨_, sound.serves, sound.only, sound.shared, ?_, ?_⟩
      · intro filed member
        exact sound.named filed (shuffled.mem_iff.mp member)
      · intro slot u member
        exact (sound.filed slot u member).imp_left shuffled.mem_iff.mpr

/-- Where fingerprints tell upstreams apart and no outbound stands in an inbound's
place, every reload binds each slot to an outlet of its own configuration, keeps
the outlets that are still wanted, and runs each tunnel once. -/
theorem reuse_sound {crates : Crates} {geo : GeoData} {config : Config}
    {next : ServerRouterState Live}
    (runs : Runs parsers check
      (fun before config => DistinctTags config ∧ Clear parsers before config) n table)
    (distinct : DistinctTags config) (clear : Clear parsers (table.map Prod.fst) config)
    (ran : buildServerRouterState (liveUpstreams check n) parsers crates geo config
      (table.map Prod.snd) = .ok next) :
    Bound config next ∧ (∀ before ∈ table, Keeps before.1 before.2 config next) ∧ OneTunnel next := by
  have earlier := runs_sound runs
  obtain ⟨built, building⟩ := built_sound distinct clear.distinct
    (fun _ member => prior_of_sound earlier clear member) ran
  refine ⟨⟨?_, building.sound.only⟩, ?_, ?_, building.once⟩
  · intro slot u member
    exact ⟨_, building.sound.serves slot u member, rfl⟩
  · rintro ⟨old, state⟩ isTable slot u outlet inside standing slot' member
    rw [isTable] at clear earlier building
    obtain ⟨born, sound⟩ := earlier _ rfl
    have filed := filed_again sound clear member inside
    have same : bornIn parsers n (some state) u = born u :=
      bornIn_of_wanted sound clear member inside filed wants_self
    rw [sound.serves slot u inside] at standing
    cases standing
    rw [← same]
    exact building.sound.serves slot' u member
  · have bornAs : ∀ outlet, (outlet ∈ next.freshWg ∨ ∃ slot, next.bound slot = some outlet) →
        ∃ u, outlet = ⟨u, bornIn parsers n (table.map Prod.snd) u⟩ := by
      rintro outlet (fresh | ⟨slot, standing⟩)
      · obtain ⟨_, _, u, _, isIt⟩ := building.fresh outlet fresh
        exact ⟨u, isIt⟩
      · have inside := building.sound.only slot outlet standing
        have served := building.sound.serves slot outlet.config inside
        exact ⟨outlet.config, Option.some.inj (standing.symm.trans served)⟩
    intro one other oneLive otherLive wireguard same
    obtain ⟨u, rfl⟩ := bornAs one oneLive
    obtain ⟨v, rfl⟩ := bornAs other otherLive
    exact bornIn_congr wireguard same

end Run

end Tables

def anyUpstream (_ : UpstreamConfig) : Except String Unit := .ok ()

def relayConfig : Config where
  inbounds := [.mirageServer "in1"
    (some (.shadowsocks "192.0.2.1" 8388 "secret" "aes-128-gcm" .block))]
  outbounds := [.direct "direct"]
  rules := []
  defaultOutbound := "direct"

def namesakeConfig : Config :=
  { relayConfig with
    outbounds := [.direct "direct",
      .shadowsocks "inbound:in1" "192.0.2.2" 8388 "aes-128-gcm" "secret" none] }

theorem relayConfig_clear {parsers : Parsers} {before : Option Config}
    (isBefore : before = none ∨ before = some relayConfig) : Clear parsers before relayConfig := by
  have slots : relayConfig.slots = [(.inbound "in1",
      .shadowsocks "192.0.2.1" 8388 "secret" "aes-128-gcm" .block)] := rfl
  have isOld : ∀ old ∈ before, old = relayConfig := by
    intro old member
    rcases isBefore with rfl | rfl <;> cases member
    rfl
  have same : ∀ u ∈ relayConfig.slots, ∀ v ∈ relayConfig.slots, u = v := by
    rw [slots]
    simp
  refine ⟨?_, ?_, ?_, ?_⟩
  · intro old member u here v there
    rw [isOld old member] at here
    cases same u here v there
    exact ⟨fun _ => rfl, fun _ _ => rfl⟩
  · intro u here v there
    cases same u here v there
    exact ⟨fun _ => rfl, fun _ _ => rfl⟩
  · intro old member tag u here
    rw [isOld old member, slots] at here
    cases List.mem_singleton.mp here
  · intro old member tag u hidden here
    rw [isOld old member, slots] at here
    cases List.mem_singleton.mp here

/-- The inbound keeps its outlet when the configuration is read again. -/
theorem reuse_sound_relay : ∃ state next,
    buildServerRouterState (liveUpstreams anyUpstream 1) plainParsers literalCrates noGeoData
      relayConfig (some state) = .ok next ∧
    Bound relayConfig next ∧ Keeps relayConfig state relayConfig next ∧ OneTunnel next := by
  obtain ⟨state, first, next, second⟩ : ∃ state,
      buildServerRouterState (liveUpstreams anyUpstream 0) plainParsers literalCrates noGeoData
        relayConfig none = .ok state ∧ ∃ next,
      buildServerRouterState (liveUpstreams anyUpstream 1) plainParsers literalCrates noGeoData
        relayConfig (some state) = .ok next := ⟨_, rfl, _, rfl⟩
  have distinct : DistinctTags relayConfig := ⟨List.nodup_singleton _, List.nodup_singleton _⟩
  have runs := @Runs.reloaded plainParsers anyUpstream
    (fun before config => DistinctTags config ∧ Clear plainParsers before config) 0 none
    literalCrates noGeoData relayConfig state state.fingerprints .start
    ⟨distinct, relayConfig_clear (.inl rfl)⟩ first (List.Perm.refl _)
  obtain ⟨bound, keeps, oneTunnel⟩ := reuse_sound runs distinct (relayConfig_clear (.inr rfl)) second
  exact ⟨state, next, second, bound, keeps _ rfl, oneTunnel⟩

/-- Read again, the outbound goes out through the inbound's upstream. -/
theorem namesake_reused : ¬ ∀ (n : Nat) (table : Option (Config × ServerRouterState Live))
    (config : Config) (next : ServerRouterState Live),
    Runs plainParsers anyUpstream (fun _ config => DistinctTags config) n table →
    DistinctTags config →
    buildServerRouterState (liveUpstreams anyUpstream n) plainParsers literalCrates noGeoData config
      (table.map Prod.snd) = .ok next →
    Bound config next ∧ (∀ before ∈ table, Keeps before.1 before.2 config next) ∧
      OneTunnel next := by
  intro law
  obtain ⟨state, first, next, second, mixedUp⟩ : ∃ state,
      buildServerRouterState (liveUpstreams anyUpstream 0) plainParsers literalCrates noGeoData
        namesakeConfig none = .ok state ∧ ∃ next,
      buildServerRouterState (liveUpstreams anyUpstream 1) plainParsers literalCrates noGeoData
        namesakeConfig (some state) = .ok next ∧
      next.bound (.outbound "inbound:in1") =
        some ⟨.shadowsocks "192.0.2.1" 8388 "secret" "aes-128-gcm" .block, 0⟩ :=
    ⟨_, rfl, _, rfl, rfl⟩
  have distinct : DistinctTags namesakeConfig := ⟨by decide, by decide⟩
  have runs := @Runs.reloaded plainParsers anyUpstream (fun _ config => DistinctTags config) 0 none
    literalCrates noGeoData namesakeConfig state state.fingerprints .start distinct first
    (List.Perm.refl _)
  obtain ⟨⟨serves, _⟩, _⟩ := law 1 _ namesakeConfig next runs distinct second
  obtain ⟨outlet, standing, config⟩ := serves (.outbound "inbound:in1")
    (.shadowsocks "192.0.2.2" 8388 "secret" "aes-128-gcm" .block) (by simp [Config.slots, slotsOf,
      namesakeConfig, relayConfig, OutboundConfig.wantedUpstream, OutboundConfig.upstream,
      OutboundConfig.tag, Config.wanted, Config.mixed, Config.serverTags, InboundConfig.upstream,
      InboundConfig.tag])
  rw [mixedUp] at standing
  cases standing
  have servers := (UpstreamConfig.shadowsocks.inj config).1
  exact absurd servers (by decide)

end Mirage.Egress
