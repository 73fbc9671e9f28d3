import Mirage.Lib.NumberText
import Mirage.Outbound.CycleCheck

/-!
What a list of outbounds that `semantic_issues` passes comes to in
`OutboundManager::new`. Next to the references the check looks at what a WireGuard
outbound is made of. What it says of ports, passwords, pools and strategies is left
out: a list that it passes altogether passes what is here.
-/

namespace Mirage.Outbound
open Dependency NumberText

section Check
variable (tools : Tools) (reason : String → String)

/-- `decode_wg_key`, with what the decoder of base64 says of a text it refuses. -/
def keyIssues (tag what b64 : String) : List String :=
  match tools.base64 b64 with
  | none =>
      let e := reason b64
      [s!"outbound `{tag}`: WireGuard {what} must be a base64-encoded key: {e}"]
  | some raw =>
      let length := raw.length
      if length ≠ 32 then
        ["outbound `" ++ tag ++ "`: " ++ s!"WireGuard {what} invalid length: {length} bytes " ++
          "after base64 decode, expected 32 bytes (standard wg genkey/pubkey output)"]
      else []

def endpointPort (endpoint : String) : Option Nat :=
  parseUnsigned 65536 (String.ofList (((endpoint.toList.splitOn ':').getLast?).getD []))

def wireguardIssues (config : WireguardConfig) : List String :=
  let tag := config.tag
  (match config.dns with
    | some d =>
        if tools.parseIp d = none then
          [s!"outbound `{tag}`: dns `{d}` 不是合法 IP (隧道内 DNS 服务器地址, 如 10.0.0.1)"]
        else []
    | none => []) ++
  keyIssues tools reason tag "private_key" config.privateKey ++
  keyIssues tools reason tag "peer_public_key" config.peerPublicKey ++
  (match config.presharedKey with
    | some psk => keyIssues tools reason tag "preshared_key" psk
    | none => []) ++
  (if tools.parseIp config.address = none then
    let address := config.address
    [s!"outbound `{tag}`: address `{address}` 不是合法 IP " ++
      "(应是隧道内本端地址, 如 10.0.0.2, 不带掩码)"]
  else []) ++
  (if endpointPort config.endpoint = none then
    let endpoint := config.endpoint
    [s!"outbound `{tag}`: endpoint `{endpoint}` 缺少端口 (应形如 host:51820)"]
  else []) ++
  if config.mtu = 0 ∨ 65503 < config.mtu then
    let mtu := config.mtu
    [s!"outbound `{tag}`: mtu {mtu} 非法 (须 1..=65503, 常用 1420)"]
  else []

def tunnelIssues : OutboundConfig → List String
  | .wireguard config => wireguardIssues tools reason config
  | _ => []

def outboundIssues (all : List OutboundConfig) : List String :=
  all.flatMap (tunnelIssues tools reason) ++ referenceIssues tools all

end Check

def GroupKind.sameKind : GroupKind → OutboundNode → Prop
  | urltest _ _, .urltest _ _ _ _ | fallback, .fallback _ _ | selector, .selector _ _ _
  | loadBalance, .loadBalance _ _ => True
  | _, _ => False

def OutboundConfig.sameKind : OutboundConfig → OutboundNode → Prop
  | mirage _, .mirage _ _ | shadowsocks _, .shadowsocks _ _ _ | wireguard _, .wireguard _ _
  | direct _, .direct _ | block _, .block _ => True
  | group config, node => config.kind.sameKind node
  | _, _ => False

/-- In every order of the definitions the manager is built, and each definition
has a node of its own kind that points to what the table holds in the end. -/
def BoundInAnyOrder (tools : Tools) (all : List OutboundConfig) : Prop :=
  ∀ order : List OutboundConfig, order.Perm all → ∃ built,
    OutboundManager.new tools order = .ok built ∧ Bound tools order built ∧
      ∀ oc ∈ order, ∀ place node, built.table oc.tag = some place →
        built.nodes[place]? = some node → oc.sameKind node

section Kinds
variable {tools : Tools} {reason : String → String} {all : List OutboundConfig} {built : Built}

theorem key_quiet {tag what b64 : String} (quiet : keyIssues tools reason tag what b64 = []) :
    ∃ raw, decodeWgKey tools b64 = some raw := by
  unfold keyIssues at quiet
  cases decoded : tools.base64 b64 with
  | none =>
      rw [decoded] at quiet
      cases quiet
  | some raw =>
      rw [decoded] at quiet
      dsimp only at quiet
      split at quiet
      · cases quiet
      · rename_i whole
        exact ⟨raw, by rw [decodeWgKey, decoded, Option.bind_some, if_neg whole]⟩

theorem parse_quiet {text : String} {issues : List String} (some_ : issues ≠ [])
    (quiet : (if tools.parseIp text = none then issues else []) = []) :
    ∃ ip, tools.parseIp text = some ip := by
  split at quiet
  · exact absurd quiet some_
  · exact Option.ne_none_iff_exists'.mp ‹_›

/-- What is checked of a tunnel is what it is made of. -/
theorem wireguard_quiet {config : WireguardConfig}
    (quiet : wireguardIssues tools reason config = []) :
    ∃ cfg, wgConfig tools config = some cfg := by
  simp only [wireguardIssues, List.append_eq_nil_iff] at quiet
  obtain ⟨⟨⟨⟨⟨⟨dns, key⟩, peer⟩, shared⟩, address⟩, -⟩, -⟩ := quiet
  obtain ⟨privateKey, key⟩ := key_quiet key
  obtain ⟨peerPublicKey, peer⟩ := key_quiet peer
  obtain ⟨ip, address⟩ := parse_quiet (List.cons_ne_nil _ _) address
  have shared : ∃ presharedKey, config.presharedKey.mapM (decodeWgKey tools) = some presharedKey := by
    cases given : config.presharedKey with
    | none => exact ⟨none, rfl⟩
    | some psk =>
        rw [given] at shared
        obtain ⟨raw, decoded⟩ := key_quiet shared
        exact ⟨some raw, by simp [decoded]⟩
  have dns : ∃ server, config.dns.mapM tools.parseIp = some server := by
    cases given : config.dns with
    | none => exact ⟨none, rfl⟩
    | some d =>
        rw [given] at dns
        obtain ⟨server, parsed⟩ := parse_quiet (List.cons_ne_nil _ _) dns
        exact ⟨some server, by simp [parsed]⟩
  obtain ⟨presharedKey, shared⟩ := shared
  obtain ⟨server, dns⟩ := dns
  simp only [wgConfig, key, peer, shared, address, dns, Option.bind_eq_bind, Option.bind_some]
  exact ⟨_, rfl⟩

theorem sameKind_of_nodeOf {choices : String → Option String} {oc : OutboundConfig}
    {ids : List Nat} {node : OutboundNode} (quiet : tunnelIssues tools reason oc = [])
    (made : nodeOf tools choices built oc ids = some node) : oc.sameKind node := by
  cases oc with
  | mirage config | direct tag | block tag =>
      cases made
      trivial
  | wireguard config =>
      obtain ⟨cfg, whole⟩ := wireguard_quiet quiet
      rw [nodeOf, buildWireguard, whole] at made
      cases made
      trivial
  | shadowsocks config =>
      rw [nodeOf, buildSs] at made
      split at made
      · cases made
      · cases made
        trivial
  | group config =>
      cases made
      simp only [OutboundConfig.sameKind, Built.groupNode]
      cases config.kind with
      | urltest tolerance testType | fallback | selector | loadBalance => trivial

end Kinds

section Agreement
variable {tools : Tools} {reason : String → String} {all : List OutboundConfig}

theorem boundInAnyOrder_of_settled (quiet : outboundIssues tools reason all = [])
    (settled : Settled tools all) : BoundInAnyOrder tools all := by
  obtain ⟨tunnels, references⟩ := List.append_eq_nil_iff.mp quiet
  have distinct := distinct_of_reference_quiet references
  intro order same
  obtain ⟨built, ended⟩ := new_of_quiet references same
  have bound : Bound tools order built := fun oc member =>
    (contract_of_settled distinct fun _ => settled).bound same ended oc (same.subset member)
  refine ⟨built, ended, bound, ?_⟩
  intro oc member place node tabled here
  obtain ⟨its, ids, found, at_its, at_place, made, -⟩ := bound oc member
  cases tabled.symm.trans at_its
  cases here.symm.trans at_place
  exact sameKind_of_nodeOf (List.flatMap_eq_nil_iff.mp tunnels oc (same.subset member)) made

theorem settled_of_boundInAnyOrder (quiet : outboundIssues tools reason all = [])
    (bound : BoundInAnyOrder tools all) : Settled tools all := by
  have references := (List.append_eq_nil_iff.mp quiet).2
  refine settled_of_bound (distinct_of_reference_quiet references) ?_
    (constructible_of_quiet references)
  intro order built same ended
  obtain ⟨other, ended', bound, -⟩ := bound order same
  cases ended.symm.trans ended'
  exact bound

/-- The cycles that the check reports are the cycles of the references. What it
passes is built as the list says, in every order, exactly if no definition refers
to a direct or block that the list defines as a group or a chained outbound. -/
theorem check_agrees_iff (tools : Tools) (reason : String → String) (all : List OutboundConfig) :
    CyclesReported tools all ∧
      (outboundIssues tools reason all = [] →
        (BoundInAnyOrder tools all ↔ Settled tools all)) :=
  ⟨cyclesReported tools all, fun quiet =>
    ⟨settled_of_boundInAnyOrder quiet, boundInAnyOrder_of_settled quiet⟩⟩

/-- A tunnel, and a fallback that is written before what it refers to. -/
def tunnelled : List OutboundConfig :=
  [.group ⟨.fallback, "auto", ["pick", "wg"], none⟩, .group ⟨.selector, "pick", ["node"], none⟩,
    .block "node", .wireguard ⟨"wg", "key", "peer", none, "host:51820", "10.0.0.2", 1420, none, none⟩]

def keyTools : Tools where
  regex := fun _ => .error ""
  base64 := fun _ => some (List.replicate 32 0)
  parseIp := fun _ => some (.v4 0)
  persisted := fun _ => none

theorem check_agrees_tunnelled : BoundInAnyOrder keyTools tunnelled := by
  refine ((check_agrees_iff keyTools (fun _ => "") tunnelled).2 (by decide)).mpr ?_
  intro oc _ tag _ reserved other inside keyed
  subst keyed
  have free : ∀ oc ∈ tunnelled, ¬ (oc.tag = "direct" ∨ oc.tag = "block") := by decide
  exact absurd reserved (free other inside)

/-- The check has nothing to say, but the fallback points to the implicit direct. -/
theorem directGroup_passes : outboundIssues bareTools (fun _ => "") directGroup = [] ∧
    ¬ BoundInAnyOrder bareTools directGroup := by
  refine ⟨by decide, fun bound => ?_⟩
  obtain ⟨built, ended, each, -⟩ := bound directGroup (.refl _)
  cases directGroup_new.symm.trans ended
  have member : .group ⟨.fallback, "auto", ["direct"], none⟩ ∈ directGroup :=
    List.mem_cons_of_mem _ List.mem_cons_self
  obtain ⟨place, ids, node, tabled, here, made, targets⟩ := each _ member
  cases tabled
  cases here
  cases made
  obtain ⟨child, inside, target⟩ := forall₂_mem_left targets List.mem_cons_self
  cases target
  exact absurd inside (by decide)

end Agreement

end Mirage.Outbound
